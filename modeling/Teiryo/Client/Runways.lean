import Teiryo.Client.Projection

/-!
# Which runways there are

The seconds a runway lasts grow without bound as the pace goes to zero. `runwayAt` answers none
past `2 ^ 63`, but chrono's durations end a thousandth of the way there and its instants end
sooner still. In between it panics, and `project` with it.
-/

namespace Teiryo

variable {K : Type} [Field K] [LinearOrder K] [FloorRing K] [SquareRoot K]

/-- The exact time to the cap at a pace, in seconds. -/
def timeToCap (window : EffectiveWindow K) (used pace : K) : K :=
  (1 - used) * window.span.numSeconds / pace

variable [IsStrictOrderedRing K] {window : EffectiveWindow K} {used pace : K} {now : DateTime}

theorem timeToCap_nonneg (hused : used < 1) (hspan : 0 < window.span.numSeconds)
    (hpace : 0 < pace) : 0 ≤ timeToCap window used pace := by
  have hsecs : (0 : K) ≤ window.span.numSeconds := by exact_mod_cast hspan.le
  exact div_nonneg (mul_nonneg (sub_nonneg.mpr hused.le) hsecs) hpace.le

private theorem lt_floor_add_half {x : K} {n : Int} : n < ⌊x + 1 / 2⌋ ↔ n + 1 / 2 ≤ x := by
  rw [Int.lt_iff_add_one_le, Int.le_floor]
  push_cast
  constructor <;> intro h <;> linarith

theorem floor_add_half_lt {x : K} {n : Int} : ⌊x + 1 / 2⌋ < n ↔ x < n - 1 / 2 := by
  rw [Int.floor_lt]
  constructor <;> intro h <;> linarith

omit [IsStrictOrderedRing K] in
/-- At the cap there is nothing left to last. -/
theorem runwayAt_capped (hsome : window.used = some used) (hused : 1 ≤ used) :
    runwayAt window pace = .ok (some 0) := by
  unfold runwayAt
  simp only [hsome, F64.one_eq, if_pos hused]

omit [IsStrictOrderedRing K] in
/-- Without consumption the headroom never runs out. -/
theorem runwayAt_idle (hsome : window.used = some used) (hused : used < 1) (hpace : pace ≤ 0) :
    runwayAt window pace = .ok none := by
  unfold runwayAt
  simp only [hsome, F64.zero_eq, F64.one_eq, if_neg hused.not_ge, if_pos hpace]

private theorem runwayAt_eq (hsome : window.used = some used) (hused : used < 1)
    (hspan : 0 < window.span.numSeconds) (hpace : 0 < pace) :
    runwayAt window pace =
      if i64Guard < ⌊timeToCap window used pace + 1 / 2⌋ then .ok none
      else (Duration.ofSeconds (min i64Max ⌊timeToCap window used pace + 1 / 2⌋)).map some := by
  have htime := timeToCap_nonneg hused hspan hpace
  have hround : F64Math.round ((1 - used) / (pace / (window.span.numSeconds : K))) =
      (⌊timeToCap window used pace + 1 / 2⌋ : K) := by
    rw [div_div_eq_mul_div]
    exact F64Math.round_of_nonneg htime
  have hnonneg : 0 ≤ ⌊timeToCap window used pace + 1 / 2⌋ :=
    Int.floor_nonneg.mpr (by linarith)
  generalize ⌊timeToCap window used pace + 1 / 2⌋ = secs at hround hnonneg ⊢
  have hneg : ¬ (secs : K) < 0 := by exact_mod_cast not_lt.mpr hnonneg
  unfold runwayAt
  simp only [hsome, F64.zero_eq, F64.one_eq, F64Math.ofInt_eq, F64Math.isFinite_eq, hround,
    F64Math.i64MaxAsF64_eq, if_neg hused.not_ge, if_neg hpace.not_ge, if_neg hspan.not_ge,
    Bool.not_true, Bool.false_eq_true, false_or, hneg, Int.cast_lt,
    F64Math.toI64_intCast hnonneg]

/-- The three ways it can end, by the exact time to the cap. -/
theorem runwayAt_cases (hsome : window.used = some used) (hused : used < 1)
    (hspan : 0 < window.span.numSeconds) (hpace : 0 < pace) :
    (timeToCap window used pace < Duration.maxSeconds + 1 / 2 ∧
      runwayAt window pace =
        .ok (some (Duration.seconds ⌊timeToCap window used pace + 1 / 2⌋))) ∨
    (Duration.maxSeconds + 1 / 2 ≤ timeToCap window used pace ∧
      timeToCap window used pace < i64Guard + 1 / 2 ∧
      runwayAt window pace = .error .durationOutOfBounds) ∨
    (i64Guard + 1 / 2 ≤ timeToCap window used pace ∧ runwayAt window pace = .ok none) := by
  have hnonneg : 0 ≤ ⌊timeToCap window used pace + 1 / 2⌋ := by
    have htime := timeToCap_nonneg hused hspan hpace
    exact Int.floor_nonneg.mpr (by linarith)
  rw [runwayAt_eq hsome hused hspan hpace, Duration.ofSeconds]
  simp only [← not_le (b := timeToCap window used pace), ← lt_floor_add_half]
  have hle : Duration.maxSeconds < i64Max := by decide
  have hguard : i64Guard = i64Max + 1 := by decide
  generalize ⌊timeToCap window used pace + 1 / 2⌋ = secs at hnonneg ⊢
  have hlow : -Duration.maxSeconds ≤ secs := by
    have : 0 ≤ Duration.maxSeconds := by decide
    omega
  by_cases hlarge : i64Guard < secs
  · exact .inr (.inr ⟨hlarge, if_pos hlarge⟩)
  · rw [if_neg hlarge]
    by_cases hmax : Duration.maxSeconds < secs
    · refine .inr (.inl ⟨hmax, hlarge, ?_⟩)
      rw [if_neg fun h => by omega]
      rfl
    · refine .inl ⟨hmax, ?_⟩
      rw [min_eq_right (by omega : secs ≤ i64Max), if_pos ⟨hlow, not_lt.mp hmax⟩]
      rfl

/-- Whole seconds from an instant to the last one. -/
def secondsLeft (now : DateTime) : Int := Duration.numSeconds (DateTime.maxUtc - now)

omit [Field K] [LinearOrder K] [FloorRing K] [SquareRoot K] [IsStrictOrderedRing K] in
private theorem plus_seconds_iff {n : Int} (hnow : now.InRange) (hnonneg : 0 ≤ n) :
    (∃ t, now.plus (Duration.seconds n) = .ok t) ↔ n ≤ secondsLeft now := by
  have hleft : 0 ≤ DateTime.maxUtc - now := sub_nonneg.mpr hnow.2
  have hlow : DateTime.minUtc ≤ now + Duration.seconds n := by
    have hseconds : (0 : Int) ≤ Duration.seconds n := by
      show 0 ≤ n * 1000000000
      omega
    exact le_add_of_le_of_nonneg hnow.1 hseconds
  have hfits : n ≤ secondsLeft now ↔ now + Duration.seconds n ≤ DateTime.maxUtc := by
    rw [← le_sub_iff_add_le', secondsLeft, Duration.numSeconds, Int.tdiv_eq_ediv_of_nonneg hleft]
    exact Int.le_ediv_iff_mul_le (by decide)
  rw [hfits]
  unfold DateTime.plus
  by_cases hhigh : now + Duration.seconds n ≤ DateTime.maxUtc
  · rw [if_pos ⟨hlow, hhigh⟩]
    exact ⟨fun _ => hhigh, fun _ => ⟨_, rfl⟩⟩
  · rw [if_neg fun h => hhigh h.2]
    exact ⟨fun ⟨_, h⟩ => (nomatch h), fun h => absurd h hhigh⟩

omit [Field K] [LinearOrder K] [FloorRing K] [SquareRoot K] [IsStrictOrderedRing K] in
private theorem secondsLeft_le (hnow : now.InRange) : secondsLeft now ≤ Duration.maxSeconds := by
  have hlow : DateTime.minUtc ≤ now := hnow.1
  have hleft : DateTime.maxUtc - now ≤ DateTime.maxUtc - DateTime.minUtc := sub_le_sub_left hlow _
  exact (Int.tdiv_le_tdiv (by decide) hleft).trans (by decide)

/-- The share of a window still to come, in whole seconds. -/
def shareLeft (window : EffectiveWindow K) (now : DateTime) : K :=
  (max (Duration.numSeconds (window.resetAt - now)) 0 : Int) / window.span.numSeconds

/-- A projection is made of three runways and three values at the reset. -/
theorem project_eq_ok {rate : RateEstimate K} {result : Option (Projection K)}
    (hsome : window.used = some used) (hspan : 0 < window.span.numSeconds) :
    project window rate now = .ok result ↔
      ∃ low mid high, runwayAt window rate.high = .ok low ∧ runwayAt window rate.pace = .ok mid ∧
        runwayAt window rate.low = .ok high ∧
        result = some {
          atReset := {
            low := used + rate.low * shareLeft window now
            mid := used + rate.pace * shareLeft window now
            high := used + rate.high * shareLeft window now }
          runway := { low, mid, high } } := by
  have hpositive : ¬ (window.span.numSeconds : K) ≤ 0.0 := by
    rw [F64.zero_eq, not_le]
    exact_mod_cast hspan
  unfold project
  simp only [hsome, F64Math.ofInt_eq, if_neg hpositive, bind_eq_ok]
  constructor
  · rintro ⟨low, hlow, mid, hmid, high, hhigh, h⟩
    cases h
    exact ⟨low, mid, high, hlow, hmid, hhigh, rfl⟩
  · rintro ⟨low, mid, high, hlow, hmid, hhigh, rfl⟩
    exact ⟨low, hlow, mid, hmid, high, hhigh, rfl⟩

/-- The runway at a pace can be built, and so can the instants the readouts build from it. -/
structure Representable (window : EffectiveWindow K) (pace : K) (now : DateTime) : Prop where
  runway : ∃ r, runwayAt window pace = .ok r
  /-- At the pace held since the window opened, `etaToCap` adds it to now. -/
  eta : Teiryo.pace window now = some pace → ∃ r, etaToCap window now = .ok r
  /-- At the fast end of a rate, `Projection.binding` does. -/
  binding : ∀ (rate : RateEstimate K) (projection : Projection K), rate.high = pace →
    project window rate now = .ok (some projection) → ∃ b, projection.binding window now = .ok b

private theorem representable_iff_plus (hsome : window.used = some used)
    (hspan : 0 < window.span.numSeconds) :
    Representable window pace now ↔
      ∃ r, runwayAt window pace = .ok r ∧ ∀ d ∈ r, ∃ t, now.plus d = .ok t := by
  constructor
  · intro h
    obtain ⟨r, hr⟩ := h.runway
    refine ⟨r, hr, ?_⟩
    rintro d rfl
    obtain ⟨b, hb⟩ := h.binding ⟨pace, pace, pace, now, now, 0, 0⟩ _ rfl
      ((project_eq_ok hsome hspan).mpr ⟨_, _, _, hr, hr, hr, rfl⟩)
    obtain ⟨t, ht, -⟩ := bind_eq_ok.mp hb
    exact ⟨t, ht⟩
  · rintro ⟨r, hr, hplus⟩
    refine ⟨⟨r, hr⟩, fun hpace => ?_, fun rate projection hrate hproject => ?_⟩
    · unfold etaToCap runway
      rw [hpace]
      simp only [hr]
      cases r with
      | none => exact ⟨none, rfl⟩
      | some d =>
        obtain ⟨t, ht⟩ := hplus d rfl
        exact ⟨_, bind_eq_ok.mpr ⟨some d, rfl, bind_eq_ok.mpr ⟨t, ht, rfl⟩⟩⟩
    · obtain ⟨low, mid, high, hlow, -, -, heq⟩ := (project_eq_ok hsome hspan).mp hproject
      rw [hrate, hr] at hlow
      cases hlow
      cases heq
      unfold Projection.binding
      cases r with
      | none => exact ⟨false, rfl⟩
      | some d =>
        obtain ⟨t, ht⟩ := hplus d rfl
        exact ⟨_, bind_eq_ok.mpr ⟨t, ht, rfl⟩⟩

/-- A session half used up. -/
def halfSession : EffectiveWindow ℚ where
  window := ⟨"5h"⟩
  start := 0
  resetAt := Duration.seconds 18000
  startUncertainty := 0
  used := some (1 / 2)

end Teiryo
