import Teiryo.Client.Runways

/-!
# The readouts of a row

A row shows the pace of a window, the pace it can afford and a countdown to its cap, each worked
out by a formula of its own. Before the reset of a window in whole seconds they agree.
-/

namespace Teiryo

private theorem plus_eq_ok {t sum : DateTime} {d : Duration} (h : t.plus d = .ok sum) :
    sum = t + d := by
  unfold DateTime.plus at h
  split at h
  · exact (Except.ok.inj h).symm
  · cases h

section

variable {F : Type} [F64Math F]

private theorem etaToCap_eq_some {window : EffectiveWindow F} {now eta : DateTime} :
    etaToCap window now = .ok (some eta) ↔
      ∃ d, runway window now = .ok (some d) ∧ now.plus d = .ok eta ∧ eta < window.resetAt := by
  unfold etaToCap
  rw [bind_eq_ok]
  constructor
  · rintro ⟨r, hr, h⟩
    cases r with
    | none => cases h
    | some d =>
      obtain ⟨t, ht, h⟩ := bind_eq_ok.mp h
      by_cases hlt : t < window.resetAt
      · rw [if_pos hlt] at h
        cases h
        exact ⟨d, hr, ht, hlt⟩
      · rw [if_neg hlt] at h
        cases h
  · rintro ⟨d, hr, ht, hlt⟩
    refine ⟨some d, hr, bind_eq_ok.mpr ⟨eta, ht, ?_⟩⟩
    rw [if_pos hlt]
    rfl

private theorem not_etaToCap {window : EffectiveWindow F} {now : DateTime}
    (h : ∀ d, runway window now ≠ .ok (some d)) :
    ¬ ∃ eta, etaToCap window now = .ok (some eta) := by
  rintro ⟨eta, heta⟩
  obtain ⟨d, hd, -⟩ := etaToCap_eq_some.mp heta
  exact h d hd

end

/-- A window that starts and resets on whole seconds, seen at one from its start to its reset. -/
structure WholeSeconds {F : Type} (window : EffectiveWindow F) (now : DateTime) (s n r : Int) :
    Prop where
  start : window.start = Duration.seconds s
  now : now = Duration.seconds n
  reset : window.resetAt = Duration.seconds r
  started : s ≤ n
  running : n < r
  startInRange : window.start.InRange
  resetInRange : window.resetAt.InRange

namespace WholeSeconds

section

variable {F : Type} {window : EffectiveWindow F} {now : DateTime} {s n r : Int}

theorem span (h : WholeSeconds window now s n r) : window.span.numSeconds = r - s := by
  simp [EffectiveWindow.span, h.start, h.reset]

theorem elapsed (h : WholeSeconds window now s n r) :
    Duration.numSeconds (now - window.start) = n - s := by
  simp [h.now, h.start]

private theorem span_pos (h : WholeSeconds window now s n r) : 0 < window.span.numSeconds := by
  rw [h.span]
  exact Int.sub_pos.mpr (h.started.trans_lt h.running)

private theorem start_ge (h : WholeSeconds window now s n r) : -8334601228800 ≤ s := by
  have hlow : DateTime.minUtc ≤ window.start := h.startInRange.1
  rw [h.start] at hlow
  change (-8334601228800 : Int) * 1000000000 ≤ s * 1000000000 at hlow
  omega

private theorem reset_le (h : WholeSeconds window now s n r) : r ≤ 8210266876799 := by
  have hhigh : window.resetAt ≤ DateTime.maxUtc := h.resetInRange.2
  rw [h.reset] at hhigh
  change r * 1000000000 ≤ (8210266876799 : Int) * 1000000000 + 999999999 at hhigh
  omega

private theorem left_le_maxSeconds (h : WholeSeconds window now s n r) :
    r - n ≤ Duration.maxSeconds := by
  have hs := h.start_ge
  have hr := h.reset_le
  have hstarted := h.started
  have hmax : Duration.maxSeconds = 9223372036854775 := rfl
  omega

/-- What lies between the start and the reset is an instant. -/
theorem inRange {m : Int} (h : WholeSeconds window now s n r) (hlow : s ≤ m) (hhigh : m ≤ r) :
    DateTime.InRange (Duration.seconds m) := by
  have hs := h.start_ge
  have hr := h.reset_le
  constructor
  · show (-8334601228800 : Int) * 1000000000 ≤ m * 1000000000
    omega
  · show m * 1000000000 ≤ (8210266876799 : Int) * 1000000000 + 999999999
    omega

end
end WholeSeconds

variable {K : Type} [Field K] [LinearOrder K] [FloorRing K] [SquareRoot K] [IsStrictOrderedRing K]
  {window : EffectiveWindow K} {now : DateTime} {used p : K}

namespace WholeSeconds

variable {s n r : Int}

private theorem elapsedFraction_eq (h : WholeSeconds window now s n r) :
    elapsedFraction window now = some ((n - s : K) / (r - s)) := by
  have hspan : (0 : K) < r - s := by
    exact_mod_cast Int.sub_pos.mpr (h.started.trans_lt h.running)
  have helapsed : (0 : K) ≤ n - s := by exact_mod_cast Int.sub_nonneg.mpr h.started
  have hle : (n - s : K) ≤ r - s := by exact_mod_cast Int.sub_le_sub_right h.running.le s
  unfold elapsedFraction
  simp only [if_neg h.span_pos.not_ge, h.elapsed, F64Math.ofInt_eq, F64.zero_eq, F64.one_eq]
  rw [h.span, Int.cast_sub, Int.cast_sub]
  rw [F64.clamp_of_mem (div_nonneg helapsed hspan.le) (div_le_one_of_le₀ hle hspan.le)]

private theorem pace_eq (h : WholeSeconds window now s n r) (hsome : window.used = some used)
    (hpace : pace window now = some p) : s < n ∧ p = used * (r - s) / (n - s) := by
  have hspan : (0 : K) < r - s := by
    exact_mod_cast Int.sub_pos.mpr (h.started.trans_lt h.running)
  unfold pace at hpace
  rw [h.elapsedFraction_eq, hsome] at hpace
  simp only [Option.bind_eq_bind, Option.bind_some] at hpace
  split at hpace
  · cases hpace
  · rename_i hfloor
    have htwentieth : (minElapsedFraction : K) = 1 / 20 := by
      unfold minElapsedFraction
      norm_num
    have hfraction : (0 : K) < (n - s) / (r - s) := by
      rw [htwentieth, not_lt] at hfloor
      linarith
    constructor
    · have helapsed := (div_pos_iff_of_pos_right hspan).mp hfraction
      exact_mod_cast sub_pos.mp helapsed
    · rw [← Option.some.inj hpace, div_div_eq_mul_div]

private theorem affordablePace_eq (h : WholeSeconds window now s n r)
    (hsome : window.used = some used) :
    affordablePace window now = some ((1 - used) * (r - s) / (r - n)) := by
  have hspan : (0 : K) < r - s := by
    exact_mod_cast Int.sub_pos.mpr (h.started.trans_lt h.running)
  have hremaining : (1.0 : K) - (n - s) / (r - s) = (r - n) / (r - s) := by
    rw [F64.one_eq, eq_div_iff hspan.ne', sub_mul, div_mul_cancel₀ _ hspan.ne']
    ring
  -- chrono's instants are not far enough apart for one second of them to be lost to the guard
  have hguard : ¬ ((r - n : K) / (r - s) ≤ epsilon) := by
    have hsecond : (1 : K) ≤ r - n := by exact_mod_cast Int.sub_pos.mpr h.running
    have hlong : (r - s : K) ≤ 16544868105599 := by
      have hs := h.start_ge
      have hr := h.reset_le
      exact_mod_cast (by omega : r - s ≤ 16544868105599)
    rw [not_le, lt_div_iff₀ hspan]
    have heps : (epsilon : K) * 16544868105599 < 1 := by
      unfold epsilon
      norm_num
    have hpos : (0 : K) < epsilon := by
      unfold epsilon
      norm_num
    have hscaled := mul_le_mul_of_nonneg_left hlong hpos.le
    linarith
  unfold affordablePace
  rw [h.elapsedFraction_eq, hsome]
  simp only [Option.bind_eq_bind, Option.bind_some, hremaining, if_neg hguard]
  rw [F64.one_eq, div_div_eq_mul_div]

private theorem pace_afford (h : WholeSeconds window now s n r) (hstarted : s < n) :
    (1 < used * (r - s) / (n - s) ↔ (1 - used) * (r - s) / (r - n) < (1 : K)) ∧
      (used * (r - s) / (n - s) = 1 ↔ (1 - used) * (r - s) / (r - n) = (1 : K)) := by
  have helapsed : (0 : K) < n - s := by exact_mod_cast Int.sub_pos.mpr hstarted
  have hleft : (0 : K) < r - n := by exact_mod_cast Int.sub_pos.mpr h.running
  rw [lt_div_iff₀ helapsed, div_lt_iff₀ hleft, div_eq_iff helapsed.ne', div_eq_iff hleft.ne']
  constructor <;> constructor <;> intro heq <;> linarith

private theorem left_le_timeToCap (h : WholeSeconds window now s n r) (hpositive : 0 < p)
    (hslow : p ≤ 1) (hstarted : s < n) (hp : p = used * (r - s) / (n - s)) :
    (r - n : K) ≤ timeToCap window used p := by
  have helapsed : (0 : K) < n - s := by exact_mod_cast Int.sub_pos.mpr hstarted
  have hleft : (0 : K) < r - n := by exact_mod_cast Int.sub_pos.mpr h.running
  have hconsumed : used * (r - s) ≤ n - s := by
    rw [hp, div_le_one helapsed] at hslow
    exact hslow
  have hspent : (r - n : K) * p ≤ r - n := mul_le_of_le_one_right hleft.le hslow
  rw [timeToCap, h.span, Int.cast_sub, le_div_iff₀ hpositive]
  linarith

omit [IsStrictOrderedRing K] in
private theorem etaToCap_of_runway (h : WholeSeconds window now s n r) {m : Int} (hm : 0 ≤ m)
    (hrunway : runway window now = .ok (some (Duration.seconds m))) :
    (∃ eta, etaToCap window now = .ok (some eta)) ↔ m < r - n := by
  have hstarted := h.started
  have hsum : now + Duration.seconds m = Duration.seconds (n + m) := by
    rw [h.now]
    exact (Int.add_mul n m 1000000000).symm
  have hbefore : now + Duration.seconds m < window.resetAt ↔ m < r - n := by
    rw [hsum, h.reset]
    show (n + m) * 1000000000 < r * 1000000000 ↔ m < r - n
    omega
  simp only [etaToCap_eq_some, hrunway, Except.ok.injEq, Option.some.injEq]
  constructor
  · rintro ⟨eta, d, rfl, hplus, hlt⟩
    rw [plus_eq_ok hplus] at hlt
    exact hbefore.mp hlt
  · intro hlt
    have hrange : DateTime.InRange (now + Duration.seconds m) := by
      rw [hsum]
      exact h.inRange (by omega) (by omega)
    exact ⟨_, _, rfl, if_pos hrange, hbefore.mpr hlt⟩

/-- The countdown shows exactly where the cap comes half a second before the reset at least. -/
theorem etaToCap_isSome_iff (h : WholeSeconds window now s n r) (hsome : window.used = some used)
    (hpace : pace window now = some p) :
    (∃ eta, etaToCap window now = .ok (some eta)) ↔
      1 ≤ used ∨ 0 < used ∧ timeToCap window used p < (r - n : K) - 1 / 2 := by
  have hat : runway window now = runwayAt window p := by
    rw [runway, hpace]
  obtain ⟨hstarted, hp⟩ := h.pace_eq hsome hpace
  have helapsed : (0 : K) < n - s := by exact_mod_cast Int.sub_pos.mpr hstarted
  have hspan : (0 : K) < r - s := by
    exact_mod_cast Int.sub_pos.mpr (h.started.trans_lt h.running)
  have hsame : 0 < p ↔ 0 < used := by
    rw [hp, div_pos_iff_of_pos_right helapsed, mul_pos_iff_of_pos_right hspan]
  rcases le_or_gt 1 used with hcapped | hunder
  · rw [runwayAt_capped hsome hcapped] at hat
    have hnow : (some 0 : Option Duration) = some (Duration.seconds 0) := rfl
    rw [h.etaToCap_of_runway le_rfl (hat.trans (congrArg Except.ok hnow))]
    exact ⟨fun _ => .inl hcapped, fun _ => Int.sub_pos.mpr h.running⟩
  rcases le_or_gt used 0 with hnone | hused
  · have hidle : p ≤ 0 := not_lt.mp fun hpositive => (hsame.mp hpositive).not_ge hnone
    rw [runwayAt_idle hsome hunder hidle] at hat
    refine iff_of_false (not_etaToCap fun d hd => nomatch hat.symm.trans hd) ?_
    rintro (hcapped | ⟨hused, -⟩)
    · exact absurd hcapped hunder.not_ge
    · exact absurd hused hnone.not_gt
  have htime := timeToCap_nonneg hunder h.span_pos (hsame.mpr hused)
  have hfar (hlong : Duration.maxSeconds + 1 / 2 ≤ timeToCap window used p) :
      ¬ (1 ≤ used ∨ 0 < used ∧ timeToCap window used p < (r - n : K) - 1 / 2) := by
    have hmax : (r - n : K) ≤ Duration.maxSeconds := by exact_mod_cast h.left_le_maxSeconds
    rintro (hcapped | ⟨-, hsoon⟩)
    · exact absurd hcapped hunder.not_ge
    · linarith
  obtain ⟨hshort, hrunway⟩ | ⟨hlong, -, hrunway⟩ | ⟨hnever, hrunway⟩ :=
    runwayAt_cases hsome hunder h.span_pos (hsame.mpr hused)
  · rw [h.etaToCap_of_runway (Int.floor_nonneg.mpr (by linarith)) (hat.trans hrunway)]
    rw [floor_add_half_lt, Int.cast_sub]
    exact ⟨fun hsoon => .inr ⟨hused, hsoon⟩, fun hsoon =>
      (hsoon.resolve_left hunder.not_ge).2⟩
  · exact iff_of_false (not_etaToCap fun d hd => nomatch (hat.trans hrunway).symm.trans hd)
      (hfar hlong)
  · have hguard : (Duration.maxSeconds : K) ≤ i64Guard := by
      exact_mod_cast (by decide : Duration.maxSeconds ≤ i64Guard)
    exact iff_of_false (not_etaToCap fun d hd => nomatch (hat.trans hrunway).symm.trans hd)
      (hfar (by linarith))

end WholeSeconds

/-- The readouts of a row agree: a pace above one is one the rest cannot afford, and only such a
pace brings the cap before the reset. -/
theorem readouts_agree {s n r : Int} (h : WholeSeconds window now s n r)
    (hsome : window.used = some used) (hpace : pace window now = some p) :
    (∃ a, affordablePace window now = some a ∧ (1 < p ↔ a < 1) ∧ (p = 1 ↔ a = 1)) ∧
      ((∃ eta, etaToCap window now = .ok (some eta)) ↔
        1 ≤ used ∨ 0 < used ∧ timeToCap window used p < (r - n : K) - 1 / 2) ∧
      (p ≤ 1 → ¬ ∃ eta, etaToCap window now = .ok (some eta)) := by
  obtain ⟨hstarted, hp⟩ := h.pace_eq hsome hpace
  have hcountdown := h.etaToCap_isSome_iff hsome hpace
  refine ⟨⟨_, h.affordablePace_eq hsome, ?_⟩, hcountdown, fun hslow heta => ?_⟩
  · rw [hp]
    exact h.pace_afford hstarted
  · have helapsed : (0 : K) < n - s := by exact_mod_cast Int.sub_pos.mpr hstarted
    have hspan : (n - s : K) < r - s := by exact_mod_cast Int.sub_lt_sub_right h.running s
    rcases hcountdown.mp heta with hcapped | ⟨hused, hsoon⟩
    · have hfast : 1 < p := by
        have hover : 1 * (r - s : K) ≤ used * (r - s) :=
          mul_le_mul_of_nonneg_right hcapped (helapsed.trans hspan).le
        rw [hp, lt_div_iff₀ helapsed]
        linarith
      exact absurd hslow hfast.not_ge
    · have hpositive : 0 < p := by
        rw [hp]
        exact div_pos (mul_pos hused (helapsed.trans hspan)) helapsed
      have hlate := h.left_le_timeToCap hpositive hslow hstarted hp
      linarith

private theorem wholeSeconds_halfSession :
    WholeSeconds halfSession (Duration.seconds 6000) 0 6000 18000 where
  start := rfl
  now := rfl
  reset := rfl
  started := by decide
  running := by decide
  startInRange := by decide
  resetInRange := by decide

/-- Half used up after a third of it, the session counts down to its cap. -/
theorem readouts_agree_halfSession :
    ∃ eta, etaToCap halfSession (Duration.seconds 6000) = .ok (some eta) := by
  have hsome : halfSession.used = some (1 / 2) := rfl
  have hpace : pace halfSession (Duration.seconds 6000) = some (3 / 2) := by decide +kernel
  refine (readouts_agree wholeSeconds_halfSession hsome hpace).2.1.mpr (.inr ⟨by norm_num, ?_⟩)
  rw [timeToCap, wholeSeconds_halfSession.span]
  norm_num

end Teiryo
