import Teiryo.Client.Estimates
import Teiryo.Client.Projection
import Teiryo.Framework.Loop

/-!
# The widening loop ends

The loop of `estimate_rate` in `teiryo/src/metrics.rs` pass by pass, with the instants and durations
it builds checked as chrono checks them. A pass that does not return has its floor after the oldest
reading of the stretch and doubles the lookback, so the floor moves down to that reading.
-/

namespace Teiryo

namespace Duration

/-- The longest `chrono::Duration`. -/
def maxValue : Duration := milliseconds i64Max

/-- `chrono::Duration * 2`. -/
def double (d : Duration) : Except Panic Duration :=
  if d * 2 ≤ maxValue then .ok (d * 2) else .error .durationOutOfBounds

end Duration

section

variable {F : Type} [F64Math F]

/-- What the loop carries from pass to pass. -/
structure Lookback (F : Type) where
  lookback : Duration
  narrower : Option (RateEstimate F) := none

open Loop in
/-- One pass of the loop. -/
def widenPass (stretch : List (DateTime × F)) (newestTs : DateTime) (quantum spanSecs : F)
    (s : Lookback F) : Except Panic (Pass (Lookback F) (Option (RateEstimate F))) := do
  let floor ← DateTime.plus newestTs (-s.lookback)
  let tail := stretch.dropWhile fun r => decide (r.1 < floor)
  let exhausted := decide (tail.length = stretch.length)
  if s.narrower.any (rateChanged tail quantum spanSecs) then return .returns s.narrower
  else
    match fit tail quantum spanSecs with
    | some estimate =>
      if exhausted || estimate.isPrecise then return .returns (some estimate)
      else
        let lookback ← s.lookback.double
        return .goesOn { lookback, narrower := some estimate }
    | none =>
      if exhausted then return .returns none
      else
        let lookback ← s.lookback.double
        return .goesOn { lookback }

/-- The first passes over a stretch, from a tenth of the window's span. -/
def widenPasses (stretch : List (DateTime × F)) (newestTs : DateTime) (quantum spanSecs : F)
    (span : Duration) (n : Nat) :
    Except Panic (Loop.Pass (Lookback F) (Option (RateEstimate F))) :=
  Loop.passes (widenPass stretch newestTs quantum spanSecs) n { lookback := recentLookback span }

variable {newestTs : DateTime} {quantum spanSecs : F} {s s' : Lookback F}
  {oldest : DateTime × F} {rest : List (DateTime × F)}

omit [F64Math F] in
/-- A floor at or before the oldest reading exhausts the stretch. -/
theorem exhausted_iff (floor : DateTime) :
    ((oldest :: rest).dropWhile fun r => decide (r.1 < floor)).length = (oldest :: rest).length ↔
      floor ≤ oldest.1 := by
  by_cases hbefore : oldest.1 < floor
  · have hdrop : ((oldest :: rest).dropWhile fun r => decide (r.1 < floor)) =
        rest.dropWhile fun r => decide (r.1 < floor) :=
      List.dropWhile_cons_of_pos (decide_eq_true hbefore)
    have hle : (rest.dropWhile fun r => decide (r.1 < floor)).length ≤ rest.length :=
      (List.dropWhile_suffix _).length_le
    rw [hdrop, List.length_cons]
    exact iff_of_false (by omega) hbefore.not_ge
  · have hkeep : ((oldest :: rest).dropWhile fun r => decide (r.1 < floor)) = oldest :: rest :=
      List.dropWhile_cons_of_neg (by simpa using hbefore)
    rw [hkeep]
    exact iff_of_true rfl (not_lt.mp hbefore)

/-- What a pass over a stretch may come to. -/
inductive PassOf (oldest : DateTime × F) (rest : List (DateTime × F)) (newestTs : DateTime)
    (quantum spanSecs : F) (s : Lookback F) :
    Except Panic (Loop.Pass (Lookback F) (Option (RateEstimate F))) → Prop
  | returns (result : Option (RateEstimate F))
      (widens : ∀ doublings, widen (oldest :: rest) newestTs quantum spanSecs (doublings + 1)
        s.lookback s.narrower = result) :
      PassOf oldest rest newestTs quantum spanSecs s (.ok (.returns result))
  | goesOn (narrower : Option (RateEstimate F)) (after : oldest.1 < newestTs - s.lookback)
      (fits : s.lookback * 2 ≤ Duration.maxValue)
      (widens : ∀ doublings, widen (oldest :: rest) newestTs quantum spanSecs (doublings + 1)
          s.lookback s.narrower =
        widen (oldest :: rest) newestTs quantum spanSecs doublings (s.lookback * 2) narrower) :
      PassOf oldest rest newestTs quantum spanSecs s
        (.ok (.goesOn { lookback := s.lookback * 2, narrower }))
  | dateTimeOverflow (out : ¬ DateTime.InRange (newestTs - s.lookback)) :
      PassOf oldest rest newestTs quantum spanSecs s (.error .dateTimeOverflow)
  | durationOutOfBounds (after : oldest.1 < newestTs - s.lookback)
      (out : ¬ s.lookback * 2 ≤ Duration.maxValue) :
      PassOf oldest rest newestTs quantum spanSecs s (.error .durationOutOfBounds)

/-- A pass that does not return doubles the lookback, or fails to. -/
theorem PassOf.double {narrower : Option (RateEstimate F)}
    (after : oldest.1 < newestTs - s.lookback)
    (widens : ∀ doublings, widen (oldest :: rest) newestTs quantum spanSecs (doublings + 1)
        s.lookback s.narrower =
      widen (oldest :: rest) newestTs quantum spanSecs doublings (s.lookback * 2) narrower) :
    PassOf oldest rest newestTs quantum spanSecs s
      (do
        let lookback ← s.lookback.double
        return .goesOn { lookback, narrower }) := by
  by_cases hfits : s.lookback * 2 ≤ Duration.maxValue
  · rw [Duration.double, if_pos hfits]
    exact .goesOn narrower after hfits widens
  · rw [Duration.double, if_neg hfits]
    exact .durationOutOfBounds after hfits

private theorem widenPass_spec : PassOf oldest rest newestTs quantum spanSecs s
    (widenPass (oldest :: rest) newestTs quantum spanSecs s) := by
  by_cases hrange : DateTime.InRange (newestTs - s.lookback)
  case neg =>
    rw [widenPass, DateTime.plus, ← sub_eq_add_neg, if_neg hrange]
    exact .dateTimeOverflow hrange
  rw [widenPass, DateTime.plus, ← sub_eq_add_neg, if_pos hrange]
  show PassOf oldest rest newestTs quantum spanSecs s (if _ then _ else _)
  generalize htail : (oldest :: rest).dropWhile
    (fun r => decide (r.1 < newestTs - s.lookback)) = tail
  by_cases hchanged : s.narrower.any (rateChanged tail quantum spanSecs) = true
  case pos =>
    rw [if_pos hchanged]
    refine .returns s.narrower fun doublings => ?_
    rw [widen, htail, if_pos hchanged]
  rw [if_neg hchanged]
  have hafter (hlength : ¬ tail.length = (oldest :: rest).length) :
      oldest.1 < newestTs - s.lookback := by
    rw [← htail] at hlength
    exact not_le.mp ((exhausted_iff _).not.mp hlength)
  cases hfit : fit tail quantum spanSecs with
  | none =>
    by_cases hlength : tail.length = (oldest :: rest).length
    · simp only [hlength, decide_true, if_true]
      refine .returns none fun doublings => ?_
      rw [widen, htail, if_neg hchanged, hfit]
      simp only [hlength, decide_true, if_true]
    · simp only [hlength, decide_false, Bool.false_eq_true, if_false]
      refine PassOf.double (hafter hlength) fun doublings => ?_
      rw [widen, htail, if_neg hchanged, hfit]
      simp only [hlength, decide_false, Bool.false_eq_true, if_false]
  | some estimate =>
    by_cases hdone : (decide (tail.length = (oldest :: rest).length) || estimate.isPrecise) = true
    · simp only [hdone, if_true]
      refine .returns (some estimate) fun doublings => ?_
      rw [widen, htail, if_neg hchanged, hfit]
      simp only [hdone, if_true]
    · have hlength : ¬ tail.length = (oldest :: rest).length := by
        simp only [Bool.or_eq_true, decide_eq_true_eq, not_or] at hdone
        exact hdone.1
      simp only [hdone, Bool.false_eq_true, if_false]
      refine PassOf.double (hafter hlength) fun doublings => ?_
      rw [widen, htail, if_neg hchanged, hfit]
      simp only [hdone, Bool.false_eq_true, if_false]

private theorem PassOf.of_eq
    {pass : Except Panic (Loop.Pass (Lookback F) (Option (RateEstimate F)))}
    (h : widenPass (oldest :: rest) newestTs quantum spanSecs s = pass) :
    PassOf oldest rest newestTs quantum spanSecs s pass :=
  h ▸ widenPass_spec

private theorem widenPass_returns (hfloor : newestTs - s.lookback ≤ oldest.1)
    (hrange : DateTime.InRange (newestTs - s.lookback)) :
    ∃ result, widenPass (oldest :: rest) newestTs quantum spanSecs s = .ok (.returns result) := by
  generalize hpass : widenPass (oldest :: rest) newestTs quantum spanSecs s = pass
  cases PassOf.of_eq hpass with
  | returns result => exact ⟨result, rfl⟩
  | goesOn narrower after => exact absurd after hfloor.not_gt
  | dateTimeOverflow out => exact absurd hrange out
  | durationOutOfBounds after => exact absurd after hfloor.not_gt

private theorem widenPass_goesOn
    (h : widenPass (oldest :: rest) newestTs quantum spanSecs s = .ok (.goesOn s')) :
    oldest.1 < newestTs - s.lookback ∧ s'.lookback = s.lookback * 2 ∧
      ∀ doublings, widen (oldest :: rest) newestTs quantum spanSecs (doublings + 1)
          s.lookback s.narrower =
        widen (oldest :: rest) newestTs quantum spanSecs doublings s'.lookback s'.narrower := by
  cases PassOf.of_eq h with
  | goesOn narrower after fits widens => exact ⟨after, rfl, widens⟩

/-- The longest the lookback gets over a stretch. -/
def longestLookback (start : Duration) (newestTs oldestTs : DateTime) : Duration :=
  max start (2 * (newestTs - oldestTs))

/-- What holds of the lookback wherever the loop goes on. -/
structure Lookback.Bounded (start : Duration) (newestTs oldestTs : DateTime) (s : Lookback F) :
    Prop where
  positive : 0 < s.lookback
  most : s.lookback ≤ longestLookback start newestTs oldestTs

theorem Lookback.Bounded.goesOn {start : Duration} (hs : Lookback.Bounded start newestTs oldest.1 s)
    (h : widenPass (oldest :: rest) newestTs quantum spanSecs s = .ok (.goesOn s')) :
    Lookback.Bounded start newestTs oldest.1 s' := by
  obtain ⟨hafter, hdouble, -⟩ := widenPass_goesOn h
  have hpositive : 0 < s.lookback := hs.positive
  have hshort : s.lookback < newestTs - oldest.1 := lt_sub_comm.mp hafter
  constructor
  · rw [hdouble]
    exact mul_pos hpositive two_pos
  · rw [hdouble, mul_comm]
    exact le_max_of_le_right (mul_le_mul_of_nonneg_left hshort.le two_pos.le)

private theorem lookback_passes {n : Nat}
    (h : Loop.passes (widenPass (oldest :: rest) newestTs quantum spanSecs) n s =
      .ok (.goesOn s')) : s'.lookback = s.lookback * 2 ^ n := by
  induction n generalizing s with
  | zero =>
    cases h
    rw [pow_zero, mul_one]
  | succ n ih =>
    rcases Loop.passes_succ_cases h with ⟨e, -, he⟩ | ⟨result, -, hr⟩ | ⟨next, hpass, hrest⟩
    · cases he
    · cases hr
    · rw [ih hrest, (widenPass_goesOn hpass).2.1, mul_assoc, ← pow_succ']

private theorem widen_passes {result : Option (RateEstimate F)} {n : Nat} (more : Nat)
    (h : Loop.passes (widenPass (oldest :: rest) newestTs quantum spanSecs) n s =
      .ok (.returns result)) :
    widen (oldest :: rest) newestTs quantum spanSecs (more + n) s.lookback s.narrower = result := by
  induction n generalizing s with
  | zero => cases h
  | succ n ih =>
    rw [← Nat.add_assoc]
    rcases Loop.passes_succ_cases h with ⟨e, -, he⟩ | ⟨now, hpass, hr⟩ | ⟨next, hpass, hrest⟩
    · cases he
    · cases hr
      cases PassOf.of_eq hpass with
      | returns now widens => exact widens (more + n)
    · rw [(widenPass_goesOn hpass).2.2 (more + n)]
      exact ih hrest

private theorem twice_le_maxValue {older newer : DateTime} (holder : older.InRange)
    (hnewer : newer.InRange) : (newer - older) * 2 ≤ Duration.maxValue := by
  have hspan : (newer - older) * 2 ≤ (DateTime.maxUtc - DateTime.minUtc) * 2 :=
    mul_le_mul_of_nonneg_right (sub_le_sub hnewer.2 holder.1) two_pos.le
  exact hspan.trans (by decide)

private theorem widenPass_ne_durationOutOfBounds (holdest : oldest.1.InRange)
    (hnewest : newestTs.InRange) :
    widenPass (oldest :: rest) newestTs quantum spanSecs s ≠ .error .durationOutOfBounds := by
  intro h
  cases PassOf.of_eq h with
  | durationOutOfBounds after out =>
    have hshort : s.lookback < newestTs - oldest.1 := lt_sub_comm.mp after
    exact out ((mul_le_mul_of_nonneg_right hshort.le two_pos.le).trans
      (twice_le_maxValue holdest hnewest))

variable {start : Duration}

omit [F64Math F] in
theorem Lookback.Bounded.inRange (hs : Lookback.Bounded start newestTs oldest.1 s)
    (hnewest : newestTs.InRange)
    (hroom : DateTime.minUtc ≤ newestTs - longestLookback start newestTs oldest.1) :
    DateTime.InRange (newestTs - s.lookback) :=
  ⟨hroom.trans (sub_le_sub_left hs.most newestTs),
    (sub_le_self newestTs hs.positive.le).trans hnewest.2⟩

private theorem Lookback.Bounded.ne_error (hs : Lookback.Bounded start newestTs oldest.1 s)
    (holdest : oldest.1.InRange) (hnewest : newestTs.InRange)
    (hroom : DateTime.minUtc ≤ newestTs - longestLookback start newestTs oldest.1) (e : Panic) :
    widenPass (oldest :: rest) newestTs quantum spanSecs s ≠ .error e := by
  intro h
  cases PassOf.of_eq h with
  | dateTimeOverflow out => exact out (hs.inRange hnewest hroom)
  | durationOutOfBounds after out =>
    exact widenPass_ne_durationOutOfBounds holdest hnewest h

/-- How far the floor is from the oldest reading. -/
def floorGap (newestTs oldestTs : DateTime) (s : Lookback F) : Nat :=
  (newestTs - s.lookback - oldestTs).toNat

private theorem floorGap_falls (hs : Lookback.Bounded start newestTs oldest.1 s)
    (h : widenPass (oldest :: rest) newestTs quantum spanSecs s = .ok (.goesOn s')) :
    floorGap newestTs oldest.1 s' < floorGap newestTs oldest.1 s := by
  obtain ⟨hafter, hdouble, -⟩ := widenPass_goesOn h
  have hgap : 0 < newestTs - s.lookback - oldest.1 := sub_pos.mpr hafter
  have hpositive : 0 < s.lookback := hs.positive
  rw [floorGap, floorGap, Int.toNat_lt_toNat hgap, hdouble]
  apply sub_lt_sub_right
  apply sub_lt_sub_left
  exact lt_mul_of_one_lt_right hpositive one_lt_two

private theorem recentLookback_least (span : Duration) :
    Duration.seconds 900 ≤ recentLookback span :=
  Int.mul_le_mul_of_nonneg_right (le_max_left _ _) (by decide)

private theorem recentLookback_most (span : Duration) :
    recentLookback span ≤ Duration.seconds 43200 :=
  Int.mul_le_mul_of_nonneg_right (max_le (by decide) (min_le_left _ _)) (by decide)

omit [F64Math F] in
theorem Lookback.Bounded.recent (span : Duration) :
    Lookback.Bounded (recentLookback span) newestTs oldest.1
      ({ lookback := recentLookback span } : Lookback F) where
  positive := recentLookback_pos span
  most := le_max_left _ _

private theorem room_of_epoch {oldestTs : DateTime} (span : Duration) (hepoch : 0 ≤ oldestTs)
    (horder : oldestTs ≤ newestTs) (hnewest : newestTs.InRange) :
    DateTime.minUtc ≤ newestTs - longestLookback (recentLookback span) newestTs oldestTs := by
  have hpositive : 0 ≤ newestTs := hepoch.trans horder
  have hstart : recentLookback span ≤ -DateTime.minUtc :=
    (recentLookback_most span).trans (by decide)
  have hnewer : newestTs ≤ -DateTime.minUtc := hnewest.2.trans (by decide)
  have hlongest : longestLookback (recentLookback span) newestTs oldestTs ≤
      newestTs - DateTime.minUtc := by
    apply max_le
    · calc recentLookback span ≤ -DateTime.minUtc := hstart
        _ ≤ newestTs - DateTime.minUtc := by
          rw [sub_eq_add_neg]
          exact le_add_of_nonneg_left hpositive
    · calc 2 * (newestTs - oldestTs) ≤ 2 * newestTs :=
            mul_le_mul_of_nonneg_left (sub_le_self newestTs hepoch) two_pos.le
        _ = newestTs + newestTs := two_mul newestTs
        _ ≤ newestTs + -DateTime.minUtc := add_le_add_right hnewer newestTs
        _ = newestTs - DateTime.minUtc := (sub_eq_add_neg _ _).symm
  exact le_sub_comm.mp hlongest

/-- The loop doubles its lookback until its floor is at or before the oldest reading and the pass
returns what `widen` does; no duration overflows, and no instant where the earliest floor it may
come to is one chrono can hold, as it is for readings of the epoch or later. -/
theorem widening_ends (window : EffectiveWindow F) (oldest : DateTime × F)
    (rest : List (DateTime × F)) (newestTs : DateTime) (quantum spanSecs : F)
    (holdest : oldest.1.InRange) (hnewest : newestTs.InRange) :
    Duration.seconds 900 ≤ recentLookback window.span ∧
    (∀ n s, widenPasses (oldest :: rest) newestTs quantum spanSecs window.span n =
        .ok (.goesOn s) →
      s.lookback = recentLookback window.span * 2 ^ n ∧
      s.lookback ≤ longestLookback (recentLookback window.span) newestTs oldest.1) ∧
    (∀ s : Lookback F, newestTs - s.lookback ≤ oldest.1 →
      DateTime.InRange (newestTs - s.lookback) →
      ∃ result, widenPass (oldest :: rest) newestTs quantum spanSecs s =
        .ok (.returns result)) ∧
    (∀ n, widenPasses (oldest :: rest) newestTs quantum spanSecs window.span n ≠
      .error .durationOutOfBounds) ∧
    (DateTime.minUtc ≤
        newestTs - longestLookback (recentLookback window.span) newestTs oldest.1 →
      (∀ n e, widenPasses (oldest :: rest) newestTs quantum spanSecs window.span n ≠ .error e) ∧
      ∃ n, widenPasses (oldest :: rest) newestTs quantum spanSecs window.span n =
        .ok (.returns (widen (oldest :: rest) newestTs quantum spanSecs
          (enoughDoublings (oldest :: rest) newestTs) (recentLookback window.span) none))) ∧
    (0 ≤ oldest.1 → oldest.1 ≤ newestTs → DateTime.minUtc ≤
      newestTs - longestLookback (recentLookback window.span) newestTs oldest.1) := by
  have hrecent : Lookback.Bounded (recentLookback window.span) newestTs oldest.1
      ({ lookback := recentLookback window.span } : Lookback F) :=
    Lookback.Bounded.recent window.span
  refine ⟨recentLookback_least window.span, ?doubles, ?exhausts, ?durations, ?ends, ?epoch⟩
  case doubles =>
    intro n s h
    have hbounded : Lookback.Bounded (recentLookback window.span) newestTs oldest.1 s :=
      Loop.passes_invariant hrecent (fun _ _ => Lookback.Bounded.goesOn) h
    exact ⟨lookback_passes h, hbounded.most⟩
  case exhausts =>
    intro s hfloor hrange
    exact widenPass_returns hfloor hrange
  case durations =>
    intro n
    exact Loop.passes_ne_error hrecent (fun _ _ => Lookback.Bounded.goesOn)
      fun s _ => widenPass_ne_durationOutOfBounds holdest hnewest
  case ends =>
    intro hroom
    constructor
    · intro n e
      exact Loop.passes_ne_error hrecent (fun _ _ => Lookback.Bounded.goesOn)
        fun s hs => hs.ne_error holdest hnewest hroom e
    · have hends : ∃ n result, n ≤ floorGap newestTs oldest.1 _ + 1 ∧
          widenPasses (oldest :: rest) newestTs quantum spanSecs window.span n =
            .ok (.returns result) :=
        Loop.passes_returns (floorGap newestTs oldest.1) hrecent
          (fun s s' hs h => ⟨hs.goesOn h, floorGap_falls hs h⟩)
          fun s e hs => hs.ne_error holdest hnewest hroom e
      obtain ⟨n, result, -, hreturns⟩ := hends
      have hwiden := widen_passes (enoughDoublings (oldest :: rest) newestTs) hreturns
      rw [widen_ends] at hwiden
      rw [hwiden]
      exact ⟨n, hreturns⟩
  case epoch =>
    intro hepoch horder
    exact room_of_epoch window.span hepoch horder hnewest

end

/-- The rate of a session read twice comes back from its loop. -/
theorem widening_ends_session :
    ∃ n, widenPasses [(0, 0.01), (Duration.seconds 600, 0.03)] (Duration.seconds 600) 0.01 18000
        sessionWindow.span n =
      .ok (.returns (some sessionEstimate)) := by
  obtain ⟨-, -, -, -, hends, hroom⟩ := widening_ends sessionWindow (0, (0.01 : ℚ))
    [(Duration.seconds 600, 0.03)] (Duration.seconds 600) 0.01 18000 (by decide) (by decide)
  obtain ⟨n, hreturns⟩ := (hends (hroom (by decide) (by decide))).2
  refine ⟨n, hreturns.trans ?_⟩
  have hwiden : widen [((0 : DateTime), (0.01 : ℚ)), (Duration.seconds 600, 0.03)]
      (Duration.seconds 600) 0.01 18000
      (enoughDoublings [((0 : DateTime), (0.01 : ℚ)), (Duration.seconds 600, 0.03)]
        (Duration.seconds 600))
      (recentLookback sessionWindow.span) none = some sessionEstimate := by decide +kernel
  rw [hwiden]

/-- A five-hour session at the earliest instant chrono can hold. -/
def earliestWindow : EffectiveWindow ℚ :=
  { sessionWindow with
    start := DateTime.minUtc
    resetAt := DateTime.minUtc + Duration.seconds 18000 }

/-- Its first reading has no room for any floor. -/
theorem widening_overflows :
    0 < earliestWindow.span ∧ earliestWindow.start.InRange ∧ earliestWindow.resetAt.InRange ∧
      ∀ n, widenPasses [(DateTime.minUtc, (0.5 : ℚ))] DateTime.minUtc 0.01 18000
        earliestWindow.span (n + 1) = .error .dateTimeOverflow := by
  refine ⟨by decide, by decide, by decide, fun n => ?_⟩
  have hpass : widenPass [(DateTime.minUtc, (0.5 : ℚ))] DateTime.minUtc 0.01 18000
      { lookback := recentLookback earliestWindow.span } = .error .dateTimeOverflow := rfl
  rw [widenPasses, Loop.passes, hpass]

end Teiryo
