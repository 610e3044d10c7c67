import Mathlib.Data.List.TakeWhile
import Teiryo.Client.Estimates

/-!
# Rates of the same readings

`estimateRate` looks at the points for the readings of its window and puts these in order, so it
depends on which readings there are, not on how the points list them. Sliding it along a series
over the readings of one instance at a time comes to the same as handing it all of the points.
-/

namespace Teiryo

variable {F : Type} [F64Math F] {window : EffectiveWindow F} {maxGap : Duration}
  {points points' : List (QuotaSnapshot F)} {now : DateTime}

/-- No two readings of a window were taken at one time. -/
def DistinctTimes (window : WindowId) (points : List (QuotaSnapshot F)) : Prop :=
  ∀ a ∈ points, ∀ b ∈ points, a.window = window → b.window = window → a.ts = b.ts → a = b

omit [F64Math F] in
theorem DistinctTimes.filter {own : WindowId} (h : DistinctTimes own points)
    {q : QuotaSnapshot F → Bool} (hown : ∀ p, q p = true → p.window = own) :
    InOrder.Distinct (fun p => p.ts) (points.filter q) := by
  intro a ha b hb hts
  obtain ⟨hamem, haq⟩ := List.mem_filter.mp ha
  obtain ⟨hbmem, hbq⟩ := List.mem_filter.mp hb
  exact h a hamem b hbmem (hown a haq) (hown b hbq) hts

theorem DistinctTimes.measured (h : DistinctTimes window.window points) :
    InOrder.Distinct (fun p => p.ts) (points.filter (measures window now)) :=
  h.filter fun _ hp => (measures_iff.mp hp).own

private theorem matching_congr (h : DistinctTimes window.window points)
    (hmem : ∀ p, Measures window now p → (p ∈ points' ↔ p ∈ points)) :
    matching window points' now = matching window points now := by
  unfold matching
  rw [inOrder_eq, inOrder_eq]
  apply h.measured.byKey_congr
  intro p
  rw [List.mem_filter, List.mem_filter, and_congr_left_iff]
  intro hp
  exact hmem p (measures_iff.mp hp)

/-- Points listed in another order, or listed more than once, have the same rate. -/
theorem estimateRate_same_readings (h : DistinctTimes window.window points)
    (hmem : ∀ p, p ∈ points' ↔ p ∈ points) :
    estimateRate window points' maxGap now = estimateRate window points maxGap now :=
  estimateRate_congr (matching_congr h fun p _ => hmem p)

private theorem distinctTimes_session : DistinctTimes sessionWindow.window sessionReadings := by
  unfold DistinctTimes
  decide

theorem estimateRate_same_readings_session :
    estimateRate sessionWindow [sessionReading 3 600, sessionReading 1 0, sessionReading 3 600]
        (Duration.seconds 720) (Duration.seconds 600) =
      estimateRate sessionWindow sessionReadings (Duration.seconds 720) (Duration.seconds 600) :=
  estimateRate_same_readings distinctTimes_session (by simp [sessionReadings, or_comm])

section Sliding

variable {own : WindowId} {span : Duration} {current : Option (EffectiveWindow F)}

omit [F64Math F] in
private theorem pairwise_rateReadings :
    (rateReadings own points).Pairwise fun a b => a.ts < b.ts := by
  unfold rateReadings
  rw [inOrder_eq]
  exact InOrder.pairwise_byKey _

omit [F64Math F] in
private theorem DistinctTimes.mem_rateReadings (h : DistinctTimes own points)
    {p : QuotaSnapshot F} : p ∈ rateReadings own points ↔ p ∈ points ∧ p.window = own := by
  unfold rateReadings
  rw [inOrder_eq, (h.filter fun _ hp => beq_iff_eq.mp hp).mem_byKey_iff, List.mem_filter,
    beq_iff_eq]

omit [F64Math F] in
private theorem mem_take_of_le {series : List (QuotaSnapshot F)} {p q : QuotaSnapshot F} {i : Nat}
    (hincreasing : series.Pairwise fun a b => a.ts < b.ts) (hp : series[i]? = some p)
    (hq : q ∈ series) (hle : q.ts ≤ p.ts) : q ∈ series.take (i + 1) := by
  obtain ⟨j, hj, rfl⟩ := List.getElem_of_mem hq
  obtain ⟨hi, rfl⟩ := List.getElem?_eq_some_iff.mp hp
  have hji : j ≤ i := by
    by_contra hlt
    have hts := List.pairwise_iff_getElem.mp hincreasing i j hi hj (by omega)
    exact absurd hle (Int.not_le.mpr hts)
  exact List.mem_take_iff_getElem.mpr ⟨j, by omega, rfl⟩

omit [F64Math F] in
private theorem mem_dropWhile_of_le {series : List (QuotaSnapshot F)} {q : QuotaSnapshot F}
    {start : DateTime} (hq : q ∈ series) (hle : start ≤ q.ts) :
    q ∈ series.dropWhile fun r => decide (r.ts < start) := by
  have hsplit : series.takeWhile (fun r => decide (r.ts < start)) ++
      series.dropWhile (fun r => decide (r.ts < start)) = series := List.takeWhile_append_dropWhile
  rw [← hsplit, List.mem_append] at hq
  rcases hq with hq | hq
  · have hbefore := List.mem_takeWhile_imp hq
    exact absurd (of_decide_eq_true hbefore) (Int.not_lt.mpr hle)
  · exact hq

private theorem estimateRate_instanceReadings (h : DistinctTimes own points)
    (hown : window.window = own)
    {p : QuotaSnapshot F} {i : Nat} (hp : (rateReadings own points)[i]? = some p) :
    estimateRate window (instanceReadings window (rateReadings own points) i) maxGap p.ts =
      estimateRate window points maxGap p.ts := by
  subst hown
  apply estimateRate_congr
  apply matching_congr h
  intro q hq
  constructor
  · intro hmem
    have hread := List.mem_of_mem_take ((List.dropWhile_suffix _).subset hmem)
    exact (h.mem_rateReadings.mp hread).1
  · intro hmem
    have hread := h.mem_rateReadings.mpr ⟨hmem, hq.own⟩
    exact mem_dropWhile_of_le (mem_take_of_le pairwise_rateReadings hp hread hq.taken) hq.started

private theorem instanceOf_window (hcurrent : ∀ c ∈ current, c.window = own) (p : QuotaSnapshot F)
    (resetAt : DateTime) : (instanceOf own span current p resetAt).window = own := by
  unfold instanceOf
  cases current with
  | none => rfl
  | some c =>
    simp only
    split
    · exact hcurrent c rfl
    · rfl

/-- One point for each reading that carries a reset, oldest first, with the rate that all of the
points give its window instance at its own time. -/
theorem rateSeries_plain (hcurrent : ∀ c ∈ current, c.window = own)
    (h : DistinctTimes own points) :
    ∃ readings : List (QuotaSnapshot F), (readings.Pairwise fun a b => a.ts < b.ts) ∧
      (∀ p, p ∈ readings ↔ p ∈ points ∧ p.window = own ∧ p.resetAt.isSome = true) ∧
      (rateSeries own span current points maxGap).map (·.ts) = readings.map (·.ts) ∧
      rateSeries own span current points maxGap = readings.filterMap fun p =>
        p.resetAt.map fun resetAt => {
          ts := p.ts
          window := instanceOf own span current p resetAt
          rate := estimateRate (instanceOf own span current p resetAt) points maxGap p.ts } := by
  have hplain : rateSeries own span current points maxGap =
      (rateReadings own points).filterMap fun p => p.resetAt.map fun resetAt => {
        ts := p.ts
        window := instanceOf own span current p resetAt
        rate := estimateRate (instanceOf own span current p resetAt) points maxGap p.ts } := by
    unfold rateSeries
    simp only
    conv_rhs => rw [← List.zipIdx_map_fst 0 (rateReadings own points), List.filterMap_map]
    apply List.filterMap_congr
    rintro ⟨p, i⟩ hp
    have hat : (rateReadings own points)[i]? = some p := List.mem_zipIdx_iff_getElem?.mp hp
    cases hreset : p.resetAt with
    | none => simp only [Function.comp_apply, hreset, Option.map_none]
    | some resetAt =>
      simp only [Function.comp_apply, hreset, Option.map_some]
      rw [estimateRate_instanceReadings h (instanceOf_window hcurrent p resetAt) hat]
  have hcarrying : rateSeries own span current points maxGap =
      ((rateReadings own points).filter fun p => p.resetAt.isSome).filterMap fun p =>
        p.resetAt.map fun resetAt => {
          ts := p.ts
          window := instanceOf own span current p resetAt
          rate := estimateRate (instanceOf own span current p resetAt) points maxGap p.ts } := by
    rw [hplain, List.filterMap_filter]
    apply List.filterMap_congr
    intro p _
    cases p.resetAt <;> rfl
  refine ⟨(rateReadings own points).filter fun p => p.resetAt.isSome,
    pairwise_rateReadings.sublist List.filter_sublist, ?_, ?_, hcarrying⟩
  · intro p
    rw [List.mem_filter, h.mem_rateReadings, and_assoc]
  · rw [hcarrying, List.map_filterMap, ← List.filterMap_eq_map]
    apply List.filterMap_congr
    intro p hp
    obtain ⟨resetAt, hreset⟩ := Option.isSome_iff_exists.mp (List.mem_filter.mp hp).2
    rw [hreset]
    rfl

end Sliding

theorem rateSeries_plain_session :
    ∃ readings : List (QuotaSnapshot ℚ), (readings.Pairwise fun a b => a.ts < b.ts) ∧
      (∀ p, p ∈ readings ↔
        p ∈ sessionReadings ∧ p.window = sessionWindow.window ∧ p.resetAt.isSome = true) ∧
      (rateSeries sessionWindow.window (Duration.seconds 18000) (some sessionWindow)
        sessionReadings (Duration.seconds 720)).map (·.ts) = readings.map (·.ts) ∧
      rateSeries sessionWindow.window (Duration.seconds 18000) (some sessionWindow)
          sessionReadings (Duration.seconds 720) =
        readings.filterMap fun p => p.resetAt.map fun resetAt =>
          let window := instanceOf sessionWindow.window (Duration.seconds 18000)
            (some sessionWindow) p resetAt
          { ts := p.ts, window,
            rate := estimateRate window sessionReadings (Duration.seconds 720) p.ts } :=
  rateSeries_plain (by simp) distinctTimes_session

end Teiryo
