import Mathlib.Data.List.Chain
import Mathlib.Data.List.Destutter
import Mathlib.Data.List.Infix
import Teiryo.Core.Rollover
import Teiryo.Core.Wire

/-!
# Rates over a series

Which readings of a series a rate is measured over, following `teiryo/src/metrics.rs`: those of
one window instance, back from the newest to the first hole or fall.
-/

namespace Teiryo

/-- `chrono::Duration::abs`. -/
def Duration.abs (d : Duration) : Duration := max d (-d)

/-- The window a rate is measured against. -/
structure EffectiveWindow (F : Type) where
  window : WindowId
  start : DateTime
  resetAt : DateTime
  startUncertainty : Duration
  used : Option F
  deriving DecidableEq, Repr

/-- How long a hole in a series may be: four missed polls, and never under ten minutes. -/
def gapTolerance (pollIntervalSecs : UInt32) : Duration :=
  max (Duration.seconds pollIntervalSecs.toNat * 4) (Duration.seconds 600)

section Readings

variable {F : Type} [F64 F]

/-- How far usage may slip before the fall counts as a break in the series. -/
def fallEpsilon : F := 0.005

def QuotaSnapshot.utilization (p : QuotaSnapshot F) : Option F :=
  utilizationOf p.unit p.used p.limit

omit [F64 F] in
/-- Whether a reading was taken inside the window, judged by the reset it carried. -/
def inSameWindow (point : QuotaSnapshot F) (window : EffectiveWindow F) : Bool :=
  point.resetAt.any fun theirs =>
    decide (Duration.abs (theirs - window.resetAt) ≤ resetTolerance)

/-- Whether a rate of the window as of `now` may rest on a reading. -/
def measures (window : EffectiveWindow F) (now : DateTime) (p : QuotaSnapshot F) : Bool :=
  p.window == window.window && (decide (window.start ≤ p.ts) && decide (p.ts ≤ now)) &&
    inSameWindow p window && p.utilization.isSome

omit [F64 F] in
/-- `sort_by_key` and `dedup_by_key` on the time of a reading. -/
def inOrder (points : List (QuotaSnapshot F)) : List (QuotaSnapshot F) :=
  (points.mergeSort fun a b => decide (a.ts ≤ b.ts)).destutter fun a b => a.ts ≠ b.ts

/-- The readings `estimate_rate` rests on, oldest first. -/
def matching (window : EffectiveWindow F) (points : List (QuotaSnapshot F)) (now : DateTime) :
    List (QuotaSnapshot F) :=
  inOrder (points.filter (measures window now))

def utilizationRun (points : List (QuotaSnapshot F)) : List (DateTime × F) :=
  points.filterMap fun p => p.utilization.map fun used => (p.ts, used)

/-- Walk back from an index while each step is one the series can be read across: no hole longer
than the tolerance, and no fall in usage. -/
def stretchStart (maxGap : Duration) (run : List (DateTime × F)) : Nat → Nat
  | 0 => 0
  | first + 1 =>
    match run[first]?, run[first + 1]? with
    | some (prevTs, prevUsed), some (ts, used) =>
      if maxGap < ts - prevTs ∨ used < prevUsed - fallEpsilon then first + 1
      else stretchStart maxGap run first
    | _, _ => first + 1

/-- The readings of the window a rate series slides along. -/
def rateReadings (window : WindowId) (points : List (QuotaSnapshot F)) :
    List (QuotaSnapshot F) :=
  inOrder (points.filter fun p => p.window == window)

/-- The readings of an instance that a rate series hands `estimate_rate` at reading `i`. -/
def instanceReadings (window : EffectiveWindow F) (readings : List (QuotaSnapshot F)) (i : Nat) :
    List (QuotaSnapshot F) :=
  (readings.take (i + 1)).dropWhile fun r => decide (r.ts < window.start)

end Readings

section Holes

variable {F : Type} [F64 F] {maxGap : Duration} {points : List (QuotaSnapshot F)}

omit [F64 F] in
/-- Readings without a hole between two of them. -/
def Unbroken (maxGap : Duration) (points : List (QuotaSnapshot F)) : Prop :=
  points.IsChain fun a b => b.ts - a.ts ≤ maxGap

/-- The walk back over a run ends at its first reading or at a fall, not at a hole. -/
def CutOnlyAtFall (maxGap : Duration) (run : List (DateTime × F)) : Prop :=
  let first := stretchStart maxGap run (run.length - 1)
  first = 0 ∨ ∃ prevTs prevUsed ts used, run[first - 1]? = some (prevTs, prevUsed) ∧
    run[first]? = some (ts, used) ∧ used < prevUsed - fallEpsilon

omit [F64 F] in
theorem Unbroken.part {part : List (QuotaSnapshot F)} (h : Unbroken maxGap points)
    (hpart : part <:+: points) : Unbroken maxGap part := by
  obtain ⟨before, after, rfl⟩ := hpart
  exact (List.IsChain.left_of_append h).right_of_append

private theorem stretchStart_cases {run : List (DateTime × F)}
    (h : run.IsChain fun a b => b.1 - a.1 ≤ maxGap) {i : Nat} (hi : i < run.length) :
    stretchStart maxGap run i = 0 ∨ ∃ prevTs prevUsed ts used,
      run[stretchStart maxGap run i - 1]? = some (prevTs, prevUsed) ∧
        run[stretchStart maxGap run i]? = some (ts, used) ∧ used < prevUsed - fallEpsilon := by
  induction i with
  | zero => exact .inl rfl
  | succ i ih =>
    have hprev : run[i]? = some run[i] := List.getElem?_eq_getElem (by omega)
    have hnext : run[i + 1]? = some run[i + 1] := List.getElem?_eq_getElem hi
    have hgap : run[i + 1].1 - run[i].1 ≤ maxGap := List.isChain_iff_getElem.mp h i hi
    rw [stretchStart, hprev, hnext]
    simp only
    split
    · rename_i hcut
      have hfall := hcut.resolve_left (Int.not_lt.mpr hgap)
      exact .inr ⟨run[i].1, run[i].2, run[i + 1].1, run[i + 1].2, hprev, hnext, hfall⟩
    · exact ih (by omega)

theorem cutOnlyAtFall_of_chain {run : List (DateTime × F)}
    (h : run.IsChain fun a b => b.1 - a.1 ≤ maxGap) : CutOnlyAtFall maxGap run := by
  cases run with
  | nil => exact .inl rfl
  | cons a run => exact stretchStart_cases h (by simp)

omit [F64 F] in
private theorem head?_destutter' {R : QuotaSnapshot F → QuotaSnapshot F → Prop} [DecidableRel R]
    (a : QuotaSnapshot F) (l : List (QuotaSnapshot F)) : (l.destutter' R a).head? = some a := by
  induction l with
  | nil => rfl
  | cons b l ih =>
    by_cases h : R a b
    · rw [List.destutter'_cons_pos l h]
      rfl
    · rw [List.destutter'_cons_neg l h]
      exact ih

omit [F64 F] in
private theorem unbroken_destutter' {a b : QuotaSnapshot F} {l : List (QuotaSnapshot F)}
    (h : Unbroken maxGap (a :: l)) (hab : b.ts = a.ts) :
    Unbroken maxGap (l.destutter' (fun a b => a.ts ≠ b.ts) b) := by
  induction l generalizing a b with
  | nil => exact List.isChain_singleton b
  | cons c l ih =>
    obtain ⟨hac, hrest⟩ := List.isChain_cons_cons.mp h
    by_cases hne : b.ts ≠ c.ts
    · rw [List.destutter'_cons_pos l hne]
      apply List.IsChain.cons (ih hrest rfl)
      intro d hd
      rw [head?_destutter'] at hd
      rw [← Option.some.inj hd, hab]
      exact hac
    · rw [List.destutter'_cons_neg l hne]
      exact ih hrest (not_not.mp hne)

omit [F64 F] in
theorem inOrder_of_sorted (hsorted : points.Pairwise fun a b => a.ts ≤ b.ts) :
    inOrder points = points.destutter fun a b => a.ts ≠ b.ts := by
  unfold inOrder
  rw [List.mergeSort_of_pairwise (hsorted.imp decide_eq_true)]

omit [F64 F] in
theorem unbroken_inOrder (hsorted : points.Pairwise fun a b => a.ts ≤ b.ts)
    (h : Unbroken maxGap points) : Unbroken maxGap (inOrder points) := by
  rw [inOrder_of_sorted hsorted]
  cases points with
  | nil => exact List.isChain_nil
  | cons a l => exact unbroken_destutter' h rfl

/-- A run has the times of its readings. -/
theorem utilizationRun_times (hknown : ∀ p ∈ points, p.utilization.isSome = true) :
    (utilizationRun points).map Prod.fst = points.map (·.ts) := by
  have hrun : ∀ p ∈ points, (p.utilization.map fun used => (p.ts, used)).map Prod.fst =
      some p.ts := by
    intro p hp
    obtain ⟨used, hused⟩ := Option.isSome_iff_exists.mp (hknown p hp)
    rw [hused]
    rfl
  unfold utilizationRun
  rw [List.map_filterMap, List.filterMap_congr hrun]
  exact congrFun List.filterMap_eq_map points

private theorem isChain_utilizationRun (h : Unbroken maxGap points)
    (hknown : ∀ p ∈ points, p.utilization.isSome = true) :
    (utilizationRun points).IsChain fun a b => b.1 - a.1 ≤ maxGap := by
  have hts : (points.map (·.ts)).IsChain fun a b => b - a ≤ maxGap := (List.isChain_map _).mpr h
  rw [← utilizationRun_times hknown] at hts
  exact (List.isChain_map _).mp hts

/-- A series without a hole in which the readings of the window stand together is cut at a fall
or not at all. -/
theorem cutOnlyAtFall_of_unbroken (hsorted : points.Pairwise fun a b => a.ts ≤ b.ts)
    (h : Unbroken maxGap points) {window : EffectiveWindow F} {now : DateTime}
    (htogether : points.filter (measures window now) <:+: points) :
    CutOnlyAtFall maxGap (utilizationRun (matching window points now)) := by
  have hown : (points.filter (measures window now)).Pairwise fun a b => a.ts ≤ b.ts :=
    hsorted.sublist List.filter_sublist
  apply cutOnlyAtFall_of_chain
  apply isChain_utilizationRun
  · exact unbroken_inOrder hown (h.part htogether)
  · intro p hp
    have hmem : p ∈ points.filter (measures window now) := by
      unfold matching at hp
      rw [inOrder_of_sorted hown] at hp
      exact (List.destutter_sublist _ _).subset hp
    have hmeasures := (List.mem_filter.mp hmem).2
    simp only [measures, Bool.and_eq_true] at hmeasures
    exact hmeasures.2

end Holes
end Teiryo
