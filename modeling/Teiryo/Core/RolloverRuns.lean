import Mathlib.Algebra.Order.Field.Basic
import Mathlib.Algebra.Order.Ring.Rat
import Mathlib.Data.List.Chain
import Mathlib.Tactic.Linarith
import Mathlib.Tactic.NormNum
import Teiryo.Core.Rollover

/-!
# Rollovers over a run of readings

What a run of successful polls is reported as, step by step, with readings taken as exact numbers.
A reset that moved by more than the tolerance decides the step; where it held still or is missing
only a collapse of the usage counts.
-/

namespace Teiryo

/-- A poll that succeeded: when it completed, and what it reported. -/
structure SuccessfulPoll (F : Type) where
  id : PollId
  ts : DateTime
  windows : List (QuotaWindow F)
  deriving DecidableEq, Repr

section Steps

variable {F : Type} [F64 F]

/-- What is detected between two consecutive polls of a run. -/
def rolloversBetween (account : AccountId) (earlier later : SuccessfulPoll F) :
    List (WindowRollover F) :=
  detect account earlier.windows later.windows later.id (some earlier.ts) later.ts

/-- What is detected over a run. -/
def rolloversOf (account : AccountId) : List (SuccessfulPoll F) → List (WindowRollover F)
  | earlier :: later :: polls =>
    rolloversBetween account earlier later ++ rolloversOf account (later :: polls)
  | _ => []

omit [F64 F] in
/-- A rollover with the readings and resets of its two polls. -/
def rolloverOf (account : AccountId) (earlier later : SuccessfulPoll F)
    (before after : QuotaWindow F) (kind : RolloverKind) : WindowRollover F where
  account := account
  window := after.id
  poll := later.id
  observedAt := later.ts
  kind := kind
  prevResetAt := before.resetAt
  newResetAt := after.resetAt
  prevUsed := before.used
  newUsed := after.used
  prevObservedAt := some earlier.ts

omit [F64 F] in
/-- What is made of the elements under one key, when no two have the same. -/
theorem filter_filterMap_key {α β κ : Type} [DecidableEq κ] {f : α → Option β} {key : α → κ}
    {key' : β → κ} (hkey : ∀ a b, f a = some b → key' b = key a) {l : List α} {a : α}
    (hnd : (l.map key).Nodup) (ha : a ∈ l) :
    (l.filterMap f).filter (fun b => key' b == key a) = (f a).toList := by
  induction l with
  | nil => cases ha
  | cons c l ih =>
    obtain ⟨hc, hnd⟩ := List.nodup_cons.mp hnd
    by_cases heq : key c = key a
    · -- every other element has another key
      have hother : ∀ d ∈ l, key d ≠ key a := by
        intro d hd hda
        exact hc (List.mem_map.mpr ⟨d, hd, hda.trans heq.symm⟩)
      obtain rfl : a = c := by
        rcases List.mem_cons.mp ha with rfl | ha
        · rfl
        · exact absurd rfl (hother a ha)
      have hrest : (l.filterMap f).filter (fun b => key' b == key a) = [] := by
        apply List.filter_eq_nil_iff.mpr
        intro b hb hkb
        obtain ⟨d, hd, hdb⟩ := List.mem_filterMap.mp hb
        exact hother d hd ((hkey d b hdb).symm.trans (eq_of_beq hkb))
      cases hfa : f a with
      | none => rw [List.filterMap_cons_none hfa, hrest]; rfl
      | some b =>
        have hb : (key' b == key a) = true := beq_iff_eq.mpr (hkey a b hfa)
        rw [List.filterMap_cons_some hfa, List.filter_cons, if_pos hb, hrest]
        rfl
    · have hal : a ∈ l := by
        rcases List.mem_cons.mp ha with rfl | ha
        · exact absurd rfl heq
        · exact ha
      cases hfc : f c with
      | none => rw [List.filterMap_cons_none hfc]; exact ih hnd hal
      | some b =>
        have hb : ¬ (key' b == key a) = true := by
          rw [beq_iff_eq, hkey c b hfc]
          exact heq
        rw [List.filterMap_cons_some hfc, List.filter_cons, if_neg hb]
        exact ih hnd hal

private theorem rolloversBetween_window {account : AccountId} {earlier later : SuccessfulPoll F}
    {before after : QuotaWindow F} (hearlier : (earlier.windows.map QuotaWindow.id).Nodup)
    (hlater : (later.windows.map QuotaWindow.id).Nodup) (hbefore : before ∈ earlier.windows)
    (hafter : after ∈ later.windows) (hid : before.id = after.id) :
    (rolloversBetween account earlier later).filter (fun r => r.window == after.id) =
      (classify before after later.ts).toList.map
        (rolloverOf account earlier later before after) := by
  unfold rolloversBetween detect
  simp only
  rw [filter_filterMap_key ?_ hlater hafter]
  · rw [← hid, windowsById_get_of_mem hearlier hbefore]
    cases hkind : classify before after later.ts with
    | none => simp [hkind]
    | some kind => simp [hkind, rolloverOf, hid]
  · intro a r hr
    simp only [Option.bind_eq_bind, Option.bind_eq_some_iff, Option.pure_def,
      Option.some.injEq] at hr
    obtain ⟨_, -, _, -, rfl⟩ := hr
    rfl

private theorem rolloversBetween_mem {account : AccountId} {earlier later : SuccessfulPoll F}
    {r : WindowRollover F} (hr : r ∈ rolloversBetween account earlier later) :
    ∃ before ∈ earlier.windows, ∃ after ∈ later.windows,
      before.id = r.window ∧ after.id = r.window := by
  obtain ⟨before, after, hdetected⟩ := detect_mem hr
  have hwindow := hdetected.window_eq
  exact ⟨before, hdetected.before_mem, after, hdetected.after_mem,
    hdetected.before_id.trans hwindow.symm, hwindow.symm⟩

end Steps

/-- Whether a window's resets, where both are known, lie within the tolerance. -/
def ResetHeld (before after : QuotaWindow ℚ) : Prop :=
  ∀ old new, before.resetAt = some old → after.resetAt = some new →
    new ≤ old + Duration.seconds 120 ∧ old ≤ new + Duration.seconds 120

/-- Utilization known on both sides falls by a twentieth of the window or more, to half or less. -/
def Collapses (before after : QuotaWindow ℚ) : Prop :=
  ∃ u v, before.utilization = some u ∧ after.utilization = some v ∧
    1 / 20 ≤ u - v ∧ v ≤ u / 2

/-- What two consecutive readings of a window are reported as, if anything. -/
structure StepVerdict (before after : QuotaWindow ℚ) (observedAt : DateTime)
    (kind : Option RolloverKind) : Prop where
  ahead : ∀ old new, before.resetAt = some old → after.resetAt = some new →
    old + Duration.seconds 120 < new →
    kind = some (if observedAt + Duration.seconds 120 < old then .early else .scheduled)
  back : ∀ old new, before.resetAt = some old → after.resetAt = some new →
    new + Duration.seconds 120 < old → kind = some .retracted
  collapse : ResetHeld before after → Collapses before after → kind = some .unannounced
  quiet : ResetHeld before after → ¬ Collapses before after → kind = none

/-- The readings of a window neither fall nor lose their reset between two polls. -/
def Climbs (id : WindowId) (earlier later : SuccessfulPoll ℚ) : Prop :=
  ∀ before ∈ earlier.windows, ∀ after ∈ later.windows, before.id = id → after.id = id →
    ResetHeld before after ∧
      ∀ u v, before.utilization = some u → after.utilization = some v → u ≤ v

section Exact

variable {before after : QuotaWindow ℚ}

private theorem collapsed_iff : collapsed before after = true ↔ Collapses before after := by
  have hdrop : (minResetDrop : ℚ) = 1 / 20 := by
    change (0.05 : ℚ) = 1 / 20
    norm_num
  have hratio : ∀ u : ℚ, u * resetCollapseRatio = u / 2 := by
    intro u
    change u * (0.5 : ℚ) = u / 2
    rw [div_eq_mul_inv]
    norm_num
  unfold collapsed Collapses
  cases hu : before.utilization with
  | none => simp
  | some u =>
    cases hv : after.utilization with
    | none => simp
    | some v =>
      simp only [isCollapse, hdrop, hratio, Bool.and_eq_true, decide_eq_true_eq]
      constructor
      · rintro ⟨h, h'⟩
        exact ⟨u, v, rfl, rfl, h, h'⟩
      · rintro ⟨u', v', hu', hv', h, h'⟩
        obtain rfl : u = u' := Option.some.inj hu'
        obtain rfl : v = v' := Option.some.inj hv'
        exact ⟨h, h'⟩

private theorem classify_of_held (observedAt : DateTime) (h : ResetHeld before after) :
    classify before after observedAt =
      if collapsed before after then some .unannounced else none := by
  unfold classify
  cases hold : before.resetAt with
  | none => rfl
  | some old =>
    cases hnew : after.resetAt with
    | none => rfl
    | some new =>
      obtain ⟨hle, hback⟩ := h old new hold hnew
      have hahead : ¬ old + resetTolerance < new := Int.not_lt.mpr hle
      have hnot : ¬ new < old - resetTolerance := by
        unfold resetTolerance Duration.seconds at *
        unfold DateTime Duration at *
        omega
      simp only
      rw [if_neg hahead, if_neg hnot]

private theorem classify_verdict (before after : QuotaWindow ℚ) (observedAt : DateTime) :
    StepVerdict before after observedAt (classify before after observedAt) where
  ahead old new hold hnew h := by
    unfold classify
    simp only [hold, hnew]
    rw [if_pos (show old + resetTolerance < new from h)]
    change (if observedAt + Duration.seconds 120 < old then some RolloverKind.early
      else some .scheduled) = _
    split <;> rfl
  back old new hold hnew h := by
    have hnot : ¬ old + resetTolerance < new := by
      unfold resetTolerance Duration.seconds at *
      unfold DateTime Duration at *
      omega
    have hback : new < old - resetTolerance := by
      unfold resetTolerance Duration.seconds at *
      unfold DateTime Duration at *
      omega
    unfold classify
    simp only [hold, hnew]
    rw [if_neg hnot, if_pos hback]
  collapse hheld hcollapse := by
    rw [classify_of_held observedAt hheld, if_pos (collapsed_iff.mpr hcollapse)]
  quiet hheld hnot := by
    rw [classify_of_held observedAt hheld, if_neg fun h => hnot (collapsed_iff.mp h)]

private theorem not_collapses
    (h : ∀ u v, before.utilization = some u → after.utilization = some v → u ≤ v) :
    ¬ Collapses before after := by
  rintro ⟨u, v, hu, hv, hdrop, -⟩
  have hle := h u v hu hv
  linarith

private theorem clamp_mono {x y : ℚ} (h : x ≤ y) : F64.clamp x 0.0 1.0 ≤ F64.clamp y 0.0 1.0 := by
  unfold F64.clamp
  have hbounds : (0.0 : ℚ) ≤ 1.0 := by norm_num
  by_cases hx : x < 0.0
  · rw [if_pos hx]
    split
    · exact le_refl _
    · rename_i hy
      split
      · exact hbounds
      · exact not_lt.mp hy
  · have hy : ¬ y < 0.0 := fun hy => hx (lt_of_le_of_lt h hy)
    rw [if_neg hx, if_neg hy]
    by_cases hx1 : (1.0 : ℚ) < x
    · rw [if_pos hx1, if_pos (lt_of_lt_of_le hx1 h)]
    · rw [if_neg hx1]
      split
      · exact not_lt.mp hx1
      · exact h

private theorem utilizationOf_mono (unit : QuotaUnit) (limit : Option ℚ) {used used' u v : ℚ}
    (h : used ≤ used') (hu : utilizationOf unit used limit = some u)
    (hv : utilizationOf unit used' limit = some v) : u ≤ v := by
  have hlimited : ∀ l : ℚ, (if (0.0 : ℚ) < l then some (F64.clamp (used / l) 0.0 1.0) else none) =
      some u → (if (0.0 : ℚ) < l then some (F64.clamp (used' / l) 0.0 1.0) else none) = some v →
      u ≤ v := by
    intro l hu hv
    split at hu
    · rename_i hl
      rw [if_pos hl] at hv
      rw [← Option.some.inj hu, ← Option.some.inj hv]
      have hpos : (0 : ℚ) ≤ l := by
        have : (0 : ℚ) = 0.0 := by norm_num
        exact this ▸ le_of_lt hl
      exact clamp_mono (div_le_div_of_nonneg_right h hpos)
    · cases hu
  cases unit with
  | percent =>
    rw [← Option.some.inj hu, ← Option.some.inj hv]
    exact clamp_mono (div_le_div_of_nonneg_right h (by norm_num : (0 : ℚ) ≤ 100.0))
  | messages =>
    cases limit with
    | none => cases hu
    | some l => exact hlimited l hu hv
  | tokens =>
    cases limit with
    | none => cases hu
    | some l => exact hlimited l hu hv
  | hours =>
    cases limit with
    | none => cases hu
    | some l => exact hlimited l hu hv

end Exact

section Runs

variable {account : AccountId} {polls : List (SuccessfulPoll ℚ)}

private theorem rolloversBetween_of_climbs {earlier later : SuccessfulPoll ℚ} {id : WindowId}
    (h : Climbs id earlier later) :
    ∀ r ∈ rolloversBetween account earlier later, r.window ≠ id := by
  intro r hr heq
  obtain ⟨before, after, hdetected⟩ := detect_mem hr
  have hafter : after.id = id := hdetected.window_eq.symm.trans heq
  obtain ⟨hheld, hclimbs⟩ := h before hdetected.before_mem after hdetected.after_mem
    (hdetected.before_id.trans hafter) hafter
  have hnone := (classify_verdict before after later.ts).quiet hheld (not_collapses hclimbs)
  rw [hdetected.kind_eq] at hnone
  cases hnone

private theorem rolloversOf_of_climbs {id : WindowId} (h : polls.IsChain (Climbs id)) :
    ∀ r ∈ rolloversOf account polls, r.window ≠ id := by
  induction polls with
  | nil =>
    intro r hr
    exact absurd hr List.not_mem_nil
  | cons earlier polls ih =>
    cases polls with
    | nil =>
      intro r hr
      exact absurd hr List.not_mem_nil
    | cons later polls =>
      obtain ⟨hstep, hrest⟩ := List.isChain_cons_cons.mp h
      intro r hr
      rcases List.mem_append.mp hr with hr | hr
      · exact rolloversBetween_of_climbs hstep r hr
      · exact ih hrest r hr

/-- Every step of a run is classified by its two readings alone, and a run in which the
utilization of a window never falls and its reset holds still reports nothing of it. On an
unchanged scale utilization does not fall when `used` does not. -/
theorem rollovers_of_run (account : AccountId) (polls : List (SuccessfulPoll ℚ))
    (hnd : ∀ poll ∈ polls, (poll.windows.map QuotaWindow.id).Nodup) :
    (polls.IsChain fun earlier later =>
      (∀ before ∈ earlier.windows, ∀ after ∈ later.windows, before.id = after.id →
        ∃ kind, StepVerdict before after later.ts kind ∧
          (rolloversBetween account earlier later).filter (fun r => r.window == after.id) =
            kind.toList.map (rolloverOf account earlier later before after)) ∧
      ∀ r ∈ rolloversBetween account earlier later,
        ∃ before ∈ earlier.windows, ∃ after ∈ later.windows,
          before.id = r.window ∧ after.id = r.window) ∧
    (∀ id, polls.IsChain (Climbs id) → ∀ r ∈ rolloversOf account polls, r.window ≠ id) ∧
    ∀ before after : QuotaWindow ℚ, before.unit = after.unit → before.limit = after.limit →
      before.used ≤ after.used →
      ∀ u v, before.utilization = some u → after.utilization = some v → u ≤ v := by
  refine ⟨?_, fun id h => rolloversOf_of_climbs h, ?_⟩
  · rw [List.isChain_iff_forall_rel_of_append_cons_cons]
    intro earlier later first rest hsplit
    have hearlier := hnd earlier (hsplit ▸ by simp)
    have hlater := hnd later (hsplit ▸ by simp)
    refine ⟨?_, fun r hr => rolloversBetween_mem hr⟩
    intro before hbefore after hafter hid
    exact ⟨_, classify_verdict before after later.ts,
      rolloversBetween_window hearlier hlater hbefore hafter hid⟩
  · intro before after hunit hlimit hused u v hu hv
    unfold QuotaWindow.utilization at hu hv
    rw [hunit, hlimit] at hu
    exact utilizationOf_mono after.unit after.limit hused hu hv

private def countedWindow (used limit : ℚ) : QuotaWindow ℚ where
  id := ⟨"weekly"⟩
  label := "weekly"
  scope := .accountWide
  resetKind := .rolling (604800 * 1000000000)
  unit := .messages
  used := used
  limit := some limit
  resetAt := some (Duration.days 7)

private def countedPoll (n : Nat) (used limit : ℚ) : SuccessfulPoll ℚ where
  id := Fin.ofNat _ n
  ts := Duration.seconds (180 * n)
  windows := [countedWindow used limit]

theorem rollovers_of_run_climbing :
    (rolloversOf ⟨"work"⟩ [countedPoll 0 80 100, countedPoll 1 85 100]).filter
      (fun r => r.window == ⟨"weekly"⟩) = [] := by
  have hscale := (rollovers_of_run ⟨"work"⟩ [] (by simp)).2.2 (countedWindow 80 100)
    (countedWindow 85 100) rfl rfl (by decide)
  have hclimbs : [countedPoll 0 80 100, countedPoll 1 85 100].IsChain (Climbs ⟨"weekly"⟩) := by
    apply List.isChain_pair.mpr
    intro before hbefore after hafter _ _
    obtain rfl := List.mem_singleton.mp hbefore
    obtain rfl := List.mem_singleton.mp hafter
    refine ⟨?_, hscale⟩
    intro old new hold hnew
    cases hold
    cases hnew
    decide
  have hquiet := (rollovers_of_run ⟨"work"⟩ [countedPoll 0 80 100, countedPoll 1 85 100]
    (by decide)).2.1 ⟨"weekly"⟩ hclimbs
  apply List.filter_eq_nil_iff.mpr
  intro r hr
  simpa using hquiet r hr

/-- A limit that is raised lowers the utilization of a window whose `used` stays as it is, which
is reported as a restart. -/
theorem raised_limit_reported_as_restart :
    ¬ ∀ (account : AccountId) (polls : List (SuccessfulPoll ℚ)) (id : WindowId),
      (∀ poll ∈ polls, (poll.windows.map QuotaWindow.id).Nodup) →
      (polls.IsChain fun earlier later =>
        ∀ before ∈ earlier.windows, ∀ after ∈ later.windows, before.id = id → after.id = id →
          ResetHeld before after ∧ before.used ≤ after.used) →
      ∀ r ∈ rolloversOf account polls, r.window ≠ id := by
  intro h
  let raised : List (SuccessfulPoll ℚ) := [countedPoll 0 80 100, countedPoll 1 80 200]
  have hquiet := h ⟨"work"⟩ raised ⟨"weekly"⟩ (by decide) (by
    apply List.isChain_pair.mpr
    intro before hbefore after hafter _ _
    obtain rfl := List.mem_singleton.mp hbefore
    obtain rfl := List.mem_singleton.mp hafter
    refine ⟨?_, le_refl _⟩
    intro old new hold hnew
    cases hold
    cases hnew
    decide)
  have hfound : (rolloversOf ⟨"work"⟩ raised).map (fun r => (r.window, r.kind)) =
      [(⟨"weekly"⟩, .unannounced)] := by decide +kernel
  have hmem : (⟨"weekly"⟩, RolloverKind.unannounced) ∈
      (rolloversOf ⟨"work"⟩ raised).map (fun r => (r.window, r.kind)) := by
    rw [hfound]
    exact List.mem_singleton.mpr rfl
  obtain ⟨r, hr, heq⟩ := List.mem_map.mp hmem
  exact hquiet r hr (congrArg Prod.fst heq)

end Runs
end Teiryo
