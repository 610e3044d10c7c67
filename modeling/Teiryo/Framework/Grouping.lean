import Mathlib.Data.List.Nodup
import Mathlib.Tactic.Common

/-!
# Rows grouped by a key

A map filled through its entry API: every item changes the row of its key, which is made when the
first of them comes. Rows are kept in the order they were made; whoever reads them all sorts them.
-/

namespace Teiryo.Grouping

variable {K R ι : Type} [DecidableEq K] (key : R → K) (fresh : K → R)

/-- The row of a key. -/
def row? (rows : List R) (k : K) : Option R := rows.find? fun r => decide (key r = k)

/-- Change the row of a key, or a fresh one. -/
def entry (rows : List R) (k : K) (change : R → R) : List R :=
  if (row? key rows k).isSome then rows.map fun r => if key r = k then change r else r
  else rows ++ [change (fresh k)]

/-- Let every item change the row of its key. -/
def group (of : ι → K) (change : ι → R → R) (rows : List R) (items : List ι) : List R :=
  items.foldl (fun rows i => entry key fresh rows (of i) (change i)) rows

variable {key fresh} {rows : List R} {k : K}

theorem row?_eq_none_iff : row? key rows k = none ↔ k ∉ rows.map key := by
  rw [row?, List.find?_eq_none, List.mem_map]
  constructor
  · rintro h ⟨r, hr, hk⟩
    exact h r hr (decide_eq_true hk)
  · intro h r hr hk
    exact h ⟨r, hr, of_decide_eq_true hk⟩

theorem row?_isSome_iff : (row? key rows k).isSome ↔ k ∈ rows.map key := by
  rw [Option.isSome_iff_ne_none, ne_eq, row?_eq_none_iff, not_not]

theorem key_of_row? {r : R} (h : row? key rows k = some r) : key r = k := by
  have hk := List.find?_some h
  exact of_decide_eq_true hk

/-- With distinct keys, a row is the one of its key. -/
theorem mem_iff_row? (hnodup : (rows.map key).Nodup) {r : R} :
    r ∈ rows ↔ row? key rows (key r) = some r := by
  constructor
  · intro hr
    induction rows with
    | nil => cases hr
    | cons r' rows ih =>
      rw [List.map_cons, List.nodup_cons] at hnodup
      rw [row?, List.find?_cons]
      rcases List.mem_cons.mp hr with rfl | hr
      · simp
      · have hne : key r' ≠ key r := by
          intro heq
          exact hnodup.1 (heq ▸ List.mem_map_of_mem hr)
        simp only [hne, decide_false]
        exact ih hnodup.2 hr
  · exact List.mem_of_find?_eq_some

section Entry

variable (hfresh : ∀ k, key (fresh k) = k) {change : R → R}
  (hchange : ∀ r, key (change r) = key r)
include hfresh hchange

/-- The entry of a key changes its row and no other. -/
theorem row?_entry (k' : K) :
    row? key (entry key fresh rows k change) k' =
      if k' = k then some (change ((row? key rows k).getD (fresh k))) else row? key rows k' := by
  unfold entry
  split
  · rename_i hsome
    have hkey : ∀ r, key (if key r = k then change r else r) = key r := by
      intro r
      split
      · exact hchange r
      · rfl
    have hmap : row? key (rows.map fun r => if key r = k then change r else r) k' =
        (row? key rows k').map fun r => if key r = k then change r else r := by
      rw [row?, List.find?_map]
      congr 1
      rw [row?]
      congr 1
      funext r
      exact congrArg (fun x => decide (x = k')) (hkey r)
    obtain ⟨r, hr⟩ := Option.isSome_iff_exists.mp hsome
    rw [hmap]
    split
    · rename_i hk
      rw [hk, hr, Option.map_some, if_pos (key_of_row? hr)]
      rfl
    · rename_i hk
      cases hr' : row? key rows k' with
      | none => rfl
      | some r' =>
        have hne : key r' ≠ k := by
          rw [key_of_row? hr']
          exact hk
        rw [Option.map_some, if_neg hne]
  · rename_i hnone
    have hnone' : row? key rows k = none := Option.not_isSome_iff_eq_none.mp hnone
    have hlast : row? key [change (fresh k)] k' =
        if k' = k then some (change (fresh k)) else none := by
      rw [row?, List.find?_singleton, hchange, hfresh]
      by_cases hk : k' = k
      · simp [hk]
      · simp [hk, Ne.symm hk]
    rw [row?, List.find?_append]
    change (row? key rows k').or (row? key [change (fresh k)] k') = _
    rw [hlast]
    split
    · rename_i hk
      rw [hk, hnone', Option.none_or]
      rfl
    · exact Option.or_none

theorem nodup_entry (hnodup : (rows.map key).Nodup) :
    ((entry key fresh rows k change).map key).Nodup := by
  unfold entry
  split
  · rw [List.map_map]
    have hsame : key ∘ (fun r => if key r = k then change r else r) = key := by
      funext r
      simp only [Function.comp_apply]
      split
      · exact hchange r
      · rfl
    rw [hsame]
    exact hnodup
  · rename_i hnone
    rw [List.map_append, List.map_cons, List.map_nil, hchange, hfresh, List.nodup_append]
    refine ⟨hnodup, List.nodup_singleton k, ?_⟩
    rintro k' hk' k'' hk'' rfl
    obtain rfl := List.mem_singleton.mp hk''
    exact hnone (row?_isSome_iff.mpr hk')

end Entry

section Group

variable (hfresh : ∀ k, key (fresh k) = k) {of : ι → K} {change : ι → R → R}
  (hchange : ∀ i r, key (change i r) = key r)
include hfresh hchange

theorem nodup_group (hnodup : (rows.map key).Nodup) (items : List ι) :
    ((group key fresh of change rows items).map key).Nodup := by
  induction items generalizing rows with
  | nil => exact hnodup
  | cons i items ih => exact ih (nodup_entry hfresh (hchange i) hnodup)

/-- A row is what the items of its key made of it, in their order. -/
theorem row?_group (items : List ι) (k : K) :
    row? key (group key fresh of change rows items) k =
      if (items.filter fun i => decide (of i = k)) = [] then row? key rows k
      else some ((items.filter fun i => decide (of i = k)).foldl (fun r i => change i r)
        ((row? key rows k).getD (fresh k))) := by
  induction items generalizing rows with
  | nil => rfl
  | cons i items ih =>
    rw [group, List.foldl_cons]
    refine ih.trans ?_
    rw [row?_entry hfresh (hchange i), List.filter_cons]
    by_cases hk : of i = k
    · subst hk
      simp only [decide_true, if_true, List.foldl_cons, Option.getD_some]
      split
      · rename_i hnil
        rw [hnil, if_neg (List.cons_ne_nil _ _), List.foldl_nil]
      · rw [if_neg (List.cons_ne_nil _ _)]
    · simp only [hk, decide_false, Ne.symm hk, if_false, Bool.false_eq_true]

end Group

end Teiryo.Grouping
