import Mathlib.Data.List.Destutter
import Mathlib.Data.List.Sort
import Mathlib.Order.Basic
import Mathlib.Tactic.Common

/-!
# Lists in the order of a key

A stable sort by a key that keeps the first element of each. The result is strictly increasing
and has every key; where no two elements share one, it depends on the set of elements alone.
-/

namespace Teiryo.InOrder

variable {α κ : Type}

/-- No two elements have one key. -/
def Distinct (key : α → κ) (l : List α) : Prop := ∀ a ∈ l, ∀ b ∈ l, key a = key b → a = b

variable [LinearOrder κ] {key : α → κ}

/-- Sort by the key, then leave out what repeats the key of its predecessor. -/
def byKey (key : α → κ) (l : List α) : List α :=
  (l.mergeSort fun a b => decide (key a ≤ key b)).destutter fun a b => key a ≠ key b

theorem pairwise_mergeSort_key (l : List α) :
    (l.mergeSort fun a b => decide (key a ≤ key b)).Pairwise fun a b => key a ≤ key b := by
  have h : (l.mergeSort fun a b => decide (key a ≤ key b)).Pairwise
      fun a b => decide (key a ≤ key b) = true := by
    apply List.pairwise_mergeSort
    · intro a b c hab hbc
      exact decide_eq_true ((of_decide_eq_true hab).trans (of_decide_eq_true hbc))
    · intro a b
      rw [Bool.or_eq_true, decide_eq_true_eq, decide_eq_true_eq]
      exact le_total _ _
  exact h.imp of_decide_eq_true

theorem pairwise_byKey (l : List α) : (byKey key l).Pairwise fun a b => key a < key b := by
  have hle : (byKey key l).IsChain fun a b => key a ≤ key b :=
    ((pairwise_mergeSort_key l).sublist (List.destutter_sublist _ _)).isChain
  have hne : (byKey key l).IsChain fun a b => key a ≠ key b := List.isChain_destutter _ _
  have hlt : (byKey key l).IsChain fun a b => key a < key b := by
    rw [List.isChain_iff_getElem] at hle hne ⊢
    intro i hi
    exact lt_of_le_of_ne (hle i hi) (hne i hi)
  have htrans : IsTrans α fun a b => key a < key b := ⟨fun _ _ _ => lt_trans⟩
  exact List.isChain_iff_pairwise.mp hlt

theorem byKey_subset {l : List α} {a : α} (h : a ∈ byKey key l) : a ∈ l :=
  List.mem_mergeSort.mp ((List.destutter_sublist _ _).subset h)

/-- The sort is stable: the elements of one key stay in their order. -/
theorem filter_mergeSort_key (l : List α) (k : κ) :
    (l.mergeSort fun a b => decide (key a ≤ key b)).filter (fun a => key a = k) =
      l.filter fun a => key a = k := by
  have hequal : (l.filter fun a => key a = k).Pairwise
      fun a b => decide (key a ≤ key b) = true := by
    apply List.pairwise_of_forall_mem_list
    intro a ha b hb
    have hka : key a = k := of_decide_eq_true (List.mem_filter.mp ha).2
    have hkb : key b = k := of_decide_eq_true (List.mem_filter.mp hb).2
    rw [hka, hkb]
    exact decide_eq_true le_rfl
  have hsub := List.sublist_mergeSort
    (fun a b c hab hbc => decide_eq_true ((of_decide_eq_true hab).trans (of_decide_eq_true hbc)))
    (fun a b => by
      rw [Bool.or_eq_true, decide_eq_true_eq, decide_eq_true_eq]
      exact le_total _ _) hequal List.filter_sublist
  have hown := hsub.filter fun a => decide (key a = k)
  simp only [List.filter_filter, Bool.and_self] at hown
  exact (hown.eq_of_length
    ((List.mergeSort_perm l _).filter fun a => decide (key a = k)).length_eq.symm).symm

private theorem find?_key_cons (a b : α) (l : List α) :
    (b :: l).find? (fun c => decide (key c = key a)) =
      if key b = key a then some b else l.find? fun c => decide (key c = key a) := by
  by_cases hkey : key b = key a <;> simp [hkey]

private theorem mem_destutter'_iff {b : α} {l : List α}
    (h : (b :: l).Pairwise fun a b => key a ≤ key b) (a : α) :
    a ∈ l.destutter' (fun a b => key a ≠ key b) b ↔
      (b :: l).find? (fun c => decide (key c = key a)) = some a := by
  induction l generalizing b with
  | nil =>
    rw [List.destutter'_nil, List.mem_singleton, find?_key_cons, List.find?_nil]
    by_cases hkey : key b = key a
    · rw [if_pos hkey, Option.some.injEq, eq_comm]
    · rw [if_neg hkey]
      exact iff_of_false (fun heq => hkey (congrArg key heq).symm) (Option.some_ne_none a).symm
  | cons d l ih =>
    rw [find?_key_cons]
    by_cases hne : key b ≠ key d
    · rw [List.destutter'_cons_pos l hne, List.mem_cons, ih h.tail]
      by_cases hkey : key b = key a
      · rw [if_pos hkey, Option.some.injEq]
        constructor
        · rintro (rfl | hfind)
          · rfl
          · -- whatever comes after has a larger key
            have hlt : key b < key d := lt_of_le_of_ne ((List.pairwise_cons.mp h).1 d (by simp)) hne
            have hle : key d ≤ key a := by
              rcases List.mem_cons.mp (List.mem_of_find?_eq_some hfind) with rfl | hmem
              · exact le_rfl
              · exact (List.pairwise_cons.mp h.tail).1 a hmem
            exact absurd hkey (hlt.trans_le hle).ne
        · intro heq
          exact .inl heq.symm
      · have hab : a ≠ b := fun heq => hkey (congrArg key heq).symm
        rw [if_neg hkey, or_iff_right hab]
    · have hbd : key b = key d := not_not.mp hne
      rw [List.destutter'_cons_neg l hne, ih (h.sublist (.cons_cons b (.cons d (.refl l)))),
        find?_key_cons, find?_key_cons a d]
      by_cases hkey : key b = key a
      · rw [if_pos hkey, if_pos hkey]
      · rw [if_neg hkey, if_neg hkey, if_neg (hbd ▸ hkey)]

/-- What is kept is the first of its key. -/
theorem mem_byKey_iff {l : List α} {a : α} :
    a ∈ byKey key l ↔ l.find? (fun b => key b = key a) = some a := by
  have hsorted := @pairwise_mergeSort_key α κ _ key l
  have hfind : l.find? (fun b => key b = key a) =
      (l.mergeSort fun a b => decide (key a ≤ key b)).find? fun b => key b = key a := by
    rw [← List.head?_filter, ← List.head?_filter, filter_mergeSort_key]
  rw [hfind]
  unfold byKey
  cases hl : l.mergeSort fun a b => decide (key a ≤ key b) with
  | nil => simp
  | cons b rest =>
    rw [hl] at hsorted
    exact mem_destutter'_iff hsorted a

/-- Every key is there. -/
theorem exists_mem_byKey {l : List α} {a : α} (h : a ∈ l) : ∃ b ∈ byKey key l, key b = key a := by
  cases hfind : l.find? fun b => key b = key a with
  | none => exact absurd (decide_eq_true rfl) (List.find?_eq_none.mp hfind a h)
  | some b =>
    have hkey : key b = key a := by simpa using List.find?_some hfind
    exact ⟨b, mem_byKey_iff.mpr (by rw [hkey]; exact hfind), hkey⟩

/-- A list in strict order is what its elements are. -/
theorem eq_of_mem_iff {l l' : List α} (h : l.Pairwise fun a b => key a < key b)
    (h' : l'.Pairwise fun a b => key a < key b) (hmem : ∀ a, a ∈ l ↔ a ∈ l') : l = l' := by
  have hirrefl : Std.Irrefl fun a b : α => key a < key b := ⟨fun _ => lt_irrefl _⟩
  have hantisymm : Std.Antisymm fun a b : α => key a < key b :=
    ⟨fun _ _ hab hba => absurd hba hab.asymm⟩
  exact h.eq_of_mem_iff h' hmem

theorem Distinct.mem_byKey_iff {l : List α} (h : Distinct key l) {a : α} :
    a ∈ byKey key l ↔ a ∈ l := by
  constructor
  · exact byKey_subset
  · intro ha
    obtain ⟨b, hb, hkey⟩ : ∃ b ∈ byKey key l, key b = key a := exists_mem_byKey ha
    rw [← h b (byKey_subset hb) a ha hkey]
    exact hb

/-- Neither the order of the elements matters nor how often they occur. -/
theorem Distinct.byKey_congr {l l' : List α} (h : Distinct key l) (hmem : ∀ a, a ∈ l' ↔ a ∈ l) :
    byKey key l' = byKey key l := by
  have h' : Distinct key l' := fun a ha b hb => h a ((hmem a).mp ha) b ((hmem b).mp hb)
  apply eq_of_mem_iff (pairwise_byKey l') (pairwise_byKey l)
  intro a
  rw [h'.mem_byKey_iff, h.mem_byKey_iff, hmem]

/-- Leaving out keys before or after comes to the same. -/
theorem byKey_filter (q : κ → Bool) (l : List α) :
    byKey key (l.filter fun a => q (key a)) = (byKey key l).filter fun a => q (key a) := by
  apply eq_of_mem_iff (pairwise_byKey _) ((pairwise_byKey l).sublist List.filter_sublist)
  intro a
  rw [List.mem_filter, mem_byKey_iff, mem_byKey_iff, List.find?_filter]
  have hboth : (fun b => decide (q (key b) = true ∧ decide (key b = key a) = true)) =
      fun b => q (key a) && decide (key b = key a) := by
    funext b
    by_cases hkey : key b = key a
    · rw [hkey]
      simp
    · simp [hkey]
  rw [hboth]
  cases q (key a) with
  | true => simp only [Bool.true_and, and_true]
  | false =>
    have hnone : l.find? (fun _ => false) = none :=
      List.find?_eq_none.mpr fun _ _ => Bool.false_ne_true
    simp [hnone]

/-- What is in strict order stays as it is. -/
theorem byKey_of_pairwise {l : List α} (h : l.Pairwise fun a b => key a < key b) :
    byKey key l = l := by
  unfold byKey
  rw [List.mergeSort_of_pairwise (h.imp fun hlt => decide_eq_true hlt.le)]
  exact List.destutter_of_isChain _ l (h.imp fun hlt => hlt.ne).isChain

end Teiryo.InOrder
