import Mathlib.Data.List.Nodup
import Mathlib.Tactic.Common

/-!
# The first of each key

A scan that keeps an element unless its key was taken, by an element kept before or from the
start.
-/

namespace Teiryo.Firsts

variable {α β κ : Type} [DecidableEq κ] {key : α → κ}

/-- The elements whose keys are not taken yet, in their order. -/
def firsts (key : α → κ) : List κ → List α → List α
  | _, [] => []
  | taken, a :: l =>
    if key a ∈ taken then firsts key taken l else a :: firsts key (key a :: taken) l

/-- Put an element behind the others, unless one of them has its key. -/
def add (key : α → κ) (kept : List α) (a : α) : List α :=
  if kept.any fun b => key b == key a then kept else kept ++ [a]

/-- Only which keys are taken matters. -/
theorem firsts_congr {taken taken' : List κ} {l : List α}
    (h : ∀ a ∈ l, key a ∈ taken ↔ key a ∈ taken') : firsts key taken l = firsts key taken' l := by
  induction l generalizing taken taken' with
  | nil => rfl
  | cons a l ih =>
    have hl : ∀ b ∈ l, key b ∈ taken ↔ key b ∈ taken' :=
      fun b hb => h b (List.mem_cons_of_mem _ hb)
    have hcons : ∀ b ∈ l, key b ∈ key a :: taken ↔ key b ∈ key a :: taken' := by
      intro b hb
      rw [List.mem_cons, List.mem_cons, hl b hb]
    simp only [firsts, h a List.mem_cons_self, ih hl, ih hcons]

theorem mem_add_any {kept : List α} {a : α} :
    (kept.any fun b => key b == key a) = true ↔ key a ∈ kept.map key := by
  simp only [List.any_eq_true, beq_iff_eq, List.mem_map]

/-- Adding one by one keeps the first of each key. -/
theorem foldl_add (kept l : List α) :
    l.foldl (add key) kept = kept ++ firsts key (kept.map key) l := by
  induction l generalizing kept with
  | nil => simp [firsts]
  | cons a l ih =>
    rw [List.foldl_cons, ih, firsts]
    unfold add
    by_cases h : key a ∈ kept.map key
    · rw [if_pos (mem_add_any.mpr h), if_pos h]
    · rw [if_neg (mt mem_add_any.mp h), if_neg h, List.append_assoc, List.singleton_append]
      have hcongr : firsts key ((kept ++ [a]).map key) l =
          firsts key (key a :: kept.map key) l := by
        apply firsts_congr
        intro b _
        simp [or_comm]
      rw [hcongr]

theorem firsts_sublist (taken : List κ) (l : List α) : (firsts key taken l).Sublist l := by
  induction l generalizing taken with
  | nil => exact List.Sublist.refl _
  | cons a l ih =>
    unfold firsts
    split
    · exact (ih taken).cons a
    · exact (ih _).cons_cons a

theorem key_mem_firsts {taken : List κ} {l : List α} {k : κ} :
    k ∈ (firsts key taken l).map key ↔ k ∉ taken ∧ k ∈ l.map key := by
  induction l generalizing taken with
  | nil => simp [firsts]
  | cons a l ih =>
    unfold firsts
    split
    · rename_i htaken
      rw [ih, List.map_cons, List.mem_cons]
      constructor
      · rintro ⟨hk, hmem⟩
        exact ⟨hk, .inr hmem⟩
      · rintro ⟨hk, rfl | hmem⟩
        · exact absurd htaken hk
        · exact ⟨hk, hmem⟩
    · rename_i hfree
      rw [List.map_cons, List.mem_cons, ih, List.map_cons, List.mem_cons, List.mem_cons]
      constructor
      · rintro (rfl | ⟨hk, hmem⟩)
        · exact ⟨hfree, .inl rfl⟩
        · exact ⟨fun h => hk (.inr h), .inr hmem⟩
      · rintro ⟨hk, rfl | hmem⟩
        · exact .inl rfl
        · by_cases heq : k = key a
          · exact .inl heq
          · exact .inr ⟨fun h => h.elim heq hk, hmem⟩

theorem firsts_append (taken : List κ) (l l' : List α) :
    firsts key taken (l ++ l') = firsts key taken l ++ firsts key (taken ++ l.map key) l' := by
  induction l generalizing taken with
  | nil => simp [firsts]
  | cons a l ih =>
    rw [List.cons_append, firsts, firsts]
    by_cases h : key a ∈ taken
    · rw [if_pos h, if_pos h, ih]
      congr 1
      apply firsts_congr
      intro b _
      simp only [List.map_cons, List.mem_append, List.mem_cons]
      constructor
      · rintro (hb | hb)
        · exact .inl hb
        · exact .inr (.inr hb)
      · rintro (hb | hb | hb)
        · exact .inl hb
        · exact .inl (hb ▸ h)
        · exact .inr hb
    · rw [if_neg h, if_neg h, ih, List.cons_append]
      congr 2
      apply firsts_congr
      intro b _
      simp [or_left_comm]

/-- An element whose key is taken before it comes leaves no trace. -/
theorem firsts_skip {taken : List κ} {before after : List α} {a : α}
    (h : key a ∈ taken ∨ key a ∈ before.map key) :
    firsts key taken (before ++ a :: after) = firsts key taken (before ++ after) := by
  rw [firsts_append, firsts_append, firsts, if_pos (List.mem_append.mpr h)]

/-- Elements may be left out key by key before the scan or after it. -/
theorem firsts_filter {p : α → Bool} {taken : List κ} {l : List α}
    (hp : ∀ a ∈ l, ∀ b ∈ l, key a = key b → p a = p b) :
    (firsts key taken l).filter p = firsts key taken (l.filter p) := by
  induction l generalizing taken with
  | nil => rfl
  | cons a l ih =>
    have hl : ∀ b ∈ l, ∀ c ∈ l, key b = key c → p b = p c :=
      fun b hb c hc => hp b (List.mem_cons_of_mem _ hb) c (List.mem_cons_of_mem _ hc)
    change (if key a ∈ taken then firsts key taken l
      else a :: firsts key (key a :: taken) l).filter p = _
    by_cases htaken : key a ∈ taken
    · rw [if_pos htaken, ih hl]
      cases hpa : p a with
      | true => rw [List.filter_cons_of_pos hpa]; simp only [firsts, if_pos htaken]
      | false => rw [List.filter_cons_of_neg (by simp [hpa])]
    · rw [if_neg htaken]
      cases hpa : p a with
      | true =>
        rw [List.filter_cons_of_pos hpa, List.filter_cons_of_pos hpa, ih hl]
        simp only [firsts, if_neg htaken]
      | false =>
        have hneg : ¬ p a = true := by simp [hpa]
        rw [List.filter_cons_of_neg hneg, List.filter_cons_of_neg hneg, ih hl]
        -- no element that passes has the key `a` took
        apply firsts_congr
        intro b hb
        obtain ⟨hbl, hpb⟩ := List.mem_filter.mp hb
        have hne : key b ≠ key a := by
          intro heq
          have := hp b (List.mem_cons_of_mem _ hbl) a List.mem_cons_self heq
          rw [hpb, hpa] at this
          cases this
        simp [hne]

/-- An element whose key no kept element has may be left out before the scan. -/
theorem firsts_drop {q : α → Bool} {taken : List κ} {before after : List α} {a : α}
    (hq : ∀ b c, key b = key c → q b = q c)
    (ha : key a ∈ taken ∨ key a ∈ before.map key ∨ q a = false) :
    (firsts key taken (before ++ a :: after)).filter q =
      (firsts key taken (before ++ after)).filter q := by
  by_cases hqa : q a = false
  · have hneg : ¬ q a = true := by simp [hqa]
    rw [firsts_filter fun b _ c _ => hq b c, firsts_filter fun b _ c _ => hq b c,
      List.filter_append, List.filter_append, List.filter_cons_of_neg hneg]
  · have hskip : key a ∈ taken ∨ key a ∈ before.map key := by
      rcases ha with h | h | h
      · exact .inl h
      · exact .inr h
      · exact absurd h hqa
    rw [firsts_skip hskip]

/-- The first element of a free key is kept. -/
theorem mem_firsts_of_free {taken : List κ} {before after : List α} {a : α}
    (htaken : key a ∉ taken) (hbefore : key a ∉ before.map key) :
    a ∈ firsts key taken (before ++ a :: after) := by
  have hfree : key a ∉ taken ++ before.map key := by
    intro h
    exact (List.mem_append.mp h).elim htaken hbefore
  rw [firsts_append, firsts, if_neg hfree]
  exact List.mem_append_right _ List.mem_cons_self

theorem firsts_map (f : β → α) (taken : List κ) (l : List β) :
    firsts key taken (l.map f) = (firsts (fun b => key (f b)) taken l).map f := by
  induction l generalizing taken with
  | nil => rfl
  | cons b l ih =>
    simp only [List.map_cons, firsts]
    split
    · exact ih taken
    · rw [ih, List.map_cons]

end Teiryo.Firsts
