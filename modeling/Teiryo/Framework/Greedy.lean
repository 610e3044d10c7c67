import Mathlib.Data.List.Infix

/-!
# Taking while a budget lasts

Elements are taken from the front of a list, each charged to a running total, and the first one that
goes over the budget ends it. Where a total over the budget never comes back within it, what is
taken is the longest prefix within the budget.
-/

namespace Teiryo.Greedy

variable {α σ : Type} (charge : σ → α → σ) (within : σ → Prop) [DecidablePred within]

/-- What is taken from the front. -/
def taken : σ → List α → List α
  | _, [] => []
  | s, a :: as => if within (charge s a) then a :: taken (charge s a) as else []

variable {charge within} {s : σ} {as part : List α}

theorem taken_prefix : taken charge within s as <+: as := by
  induction as generalizing s with
  | nil => exact List.prefix_rfl
  | cons a as ih =>
    rw [taken]
    split
    · exact List.cons_prefix_cons.mpr ⟨rfl, ih⟩
    · exact List.nil_prefix

/-- What is taken stays within the budget. -/
theorem within_taken (hs : within s) : within ((taken charge within s as).foldl charge s) := by
  induction as generalizing s with
  | nil => exact hs
  | cons a as ih =>
    rw [taken]
    by_cases hnext : within (charge s a)
    · rw [if_pos hnext, List.foldl_cons]
      exact ih hnext
    · rw [if_neg hnext]
      exact hs

omit [DecidablePred within] in
/-- A total within the budget came from totals within it. -/
theorem within_of_foldl (hback : ∀ s a, within (charge s a) → within s)
    (h : within (part.foldl charge s)) : within s := by
  induction part generalizing s with
  | nil => exact h
  | cons a part ih => exact hback s a (ih h)

/-- Every prefix within the budget is one of what is taken. -/
theorem prefix_taken (hback : ∀ s a, within (charge s a) → within s) (hpart : part <+: as)
    (h : within (part.foldl charge s)) : part <+: taken charge within s as := by
  induction as generalizing s part with
  | nil => rwa [taken]
  | cons a as ih =>
    cases part with
    | nil => exact List.nil_prefix
    | cons b part =>
      obtain ⟨rfl, hrest⟩ := List.cons_prefix_cons.mp hpart
      rw [List.foldl_cons] at h
      rw [taken, if_pos (within_of_foldl hback h)]
      exact List.cons_prefix_cons.mpr ⟨rfl, ih hrest h⟩

end Teiryo.Greedy
