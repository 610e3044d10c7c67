import Mathlib.Tactic.Common

/-!
# Taking successful computations apart

A successful `>>=` had a successful first half. With the lemmas here a proof peels a fallible
computation with `obtain` and never unfolds the monad.
-/

namespace Teiryo

variable {ε α β : Type}

theorem bind_eq_ok {x : Except ε α} {f : α → Except ε β} {r : β} :
    (x >>= f) = .ok r ↔ ∃ a, x = .ok a ∧ f a = .ok r := by
  constructor
  · intro h
    cases x with
    | error e => cases h
    | ok a => exact ⟨a, rfl, h⟩
  · rintro ⟨a, rfl, h⟩
    exact h

theorem foldlM_cons_eq_ok {step : β → α → Except ε β} {a : α} {as : List α} {s r : β} :
    (a :: as).foldlM step s = .ok r ↔ ∃ m, step s a = .ok m ∧ as.foldlM step m = .ok r := by
  rw [List.foldlM_cons, bind_eq_ok]

theorem foldlM_append_eq_ok {step : β → α → Except ε β} {as bs : List α} {s r : β} :
    (as ++ bs).foldlM step s = .ok r ↔
      ∃ m, as.foldlM step s = .ok m ∧ bs.foldlM step m = .ok r := by
  rw [List.foldlM_append, bind_eq_ok]

/-- What every successful step keeps, a successful fold keeps. -/
theorem foldlM_invariant {step : β → α → Except ε β} {Inv : β → Prop} {as : List α} {s r : β}
    (h : as.foldlM step s = .ok r) (hinit : Inv s)
    (hstep : ∀ s a r, Inv s → step s a = .ok r → Inv r) : Inv r := by
  induction as generalizing s with
  | nil =>
    cases h
    exact hinit
  | cons a as ih =>
    obtain ⟨m, hm, hrest⟩ := foldlM_cons_eq_ok.mp h
    exact ih hrest (hstep s a m hinit hm)

/-- When every element decodes, `mapM` is `map`. -/
theorem mapM_eq_ok_map {f : α → Except ε β} {g : α → β} {as : List α}
    (h : ∀ a ∈ as, f a = .ok (g a)) : as.mapM f = .ok (as.map g) := by
  induction as with
  | nil => rfl
  | cons a as ih =>
    rw [List.mapM_cons, h a List.mem_cons_self,
      ih fun b hb => h b (List.mem_cons_of_mem _ hb)]
    rfl

/-- A successful `mapM` gives as many results as it was given elements. -/
theorem length_of_mapM {f : α → Except ε β} {as : List α} {bs : List β}
    (h : as.mapM f = .ok bs) : bs.length = as.length := by
  induction as generalizing bs with
  | nil =>
    cases h
    rfl
  | cons a as ih =>
    rw [List.mapM_cons] at h
    obtain ⟨b, -, hrest⟩ := bind_eq_ok.mp h
    obtain ⟨bs', hbs, hcons⟩ := bind_eq_ok.mp hrest
    cases hcons
    rw [List.length_cons, List.length_cons, ih hbs]

end Teiryo
