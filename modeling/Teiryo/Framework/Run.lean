import Mathlib.Data.List.Basic
import Mathlib.Tactic.Common

/-!
# Runs of a step function

A run folds a step function over a list of inputs. `StepsMeet` says that every input of a run
meets a condition in the state it is applied to; an invariant that is preserved by the steps
meeting the condition then holds in every state such a run reaches.
-/

namespace Teiryo

variable {σ ι : Type}

/-- Every input meets `ok` in the state the run has reached before it. -/
def StepsMeet (step : σ → ι → σ) (ok : σ → ι → Prop) : σ → List ι → Prop
  | _, [] => True
  | s, i :: is => ok s i ∧ StepsMeet step ok (step s i) is

variable {step : σ → ι → σ} {ok : σ → ι → Prop}

def decidableStepsMeet [∀ s i, Decidable (ok s i)] :
    (s : σ) → (is : List ι) → Decidable (StepsMeet step ok s is)
  | _, [] => inferInstanceAs (Decidable True)
  | s, i :: is =>
    have := decidableStepsMeet (step s i) is
    inferInstanceAs (Decidable (ok s i ∧ StepsMeet step ok (step s i) is))

instance [∀ s i, Decidable (ok s i)] (s : σ) (is : List ι) : Decidable (StepsMeet step ok s is) :=
  decidableStepsMeet s is

@[simp] theorem stepsMeet_nil (s : σ) : StepsMeet step ok s [] := trivial

@[simp] theorem stepsMeet_cons (s : σ) (i : ι) (is : List ι) :
    StepsMeet step ok s (i :: is) ↔ ok s i ∧ StepsMeet step ok (step s i) is := Iff.rfl

theorem stepsMeet_append (s : σ) (is js : List ι) :
    StepsMeet step ok s (is ++ js) ↔
      StepsMeet step ok s is ∧ StepsMeet step ok (is.foldl step s) js := by
  induction is generalizing s with
  | nil => simp
  | cons i is ih => simp only [List.cons_append, stepsMeet_cons, ih, List.foldl_cons, and_assoc]

/-- A condition on the inputs alone is met in whatever states. -/
theorem stepsMeet_of_inputs {p : ι → Prop} {is : List ι} (s : σ) (hp : ∀ i ∈ is, p i) :
    StepsMeet step (fun _ i => p i) s is := by
  induction is generalizing s with
  | nil => trivial
  | cons i is ih =>
    exact ⟨hp i List.mem_cons_self, ih (step s i) fun j hj => hp j (List.mem_cons_of_mem _ hj)⟩

/-- A condition on the inputs alone may be met along with one on the states. -/
theorem StepsMeet.and {p : ι → Prop} {s : σ} {is : List ι} (h : StepsMeet step ok s is)
    (hp : ∀ i ∈ is, p i) : StepsMeet step (fun s i => p i ∧ ok s i) s is := by
  induction is generalizing s with
  | nil => trivial
  | cons i is ih =>
    exact ⟨⟨hp i List.mem_cons_self, h.1⟩, ih h.2 fun j hj => hp j (List.mem_cons_of_mem _ hj)⟩

/-- What an invariant makes of a condition is met as well. -/
theorem StepsMeet.imp {Inv : σ → Prop} {ok' : σ → ι → Prop} {s : σ} {is : List ι}
    (h : StepsMeet step ok s is) (hinit : Inv s) (hstep : ∀ s i, Inv s → ok s i → Inv (step s i))
    (himp : ∀ s i, Inv s → ok s i → ok' s i) : StepsMeet step ok' s is := by
  induction is generalizing s with
  | nil => trivial
  | cons i is ih => exact ⟨himp s i hinit h.1, ih h.2 (hstep s i hinit h.1)⟩

/-- The run rule: an invariant kept by every step that meets the condition holds at the end. -/
theorem StepsMeet.invariant {Inv : σ → Prop} {s : σ} {is : List ι}
    (h : StepsMeet step ok s is) (hinit : Inv s)
    (hstep : ∀ s i, Inv s → ok s i → Inv (step s i)) : Inv (is.foldl step s) := by
  induction is generalizing s with
  | nil => exact hinit
  | cons i is ih => exact ih h.2 (hstep s i hinit h.1)

/-- The unconditional run rule. -/
theorem foldl_invariant {Inv : σ → Prop} {s : σ} (is : List ι) (hinit : Inv s)
    (hstep : ∀ s i, Inv s → Inv (step s i)) : Inv (is.foldl step s) := by
  induction is generalizing s with
  | nil => exact hinit
  | cons i is ih => exact ih (hstep s i hinit)

/-- Forward simulation: where an invariant lets every step be matched by inputs of a second system
that meet a condition there, so is the whole run. -/
theorem StepsMeet.simulation {α κ : Type} {stepA : α → κ → α} {okA : α → κ → Prop} {s : σ}
    {is : List ι} (h : StepsMeet step ok s is) (abs : σ → α) (Inv : σ → Prop) (hinit : Inv s)
    (hstep : ∀ s i, Inv s → ok s i → Inv (step s i))
    (hmatch : ∀ s i, Inv s → ok s i →
      ∃ js, abs (step s i) = js.foldl stepA (abs s) ∧ StepsMeet stepA okA (abs s) js) :
    ∃ js, abs (is.foldl step s) = js.foldl stepA (abs s) ∧ StepsMeet stepA okA (abs s) js := by
  induction is generalizing s with
  | nil => exact ⟨[], rfl, trivial⟩
  | cons i is ih =>
    obtain ⟨js, hjs, hok⟩ := hmatch s i hinit h.1
    obtain ⟨ks, hks, hok'⟩ := ih h.2 (hstep s i hinit h.1)
    refine ⟨js ++ ks, ?_, ?_⟩
    · rw [List.foldl_cons, hks, hjs, List.foldl_append]
    · rw [stepsMeet_append]
      exact ⟨hok, hjs ▸ hok'⟩

/-! ## Logs

What a run did, oldest first. That some observations occur in a given order is `List.Sublist`. -/

/-- An order of observations that ends in the newest one, or was there before. -/
theorem sublist_concat_iff {α : Type} {as log : List α} {a x : α} :
    (as ++ [a]).Sublist (log ++ [x]) ↔ (as ++ [a]).Sublist log ∨ a = x ∧ as.Sublist log := by
  constructor
  · intro h
    obtain ⟨l₁, l₂, heq, h₁, h₂⟩ := List.sublist_append_iff.mp h
    rcases List.sublist_singleton.mp h₂ with rfl | rfl
    · rw [List.append_nil] at heq
      exact .inl (heq ▸ h₁)
    · obtain ⟨rfl, hx⟩ := List.append_inj' heq rfl
      exact .inr ⟨List.singleton_inj.mp hx, h₁⟩
  · intro h
    rcases h with h | ⟨rfl, h⟩
    · exact h.trans (List.sublist_append_left _ _)
    · exact h.append (List.Sublist.refl _)

end Teiryo
