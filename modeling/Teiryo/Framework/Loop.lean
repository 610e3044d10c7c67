import Mathlib.Tactic.Common

/-!
# Loops without a counter

A loop whose body either returns or goes on to another pass, and may fail. It is followed for any
number of passes; an invariant and a measure that falls with every pass say that it ends.
-/

namespace Teiryo.Loop

variable {σ ρ ε : Type}

/-- What a pass comes to. -/
inductive Pass (σ ρ : Type) where
  | returns (result : ρ)
  | goesOn (state : σ)

/-- The first passes of a loop, up to a number of them. -/
def passes (body : σ → Except ε (Pass σ ρ)) : Nat → σ → Except ε (Pass σ ρ)
  | 0, s => .ok (.goesOn s)
  | n + 1, s =>
    match body s with
    | .ok (.goesOn s') => passes body n s'
    | .ok (.returns r) => .ok (.returns r)
    | .error e => .error e

variable {body : σ → Except ε (Pass σ ρ)} {Inv : σ → Prop} {s s' : σ} {r : ρ} {n : Nat}
  {result : Except ε (Pass σ ρ)}

/-- A pass that goes on is followed by the rest of them. -/
theorem passes_succ (h : body s = .ok (.goesOn s')) (n : Nat) :
    passes body (n + 1) s = passes body n s' := by
  rw [passes, h]

/-- What the first pass does: it fails or returns, and nothing follows, or it goes on. -/
theorem passes_succ_cases (h : passes body (n + 1) s = result) :
    (∃ e, body s = .error e ∧ result = .error e) ∨
    (∃ r, body s = .ok (.returns r) ∧ result = .ok (.returns r)) ∨
    (∃ s', body s = .ok (.goesOn s') ∧ passes body n s' = result) := by
  subst h
  rw [passes]
  cases body s with
  | error e => exact .inl ⟨e, rfl, rfl⟩
  | ok pass =>
    cases pass with
    | returns r => exact .inr (.inl ⟨r, rfl, rfl⟩)
    | goesOn s' => exact .inr (.inr ⟨s', rfl, rfl⟩)

/-- The invariant holds wherever the loop goes on. -/
theorem passes_invariant (hs : Inv s)
    (hbody : ∀ s s', Inv s → body s = .ok (.goesOn s') → Inv s')
    (h : passes body n s = .ok (.goesOn s')) : Inv s' := by
  induction n generalizing s with
  | zero =>
    cases h
    exact hs
  | succ n ih =>
    rcases passes_succ_cases h with ⟨e, -, he⟩ | ⟨r, -, hr⟩ | ⟨next, hpass, hrest⟩
    · cases he
    · cases hr
    · exact ih (hbody s next hs hpass) hrest

/-- A failure that no pass meeting the invariant has is not met. -/
theorem passes_ne_error {e : ε} (hs : Inv s)
    (hbody : ∀ s s', Inv s → body s = .ok (.goesOn s') → Inv s')
    (hsafe : ∀ s, Inv s → body s ≠ .error e) : passes body n s ≠ .error e := by
  induction n generalizing s with
  | zero => exact fun h => nomatch h
  | succ n ih =>
    intro h
    rcases passes_succ_cases h with ⟨e', hpass, he⟩ | ⟨r, -, hr⟩ | ⟨next, hpass, hrest⟩
    · cases he
      exact hsafe s hs hpass
    · cases hr
    · exact ih (hbody s next hs hpass) hrest

/-- The termination rule: a loop that does not fail and whose measure falls with every pass that
goes on returns. -/
theorem passes_returns (measure : σ → Nat) (hs : Inv s)
    (hbody : ∀ s s', Inv s → body s = .ok (.goesOn s') → Inv s' ∧ measure s' < measure s)
    (hsafe : ∀ s e, Inv s → body s ≠ .error e) :
    ∃ n r, n ≤ measure s + 1 ∧ passes body n s = .ok (.returns r) := by
  induction hm : measure s using Nat.strongRecOn generalizing s with
  | ind m ih =>
    cases hpass : body s with
    | error e => exact absurd hpass (hsafe s e hs)
    | ok pass =>
      cases pass with
      | returns r => exact ⟨1, r, by omega, by rw [passes, hpass]⟩
      | goesOn next =>
        obtain ⟨hnext, hfalls⟩ := hbody s next hs hpass
        obtain ⟨n, r, hn, hreturns⟩ := ih (measure next) (hm ▸ hfalls) hnext rfl
        refine ⟨n + 1, r, by omega, ?_⟩
        rw [passes_succ hpass]
        exact hreturns

end Teiryo.Loop
