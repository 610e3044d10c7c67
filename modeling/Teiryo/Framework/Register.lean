import Mathlib.Tactic.Common
import Mathlib.Data.List.Induction

/-!
# Registers with an expiry

A register holds at most one value. A step applies some writes to it and then drops the value
unless the step's test keeps it. The two questions here are what the tests along a run may drop
without anyone noticing at the end, and which steps the final value depends on.
-/

namespace Teiryo

/-- What a log entry does to one register. -/
inductive Write (V : Type) where
  | put (v : V)
  | drop
  | keep
  deriving DecidableEq, Repr

namespace Register

variable {V : Type}

def write (x : Option V) : Write V → Option V
  | .put v => some v
  | .drop => none
  | .keep => x

def replay (x : Option V) (ws : List (Write V)) : Option V := ws.foldl write x

/-- Some writes, and then a test that drops the value it rejects. -/
structure Step (V : Type) where
  writes : List (Write V)
  keep : V → Bool

def step (x : Option V) (s : Step V) : Option V := (replay x s.writes).filter s.keep

def run (x : Option V) (steps : List (Step V)) : Option V := steps.foldl step x

theorem replay_cons (x : Option V) (w : Write V) (ws : List (Write V)) :
    replay x (w :: ws) = replay (write x w) ws := rfl

theorem replay_append (x : Option V) (ws vs : List (Write V)) :
    replay x (ws ++ vs) = replay (replay x ws) vs := by
  simp only [replay, List.foldl_append]

theorem run_append (x : Option V) (steps more : List (Step V)) :
    run x (steps ++ more) = run (run x steps) more := by
  simp only [run, List.foldl_append]

theorem run_cons (x : Option V) (s : Step V) (steps : List (Step V)) :
    run x (s :: steps) = run (step x s) steps := rfl

/-- The fold rule: a register of a larger state that each step moves by a write is moved by a
fold as by the writes in turn. -/
theorem read_foldl {σ α : Type} (read : σ → Option V) {next : σ → α → σ} {f : α → Write V}
    (h : ∀ s a, read (next s a) = write (read s) (f a)) (s : σ) (as : List α) :
    read (as.foldl next s) = replay (read s) (as.map f) := by
  induction as generalizing s with
  | nil => rfl
  | cons a as ih => rw [List.foldl_cons, ih, h, List.map_cons, replay_cons]

theorem filter_write {keep : V → Bool} {x y : Option V} (h : x.filter keep = y.filter keep)
    (w : Write V) : (write x w).filter keep = (write y w).filter keep := by
  cases w with
  | put v => rfl
  | drop => rfl
  | keep => exact h

theorem filter_replay {keep : V → Bool} {x y : Option V} (h : x.filter keep = y.filter keep)
    (ws : List (Write V)) : (replay x ws).filter keep = (replay y ws).filter keep := by
  induction ws generalizing x y with
  | nil => exact h
  | cons w ws ih => exact ih (filter_write h w)

theorem filter_filter_of_imp {keep keep' : V → Bool} (h : ∀ v, keep v = true → keep' v = true)
    (x : Option V) : (x.filter keep').filter keep = x.filter keep := by
  cases x with
  | none => rfl
  | some v =>
    cases hkeep : keep v with
    | true => simp [Option.filter, h v hkeep, hkeep]
    | false => cases hkeep' : keep' v <;> simp [Option.filter, hkeep, hkeep']

/-- The tests along a run do not matter when they keep all that the last test keeps. -/
theorem filter_run {keep : V → Bool} {steps : List (Step V)} (x : Option V)
    (h : ∀ s ∈ steps, ∀ v, keep v = true → s.keep v = true) :
    (run x steps).filter keep = (replay x (steps.flatMap (·.writes))).filter keep := by
  induction steps using List.reverseRecOn with
  | nil => rfl
  | append_singleton steps s ih =>
    have hrest := ih fun t ht => h t (List.mem_append_left _ ht)
    have hlast := h s (List.mem_append_right _ (List.mem_singleton.mpr rfl))
    calc (run x (steps ++ [s])).filter keep
        = ((replay (run x steps) s.writes).filter s.keep).filter keep := by
          rw [run_append]
          rfl
      _ = (replay (run x steps) s.writes).filter keep := filter_filter_of_imp hlast _
      _ = (replay (replay x (steps.flatMap (·.writes))) s.writes).filter keep :=
          filter_replay hrest _
      _ = (replay x ((steps ++ [s]).flatMap (·.writes))).filter keep := by
          rw [List.flatMap_append, replay_append, List.flatMap_singleton]

theorem replay_of_keep {ws : List (Write V)} (h : ∀ w ∈ ws, w = .keep) (x : Option V) :
    replay x ws = x := by
  induction ws with
  | nil => rfl
  | cons w ws ih =>
    rw [replay_cons, h w List.mem_cons_self]
    exact ih fun v hv => h v (List.mem_cons_of_mem _ hv)

/-- Writes that never set a value leave an empty register empty. -/
theorem replay_none_of_no_put {ws : List (Write V)} (h : ∀ v, .put v ∉ ws) :
    replay none ws = none := by
  induction ws with
  | nil => rfl
  | cons w ws ih =>
    have hrest := ih fun v hv => h v (List.mem_cons_of_mem _ hv)
    cases w with
    | put v => exact absurd List.mem_cons_self (h v)
    | drop => exact hrest
    | keep => exact hrest

/-- Writes that set or drop anything forget the value before them. -/
theorem replay_eq_of_written {ws : List (Write V)} (h : ∃ w ∈ ws, w ≠ .keep) (x y : Option V) :
    replay x ws = replay y ws := by
  obtain ⟨w, hw, hne⟩ := h
  obtain ⟨before, after, rfl⟩ := List.append_of_mem hw
  rw [replay_append, replay_append, replay_cons, replay_cons]
  cases w with
  | put v => rfl
  | drop => rfl
  | keep => exact absurd rfl hne

/-- A run that writes anything forgets the value it started with. -/
theorem run_eq_of_written {steps : List (Step V)}
    (h : ∃ s ∈ steps, ∃ w ∈ s.writes, w ≠ .keep) (x y : Option V) :
    run x steps = run y steps := by
  induction steps generalizing x y with
  | nil =>
    obtain ⟨s, hs, -⟩ := h
    cases hs
  | cons s steps ih =>
    rw [run_cons, run_cons]
    by_cases hlater : ∃ t ∈ steps, ∃ w ∈ t.writes, w ≠ .keep
    · exact ih hlater _ _
    · obtain ⟨t, ht, hwritten⟩ := h
      rcases List.mem_cons.mp ht with rfl | ht
      · rw [step, step, replay_eq_of_written hwritten x y]
      · exact absurd ⟨t, ht, hwritten⟩ hlater

/-- A step that only keeps changes nothing. -/
theorem step_eq_self {s : Step V} (hwrites : ∀ w ∈ s.writes, w = .keep)
    (hkeep : ∀ v, s.keep v = true) (x : Option V) : step x s = x := by
  rw [step, replay_of_keep hwrites]
  cases x with
  | none => rfl
  | some v => simp [Option.filter, hkeep v]

end Register
end Teiryo
