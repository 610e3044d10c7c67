import Mathlib.Data.List.Nodup
import Mathlib.Tactic.Common

/-!
# A cursor on a list that changes

An element of a list is pointed at by itself and not by its place, so that it is found again in
another list. One that is gone is replaced by the element at its old place, or at the end.
-/

namespace Teiryo.Cursor

variable {α : Type} [DecidableEq α]

/-- Where the element pointed at is, if it is in the list. -/
def place (l : List α) (cursor : Option α) : Option Nat :=
  cursor.bind fun a => l.findIdx? fun b => b == a

/-- Where the cursor goes when a list takes another's place. -/
def follow (l l' : List α) (cursor : Option α) : Option α :=
  if place l' cursor = none then l'[min ((place l cursor).getD 0) (l'.length - 1)]? else cursor

variable {l l' : List α} {cursor : Option α} {a : α} {i : Nat}

theorem place_eq_some (h : place l cursor = some i) : l[i]? = cursor := by
  cases cursor with
  | none => cases h
  | some a =>
    obtain ⟨hlt, heq, -⟩ := List.findIdx?_eq_some_iff_getElem.mp h
    rw [List.getElem?_eq_getElem hlt]
    exact congrArg some (eq_of_beq heq)

theorem place_eq_none : place l (some a) = none ↔ a ∉ l := by
  show (l.findIdx? fun b => b == a) = none ↔ a ∉ l
  rw [List.findIdx?_eq_none_iff]
  constructor
  · intro h ha
    simpa using h a ha
  · intro h b hb
    rw [beq_eq_false_iff_ne]
    intro heq
    exact h (heq ▸ hb)

/-- In a list without repetitions an element is where it is found. -/
theorem place_getElem? (hl : l.Nodup) (h : l[i]? = some a) : place l (some a) = some i := by
  cases hp : place l (some a) with
  | none => exact absurd (List.mem_of_getElem? h) (place_eq_none.mp hp)
  | some j =>
    have hj := place_eq_some hp
    have hlt : i < l.length := (List.getElem?_eq_some_iff.mp h).1
    rw [(List.getElem?_inj hlt hl).mp (h.trans hj.symm)]

/-- An element that is in the list is kept. -/
theorem follow_of_mem (h : a ∈ l') : follow l l' (some a) = some a := by
  have hplace : place l' (some a) ≠ none := fun hnone => place_eq_none.mp hnone h
  rw [follow, if_neg hplace]

/-- An element that is gone gives way to the one at its old place, clamped to the list. -/
theorem place_follow (hl' : l'.Nodup) (hne : l' ≠ []) (hgone : place l' cursor = none) :
    place l' (follow l l' cursor) = some (min ((place l cursor).getD 0) (l'.length - 1)) := by
  have hpos : 0 < l'.length := List.length_pos_iff.mpr hne
  have hlt : min ((place l cursor).getD 0) (l'.length - 1) < l'.length := by omega
  rw [follow, if_pos hgone, List.getElem?_eq_getElem hlt]
  exact place_getElem? hl' (List.getElem?_eq_getElem hlt)

/-- The cursor is on an element of a list that has one. -/
theorem follow_resolves (hl' : l'.Nodup) (hne : l' ≠ []) :
    ∃ i, place l' (follow l l' cursor) = some i := by
  cases hplace : place l' cursor with
  | none => exact ⟨_, place_follow hl' hne hplace⟩
  | some i =>
    refine ⟨i, ?_⟩
    rw [follow, hplace, if_neg (Option.some_ne_none i), hplace]

end Teiryo.Cursor
