import Mathlib.Tactic.Common
import Mathlib.Data.List.Basic

/-!
# Finite-map operations on partial functions

A hash map is used here only through lookup, insertion, removal and `retain`, so it is
represented by its lookup function. Iteration order never enters, and two maps with the
same lookups are equal.
-/

namespace Teiryo

/-- A map from keys to values, given by its lookup function. -/
def Dict (K V : Type) := K → Option V

namespace Dict

variable {K V : Type}

def get (d : Dict K V) (k : K) : Option V := d k

def empty : Dict K V := fun _ => none

instance : Inhabited (Dict K V) := ⟨empty⟩

/-- Keep the entries `keep` accepts. -/
def retain (d : Dict K V) (keep : K → V → Bool) : Dict K V :=
  fun k => (d k).filter (keep k)

@[simp] theorem get_retain (d : Dict K V) (keep : K → V → Bool) (k : K) :
    (d.retain keep).get k = (d.get k).filter (keep k) := rfl

variable [DecidableEq K]

def insert (d : Dict K V) (k : K) (v : V) : Dict K V :=
  fun k' => if k' = k then some v else d k'

def erase (d : Dict K V) (k : K) : Dict K V :=
  fun k' => if k' = k then none else d k'

theorem get_insert (d : Dict K V) (k k' : K) (v : V) :
    (d.insert k v).get k' = if k' = k then some v else d.get k' := rfl

@[simp] theorem get_insert_self (d : Dict K V) (k : K) (v : V) :
    (d.insert k v).get k = some v := by
  simp [get_insert]

theorem get_insert_ne (d : Dict K V) {k k' : K} (v : V) (h : k' ≠ k) :
    (d.insert k v).get k' = d.get k' := by
  simp [get_insert, h]

theorem get_erase (d : Dict K V) (k k' : K) :
    (d.erase k).get k' = if k' = k then none else d.get k' := rfl

/-- Collect key-value pairs; a later pair replaces an earlier one with the same key. -/
def collect (kvs : List (K × V)) : Dict K V :=
  kvs.foldl (fun d kv => d.insert kv.1 kv.2) empty

private theorem get_foldl_insert_of_notMem (kvs : List (K × V)) (d : Dict K V) (k : K)
    (hk : k ∉ kvs.map Prod.fst) :
    (kvs.foldl (fun d kv => d.insert kv.1 kv.2) d).get k = d.get k := by
  induction kvs generalizing d with
  | nil => rfl
  | cons kv kvs ih =>
    simp only [List.map_cons, List.mem_cons, not_or] at hk
    rw [List.foldl_cons, ih _ hk.2, get_insert_ne _ _ hk.1]

theorem get_collect_eq_none (kvs : List (K × V)) (k : K) (hk : k ∉ kvs.map Prod.fst) :
    (collect kvs).get k = none :=
  get_foldl_insert_of_notMem kvs empty k hk

private theorem get_foldl_insert_mem (kvs : List (K × V)) (d : Dict K V) (k : K) (v : V)
    (h : (kvs.foldl (fun d kv => d.insert kv.1 kv.2) d).get k = some v) :
    (k, v) ∈ kvs ∨ d.get k = some v := by
  induction kvs generalizing d with
  | nil => exact Or.inr h
  | cons kv kvs ih =>
    rw [List.foldl_cons] at h
    rcases ih _ h with hmem | hd
    · exact Or.inl (List.mem_cons_of_mem _ hmem)
    · by_cases hk : k = kv.1
      · subst hk
        rw [get_insert_self] at hd
        cases hd
        exact Or.inl List.mem_cons_self
      · rw [get_insert_ne _ _ hk] at hd
        exact Or.inr hd

theorem mem_of_get_collect {kvs : List (K × V)} {k : K} {v : V}
    (h : (collect kvs).get k = some v) : (k, v) ∈ kvs := by
  rcases get_foldl_insert_mem kvs empty k v h with hmem | hd
  · exact hmem
  · cases hd

private theorem get_foldl_insert_of_mem (kvs : List (K × V)) (d : Dict K V) {k : K} {v : V}
    (hnd : (kvs.map Prod.fst).Nodup) (hmem : (k, v) ∈ kvs) :
    (kvs.foldl (fun d kv => d.insert kv.1 kv.2) d).get k = some v := by
  induction kvs generalizing d with
  | nil => cases hmem
  | cons kv kvs ih =>
    rw [List.map_cons, List.nodup_cons] at hnd
    rw [List.foldl_cons]
    rcases List.mem_cons.mp hmem with heq | htail
    · subst heq
      rw [get_foldl_insert_of_notMem _ _ _ hnd.1, get_insert_self]
    · exact ih _ hnd.2 htail

/-- With distinct keys, looking a key up finds the pair that carries it. -/
theorem get_collect_of_mem {kvs : List (K × V)} {k : K} {v : V}
    (hnd : (kvs.map Prod.fst).Nodup) (hmem : (k, v) ∈ kvs) :
    (collect kvs).get k = some v :=
  get_foldl_insert_of_mem kvs empty hnd hmem

end Dict
end Teiryo
