import Mathlib.Data.String.Basic
import Mathlib.Data.List.Basic
import Mathlib.Order.Basic
import Mathlib.Tactic.Common

/-!
# TOML documents

Tables are association lists kept in strictly increasing key order, which is the order a
`BTreeMap` iterates in and makes equality independent of insertion order. A `Value` is what a
document says. An `Item` is what an editor holds: it tells a standard or dotted table, which it
can edit in place, from an inline table, which is a value like any other, and it remembers how
each value was formatted. Everything else about a document's text (the order of its keys, its
comments, which tables have headers) is the editor's `Layout`.
-/

namespace Teiryo.Toml

/-- Key-sorted entries of one table. -/
abbrev Entries (V : Type) := List (String × V)

namespace Entries

variable {V W : Type}

/-- Keys in strictly increasing order; in particular no key occurs twice. -/
def Sorted (es : Entries V) : Prop := es.Pairwise fun a b => a.1 < b.1

instance (es : Entries V) : Decidable es.Sorted := inferInstanceAs (Decidable (es.Pairwise _))

def find (es : Entries V) (k : String) : Option V :=
  match es with
  | [] => none
  | e :: es => if e.1 = k then some e.2 else find es k

def insert (es : Entries V) (k : String) (v : V) : Entries V :=
  match es with
  | [] => [(k, v)]
  | e :: es =>
    if e.1 = k then (k, v) :: es
    else if k < e.1 then (k, v) :: e :: es
    else e :: insert es k v

def erase (es : Entries V) (k : String) : Entries V := es.filter (·.1 ≠ k)

def mapValues (f : V → W) (es : Entries V) : Entries W := es.map fun e => (e.1, f e.2)

@[simp] theorem find_nil (k : String) : find ([] : Entries V) k = none := rfl

@[simp] theorem find_cons (e : String × V) (es : Entries V) (k : String) :
    find (e :: es) k = if e.1 = k then some e.2 else find es k := rfl

@[simp] theorem insert_nil (k : String) (v : V) : insert ([] : Entries V) k v = [(k, v)] := rfl

theorem insert_cons (e : String × V) (es : Entries V) (k : String) (v : V) :
    insert (e :: es) k v =
      if e.1 = k then (k, v) :: es
      else if k < e.1 then (k, v) :: e :: es
      else e :: insert es k v := rfl

theorem find_insert_self (es : Entries V) (k : String) (v : V) :
    (es.insert k v).find k = some v := by
  induction es with
  | nil => simp
  | cons e es ih =>
    rw [insert_cons]
    split
    · simp
    · split
      · simp
      · rename_i hne _
        rw [find_cons, if_neg hne, ih]

theorem find_insert_ne (es : Entries V) {k k' : String} (v : V) (h : k' ≠ k) :
    (es.insert k v).find k' = es.find k' := by
  induction es with
  | nil => simp [h.symm]
  | cons e es ih =>
    rw [insert_cons]
    split
    · rename_i he
      simp [he, h.symm]
    · split
      · simp [h.symm]
      · rw [find_cons, find_cons, ih]

theorem find_erase_self (es : Entries V) (k : String) : (es.erase k).find k = none := by
  induction es with
  | nil => rfl
  | cons e es ih =>
    unfold erase at ih ⊢
    by_cases he : e.1 = k
    · rw [List.filter_cons_of_neg (by simpa using he), ih]
    · rw [List.filter_cons_of_pos (by simpa using he), find_cons, if_neg he, ih]

theorem find_erase_ne (es : Entries V) {k k' : String} (h : k' ≠ k) :
    (es.erase k).find k' = es.find k' := by
  induction es with
  | nil => rfl
  | cons e es ih =>
    unfold erase at ih ⊢
    by_cases he : e.1 = k
    · rw [List.filter_cons_of_neg (by simpa using he), ih, find_cons, if_neg]
      exact fun h' => h (h'.symm.trans he)
    · rw [List.filter_cons_of_pos (by simpa using he), find_cons, find_cons, ih]

theorem erase_of_find_eq_none {es : Entries V} {k : String} (h : es.find k = none) :
    es.erase k = es := by
  induction es with
  | nil => rfl
  | cons e es ih =>
    rw [find_cons] at h
    split at h
    · cases h
    · rename_i he
      have htail := ih h
      unfold erase at htail ⊢
      rw [List.filter_cons_of_pos (by simpa using he), htail]

theorem find_mapValues (f : V → W) (es : Entries V) (k : String) :
    (es.mapValues f).find k = (es.find k).map f := by
  induction es with
  | nil => rfl
  | cons e es ih =>
    change find ((e.1, f e.2) :: mapValues f es) k = _
    rw [find_cons, find_cons, ih]
    split <;> rfl

theorem mapValues_insert (f : V → W) (es : Entries V) (k : String) (v : V) :
    (es.insert k v).mapValues f = (es.mapValues f).insert k (f v) := by
  induction es with
  | nil => rfl
  | cons e es ih =>
    change _ = insert ((e.1, f e.2) :: mapValues f es) k (f v)
    rw [insert_cons, insert_cons]
    split
    · rfl
    · split
      · rfl
      · rw [← ih]
        rfl

theorem mapValues_erase (f : V → W) (es : Entries V) (k : String) :
    (es.erase k).mapValues f = (es.mapValues f).erase k := by
  simp [erase, mapValues, List.filter_map, Function.comp_def]

theorem mem_of_find {es : Entries V} {k : String} {v : V} (h : es.find k = some v) :
    (k, v) ∈ es := by
  induction es with
  | nil => cases h
  | cons e es ih =>
    rw [find_cons] at h
    split at h
    · rename_i he
      cases h
      subst he
      exact List.mem_cons_self
    · exact List.mem_cons_of_mem _ (ih h)

theorem mem_insert {es : Entries V} {k : String} {v : V} {e : String × V}
    (h : e ∈ es.insert k v) : e = (k, v) ∨ e ∈ es := by
  induction es with
  | nil => exact Or.inl (by simpa using h)
  | cons e' es ih =>
    rw [insert_cons] at h
    split at h
    · rcases List.mem_cons.mp h with rfl | h
      · exact Or.inl rfl
      · exact Or.inr (List.mem_cons_of_mem _ h)
    · split at h
      · exact List.mem_cons.mp h
      · rcases List.mem_cons.mp h with rfl | h
        · exact Or.inr List.mem_cons_self
        · rcases ih h with heq | hmem
          · exact Or.inl heq
          · exact Or.inr (List.mem_cons_of_mem _ hmem)

private theorem find_eq_none_of_lt {es : Entries V} {k : String}
    (h : ∀ e ∈ es, k < e.1) : es.find k = none := by
  induction es with
  | nil => rfl
  | cons e es ih =>
    rw [find_cons, if_neg (ne_of_gt (h e List.mem_cons_self))]
    exact ih fun e' he' => h e' (List.mem_cons_of_mem _ he')

/-- The head's key does not come back in the tail of a sorted table. -/
theorem find_tail_of_sorted {e : String × V} {es : Entries V} (hs : Sorted (e :: es))
    {k : String} (hk : e.1 = k) : es.find k = none := by
  subst hk
  exact find_eq_none_of_lt fun e' he' => (List.pairwise_cons.mp hs).1 e' he'

theorem sorted_erase {es : Entries V} (hs : es.Sorted) (k : String) : (es.erase k).Sorted :=
  List.Pairwise.filter _ hs

/-- Checking a sorted table after an insertion: the new entry, then the others. -/
theorem all_insert {es : Entries V} (hs : es.Sorted) (f : String × V → Bool) (k : String)
    (v : V) : (es.insert k v).all f = (f (k, v) && (es.erase k).all f) := by
  induction es with
  | nil => simp [erase]
  | cons e es ih =>
    have hp := List.pairwise_cons.mp hs
    rw [insert_cons]
    by_cases he : e.1 = k
    · subst he
      have htail := erase_of_find_eq_none (find_tail_of_sorted hs rfl)
      unfold erase at htail ⊢
      rw [if_pos rfl, List.filter_cons_of_neg (by simp), htail, List.all_cons]
    · have hfilter : erase (e :: es) k = e :: erase es k := by
        unfold erase
        rw [List.filter_cons_of_pos (by simpa using he)]
      rw [if_neg he, hfilter]
      split
      · rename_i hlt
        have hnone : find es k = none :=
          find_eq_none_of_lt fun e' he' => lt_trans hlt (hp.1 e' he')
        have herase : erase es k = es := erase_of_find_eq_none hnone
        rw [List.all_cons, List.all_cons, List.all_cons, herase]
      · rw [List.all_cons, List.all_cons, ih hp.2]
        rw [← Bool.and_assoc, ← Bool.and_assoc, Bool.and_comm (f e)]

/-- Reading a sorted table through `flatMap` is unchanged by inserting an entry that
contributes what the entry it replaces did, or nothing when there was none. -/
theorem flatMap_insert {β : Type} {es : Entries V} (hs : es.Sorted) (f : String × V → List β)
    {k : String} {v : V} (hf : f (k, v) = ((es.find k).map fun v' => f (k, v')).getD []) :
    (es.insert k v).flatMap f = es.flatMap f := by
  induction es with
  | nil => simpa using hf
  | cons e es ih =>
    have hp := List.pairwise_cons.mp hs
    rw [insert_cons]
    split
    · rename_i he
      subst he
      rw [find_cons, if_pos rfl] at hf
      rw [List.flatMap_cons, List.flatMap_cons, hf]
      rfl
    · rename_i hne
      rw [find_cons, if_neg hne] at hf
      split
      · rename_i hlt
        have hnone : find es k = none :=
          find_eq_none_of_lt fun e' he' => lt_trans hlt (hp.1 e' he')
        rw [hnone] at hf
        simp [List.flatMap_cons, hf]
      · rw [List.flatMap_cons, List.flatMap_cons, ih hp.2 hf]

theorem flatMap_erase {β : Type} (es : Entries V) (f : String × V → List β) {k : String}
    (hf : ∀ v, (k, v) ∈ es → f (k, v) = []) : (es.erase k).flatMap f = es.flatMap f := by
  induction es with
  | nil => rfl
  | cons e es ih =>
    have htail := ih fun v hv => hf v (List.mem_cons_of_mem _ hv)
    unfold erase at htail ⊢
    by_cases he : e.1 = k
    · subst he
      have hhead : f e = [] := hf e.2 List.mem_cons_self
      rw [List.filter_cons_of_neg (by simp), htail, List.flatMap_cons, hhead, List.nil_append]
    · rw [List.filter_cons_of_pos (by simpa using he), List.flatMap_cons, List.flatMap_cons,
        htail]

theorem sorted_insert {es : Entries V} (hs : es.Sorted) (k : String) (v : V) :
    (es.insert k v).Sorted := by
  induction es with
  | nil => exact List.pairwise_singleton _ _
  | cons e es ih =>
    have hp := List.pairwise_cons.mp hs
    rw [insert_cons]
    split
    · rename_i he
      subst he
      exact List.pairwise_cons.mpr ⟨hp.1, hp.2⟩
    · rename_i hne
      split
      · rename_i hlt
        refine List.pairwise_cons.mpr ⟨?_, hs⟩
        intro e' he'
        rcases List.mem_cons.mp he' with rfl | he'
        · exact hlt
        · exact lt_trans hlt (hp.1 e' he')
      · rename_i hnlt
        refine List.pairwise_cons.mpr ⟨?_, ih hp.2⟩
        intro e' he'
        have hlt : e.1 < k := lt_of_le_of_ne (not_lt.mp hnlt) hne
        rcases mem_insert he' with rfl | he'
        · exact hlt
        · exact hp.1 e' he'

/-- Inserting what is already there changes nothing. -/
theorem insert_eq_self_iff {es : Entries V} (hs : es.Sorted) (k : String) (v : V) :
    es.insert k v = es ↔ es.find k = some v := by
  constructor
  · intro h
    rw [← h]
    exact find_insert_self es k v
  · intro h
    induction es with
    | nil => cases h
    | cons e es ih =>
      have hp := List.pairwise_cons.mp hs
      rw [find_cons] at h
      rw [insert_cons]
      by_cases he : e.1 = k
      · rw [if_pos he] at h
        rw [if_pos he, ← he, ← Option.some.inj h]
      · rw [if_neg he] at h
        have hlt : e.1 < k := hp.1 _ (mem_of_find h)
        rw [if_neg he, if_neg (lt_asymm hlt), ih hp.2 h]

theorem find_eq_some_iff {es : Entries V} (hs : es.Sorted) {k : String} {v : V} :
    es.find k = some v ↔ (k, v) ∈ es := by
  constructor
  · exact mem_of_find
  · intro h
    induction es with
    | nil => cases h
    | cons e es ih =>
      have hp := List.pairwise_cons.mp hs
      rw [find_cons]
      rcases List.mem_cons.mp h with rfl | h
      · exact if_pos rfl
      · rw [if_neg (hp.1 _ h).ne, ih hp.2 h]

/-- A filter by keys is a filter of the lookups. -/
theorem find_filter (es : Entries V) (p : String → Bool) {k : String} (hk : p k = true) :
    find (es.filter fun e => p e.1) k = es.find k := by
  induction es with
  | nil => rfl
  | cons e es ih =>
    by_cases he : e.1 = k
    · rw [List.filter_cons_of_pos (he ▸ hk), find_cons, find_cons, if_pos he, if_pos he]
    · rw [find_cons, if_neg he, ← ih, List.filter_cons]
      split
      · rw [find_cons, if_neg he]
      · rfl

/-- Change the value under one key, if it has one. -/
def modify (es : Entries V) (k : String) (f : V → V) : Entries V :=
  es.map fun e => if e.1 = k then (e.1, f e.2) else e

theorem find_modify_self (es : Entries V) (k : String) (f : V → V) :
    (es.modify k f).find k = (es.find k).map f := by
  induction es with
  | nil => rfl
  | cons e es ih =>
    change find ((if e.1 = k then (e.1, f e.2) else e) :: modify es k f) k = _
    by_cases he : e.1 = k
    · simp [he]
    · rw [if_neg he, find_cons, find_cons, if_neg he, if_neg he, ih]

theorem find_modify_ne (es : Entries V) {k k' : String} (f : V → V) (h : k' ≠ k) :
    (es.modify k f).find k' = es.find k' := by
  induction es with
  | nil => rfl
  | cons e es ih =>
    change find ((if e.1 = k then (e.1, f e.2) else e) :: modify es k f) k' = _
    by_cases he : e.1 = k
    · rw [if_pos he, find_cons, find_cons, ih]
      have hne : e.1 ≠ k' := fun h' => h (h'.symm.trans he)
      simp [hne]
    · rw [if_neg he, find_cons, find_cons, ih]

theorem mem_modify_self {es : Entries V} {k : String} {f : V → V} {v : V}
    (h : (k, v) ∈ es.modify k f) : ∃ v', (k, v') ∈ es ∧ v = f v' := by
  obtain ⟨e, he, heq⟩ := List.mem_map.mp h
  by_cases hk : e.1 = k
  · rw [if_pos hk] at heq
    cases heq
    exact ⟨e.2, he, rfl⟩
  · rw [if_neg hk] at heq
    exact absurd (congrArg Prod.fst heq) hk

theorem sorted_modify {es : Entries V} (hs : es.Sorted) (k : String) (f : V → V) :
    (es.modify k f).Sorted := by
  refine List.pairwise_map.mpr (hs.imp ?_)
  intro a b hab
  split <;> split <;> exact hab

theorem sorted_mapValues {es : Entries V} (hs : es.Sorted) (f : V → W) :
    (es.mapValues f).Sorted :=
  List.pairwise_map.mpr (hs.imp fun hab => hab)

theorem erase_eq_self_iff (es : Entries V) (k : String) :
    es.erase k = es ↔ es.find k = none := by
  constructor
  · intro h
    rw [← h]
    exact find_erase_self es k
  · exact erase_of_find_eq_none

end Entries

inductive Value where
  | string (s : String)
  | integer (i : Int)
  | float (repr : String)
  | boolean (b : Bool)
  | datetime (repr : String)
  | array (values : List Value)
  | table (entries : List (String × Value))
  deriving Repr

/-- How a value is written: `none` is the formatting an editor gives a value it inserts. -/
abbrev Format := Option String

/-- What an editor holds under a key. Inline tables and arrays of tables are `value`s: they
cannot be taken as a table to edit in place. -/
inductive Item where
  | value (v : Value) (format : Format)
  | table (entries : List (String × Item))
  deriving Repr

mutual

def Item.toValue : Item → Value
  | .value v _ => v
  | .table entries => .table (toValues entries)

def toValues : List (String × Item) → List (String × Value)
  | [] => []
  | (k, item) :: entries => (k, item.toValue) :: toValues entries

end

theorem toValues_eq_mapValues (es : Entries Item) :
    toValues es = Entries.mapValues Item.toValue es := by
  induction es with
  | nil => rfl
  | cons e es ih =>
    rw [toValues, ih]
    rfl

/-- The item an editor inserts for a bare value. -/
def newValue (v : Value) : Item := .value v none

/-- An editable document. -/
structure Doc (Layout : Type) where
  root : Entries Item
  layout : Layout

/-- What the document says. -/
def Doc.values {Layout : Type} (doc : Doc Layout) : Entries Value :=
  Entries.mapValues Item.toValue doc.root

/-! ## Plain text

A rendering for documents made of scalar settings under table headers: a value is written as it
was read, or in the default format, and a table that holds nothing but tables needs no header. -/

/-- The default format of the scalars an editor inserts. -/
def plainValue : Value → String
  | .integer i => toString i
  | .boolean b => if b then "true" else "false"
  | .string s => "\"" ++ s ++ "\""
  | .float repr => repr
  | .datetime repr => repr
  | .array _ => "[]"
  | .table _ => "\x7b\x7d"

mutual

/-- The line of a value, or the block of a table, under the header `path`. -/
def renderItem (path key : String) : Item → String × String
  | .value v format => (key ++ " = " ++ format.getD (plainValue v) ++ "\n", "")
  | .table entries =>
    let path := if path = "" then key else path ++ "." ++ key
    let block := renderEntries path entries
    let header := if block.1 = "" && !entries.isEmpty then "" else "[" ++ path ++ "]\n"
    ("", header ++ block.1 ++ block.2)

def renderEntries (path : String) : List (String × Item) → String × String
  | [] => ("", "")
  | (key, item) :: entries =>
    let first := renderItem path key item
    let rest := renderEntries path entries
    (first.1 ++ rest.1, first.2 ++ rest.2)

end

def render (root : Entries Item) : String :=
  (renderEntries "" root).1 ++ (renderEntries "" root).2

mutual

/-- A setting under its whole path; a table is only the settings in it. -/
def dottedItem (path : String) : Item → String
  | .value v format => path ++ " = " ++ format.getD (plainValue v) ++ "\n"
  | .table entries => dottedEntries (path ++ ".") entries

def dottedEntries (path : String) : List (String × Item) → String
  | [] => ""
  | (key, item) :: entries => dottedItem (path ++ key) item ++ dottedEntries path entries

end

def renderDotted (root : Entries Item) : String := dottedEntries "" root

end Teiryo.Toml
