import Mathlib.Data.List.Basic
import Mathlib.Tactic.Common
import Teiryo.Framework.Json

/-!
# Documents without some of their fields

What is left of a document when members of some names are left out of it, and what a struct still
reads from the rest. A name given twice stays, without its contents, because it fails the struct.
-/

namespace Teiryo
namespace Json

mutual

/-- A value with no members of these names at any depth. -/
def erase (names : List String) : Json → Json
  | .array elems => .array (eraseElems names elems)
  | .object members => .object (eraseMembers names (members.map Prod.fst) members)
  | value => value

def eraseElems (names : List String) : List Json → List Json
  | [] => []
  | value :: elems => erase names value :: eraseElems names elems

def eraseMembers (names given : List String) : List (String × Json) → List (String × Json)
  | [] => []
  | (name, value) :: members =>
    if name ∈ names then
      if given.count name = 1 then eraseMembers names given members
      else (name, .null) :: eraseMembers names given members
    else (name, erase names value) :: eraseMembers names given members

end

/-- What is left of one member of an object, where the others are left as `g` says. -/
def eraseMember (names : List String) (g : String → Json → Json) (given : List String)
    (member : String × Json) : Option (String × Json) :=
  if member.1 ∈ names then
    if given.count member.1 = 1 then none else some (member.1, .null)
  else some (member.1, g member.1 member.2)

/-- What is left of one element of an array that stands for a struct. -/
def eraseElem (names ns : List String) (g : String → Json → Json) (i : Nat) (value : Json) : Json :=
  match ns[i]? with
  | some name => if name ∈ names then .null else g name value
  | none => erase names value

/-- A struct's value with the fields `names` left out and the others as `g` says. -/
def eraseFields (names ns : List String) (g : String → Json → Json) : Json → Json
  | .array elems => .array (elems.mapIdx (eraseElem names ns g))
  | .object members => .object (members.filterMap (eraseMember names g (members.map Prod.fst)))
  | value => value

/-- The one member of a name, or why there is none. -/
def lookup (members : List (String × Json)) (name : String) : Option (Option Json) :=
  match members.filter fun member => member.1 == name with
  | [] => some none
  | [member] => some (some member.2)
  | _ => none

theorem fields_object (ns : List String) (members : List (String × Json)) :
    fields ns (.object members) = ns.mapM (lookup members) := rfl

theorem eraseElems_eq (names : List String) (elems : List Json) :
    eraseElems names elems = elems.map (erase names) := by
  induction elems with
  | nil => rfl
  | cons value elems ih => simp [eraseElems, ih]

theorem eraseMembers_eq (names given : List String) (members : List (String × Json)) :
    eraseMembers names given members =
      members.filterMap (eraseMember names (fun _ => erase names) given) := by
  induction members with
  | nil => rfl
  | cons member members ih =>
    obtain ⟨name, value⟩ := member
    by_cases hname : name ∈ names
    · by_cases hcount : given.count name = 1
      · simp [eraseMembers, eraseMember, hname, hcount, ih]
      · simp [eraseMembers, eraseMember, hname, hcount, ih]
    · simp [eraseMembers, eraseMember, hname, ih]

/-- For a struct with none of the names, what is left of a value is what is left of its fields. -/
theorem erase_eq_eraseFields {names ns : List String} (h : ∀ n ∈ ns, n ∉ names) (value : Json) :
    erase names value = eraseFields names ns (fun _ => erase names) value := by
  cases value with
  | array elems =>
    have helem : eraseElem names ns (fun _ => erase names) = fun _ => erase names := by
      funext i value
      unfold eraseElem
      cases hi : ns[i]? with
      | none => rfl
      | some n => simp [h n (List.mem_of_getElem? hi)]
    rw [erase, eraseFields, eraseElems_eq, helem]
    apply congrArg Json.array
    apply List.ext_getElem?
    simp
  | object members => simp [erase, eraseFields, eraseMembers_eq]
  | null => rfl
  | bool b => rfl
  | number text => rfl
  | string text => rfl

theorem filter_eraseMember (names given : List String) (g : String → Json → Json)
    (members : List (String × Json)) (name : String) :
    (members.filterMap (eraseMember names g given)).filter (fun member => member.1 == name) =
      (members.filter fun member => member.1 == name).filterMap (eraseMember names g given) := by
  induction members with
  | nil => rfl
  | cons member members ih =>
    have hkey : ∀ left, eraseMember names g given member = some left → left.1 = member.1 := by
      intro left hleft
      unfold eraseMember at hleft
      split at hleft
      · split at hleft
        · cases hleft
        · cases hleft
          rfl
      · cases hleft
        rfl
    cases hleft : eraseMember names g given member with
    | none =>
      by_cases hname : member.1 = name
      · simp [hleft, hname, ih]
      · simp [hleft, hname, ih]
    | some left =>
      have hl := hkey left hleft
      by_cases hname : member.1 = name
      · simp [hleft, hname, hl, ih]
      · simp [hleft, hname, hl, ih]

theorem length_filter_name (members : List (String × Json)) (name : String) :
    (members.filter fun member => member.1 == name).length =
      (members.map Prod.fst).count name := by
  induction members with
  | nil => rfl
  | cons member members ih =>
    by_cases hname : member.1 = name
    · simp [hname, ih]
    · simp [hname, ih]

/-- A name is given twice to what is left just when it is given twice to the whole. -/
theorem lookup_eraseMember (names : List String) (g : String → Json → Json)
    (members : List (String × Json)) (name : String) :
    (lookup members name = none ∧
      lookup (members.filterMap (eraseMember names g (members.map Prod.fst))) name = none) ∨
    ∃ field left, lookup members name = some field ∧
      lookup (members.filterMap (eraseMember names g (members.map Prod.fst))) name = some left ∧
      (name ∉ names → left = field.map (g name)) := by
  unfold lookup
  rw [filter_eraseMember]
  have hcount := length_filter_name members name
  have hnames : ∀ member ∈ members.filter (fun member => member.1 == name), member.1 = name :=
    fun member hmem => by simpa using (List.mem_filter.mp hmem).2
  generalize members.filter (fun member => member.1 == name) = found at hcount hnames
  match found with
  | [] => exact .inr ⟨none, none, rfl, rfl, fun _ => rfl⟩
  | [member] =>
    have hname := hnames member List.mem_cons_self
    right
    by_cases hmem : name ∈ names
    · have hone : (members.map Prod.fst).count name = 1 := hcount.symm
      exact ⟨_, none, rfl, by simp [eraseMember, hname, hmem, hone], fun h => absurd hmem h⟩
    · exact ⟨_, some (g name member.2), rfl, by simp [eraseMember, hname, hmem], fun _ => rfl⟩
  | first :: second :: rest =>
    have hfirst := hnames first List.mem_cons_self
    have hsecond := hnames second (List.mem_cons_of_mem _ List.mem_cons_self)
    have hmany : (members.map Prod.fst).count name ≠ 1 := by
      rw [← hcount]
      simp
    left
    by_cases hmem : name ∈ names
    · simp [eraseMember, hfirst, hsecond, hmem, hmany]
    · simp [eraseMember, hfirst, hsecond, hmem]

/-- Whether fields are there, and what is left of those that are not left out. -/
def FieldsLeft (names ns : List String) (g : String → Json → Json)
    (fields left : Option (List (Option Json))) : Prop :=
  (fields = none ∧ left = none) ∨
    ∃ fs ls, fields = some fs ∧ left = some ls ∧ fs.length = ns.length ∧ ls.length = ns.length ∧
      ∀ (i : Nat) (name : String), ns[i]? = some name → name ∉ names →
        ls[i]? = fs[i]?.map (Option.map (g name))

theorem fieldsLeft_object (names ns : List String) (g : String → Json → Json)
    (members : List (String × Json)) :
    FieldsLeft names ns g (ns.mapM (lookup members))
      (ns.mapM (lookup (members.filterMap (eraseMember names g (members.map Prod.fst))))) := by
  induction ns with
  | nil => exact .inr ⟨[], [], rfl, rfl, rfl, rfl, fun i name hi => by simp at hi⟩
  | cons n ns ih =>
    rw [List.mapM_cons, List.mapM_cons]
    rcases lookup_eraseMember names g members n with ⟨hnone, hleft⟩ | ⟨field, left, hf, hl, heq⟩
    · exact .inl ⟨by rw [hnone]; rfl, by rw [hleft]; rfl⟩
    · rw [hf, hl]
      rcases ih with ⟨hnone, hleft⟩ | ⟨fs, ls, hfs, hls, hflen, hllen, hget⟩
      · exact .inl ⟨by rw [hnone]; rfl, by rw [hleft]; rfl⟩
      · refine .inr ⟨field :: fs, left :: ls, by rw [hfs]; rfl, by rw [hls]; rfl, by simp [hflen],
          by simp [hllen], ?_⟩
        intro i name hi hname
        cases i with
        | zero =>
          obtain rfl : n = name := by simpa using hi
          simp [heq hname]
        | succ i =>
          have hi' : ns[i]? = some name := by simpa using hi
          simpa using hget i name hi' hname

theorem fieldsLeft_array (names ns : List String) (g : String → Json → Json)
    (elems : List Json) :
    FieldsLeft names ns g (fields ns (.array elems))
      (fields ns (.array (elems.mapIdx (eraseElem names ns g)))) := by
  unfold fields
  by_cases hlen : elems.length ≤ ns.length
  · right
    refine ⟨_, _, if_pos hlen, if_pos (by simpa using hlen), by simp, by simp, ?_⟩
    intro i name hi hname
    have hlt : i < ns.length := (List.getElem?_eq_some_iff.mp hi).1
    have helem : eraseElem names ns g i = g name := by
      funext value
      simp [eraseElem, hi, hname]
    simp [hlt, helem]
  · exact .inl ⟨if_neg hlen, if_neg (by simpa using hlen)⟩

/-- A struct finds the same fields in what is left, each as it was left. -/
theorem fieldsLeft (names ns : List String) (g : String → Json → Json) (value : Json) :
    FieldsLeft names ns g (value.fields ns) ((eraseFields names ns g value).fields ns) := by
  cases value with
  | object members => exact fieldsLeft_object names ns g members
  | array elems => exact fieldsLeft_array names ns g elems
  | null => exact .inl ⟨rfl, rfl⟩
  | bool b => exact .inl ⟨rfl, rfl⟩
  | number text => exact .inl ⟨rfl, rfl⟩
  | string text => exact .inl ⟨rfl, rfl⟩

theorem eraseFields_eq_null {names ns : List String} {g : String → Json → Json} {value : Json} :
    eraseFields names ns g value = .null ↔ value = .null := by
  cases value <;> simp [eraseFields]

theorem erase_eq_null {names : List String} {value : Json} :
    erase names value = .null ↔ value = .null := by
  cases value <;> simp [erase]

theorem asString_erase (names : List String) (value : Json) :
    (erase names value).asString = value.asString := by
  cases value <;> simp [erase, asString]

/-- An `Option` field of what is left reads the same when its decoder does. -/
theorem optional_map {α β : Type} {decode : Json → Option α} {f : α → β} {g : Json → Json}
    (hnull : ∀ value, g value = .null ↔ value = .null)
    (hdecode : ∀ value, (decode (g value)).map f = (decode value).map f) (field : Option Json) :
    (optional decode (field.map g)).map (Option.map f) =
      (optional decode field).map (Option.map f) := by
  cases field with
  | none => rfl
  | some value =>
    by_cases hv : value = .null
    · rw [Option.map_some, (hnull value).mpr hv, hv]
    · have hg : g value ≠ .null := fun h => hv ((hnull value).mp h)
      have hopt : ∀ other : Json, other ≠ .null →
          optional decode (some other) = (decode other).map some := by
        intro other hother
        cases other with
        | null => exact absurd rfl hother
        | _ => rfl
      have hmap := congrArg (Option.map some) (hdecode value)
      rw [Option.map_some, hopt _ hg, hopt _ hv]
      cases hd : decode (g value) with
      | none =>
        cases hd' : decode value with
        | none => rfl
        | some a => simp [hd, hd'] at hmap
      | some b =>
        cases hd' : decode value with
        | none => simp [hd, hd'] at hmap
        | some a => simpa [hd, hd'] using hmap

theorem optional_same {α : Type} {decode : Json → Option α} {g : Json → Json}
    (hnull : ∀ value, g value = .null ↔ value = .null)
    (hdecode : ∀ value, decode (g value) = decode value) (field : Option Json) :
    optional decode (field.map g) = optional decode field := by
  have hsame : ∀ value, (decode (g value)).map id = (decode value).map id :=
    fun value => by rw [hdecode]
  simpa using optional_map hnull hsame field

end Json
end Teiryo
