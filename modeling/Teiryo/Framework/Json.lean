/-!
# JSON values and derived decoding

A JSON document with its numbers still text, and how `derive(Deserialize)` with `default` on every
field reads a struct from one: an object's members by name, an array's elements by position.
-/

namespace Teiryo

inductive Json where
  | null
  | bool (b : Bool)
  | number (text : String)
  | string (text : String)
  | array (elems : List Json)
  | object (members : List (String × Json))

namespace Json

/-- What a struct's fields are read from. A field given twice is an error, and so is an element
too many; members of other names are ignored. -/
def fields (names : List String) : Json → Option (List (Option Json))
  | .object members => names.mapM fun name =>
    match members.filter fun member => member.1 == name with
    | [] => some none
    | [member] => some (some member.2)
    | _ => none
  | .array elems =>
    if elems.length ≤ names.length then
      some ((List.range names.length).map fun i => elems[i]?)
    else none
  | _ => none

/-- An `Option` field: absent and `null` are `None`. -/
def optional {α : Type} (deserialize : Json → Option α) : Option Json → Option (Option α)
  | none => some none
  | some .null => some none
  | some value => (deserialize value).map some

/-- An `Option<RawValue>` field, which is not decoded. -/
def raw : Option Json → Option Json
  | some .null => none
  | value => value

def asString : Json → Option String
  | .string text => some text
  | _ => none

end Json
end Teiryo
