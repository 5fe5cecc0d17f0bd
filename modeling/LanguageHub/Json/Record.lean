import LanguageHub.Json.Basic

/-!
# Records in JSON

A record with named fields is written as an object, and it may also be written as an
array of its fields in their order. `Record.of?` reads either; members that the record
does not have are ignored, items beyond its fields are not.

A field is **required**, **defaulted** when it may be missing, or **optional** when it
may be missing or null. In an array an optional field cannot be missing.
-/

namespace LanguageHub.Json

/-- The fields of a record that was read. -/
structure Record where
  /-- The value of a field. -/
  field : String → Option Json
  /-- Whether it was written as an array. -/
  positional : Bool

namespace Record

/-- The item that stands at the place of a name. -/
def itemFor : List String → List Json → String → Option Json
  | n :: names, j :: items, k => if n = k then some j else itemFor names items k
  | _, _, _ => none

/-- The record that a value writes, given the names of its fields. -/
def of? (names : List String) : Json → Option Record
  | .obj members => some ⟨fun k => (Json.obj members).get? k, false⟩
  | .arr items =>
    if items.length ≤ names.length then some ⟨itemFor names items, true⟩ else none
  | _ => none

/-- A field that must be there. -/
def required {α : Type} (r : Record) (k : String) (read : Json → Option α) : Option α :=
  r.field k >>= read

/-- A field with a value for when it is missing. -/
def defaulted {α : Type} (r : Record) (k : String) (read : Json → Option α) (d : α) : Option α :=
  match r.field k with
  | none => some d
  | some j => read j

/-- A field that may be missing or null. -/
def optional {α : Type} (r : Record) (k : String) (read : Json → Option α) : Option (Option α) :=
  match r.field k with
  | none => if r.positional then none else some none
  | some .null => some none
  | some j => (read j).map some

end Record

/-- The items of an array, all of one kind. -/
def list? {α : Type} (read : Json → Option α) (j : Json) : Option (List α) :=
  j.arr? >>= fun items => items.mapM read

end LanguageHub.Json
