import LanguageHub.Json.Record
import LanguageHub.Uri.Basic

/-!
# Shapes of protocol values

A `Shape` describes the values of one kind that the language server protocol knows.
`Shape.conform` reads a value of a shape and keeps what the shape knows of it: members
that a record does not have are dropped, and optional members that are null are left
out. A **union** takes the first of its alternatives that fits, so what is kept can
depend on their order.
-/

namespace LanguageHub.Lsp

/-- Whether a member of a record can be missing, and how it is written when it has no
value. -/
inductive Presence where
  | required
  /-- May be missing or null, and is left out then. -/
  | optional
  /-- May be missing or null, and is written as null then. -/
  | nullable
deriving DecidableEq, Repr

/-- A kind of protocol values. -/
inductive Shape where
  | any
  | bool
  | str
  /-- One of some words. -/
  | word (words : List String)
  | uri
  /-- A number of 32 bits with a sign. -/
  | int
  /-- A number of 32 bits without a sign. -/
  | nat
  | list (item : Shape)
  /-- Exactly two items. -/
  | pair (item : Shape)
  /-- An object whose names are URIs or any strings. -/
  | map (urisOnly : Bool) (value : Shape)
  | record (fields : List (String × Presence × Shape))
  | union (alternatives : List Shape)
  /-- A record whose member `key` says which one it is. -/
  | tagged (key : String) (cases : List (String × Shape))
deriving Inhabited

namespace Shape

/-- Whether a string is a URI. -/
def isUri (s : String) : Bool := (Uri.ofString? s).isSome

/-- The object with some members, of which those without a value are left out. -/
def objectOf (members : List (Option (String × Json))) : Json := .obj (members.filterMap id)

mutual

/-- What a shape keeps of a value, if the value has the shape. -/
def conform : Shape → Json → Option Json
  | .any, j => some j
  | .bool, j => j.bool?.map .bool
  | .str, j => j.str?.map .str
  | .word words, j => j.str?.bind fun s => if words.contains s then some (.str s) else none
  | .uri, j => j.str?.bind fun s => if isUri s then some (.str s) else none
  | .int, j => j.i32?.map Json.ofInt
  | .nat, j => j.u32?.map Json.ofNat
  | .list item, j => (Json.list? (conform item) j).map .arr
  | .pair item, j =>
    (Json.list? (conform item) j).bind fun items =>
      if items.length = 2 then some (.arr items) else none
  | .map urisOnly value, j =>
    j.obj?.bind fun members =>
      (members.mapM fun m =>
        if !urisOnly || isUri m.1 then (conform value m.2).map (m.1, ·) else none).map .obj
  | .record fields, j =>
    match Json.Record.of? (fieldNames fields) j with
    | some r => (conformFields fields r).map objectOf
    | none => none
  | .union alternatives, j => conformAny alternatives j
  | .tagged key cases, j =>
    match j.get? key >>= Json.str? with
    | some tag => conformCase key tag cases j
    | none => none

/-- The names of the fields of a record. -/
def fieldNames : List (String × Presence × Shape) → List String
  | [] => []
  | (k, _, _) :: rest => k :: fieldNames rest

/-- What the fields of a record keep. -/
def conformFields : List (String × Presence × Shape) → Json.Record →
    Option (List (Option (String × Json)))
  | [], _ => some []
  | (k, presence, shape) :: rest, r =>
    let member : Option (Option (String × Json)) :=
      match presence with
      | .required => (r.required k (conform shape)).map fun v => some (k, v)
      | .optional => (r.optional k (conform shape)).map fun v => v.map (k, ·)
      | .nullable => (r.optional k (conform shape)).map fun v => some (k, v.getD .null)
    match member with
    | some m => (conformFields rest r).map (m :: ·)
    | none => none

/-- What the first alternative that fits keeps. -/
def conformAny : List Shape → Json → Option Json
  | [], _ => none
  | s :: rest, j =>
    match conform s j with
    | some v => some v
    | none => conformAny rest j

/-- What the case of a tag keeps, with the tag. -/
def conformCase (key tag : String) : List (String × Shape) → Json → Option Json
  | [], _ => none
  | (t, s) :: rest, j =>
    if t = tag then
      match conform s j with
      | some (.obj members) => some (.obj ((key, .str tag) :: members))
      | _ => none
    else conformCase key tag rest j

end

/-- A value that may be null. -/
def conformOrNull (s : Shape) (j : Json) : Option Json :=
  match j with
  | .null => some .null
  | j => s.conform j

end Shape

end LanguageHub.Lsp
