import LanguageHub.Json.Basic

/-!
# Tables of a TOML document

A document is built table by table, and each table remembers **how it came about**: by
its own header, because a longer header passed through it, or through a dotted key.
That decides what may still be added to it: a table has at most one header, a dotted key
opens no table that a header made, and a finished value is closed.

`Document.toJson` forgets all that.
-/

namespace LanguageHub.Toml

/-- How a table came about. -/
inductive Origin where
  | implied
  | header
  | dotted
deriving DecidableEq, Repr

/-- What stands under a key. -/
inductive Node where
  /-- A finished value. -/
  | value (j : Json)
  /-- A table that can still grow. -/
  | table (origin : Origin) (entries : List (String × Node))
  /-- The tables of one repeated header, last one first. -/
  | tables (items : List (List (String × Node)))
deriving Inhabited

/-- The entries of a table. -/
abbrev Entries := List (String × Node)

namespace Entries

/-- What stands under a key. -/
def find? (es : Entries) (k : String) : Option Node := (List.find? (·.1 == k) es).map (·.2)

/-- Entries with something put under a key. -/
def set (es : Entries) (k : String) (n : Node) : Entries :=
  if List.any es (·.1 == k) then List.map (fun e => if e.1 == k then (k, n) else e) es
  else es ++ [(k, n)]

end Entries

/-- Changes the table at the end of a path of headers, and makes the tables on the way. -/
def updateAt (change : Entries → Option Entries) : List String → Entries → Option Entries
  | [], es => change es
  | k :: ks, es =>
    match es.find? k with
    | none => (updateAt change ks []).map fun inner => es.set k (.table .implied inner)
    | some (.table origin inner) =>
      (updateAt change ks inner).map fun inner => es.set k (.table origin inner)
    | some (.tables (last :: earlier)) =>
      (updateAt change ks last).map fun last => es.set k (.tables (last :: earlier))
    | some _ => none

/-- Opens the table of a header. -/
def openTable (k : String) (es : Entries) : Option Entries :=
  match es.find? k with
  | none => some (es.set k (.table .header []))
  | some (.table .implied inner) => some (es.set k (.table .header inner))
  | some _ => none

/-- Opens one more table of a repeated header. -/
def openItem (k : String) (es : Entries) : Option Entries :=
  match es.find? k with
  | none => some (es.set k (.tables [[]]))
  | some (.tables items) => some (es.set k (.tables ([] :: items)))
  | some _ => none

/-- Puts a value under a dotted key. -/
def insertValue (v : Json) : List String → Entries → Option Entries
  | [], _ => none
  | [k], es => if (es.find? k).isSome then none else some (es.set k (.value v))
  | k :: ks, es =>
    match es.find? k with
    | none => (insertValue v ks []).map fun inner => es.set k (.table .dotted inner)
    | some (.table .dotted inner) =>
      (insertValue v ks inner).map fun inner => es.set k (.table .dotted inner)
    | some (.table .implied inner) =>
      if ks.length ≤ 1 then none
      else (insertValue v ks inner).map fun inner => es.set k (.table .implied inner)
    | some (.tables (last :: earlier)) =>
      if ks.length ≤ 1 then none
      else (insertValue v ks last).map fun last => es.set k (.tables (last :: earlier))
    | some _ => none

mutual

/-- The value that a node stands for. -/
def Node.toJson : Node → Json
  | .value j => j
  | .table _ entries => .object (membersOf entries)
  | .tables items => .arr (itemsOf items).reverse

/-- The members that entries stand for. -/
def membersOf : List (String × Node) → List (String × Json)
  | [] => []
  | (k, n) :: rest => (k, n.toJson) :: membersOf rest

/-- The objects that tables stand for. -/
def itemsOf : List (List (String × Node)) → List Json
  | [] => []
  | es :: rest => .object (membersOf es) :: itemsOf rest

end

/-- The object that a document stands for. -/
def Entries.toJson (es : Entries) : Json := .object (membersOf es)

end LanguageHub.Toml
