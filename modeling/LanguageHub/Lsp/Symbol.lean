import LanguageHub.Lsp.Basic

/-!
# Symbols of a workspace

A server answers a query for symbols with a list in one of two shapes, of which the
first that fits **all** its elements counts: symbols with a location, or symbols whose
location may be a URI alone. `flatten` makes symbols with a location of either and drops
those that have none.
-/

namespace LanguageHub.Lsp

/-- A symbol with its location. -/
structure SymbolInformation where
  name : String
  kind : Int
  tags : Option (List Int)
  deprecated : Option Bool
  location : Location
  containerName : Option String
deriving DecidableEq, Repr, Inhabited

/-- A symbol whose location may lack a range. -/
structure WorkspaceSymbol where
  name : String
  kind : Int
  tags : Option (List Int)
  containerName : Option String
  location : Location ⊕ Uri
  data : Option Json
deriving Repr

/-- The answer to a query for symbols. -/
inductive SymbolResponse where
  | flat (symbols : List SymbolInformation)
  | nested (symbols : List WorkspaceSymbol)
deriving Repr

namespace SymbolInformation

/-- The symbol that a value writes. -/
def of? (j : Json) : Option SymbolInformation := do
  let r ← Json.Record.of? ["name", "kind", "tags", "deprecated", "location", "containerName"] j
  some {
    name := ← r.required "name" Json.str?
    kind := ← r.required "kind" Json.i32?
    tags := ← r.optional "tags" (Json.list? Json.i32?)
    deprecated := ← r.optional "deprecated" Json.bool?
    location := ← r.required "location" Location.of?
    containerName := ← r.optional "containerName" Json.str? }

/-- The value that writes a symbol. -/
def toJson (s : SymbolInformation) : Json :=
  Shape.objectOf [
    s.containerName.map fun c => ("containerName", .str c),
    s.deprecated.map fun d => ("deprecated", .bool d),
    some ("kind", .ofInt s.kind),
    some ("location", s.location.toJson),
    some ("name", .str s.name),
    s.tags.map fun ts => ("tags", .arr (ts.map .ofInt))]

end SymbolInformation

namespace WorkspaceSymbol

/-- The location, or the URI alone, that a value writes. -/
def placeOf? (j : Json) : Option (Location ⊕ Uri) :=
  match Location.of? j with
  | some l => some (.inl l)
  | none => do
    let r ← Json.Record.of? ["uri"] j
    some (.inr (← r.required "uri" uriOf?))

/-- The symbol that a value writes. -/
def of? (j : Json) : Option WorkspaceSymbol := do
  let r ← Json.Record.of? ["name", "kind", "tags", "containerName", "location", "data"] j
  some {
    name := ← r.required "name" Json.str?
    kind := ← r.required "kind" Json.i32?
    tags := ← r.optional "tags" (Json.list? Json.i32?)
    containerName := ← r.optional "containerName" Json.str?
    location := ← r.required "location" placeOf?
    data := ← r.optional "data" some }

/-- The value that writes a symbol. -/
def toJson (s : WorkspaceSymbol) : Json :=
  Shape.objectOf [
    s.containerName.map fun c => ("containerName", .str c),
    s.data.map fun d => ("data", d),
    some ("kind", .ofInt s.kind),
    some ("location", match s.location with
      | .inl l => l.toJson
      | .inr u => .obj [("uri", .str u.text)]),
    some ("name", .str s.name),
    s.tags.map fun ts => ("tags", .arr (ts.map .ofInt))]

/-- The symbol with its location, if it has one. -/
def flatten? (s : WorkspaceSymbol) : Option SymbolInformation :=
  match s.location with
  | .inl l => some ⟨s.name, s.kind, s.tags, none, l, s.containerName⟩
  | .inr _ => none

end WorkspaceSymbol

namespace SymbolResponse

/-- The answer that a value writes. -/
def of? (j : Json) : Option SymbolResponse :=
  match Json.list? SymbolInformation.of? j with
  | some symbols => some (.flat symbols)
  | none => (Json.list? WorkspaceSymbol.of? j).map .nested

/-- An answer that may be null. -/
def ofNullable? : Json → Option (Option SymbolResponse)
  | .null => some none
  | j => (of? j).map some

/-- The value that writes an answer. -/
def toJson : SymbolResponse → Json
  | .flat symbols => .arr (symbols.map SymbolInformation.toJson)
  | .nested symbols => .arr (symbols.map WorkspaceSymbol.toJson)

/-- The symbols of an answer that have a location. -/
def flatten : Option SymbolResponse → List SymbolInformation
  | none => []
  | some (.flat symbols) => symbols
  | some (.nested symbols) => symbols.filterMap WorkspaceSymbol.flatten?

end SymbolResponse

end LanguageHub.Lsp
