import LanguageHub.Lsp.Results

/-!
# Places in documents

Positions, ranges and locations as values of their own, with what reads and writes them.
-/

namespace LanguageHub.Lsp

/-- A place between two characters. -/
structure Position where
  line : Nat
  character : Nat
deriving DecidableEq, Repr, Inhabited

/-- A stretch of a document. -/
structure Range where
  start : Position
  stop : Position
deriving DecidableEq, Repr, Inhabited

/-- A stretch of a named document. -/
structure Location where
  uri : Uri
  range : Range
deriving DecidableEq, Repr, Inhabited

/-- The URI that a value writes. -/
def uriOf? (j : Json) : Option Uri := j.str? >>= Uri.ofString?

namespace Position

/-- The position that a value writes. -/
def of? (j : Json) : Option Position := do
  let r ← Json.Record.of? ["line", "character"] j
  some ⟨← r.required "line" Json.u32?, ← r.required "character" Json.u32?⟩

/-- The value that writes a position. -/
def toJson (p : Position) : Json :=
  .obj [("character", .ofNat p.character), ("line", .ofNat p.line)]

end Position

namespace Range

/-- The range that a value writes. -/
def of? (j : Json) : Option Range := do
  let r ← Json.Record.of? ["start", "end"] j
  some ⟨← r.required "start" Position.of?, ← r.required "end" Position.of?⟩

/-- The value that writes a range. -/
def toJson (r : Range) : Json := .obj [("end", r.stop.toJson), ("start", r.start.toJson)]

end Range

namespace Location

/-- The location that a value writes. -/
def of? (j : Json) : Option Location := do
  let r ← Json.Record.of? ["uri", "range"] j
  some ⟨← r.required "uri" uriOf?, ← r.required "range" Range.of?⟩

/-- The value that writes a location. -/
def toJson (l : Location) : Json := .obj [("range", l.range.toJson), ("uri", .str l.uri.text)]

end Location

end LanguageHub.Lsp
