import LanguageHub.Lsp.Basic

/-!
# Diagnostics

A diagnostic is a message about a range of a document, of some severity. What else a
server says about it is kept as it is, without a look inside.
-/

namespace LanguageHub.Lsp

/-- A message about a stretch of a document. -/
structure Diagnostic where
  range : Range
  severity : Option Int
  message : String
  /-- The other members: code, source, tags and the like. -/
  details : List (String × Json)
deriving BEq, Repr, Inhabited

namespace Diagnostic

/-- The severity of an error. -/
def error : Int := 1

/-- The severity of a warning. -/
def warning : Int := 2

/-- The severity of an information. -/
def information : Int := 3

/-- The severity of a hint. -/
def hint : Int := 4

/-- The diagnostic that a value writes. -/
def of? (j : Json) : Option Diagnostic := do
  let kept ← Shape.diagnostic.conform j
  some {
    range := ← kept.get? "range" >>= Range.of?
    severity := kept.get? "severity" >>= Json.i32?
    message := ← kept.get? "message" >>= Json.str?
    details := (kept.obj?.getD []).filter fun m =>
      m.1 != "range" && m.1 != "severity" && m.1 != "message" }

/-- The value that writes a diagnostic. -/
def toJson (d : Diagnostic) : Json :=
  .object (("range", d.range.toJson) :: ("message", .str d.message) ::
    (d.severity.map fun s => ("severity", Json.ofInt s)).toList ++ d.details)

/-- Whether a diagnostic is an error. -/
def isError (d : Diagnostic) : Bool := d.severity == some error

end Diagnostic

/-- What a server says about all of one document. -/
structure Publication where
  uri : Uri
  version : Option Int
  diagnostics : List Diagnostic
deriving BEq, Repr, Inhabited

/-- The publication that a value writes. -/
def Publication.of? (j : Json) : Option Publication := do
  let r ← Json.Record.of? ["uri", "diagnostics", "version"] j
  some {
    uri := ← r.required "uri" uriOf?
    diagnostics := ← r.required "diagnostics" (Json.list? Diagnostic.of?)
    version := ← r.optional "version" Json.i32? }

end LanguageHub.Lsp
