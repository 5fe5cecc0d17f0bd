import LanguageHub.Lsp.Diagnostic
import LanguageHub.Lsp.Symbol

/-!
# Queries about documents

A `Query` is a question that a client can ask about a document or, for symbols, about a
whole workspace. It knows its method, its parameters and the shape of its answer; any
answer may also be null.
-/

namespace LanguageHub.Lsp

/-- A question. -/
inductive Query where
  | completion (uri : Uri) (at_ : Position)
  | hover (uri : Uri) (at_ : Position)
  | definition (uri : Uri) (at_ : Position)
  | signatureHelp (uri : Uri) (at_ : Position)
  | references (uri : Uri) (at_ : Position) (includeDeclaration : Bool)
  | documentSymbols (uri : Uri)
  | codeActions (uri : Uri) (range : Range) (context : Json)
  | rename (uri : Uri) (at_ : Position) (newName : String)
  | workspaceSymbols (query : String)
deriving BEq, Repr, Inhabited

/-- The member that names a document. -/
def documentMember (uri : Uri) : String × Json := ("textDocument", .obj [("uri", .str uri.text)])

/-- The parameters that name a place in a document. -/
def positionParams (uri : Uri) (p : Position) : Json :=
  .object [documentMember uri, ("position", p.toJson)]

namespace Query

/-- The method of a question. -/
def method : Query → String
  | .completion .. => "textDocument/completion"
  | .hover .. => "textDocument/hover"
  | .definition .. => "textDocument/definition"
  | .signatureHelp .. => "textDocument/signatureHelp"
  | .references .. => "textDocument/references"
  | .documentSymbols .. => "textDocument/documentSymbol"
  | .codeActions .. => "textDocument/codeAction"
  | .rename .. => "textDocument/rename"
  | .workspaceSymbols .. => "workspace/symbol"

/-- The parameters of a question. -/
def params : Query → Json
  | .completion uri p | .hover uri p | .definition uri p | .signatureHelp uri p =>
    positionParams uri p
  | .references uri p include_ => .object [documentMember uri, ("position", p.toJson),
      ("context", .obj [("includeDeclaration", .bool include_)])]
  | .documentSymbols uri => .obj [documentMember uri]
  | .codeActions uri range context =>
    .object [documentMember uri, ("range", range.toJson), ("context", context)]
  | .rename uri p newName =>
    .object [documentMember uri, ("position", p.toJson), ("newName", .str newName)]
  | .workspaceSymbols query => .obj [("query", .str query)]

/-- The shape of an answer that is not null. -/
def resultShape : Query → Shape
  | .completion .. => Shape.completionResult
  | .hover .. => Shape.hover
  | .definition .. => Shape.definitionResult
  | .signatureHelp .. => Shape.signatureHelp
  | .references .. => .list Shape.location
  | .documentSymbols .. => Shape.documentSymbolResult
  | .codeActions .. => Shape.codeActionResult
  | .rename .. => Shape.workspaceEdit
  | .workspaceSymbols .. => Shape.workspaceSymbolResult

/-- The name of the union that an answer belongs to, for answers of several shapes. -/
def resultName? : Query → Option String
  | .completion .. => some "CompletionResponse"
  | .definition .. => some "GotoDefinitionResponse"
  | .documentSymbols .. => some "DocumentSymbolResponse"
  | .workspaceSymbols .. => some "WorkspaceSymbolResponse"
  | _ => none

/-- What is kept of an answer. -/
def readResult (q : Query) (j : Json) : Option Json := Shape.conformOrNull q.resultShape j

/-- What is wrong with an answer of another shape. -/
def shapeMismatch (q : Query) : String :=
  match q.resultName? with
  | some name => "data did not match any variant of untagged enum " ++ name
  | none => "data did not match the shape of a result"

end Query

end LanguageHub.Lsp
