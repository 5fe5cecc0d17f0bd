import LanguageHub.Lsp.Shape

/-!
# Shapes of results

The shapes of what servers answer to the requests of this client: completions, hovers,
definitions, signatures, symbols, code actions and edits.
-/

namespace LanguageHub.Lsp.Shape

/-- A field that must be there. -/
def req (k : String) (s : Shape) : String × Presence × Shape := (k, .required, s)

/-- A field that may be missing. -/
def opt (k : String) (s : Shape) : String × Presence × Shape := (k, .optional, s)

/-! ### Places -/

def position : Shape := .record [req "line" .nat, req "character" .nat]

def range : Shape := .record [req "start" position, req "end" position]

def location : Shape := .record [req "uri" .uri, req "range" range]

def locationLink : Shape := .record [
  opt "originSelectionRange" range, req "targetUri" .uri, req "targetRange" range,
  req "targetSelectionRange" range]

/-- What a definition request yields: a place, places, or links to places. -/
def definitionResult : Shape := .union [location, .list location, .list locationLink]

/-! ### Texts -/

def markupContent : Shape := .record [
  req "kind" (.word ["plaintext", "markdown"]), req "value" .str]

def documentation : Shape := .union [.str, markupContent]

def markedString : Shape := .union [.str, .record [req "language" .str, req "value" .str]]

def hover : Shape := .record [
  req "contents" (.union [markedString, .list markedString, markupContent]), opt "range" range]

/-! ### Edits and commands -/

def command : Shape := .record [req "title" .str, req "command" .str, opt "arguments" (.list .any)]

def textEdit : Shape := .record [req "range" range, req "newText" .str]

def insertReplaceEdit : Shape := .record [
  req "newText" .str, req "insert" range, req "replace" range]

def annotatedTextEdit : Shape := .record [
  req "range" range, req "newText" .str, req "annotationId" .str]

def textDocumentEdit : Shape := .record [
  req "textDocument" (.record [req "uri" .uri, ("version", .nullable, .int)]),
  req "edits" (.list (.union [textEdit, annotatedTextEdit]))]

/-- A change of a file itself. -/
def resourceOperation : Shape := .tagged "kind" [
  ("create", .record [
    req "uri" .uri,
    opt "options" (.record [opt "overwrite" .bool, opt "ignoreIfExists" .bool]),
    opt "annotationId" .str]),
  ("rename", .record [
    req "oldUri" .uri, req "newUri" .uri,
    opt "options" (.record [opt "overwrite" .bool, opt "ignoreIfExists" .bool]),
    opt "annotationId" .str]),
  ("delete", .record [
    req "uri" .uri,
    opt "options" (.record [
      opt "recursive" .bool, opt "ignoreIfNotExists" .bool, opt "annotationId" .str])])]

def workspaceEdit : Shape := .record [
  opt "changes" (.map true (.list textEdit)),
  opt "documentChanges" (.union [
    .list textDocumentEdit, .list (.union [resourceOperation, textDocumentEdit])]),
  opt "changeAnnotations" (.map false (.record [
    req "label" .str, opt "needsConfirmation" .bool, opt "description" .str]))]

/-! ### Completions -/

def completionItem : Shape := .record [
  req "label" .str,
  opt "labelDetails" (.record [opt "detail" .str, opt "description" .str]),
  opt "kind" .int, opt "detail" .str, opt "documentation" documentation,
  opt "deprecated" .bool, opt "preselect" .bool, opt "sortText" .str, opt "filterText" .str,
  opt "insertText" .str, opt "insertTextFormat" .int, opt "insertTextMode" .int,
  opt "textEdit" (.union [textEdit, insertReplaceEdit]),
  opt "additionalTextEdits" (.list textEdit), opt "command" command,
  opt "commitCharacters" (.list .str), opt "data" .any, opt "tags" (.list .int)]

/-- What a completion request yields: items, or a list that may be incomplete. -/
def completionResult : Shape := .union [
  .list completionItem,
  .record [req "isIncomplete" .bool, req "items" (.list completionItem)]]

/-! ### Signatures -/

def signatureInformation : Shape := .record [
  req "label" .str, opt "documentation" documentation,
  opt "parameters" (.list (.record [
    req "label" (.union [.str, .pair .nat]), opt "documentation" documentation])),
  opt "activeParameter" .nat]

def signatureHelp : Shape := .record [
  req "signatures" (.list signatureInformation), opt "activeSignature" .nat,
  opt "activeParameter" .nat]

/-! ### Symbols -/

def symbolInformation : Shape := .record [
  req "name" .str, req "kind" .int, opt "tags" (.list .int), opt "deprecated" .bool,
  req "location" location, opt "containerName" .str]

/-- The symbols of a document, nested at most so deep. -/
def documentSymbol : Nat → Shape
  | 0 => .union []
  | depth + 1 => .record [
    req "name" .str, opt "detail" .str, req "kind" .int, opt "tags" (.list .int),
    opt "deprecated" .bool, req "range" range, req "selectionRange" range,
    opt "children" (.list (documentSymbol depth))]

/-- What a request for the symbols of a document yields: a flat or a nested list. No
value that was read is nested deeper than this looks. -/
def documentSymbolResult : Shape := .union [
  .list symbolInformation, .list (documentSymbol 64)]

/-- A symbol of a workspace, whose place may lack a range. -/
def workspaceSymbol : Shape := .record [
  req "name" .str, req "kind" .int, opt "tags" (.list .int), opt "containerName" .str,
  req "location" (.union [location, .record [req "uri" .uri]]), opt "data" .any]

/-- What a request for the symbols of a workspace yields. -/
def workspaceSymbolResult : Shape := .union [
  .list symbolInformation, .list workspaceSymbol]

/-! ### Diagnostics and code actions -/

def diagnostic : Shape := .record [
  req "range" range, opt "severity" .int, opt "code" (.union [.int, .str]),
  opt "codeDescription" (.record [req "href" .uri]), opt "source" .str, req "message" .str,
  opt "relatedInformation" (.list (.record [req "location" location, req "message" .str])),
  opt "tags" (.list .int), opt "data" .any]

def codeAction : Shape := .record [
  req "title" .str, opt "kind" .str, opt "diagnostics" (.list diagnostic),
  opt "edit" workspaceEdit, opt "command" command, opt "isPreferred" .bool,
  opt "disabled" (.record [req "reason" .str]), opt "data" .any]

/-- What a request for code actions yields: commands and actions. -/
def codeActionResult : Shape := .list (.union [command, codeAction])

/-- What a request for code actions says about its occasion. -/
def codeActionContext : Shape := .record [
  req "diagnostics" (.list diagnostic), opt "only" (.list .str), opt "triggerKind" .int]

end LanguageHub.Lsp.Shape
