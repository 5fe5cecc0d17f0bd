import LanguageHub.Lsp.Basic
import LanguageHub.Path.Basic

/-!
# Messages

What client and server send each other in frames: requests with an id, notifications
without one, and replies. `Incoming.of?` sorts a frame of the server by what it has: a
method and an id make a request, a method alone a notification, and an id with a result
or an error a response. Ids of responses are numbers, since the client gives no others.
-/

namespace LanguageHub.Lsp

/-- The version of the protocol for remote calls. -/
def jsonrpc : String × Json := ("jsonrpc", .str "2.0")

/-- The code for a method that is not known. -/
def methodNotFound : Int := -32601

/-- A request. -/
def request (id : Nat) (method : String) (params : Option Json) : Json :=
  .object ([jsonrpc, ("id", .ofNat id), ("method", .str method)] ++
    (params.map fun p => ("params", p)).toList)

/-- A notification. -/
def notification (method : String) (params : Option Json) : Json :=
  .object ([jsonrpc, ("method", .str method)] ++ (params.map fun p => ("params", p)).toList)

/-- A reply with a result. -/
def reply (id result : Json) : Json := .object [jsonrpc, ("id", id), ("result", result)]

/-- A reply with an error. -/
def replyError (id : Json) (code : Int) (message : String) : Json :=
  .object [jsonrpc, ("id", id),
    ("error", .object [("code", .ofInt code), ("message", .str message)])]

/-- A frame of a server, sorted by its kind. -/
inductive Incoming where
  | response (id : Nat) (body : Json)
  | request (id : Json) (method : String) (params : Option Json)
  | notification (method : String) (params : Option Json)
deriving BEq, Repr

/-- The kind of a frame, unless it is malformed. -/
def Incoming.of? (frame : Json) : Option Incoming :=
  match frame.get? "id", frame.get? "method" >>= Json.str? with
  | some id, none =>
    if frame.has "result" || frame.has "error" then id.u64?.map fun n => .response n frame
    else none
  | some id, some method => some (.request id method (frame.get? "params"))
  | none, some method => some (.notification method (frame.get? "params"))
  | none, none => none

/-! ### Documents -/

/-- The notification that opens a document, always with its first version. -/
def didOpen (uri : Uri) (language text : String) : Json :=
  notification "textDocument/didOpen" (some (.obj [("textDocument",
    .object [("uri", .str uri.text), ("languageId", .str language), ("version", .ofNat 1),
      ("text", .str text)])]))

/-- The notification that replaces the text of a document. -/
def didChange (uri : Uri) (version : Int) (text : String) : Json :=
  notification "textDocument/didChange" (some (.object [
    ("textDocument", .object [("uri", .str uri.text), ("version", .ofInt version)]),
    ("contentChanges", .arr [.obj [("text", .str text)]])]))

/-- The notification that closes a document. -/
def didClose (uri : Uri) : Json :=
  notification "textDocument/didClose" (some (.obj [("textDocument",
    .obj [("uri", .str uri.text)])]))

/-! ### The handshake -/

/-- The numbers of the kinds of symbols. -/
def symbolKinds : Json := .arr ((List.range 26).map fun n => Json.ofNat (n + 1))

/-- An object whose registration may be dynamic. -/
def dynamic (more : List (String × Json)) : Json :=
  .object (("dynamicRegistration", .bool true) :: more)

/-- What this client can do. -/
def clientCapabilities : Json :=
  let markup : Json := .arr [.str "markdown", .str "plaintext"]
  let kinds : Json := .obj [("valueSet", symbolKinds)]
  .object [
    ("workspace", .object [
      ("configuration", .bool true), ("workspaceFolders", .bool true),
      ("symbol", dynamic [("symbolKind", kinds)])]),
    ("window", .obj [("workDoneProgress", .bool true)]),
    ("textDocument", .object [
      ("synchronization", dynamic [
        ("willSave", .bool false), ("willSaveWaitUntil", .bool false),
        ("didSave", .bool false)]),
      ("completion", dynamic [
        ("completionItem", .object [
          ("snippetSupport", .bool true), ("commitCharactersSupport", .bool true),
          ("documentationFormat", markup), ("deprecatedSupport", .bool true),
          ("tagSupport", .obj [("valueSet", .arr [.ofNat 1])])]),
        ("contextSupport", .bool true)]),
      ("hover", dynamic [("contentFormat", markup)]),
      ("signatureHelp", dynamic [
        ("signatureInformation", .obj [("documentationFormat", markup)])]),
      ("definition", dynamic []),
      ("references", dynamic []),
      ("documentSymbol", dynamic [
        ("symbolKind", kinds), ("hierarchicalDocumentSymbolSupport", .bool true)]),
      ("codeAction", dynamic []),
      ("rename", dynamic [("prepareSupport", .bool true)]),
      ("publishDiagnostics", .object [
        ("relatedInformation", .bool true), ("versionSupport", .bool true)])])]

/-- The name of this client. -/
def clientInfo : Json := .object [("name", .str "swarm"), ("version", .str "0.0.0")]

/-- The parameters of the handshake for a root and its URI. -/
def initializeParams (processId : Nat) (root : Path) (rootUri : Uri) : Json :=
  let name := match root.fileName? with
    | some n => Text.Utf8.decodeStringLossy n
    | none => root.display
  .object [
    ("processId", .ofNat processId), ("clientInfo", clientInfo),
    ("rootUri", .str rootUri.text), ("rootPath", .str root.display),
    ("workspaceFolders", .arr [.object [("uri", .str rootUri.text), ("name", .str name)]]),
    ("capabilities", clientCapabilities)]

end LanguageHub.Lsp
