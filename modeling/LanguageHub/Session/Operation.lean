import LanguageHub.Diagnostics
import LanguageHub.Lsp.Query
import LanguageHub.Session.Call

/-!
# Operations on a session

An `Operation` is what a caller asks of a session: the handshake, a query, a change of a
document, or the disposal. Like a call it goes through stages, and
`Session.stepOperation` is one stage of one operation. Operations of one session run in
any interleaving of their stages.

The operations on documents take the map of open documents **in the order in which they
ask for it** and keep it until their frame is in the outbox, so that the frames are
queued in that order. An opening and a change put the new version into the map after
the frame is queued; a closing takes the document out of the map before.
-/

namespace LanguageHub

/-- What is done to a document. -/
inductive DocumentAction where
  | openText (uri : Uri) (language text : String)
  | changeText (uri : Uri) (text : String)
  | close (uri : Uri)
  /-- Only asks whether the document is open. -/
  | query (uri : Uri)
deriving DecidableEq, Repr

/-- How far an operation on a document has come. -/
inductive DocumentStage where
  | begin
  /-- It waits for the map of documents. -/
  | queued
  /-- It holds the map. -/
  | locked
  /-- It holds the map and has a frame for the outbox; `after` is the map once the frame
  is queued. -/
  | sending (frame : Json) (after : Documents)
deriving Repr

/-- How far a handshake has come. -/
inductive HandshakeStage where
  | begin
  | calling (call : Call) (stage : CallStage)
  /-- The server has answered. -/
  | answered
  /-- The notification that ends the handshake is for the outbox. -/
  | notifying
  | failing (e : LspError)
deriving Repr

/-- How far a disposal has come. -/
inductive DisposeStage where
  | begin
  | calling (call : Call) (stage : CallStage)
  /-- The server has agreed to shut down. -/
  | answered
  /-- The notification to exit is for the outbox. -/
  | notifying
  /-- The graceful part is over. -/
  | ending
  /-- The writer is to be told to end. -/
  | closing
  /-- The calls that wait are to be told. -/
  | clearing
deriving Repr

/-- What an operation yields. -/
inductive Outcome where
  | done
  | flag (b : Bool)
  | value (j : Json)
deriving BEq, Repr, Inhabited

/-- What an operation yields, as a value. -/
def Outcome.toJson : Outcome → Json
  | .done => .null
  | .flag b => .bool b
  | .value j => j

/-- What a caller asks of a session, and how far it has come. -/
inductive Operation where
  | handshake (stage : HandshakeStage)
  | query (q : Lsp.Query) (cancelAt : Option Nat) (stage : Option (Call × CallStage))
  | document (action : DocumentAction) (stage : DocumentStage)
  | dispose (stage : DisposeStage)
  | returned (result : Except LspError Outcome)
deriving Repr, Inhabited

namespace Operation

/-- A handshake that has not begun. -/
def startHandshake : Operation := .handshake .begin

/-- A query that has not begun. -/
def startQuery (q : Lsp.Query) (cancelAt : Option Nat) : Operation := .query q cancelAt none

/-- An operation on a document that has not begun. -/
def startDocument (a : DocumentAction) : Operation := .document a .begin

/-- A disposal that has not begun. -/
def startDispose : Operation := .dispose .begin

/-- An operation that ends well. -/
def finish : Operation := .returned (.ok .done)

/-- An operation that fails. -/
def fail (e : LspError) : Operation := .returned (.error e)

/-- The result of an operation that has ended. -/
def result? : Operation → Option (Except LspError Outcome)
  | .returned r => some r
  | _ => none

/-- When an operation that waits can go on at the latest, as far as it knows. -/
def wakeTime? : Operation → Option Nat
  | .handshake (.calling c stage) => stage.wakeTime? c
  | .query _ _ (some (c, stage)) => stage.wakeTime? c
  | .dispose (.calling c stage) => stage.wakeTime? c
  | _ => none

end Operation

namespace Session

/-- What a stage of an operation makes of a session. -/
abbrev Progress := Option (Session × Operation × List LogEntry)

/-! ### The handshake -/

/-- The call that opens a connection. -/
def initializeCall (h : Host) (s : Session) (rootUri : Uri) : Call where
  method := "initialize"
  params := some (Lsp.initializeParams h.processId s.key.root rootUri)
  timeout := s.timeouts.handshake
  cancelAt := none

/-- What is logged when a server has answered: whether it has named itself. -/
def identification (result : Json) : List LogEntry :=
  match result.get? "serverInfo" >>= (·.get? "name") >>= Json.str? with
  | some _ => [.debug "Server identified itself"]
  | none => []

/-- One stage of a handshake. -/
def stepHandshake (h : Host) (now : Nat) (stage : HandshakeStage) (s : Session) : Progress :=
  match stage with
  | .begin =>
    let s := s.transition .beginHandshake
    match s.key.root.toUri? h.directory with
    | some uri => some (s, .handshake (.calling (initializeCall h s uri) .begin), [])
    | none => some (s, .handshake (.failing (.invalidPath s.key.root)), [])
  | .calling _ (.finished (.ok result)) =>
    some (s, .handshake .answered, identification result)
  | .calling _ (.finished (.error e)) => some (s, .handshake (.failing e), [])
  | .calling c stage =>
    (s.stepCall now c stage).map fun (s, stage, log) => (s, .handshake (.calling c stage), log)
  | .answered =>
    if s.state.isTerminal then some (s, .handshake (.failing s.degraded), [])
    else some (s, .handshake .notifying, [])
  | .notifying =>
    match s.enqueue (.send (Lsp.notification "initialized" (some (.obj [])))) with
    | .queued s =>
      some (s.transition .handshakeComplete, .finish, [.info "Language server ready"])
    | .full => none
    | .refused => some (s, .handshake (.failing s.degraded), [])
  | .failing e =>
    let s := { s.transition .dispose with killRequested := true }
    some (s, .fail (.handshakeFailed s.server e.message), [])

/-! ### Queries -/

/-- One stage of a query. It is refused unless the session is ready. -/
def stepQuery (now : Nat) (q : Lsp.Query) (cancelAt : Option Nat)
    (stage : Option (Call × CallStage)) (s : Session) : Progress :=
  match stage with
  | none =>
    if s.state == .ready then
      let c : Call := ⟨q.method, some q.params, s.timeouts.request, cancelAt⟩
      (s.stepCall now c .begin).map fun (s, stage, log) =>
        (s, .query q cancelAt (some (c, stage)), log)
    else some (s, .fail s.degraded, [])
  | some (_, .finished (.ok result)) =>
    match q.readResult result with
    | some j => some (s, .returned (.ok (.value j)), [])
    | none => some (s, .fail (.requestFailed q.method (.shape q.shapeMismatch)), [])
  | some (_, .finished (.error e)) => some (s, .fail e, [])
  | some (c, stage) =>
    (s.stepCall now c stage).map fun (s, stage, log) =>
      (s, .query q cancelAt (some (c, stage)), log)

/-! ### Documents -/

/-- The session with the map of documents left to the next operation. -/
def unlock (s : Session) : Session := { s with documentQueue := s.documentQueue.drop 1 }

/-- What an operation does when it has the map of documents. -/
def stepLocked (action : DocumentAction) (s : Session) : Session × Operation :=
  let change (uri : Uri) (version : Int) (text : String) : Session × Operation :=
    (s, .document action (.sending (Lsp.didChange uri (version + 1) text)
      (s.documents.set uri.text (version + 1))))
  let openNew (uri : Uri) (language text : String) : Session × Operation :=
    (s, .document action (.sending (Lsp.didOpen uri language text)
      (s.documents.set uri.text 1)))
  match action with
  | .query uri => (s.unlock, .returned (.ok (.flag (s.documents.version? uri.text).isSome)))
  | action =>
    if s.state.isTerminal then (s.unlock, .fail s.degraded)
    else match action with
      | .openText uri language text =>
        match s.documents.version? uri.text with
        | some version => change uri version text
        | none => openNew uri language text
      | .changeText uri text =>
        match s.documents.version? uri.text with
        | some version => change uri version text
        | none => openNew uri s.key.language text
      | .close uri =>
        match s.documents.version? uri.text with
        | some _ =>
          let documents := s.documents.erase uri.text
          ({ s with documents := documents },
            .document (.close uri) (.sending (Lsp.didClose uri) documents))
        | none => (s.unlock, .finish)
      | .query _ => (s.unlock, .finish)

/-- One stage of an operation on a document; `id` is what it queues for the map under. -/
def stepDocument (id : Nat) (action : DocumentAction) (stage : DocumentStage) (s : Session) :
    Progress :=
  match stage with
  | .begin =>
    some ({ s with documentQueue := s.documentQueue ++ [id] }, .document action .queued, [])
  | .queued =>
    if s.documentQueue.head? == some id then some (s, .document action .locked, []) else none
  | .locked =>
    let (s, op) := s.stepLocked action
    some (s, op, [])
  | .sending frame after =>
    match s.enqueue (.send frame) with
    | .queued s => some (({ s with documents := after } : Session).unlock, .finish, [])
    | .full => none
    | .refused => some (s.unlock, .fail s.degraded, [])

/-! ### Disposal -/

/-- The call that asks a server to shut down. -/
def shutdownCall : Call := ⟨"shutdown", none, shutdownTimeout, none⟩

/-- One stage of a disposal. The first one disposes; those after it return at once. -/
def stepDispose (now : Nat) (stage : DisposeStage) (s : Session) : Progress :=
  match stage with
  | .begin =>
    if s.disposing then some (s, .finish, [])
    else
      let s := { s with disposing := true }
      some (s, .dispose (if s.state == .ready then .calling shutdownCall .begin else .ending), [])
  | .calling _ (.finished (.ok _)) => some (s, .dispose .answered, [])
  | .calling _ (.finished (.error e)) =>
    some (s, .dispose .ending, [.debug ("Graceful shutdown failed: " ++ e.message)])
  | .calling c stage =>
    (s.stepCall now c stage).map fun (s, stage, log) => (s, .dispose (.calling c stage), log)
  | .answered =>
    some (s, .dispose (if s.state.isTerminal then .ending else .notifying), [])
  | .notifying =>
    match s.enqueue (.send (Lsp.notification "exit" none)) with
    | .queued s => some (s, .dispose .ending, [])
    | .full => none
    | .refused => some (s, .dispose .ending, [])
  | .ending => some (s.transition .dispose, .dispose .closing, [])
  | .closing =>
    match s.enqueue .shutdown with
    | .queued s => some ({ s with killRequested := true }, .dispose .clearing, [])
    | .full => none
    | .refused => some ({ s with killRequested := true }, .dispose .clearing, [])
  | .clearing =>
    some ({ s with pending := [] }, .finish, [.info "Language server session disposed"])

/-! ### Any operation -/

/-- One stage of an operation, known by a number of its own; nothing while it has to
wait or has ended. -/
def stepOperation (h : Host) (now id : Nat) (op : Operation) (s : Session) : Progress :=
  match op with
  | .handshake stage => s.stepHandshake h now stage
  | .query q cancelAt stage => s.stepQuery now q cancelAt stage
  | .document action stage => s.stepDocument id action stage
  | .dispose stage => s.stepDispose now stage
  | .returned _ => none

/-- Gives up a session: nobody holds it any longer. -/
def release (s : Session) : Session := { s with held := false, killRequested := true }

end Session

end LanguageHub
