import LanguageHub.Session.Operation

/-!
# The background of a session

The steps of the writer, the reader and the monitor. Each takes its next step alone and
on its own account, so that a run of a session is any interleaving of them with the
stages of operations.

The reader sorts every frame of the server to at most one effect: a response ends a call
that waits for it, a request gets exactly one reply, and a notification is published,
logged or ignored.
-/

namespace LanguageHub

namespace Session

/-- What a step in the background makes of a session. -/
structure BackgroundStep where
  session : Session
  log : List LogEntry
  published : List Lsp.Publication
deriving Repr

/-- A step that only changes and logs. -/
def BackgroundStep.quiet (s : Session) (log : List LogEntry) : BackgroundStep := ⟨s, log, []⟩

/-! ### The writer -/

/-- Ends the writer: what it has in hand and what is queued is lost, and the server's input is
closed. -/
def endWriter (s : Session) : Session :=
  { s with
    writerEnded := true, writing := none, outbox := []
    link := { s.link with inputClosed := true } }

/-- One step of the writer: it takes the next command, or it writes the frame that it has in
hand, for which a full input makes it wait. -/
def stepWriter (s : Session) : Option BackgroundStep :=
  if s.writerEnded then none
  else match s.writing with
    | some frame =>
      match s.link.input with
      | .taken => some (.quiet { s with
          writing := none, link := { s.link with wire := s.link.wire ++ [frame] } } [])
      | .full => none
      | .closed => some (.quiet s.endWriter
          [.warn "Write to language server failed: Broken pipe (os error 32)"])
    | none =>
      match s.outbox with
      | .send frame :: rest => some (.quiet { s with outbox := rest, writing := some frame } [])
      | .shutdown :: _ => some (.quiet s.endWriter [])
      | [] => if !s.held && s.reader == .ended then some (.quiet s.endWriter []) else none

/-! ### The reader -/

/-- The reply to a request of the server, with what is logged about it. -/
def answer (id : Json) (method : String) (params : Option Json) : Json × List LogEntry :=
  if method = "client/registerCapability" ∨ method = "client/unregisterCapability" ∨
      method = "window/workDoneProgress/create" then
    (Lsp.reply id .null, [])
  else if method = "workspace/configuration" then
    let items := ((params >>= (·.get? "items")) >>= Json.arr?).getD []
    (Lsp.reply id (.arr (items.map fun _ => .null)), [])
  else
    (Lsp.replyError id Lsp.methodNotFound ("Method not found: " ++ method),
      [.debug "Unsupported server request"])

/-- What a notification of the server publishes and logs. -/
def receive (method : String) (params : Option Json) : List Lsp.Publication × List LogEntry :=
  if method = "textDocument/publishDiagnostics" then
    match params with
    | none => ([], [.debug "publishDiagnostics without params"])
    | some p =>
      match Lsp.Publication.of? p with
      | some publication => ([publication], [.debug "Diagnostics updated"])
      | none => ([], [.debug "Dropping malformed diagnostics: the parameters have another shape"])
  else if method = "window/logMessage" then
    let read : Option (Int × String) := do
      let r ← Json.Record.of? ["type", "message"] (← params)
      some (← r.required "type" Json.i32?, ← r.required "message" Json.str?)
    match read with
    | some (kind, message) =>
      if kind = 1 then ([], [.warn message])
      else if kind = 2 ∨ kind = 3 then ([], [.debug message])
      else ([], [.trace message])
    | none => ([], [])
  else ([], [.trace "Ignoring notification"])

/-- What the reader does with one frame. -/
def dispatch (frame : Json) (s : Session) : BackgroundStep :=
  match Lsp.Incoming.of? frame with
  | none => .quiet s [.trace "Ignoring malformed JSON-RPC frame"]
  | some (.response id body) =>
    if s.pending.contains id then
      .quiet { s with
        pending := s.pending.filter (· != id), delivered := s.delivered ++ [(id, body)] } []
    else .quiet s [.trace "Discarding stale response"]
  | some (.request id method params) =>
    let (reply, log) := answer id method params
    .quiet { s with reader := .replying reply } log
  | some (.notification method params) =>
    let (published, log) := receive method params
    ⟨s, log, published⟩

/-- The session once the output of the server is over. -/
def endReading (s : Session) : Session :=
  { s.transition .processExited with reader := .clearing }

/-- One step of the reader. -/
def stepReader (s : Session) : Option BackgroundStep :=
  match s.reader with
  | .reading =>
    match Frame.next s.link.outputEnded s.link.arrived with
    | .message frame rest => some (dispatch frame { s with link := { s.link with arrived := rest } })
    | .ended => some (.quiet s.endReading [.debug "Language server closed stdout"])
    | .failed e =>
      some (.quiet s.endReading [.warn ("Read from language server failed: " ++ e.message)])
    | .more => none
  | .replying frame =>
    match s.enqueue (.send frame) with
    | .queued s => some (.quiet { s with reader := .reading } [])
    | .refused => some (.quiet { s with reader := .reading } [])
    | .full => none
  | .clearing => some (.quiet { s with pending := [], reader := .ended } [])
  | .ended => none

/-! ### The monitor -/

/-- The monitor kills the process when it has been told to. -/
def stepKill (s : Session) : Option BackgroundStep :=
  if s.monitorEnded || !s.killRequested then none
  else
    let log := match s.link.killFault with
      | some reason => [.debug ("Killing language server failed: " ++ reason)]
      | none => []
    some (.quiet { s with
      monitorEnded := true
      link := { s.link with killed := s.link.killed || s.link.exited.isNone } } log)

/-- The monitor sees that the process has exited. -/
def stepExit (s : Session) : Option BackgroundStep :=
  if s.monitorEnded then none
  else match s.link.exited with
    | none => none
    | some (.code _) =>
      some (.quiet { s.transition .processExited with monitorEnded := true }
        [.warn "Language server exited"])
    | some (.unknown reason) =>
      some (.quiet { s.transition .processExited with monitorEnded := true }
        [.warn ("Waiting on language server failed: " ++ reason)])

/-- The first step that the background of a session can take. -/
def stepBackground (s : Session) : Option BackgroundStep :=
  s.stepWriter <|> s.stepKill <|> s.stepExit <|> s.stepReader

end Session

end LanguageHub
