import LanguageHub.Session.Basic

/-!
# Calls

A call sends a request and waits for its response. It goes through **stages**, one for
each point at which others can take their turn; `Session.stepCall` is one stage. A call
that waits takes what comes first in this order: its response, a cancellation, the end
of the session, its timeout. Whatever ends it, its id leaves the table of waiting calls.
-/

namespace LanguageHub

/-- A request to a server. -/
structure Call where
  method : String
  params : Option Json
  /-- How long to wait for the response, in milliseconds. -/
  timeout : Nat
  /-- When the caller gives up, if it does. -/
  cancelAt : Option Nat
deriving Repr, Inhabited

/-- How far a call has come. -/
inductive CallStage where
  | begin
  /-- It has an id. -/
  | numbered (id : Nat)
  /-- Its id is in the table of waiting calls. -/
  | registered (id : Nat)
  /-- Its frame is in the outbox. -/
  | waiting (id deadline : Nat)
  /-- It has failed, and its id is still to be taken out of the table. -/
  | failing (id : Nat) (e : LspError)
  | finished (result : Except LspError Json)
deriving Repr, Inhabited

/-- The result that a response carries. -/
def Call.resultOf (c : Call) (body : Json) : Except LspError Json :=
  match body.get? "error" with
  | some error =>
    let message := (error.get? "message" >>= Json.str?).getD "unknown error"
    let code := (error.get? "code" >>= Json.i64?).getD 0
    .error (.requestFailed c.method (.response message code))
  | none => .ok ((body.get? "result").getD .null)

/-- Whether the caller has given up. -/
def Call.isCancelled (c : Call) (now : Nat) : Bool :=
  match c.cancelAt with
  | some t => t ≤ now
  | none => false

/-- One stage of a call; nothing while it has to wait. -/
def Session.stepCall (now : Nat) (c : Call) (stage : CallStage) (s : Session) :
    Option (Session × CallStage × List LogEntry) :=
  match stage with
  | .begin =>
    if s.state.isTerminal then some (s, .finished (.error s.degraded), [])
    else some ({ s with nextId := s.nextId + 1 }, .numbered s.nextId, [])
  | .numbered id => some ({ s with pending := s.pending ++ [id] }, .registered id, [])
  | .registered id =>
    match s.enqueue (.send (Lsp.request id c.method c.params)) with
    | .queued s => some (s, .waiting id (now + c.timeout), [.trace "Request sent"])
    | .full => none
    | .refused => some (s, .failing id s.degraded, [])
  | .waiting id deadline =>
    match s.response? id with
    | some body => some (s.forget id, .finished (c.resultOf body), [])
    | none =>
      if !s.pending.contains id then some (s, .failing id s.degraded, [])
      else if c.isCancelled now then some (s, .failing id (.cancelled c.method), [])
      else if s.state.isTerminal then some (s, .failing id s.degraded, [])
      else if deadline ≤ now then
        some (s, .failing id (.requestFailed c.method (.timeout c.timeout)), [])
      else none
  | .failing id e => some (s.forget id, .finished (.error e), [])
  | .finished _ => none

/-- When a call that waits can go on at the latest, as far as it knows. -/
def CallStage.wakeTime? (c : Call) : CallStage → Option Nat
  | .waiting _ deadline => some (match c.cancelAt with
    | some t => min t deadline
    | none => deadline)
  | _ => none

end LanguageHub
