import LanguageHub.Config
import LanguageHub.Error
import LanguageHub.Frame
import LanguageHub.Log
import LanguageHub.Lsp.Message
import LanguageHub.Session.State

/-!
# Sessions

A session is one server process and one connection to it. This module holds its
**state**: what its callers, its three background tasks and the process share. The steps
that change it are in the modules beside this one.

* The **writer** takes commands from the `outbox`, one after the other, and is the only one
  to write to the server. A write waits while the input of the server is full. When a write
  fails the writer ends, and what it had in hand and what is queued is lost.
* The **reader** takes frames from what has `arrived`, hands each response to the call
  that waits for it, and answers or drops everything else.
* The **monitor** sees the process exit, or kills it.

A call that waits for a response has its id in `pending`. A response moves the id from
there to `delivered`, from which the call takes it. An id in neither of the two belongs
to a call that will get no answer.
-/

namespace LanguageHub

/-- How long a session waits, in milliseconds. -/
structure Timeouts where
  handshake : Nat
  request : Nat
deriving DecidableEq, Repr, Inhabited

/-- The timeouts of sessions that are not told otherwise. -/
def Timeouts.standard : Timeouts := ⟨30000, 30000⟩

/-- What the writer is asked for. -/
inductive WriterOrder where
  | send (frame : Json)
  /-- Close the server's input and end. -/
  | shutdown
deriving BEq, Repr, Inhabited

/-- How a process has ended. -/
inductive ExitStatus where
  | code (n : Int)
  /-- The process has ended, and waiting for it reports an error. -/
  | unknown (reason : String)
deriving DecidableEq, Repr

/-- What becomes of a write to the input of a process. -/
inductive Intake where
  | taken
  /-- It waits until the process has read some of what was written before. -/
  | full
  /-- It fails: the process does not hold its input open any longer. -/
  | closed
deriving DecidableEq, Repr, Inhabited

/-- The connection to a server process, with what both ends have done to it. -/
structure Link where
  /-- The frames that the writer has written, in their order. -/
  wire : List Json
  input : Intake
  /-- Whether the writer has closed the input. -/
  inputClosed : Bool
  /-- The bytes of the output that the reader has not taken yet. -/
  arrived : List UInt8
  /-- Whether the output has ended. -/
  outputEnded : Bool
  exited : Option ExitStatus
  killed : Bool
  /-- What killing the process reports, if it reports an error. -/
  killFault : Option String
deriving Repr, Inhabited

namespace Link

/-- The connection to a process that has just started. -/
def fresh (killFault : Option String) : Link :=
  ⟨[], .taken, false, [], false, none, false, killFault⟩

/-- Whether the process neither has exited nor been killed. -/
def isRunning (l : Link) : Bool := l.exited.isNone && !l.killed

end Link

/-- What the reader is doing. -/
inductive ReaderStage where
  | reading
  /-- It has an answer to a request of the server for the writer. -/
  | replying (frame : Json)
  /-- The output is over, and the calls that wait have not been told yet. -/
  | clearing
  | ended
deriving BEq, Repr, Inhabited

/-- The open documents and their last versions, by URI. -/
abbrev Documents := List (String × Int)

namespace Documents

/-- The version of a document. -/
def version? (d : Documents) (uri : String) : Option Int := (List.find? (·.1 == uri) d).map (·.2)

/-- The documents with a version for one. -/
def set (d : Documents) (uri : String) (version : Int) : Documents :=
  if List.any d (·.1 == uri) then List.map (fun e => if e.1 == uri then (uri, version) else e) d
  else d ++ [(uri, version)]

/-- The documents without one. -/
def erase (d : Documents) (uri : String) : Documents := List.filter (·.1 != uri) d

end Documents

/-- A session. -/
structure Session where
  key : SessionKey
  /-- The name of the server. -/
  server : String
  timeouts : Timeouts
  state : SessionState
  /-- The id of the next request. -/
  nextId : Nat
  /-- The ids of the calls that wait for a response. -/
  pending : List Nat
  /-- The responses that their calls have not taken yet. -/
  delivered : List (Nat × Json)
  documents : Documents
  /-- The operations that hold or wait for the documents, the holder first. -/
  documentQueue : List Nat
  outbox : List WriterOrder
  /-- The frame that the writer has taken from the outbox and has not written yet. -/
  writing : Option Json
  writerEnded : Bool
  reader : ReaderStage
  monitorEnded : Bool
  /-- Whether the process has been told to die. -/
  killRequested : Bool
  /-- Whether a disposal has begun. -/
  disposing : Bool
  /-- Whether anyone still holds the session. -/
  held : Bool
  link : Link
deriving Repr, Inhabited

namespace Session

/-- How many commands the outbox holds. -/
def outboxCapacity : Nat := 64

/-- How long a disposal waits for the server, in milliseconds. -/
def shutdownTimeout : Nat := 2000

/-- The session for a process that has just started. -/
def launched (key : SessionKey) (server : String) (timeouts : Timeouts)
    (killFault : Option String) : Session where
  key := key
  server := server
  timeouts := timeouts
  state := .starting
  nextId := 1
  pending := []
  delivered := []
  documents := []
  documentQueue := []
  outbox := []
  writing := none
  writerEnded := false
  reader := .reading
  monitorEnded := false
  killRequested := false
  disposing := false
  held := true
  link := .fresh killFault

/-- The session after an event of its life. -/
def transition (s : Session) (t : Transition) : Session := { s with state := s.state.next t }

/-- The error of a session that has ended. -/
def degraded (s : Session) : LspError := .sessionDegraded s.key

/-- What becomes of a command for the writer. -/
inductive Enqueued where
  | queued (s : Session)
  /-- The outbox is full. -/
  | full
  /-- The writer has ended. -/
  | refused

/-- Puts a command into the outbox. -/
def enqueue (s : Session) (c : WriterOrder) : Enqueued :=
  if s.writerEnded then .refused
  else if s.outbox.length < outboxCapacity then .queued { s with outbox := s.outbox ++ [c] }
  else .full

/-- The session without any trace of a call. -/
def forget (s : Session) (id : Nat) : Session :=
  { s with
    pending := s.pending.filter (· != id)
    delivered := s.delivered.filter (·.1 != id) }

/-- The response that a call can take. -/
def response? (s : Session) (id : Nat) : Option Json :=
  (s.delivered.find? (·.1 == id)).map (·.2)

end Session

end LanguageHub
