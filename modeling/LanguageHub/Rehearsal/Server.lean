import LanguageHub.Rehearsal.Script
import LanguageHub.Session.Basic

/-!
# Rehearsed servers

A `RehearsedServer` plays a script at the far end of a link. It takes one frame after the
other and finishes the turn for one before it takes the next.

A server that is killed still finishes the turn that it is in, and it notes the frames
that were written to it; then its output ends. If its script says so it dies at once
instead. A server whose input the client closes exits once it has taken every frame.
-/

namespace LanguageHub.Rehearsal

/-- A server that plays a script. -/
structure RehearsedServer where
  script : Script
  /-- The frames that it has noted, in their order. -/
  noted : List Json
  /-- How many frames of the link it has taken. -/
  taken : Nat
  /-- What is left of the turn that it is in. -/
  actions : List Action
  /-- Until when it waits. -/
  resumeAt : Option Nat
  parked : Bool
  /-- Whether it has closed its input itself. -/
  inputClosed : Bool
  /-- Whether its process is gone. -/
  gone : Bool
  /-- The code with which it has exited by itself. -/
  exitCode : Option Int
deriving Repr, Inhabited

namespace RehearsedServer

/-- A server that has just started. -/
def start (script : Script) : RehearsedServer := ⟨script, [], 0, [], none, false, false, false, none⟩

/-- The method of a frame, empty if it has none. -/
def methodOf (frame : Json) : String := (frame.get? "method" >>= Json.str?).getD ""

/-- How many frames of a method a server has noted. -/
def countOf (s : RehearsedServer) (method : String) : Nat :=
  (s.noted.filter fun f => methodOf f == method).length

/-- What a server does about a frame. -/
def turnFor (s : RehearsedServer) (frame : Json) : List Action :=
  let method := methodOf frame
  match s.script.turn? method (s.countOf method) with
  | some turn => turn.map (·.answering ((frame.get? "id").getD .null))
  | none => plainTurn frame method

/-- What waiting for the exit of a server reports. -/
def exitStatus (s : RehearsedServer) (code : Int) : ExitStatus :=
  if s.script.waitFault then .unknown "scripted wait error" else .code code

/-- The server and its link after its process has exited. -/
def exit (s : RehearsedServer) (code : Int) (l : Link) : RehearsedServer × Link :=
  ({ s with gone := true, actions := [], exitCode := some code },
    { l with
      exited := if l.killed then l.exited else some (s.exitStatus code)
      outputEnded := true
      input := .closed })

/-- Writes to the output of a server, unless it is closed. -/
def write (bytes : List UInt8) (l : Link) : Link :=
  if l.outputEnded then l else { l with arrived := l.arrived ++ bytes }

/-- Does one action. -/
def perform (now : Nat) (a : Action) (s : RehearsedServer) (l : Link) :
    RehearsedServer × Link :=
  match a with
  | .send frame => (s, write (Frame.write frame) l)
  | .raw bytes => (s, write bytes l)
  | .delay ms => ({ s with resumeAt := some (now + ms) }, l)
  | .exit code => s.exit code l
  | .closeOutput => (s, { l with outputEnded := true })
  | .closeInput => ({ s with inputClosed := true }, { l with input := .closed })
  | .park => ({ s with parked := true }, l)

/-- Whether a server takes frames. -/
def reads (s : RehearsedServer) : Bool := !s.parked && !s.inputClosed

/-- One step of a server between two turns. -/
def stepIdle (s : RehearsedServer) (l : Link) : Option (RehearsedServer × Link) :=
  if l.killed then
    let noted := if s.reads then s.noted ++ l.wire.drop s.taken else s.noted
    some ({ s with gone := true, noted := noted },
      { l with outputEnded := true, input := .closed })
  else if !s.reads then none
  else match l.wire[s.taken]? with
    | some frame =>
      some ({ s with
        taken := s.taken + 1, noted := s.noted ++ [frame], actions := s.turnFor frame }, l)
    | none => if l.inputClosed then some (s.exit 0 l) else none

/-- One step of a server; nothing while it waits. -/
def step (now : Nat) (s : RehearsedServer) (l : Link) : Option (RehearsedServer × Link) :=
  if s.gone then none
  else if l.killed && s.script.diesAtOnce then
    some ({ s with gone := true, actions := [], resumeAt := none },
      { l with outputEnded := true, input := .closed })
  else match s.resumeAt with
    | some t => if t ≤ now then some ({ s with resumeAt := none }, l) else none
    | none =>
      match s.actions with
      | a :: rest => some (({ s with actions := rest }).perform now a l)
      | [] => s.stepIdle l

/-- A server that is to do something now, after the turn that it is in. -/
def prompt (s : RehearsedServer) (actions : List Action) : RehearsedServer :=
  { s with actions := s.actions ++ actions }

end RehearsedServer

end LanguageHub.Rehearsal
