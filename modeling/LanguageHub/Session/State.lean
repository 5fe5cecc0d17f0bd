/-!
# The life of a session

A session starts, shakes hands with its server, is ready, and ends: **degraded** when
the server exits on its own, **disposed** when its user is done. `SessionState.next` is
the one function that moves the state. An event out of turn changes nothing, and the
two terminal states are never left for a live one.
-/

namespace LanguageHub

/-- Where in its life a session is. -/
inductive SessionState where
  | starting
  /-- The handshake has begun. -/
  | initializing
  | ready
  /-- The server has exited on its own. -/
  | degraded
  | disposed
deriving DecidableEq, Repr, Inhabited

/-- What moves the state of a session. -/
inductive Transition where
  | beginHandshake
  | handshakeComplete
  | processExited
  | dispose
deriving DecidableEq, Repr

namespace SessionState

/-- The state after an event. -/
def next : SessionState → Transition → SessionState
  | .disposed, _ => .disposed
  | _, .dispose => .disposed
  | .degraded, _ => .degraded
  | _, .processExited => .degraded
  | .starting, .beginHandshake => .initializing
  | .initializing, .handshakeComplete => .ready
  | s, _ => s

/-- Whether a session has ended. -/
def isTerminal : SessionState → Bool
  | .degraded | .disposed => true
  | _ => false

/-- The name of a state. -/
def text : SessionState → String
  | .starting => "Starting"
  | .initializing => "Initializing"
  | .ready => "Ready"
  | .degraded => "Degraded"
  | .disposed => "Disposed"

/-- The states in the order in which they come. -/
def all : List SessionState := [.starting, .initializing, .ready, .degraded, .disposed]

/-- The place of a state in that order. -/
def rank : SessionState → Nat
  | .starting => 0
  | .initializing => 1
  | .ready => 2
  | .degraded => 3
  | .disposed => 4

/-- The state of a name. -/
def ofText? (s : String) : Option SessionState := all.find? (·.text == s)

/-- No event moves a state back. -/
theorem rank_le_next (s : SessionState) (t : Transition) : s.rank ≤ (s.next t).rank := by
  cases s <;> cases t <;> decide

end SessionState

namespace Transition

/-- The name of an event. -/
def text : Transition → String
  | .beginHandshake => "BeginHandshake"
  | .handshakeComplete => "HandshakeComplete"
  | .processExited => "ProcessExited"
  | .dispose => "Dispose"

/-- The event of a name. -/
def ofText? (s : String) : Option Transition :=
  [beginHandshake, handshakeComplete, processExited, dispose].find? (·.text == s)

end Transition

end LanguageHub
