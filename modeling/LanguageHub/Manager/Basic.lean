import LanguageHub.Installer.Install
import LanguageHub.Session.Background
import LanguageHub.Template.Arguments
import LanguageHub.Workspace

/-!
# The manager of sessions

The manager keeps **one session for each key**. Its table leads from keys to slots, and
a slot holds a session once there is one. Callers of one key share the slot: the first
of them creates the session, and the others queue at the slot. When a creation fails,
the next in the queue tries anew.

A slot outlives its place in the table as long as a caller still uses it, so sessions,
slots and the table are kept apart, and all three are named by their numbers.
-/

namespace LanguageHub

/-- What a server process is started with. -/
structure LaunchSpec where
  server : String
  executable : Path
  arguments : List String
  workingDir : Path
deriving DecidableEq, Repr, Inhabited

/-- A place for the session of a key. -/
structure Slot where
  session : Option Nat
  /-- The tasks that create the session or wait for it, the creator first. -/
  queue : List Nat
deriving DecidableEq, Repr, Inhabited

/-- What the callers of a manager share. -/
structure Manager where
  /-- Every session that was started, in the order of their launches. -/
  sessions : List Session
  slots : List Slot
  table : List (SessionKey × Nat)
  hub : Hub
  install : InstallState
  /-- How often a launch was tried. -/
  attempts : Nat
  /-- What the sessions were launched with. -/
  launches : List LaunchSpec
deriving Repr, Inhabited

/-- What a manager works with, and what becomes of the launches it tries: the reason why
one fails, or what killing the process will report. -/
structure ManagerEnvironment where
  host : Host
  installer : Installer
  web : InstallEnvironment
  markers : RootMarkers
  timeouts : Timeouts
  launch : Nat → LaunchSpec → Except String (Option String)

namespace Manager

/-- A manager without sessions. -/
def start (files : FileTree) : Manager where
  sessions := []
  slots := []
  table := []
  hub := .empty
  install := .start files
  attempts := 0
  launches := []

/-- The manager with another state of one session. -/
def setSession (m : Manager) (i : Nat) (s : Session) : Manager :=
  { m with sessions := m.sessions.set i s }

/-- The manager with another state of one slot. -/
def setSlot (m : Manager) (i : Nat) (s : Slot) : Manager := { m with slots := m.slots.set i s }

/-- The session in a slot. -/
def sessionIn (m : Manager) (slot : Nat) : Option Nat := (m.slots[slot]?).bind (·.session)

/-- The state of a session. -/
def stateOf (m : Manager) (i : Nat) : SessionState :=
  ((m.sessions[i]?).map (·.state)).getD .disposed

/-- The slot of a key. -/
def slotOf (m : Manager) (key : SessionKey) : Option Nat :=
  (m.table.find? (·.1.same key)).map (·.2)

/-- The table with a slot for a key; a key that is there keeps its first spelling. -/
def bind (m : Manager) (key : SessionKey) (slot : Nat) : Manager :=
  if m.table.any (·.1.same key) then
    { m with table := m.table.map fun e => if e.1.same key then (e.1, slot) else e }
  else { m with table := m.table ++ [(key, slot)] }

/-- The table without a key. -/
def unbind (m : Manager) (key : SessionKey) : Manager :=
  { m with table := m.table.filter fun e => !e.1.same key }

/-- A manager with one more slot, and the number of the slot. -/
def newSlot (m : Manager) : Manager × Nat :=
  ({ m with slots := m.slots ++ [⟨none, []⟩] }, m.slots.length)

/-- A manager with one more session, and its number. -/
def newSession (m : Manager) (s : Session) : Manager × Nat :=
  ({ m with sessions := m.sessions ++ [s] }, m.sessions.length)

/-- The states of the sessions in the table, by the text of their keys. -/
def states (m : Manager) : List (String × SessionState) :=
  let listed := m.table.filterMap fun e => (m.sessionIn e.2).map fun i => (e.1.text, m.stateOf i)
  listed.mergeSort fun a b => decide (a.1 ≤ b.1)

/-! ### Finding the owner of a document -/

/-- A session that could own a document: whether it has the document open, how deep its
root is, and its language. -/
structure Candidate where
  session : Nat
  isOpen : Bool
  depth : Nat
  language : String
deriving DecidableEq, Repr

/-- Whether a candidate is preferred to another one, or the two are alike: an open
document counts most, then a deep root, then a small language id. -/
def Candidate.before (a b : Candidate) : Bool :=
  if a.isOpen != b.isOpen then a.isOpen
  else if a.depth != b.depth then b.depth < a.depth
  else decide (a.language ≤ b.language)

/-- The preferred candidate. -/
def choose (candidates : List Candidate) : Option Nat :=
  ((candidates.mergeSort Candidate.before).head?).map (·.session)

/-- The sessions whose root contains a path. -/
def owners (m : Manager) (path : Path) : List Nat :=
  m.table.filterMap fun e => if path.within e.1.root then m.sessionIn e.2 else none

/-- The sessions of the table. -/
def listed (m : Manager) : List Nat := m.table.filterMap fun e => m.sessionIn e.2

end Manager

end LanguageHub
