import LanguageHub.Json.Basic

/-!
# Scripts for servers

A script says how a rehearsed server behaves: for each method the turns that it plays,
one for each frame of that method, the last one again and again. Frames without a method
go under the empty name. A method that is not in the script gets the plainest behaviour:
a request gets null, the handshake gets no capabilities, and the notification to exit is
obeyed.
-/

namespace LanguageHub.Rehearsal

/-- What a server does in a turn. -/
inductive Action where
  | send (frame : Json)
  /-- Write these bytes as they are. -/
  | raw (bytes : List UInt8)
  /-- Wait so many milliseconds. -/
  | delay (ms : Nat)
  | exit (code : Int)
  | closeOutput
  | closeInput
  /-- Never read again. -/
  | park
deriving Repr, Inhabited

/-- How a server behaves. -/
structure Script where
  turns : List (String × List (List Action))
  /-- Why the server cannot be launched, if it cannot. -/
  launchFault : Option String
  /-- Whether waiting for its exit reports an error. -/
  waitFault : Bool
  /-- Whether killing it reports an error. -/
  killFault : Bool
  /-- Whether killing it ends it in the middle of a turn. -/
  diesAtOnce : Bool
deriving Repr, Inhabited

/-- The script that says nothing. -/
def Script.plain : Script := ⟨[], none, false, false, false⟩

/-- The word that stands for the id of the frame that is answered. -/
def idPlaceholder : String := "$ID"

mutual

/-- A value with an id in the places that are for it. -/
def fillId (id : Json) : Json → Json
  | .str s => if s = idPlaceholder then id else .str s
  | .arr items => .arr (fillIdItems id items)
  | .obj members => .obj (fillIdMembers id members)
  | j => j

/-- `fillId` on the items of an array. -/
def fillIdItems (id : Json) : List Json → List Json
  | [] => []
  | j :: rest => fillId id j :: fillIdItems id rest

/-- `fillId` on the values of an object. -/
def fillIdMembers (id : Json) : List (String × Json) → List (String × Json)
  | [] => []
  | (k, j) :: rest => (k, fillId id j) :: fillIdMembers id rest

end

/-- An action in answer to a frame with an id. -/
def Action.answering (id : Json) : Action → Action
  | .send frame => .send (fillId id frame)
  | a => a

/-- The turn of a method for its `n`-th frame. -/
def Script.turn? (s : Script) (method : String) (n : Nat) : Option (List Action) :=
  ((s.turns.find? (·.1 == method)).map (·.2)).map fun turns =>
    (turns[n]?).getD (turns.getLast?.getD [])

/-- What a server does about a frame of a method that its script does not know. -/
def plainTurn (frame : Json) (method : String) : List Action :=
  match frame.get? "id" with
  | some id =>
    let result : Json := if method = "initialize" then .obj [("capabilities", .obj [])] else .null
    [.send (.object [("jsonrpc", .str "2.0"), ("id", id), ("result", result)])]
  | none => if method = "exit" then [.exit 0] else []

end LanguageHub.Rehearsal
