import LanguageHub.Lsp.Diagnostic
import LanguageHub.Uri.File

/-!
# The hub of diagnostics

Every session publishes to one hub. It keeps the latest diagnostics of each document,
where an empty list clears the document, and it queues every publication for each
subscriber. A queue holds at most `Hub.capacity` events; when it runs over, the oldest
event is lost, and the subscriber learns **how many** it has lost before it gets the
rest.

A `Snapshot` shows the documents in the order in which they are looked at: those with
an error first, and by URI among equals.
-/

namespace LanguageHub

open Lsp (Diagnostic Publication)

/-- The latest diagnostics of the documents that have any. -/
structure DiagnosticsStore where
  documents : List (Uri × List Diagnostic)
deriving BEq, Repr, Inhabited

namespace DiagnosticsStore

/-- The store without documents. -/
def empty : DiagnosticsStore := ⟨[]⟩

/-- The store after a publication. -/
def update (s : DiagnosticsStore) (p : Publication) : DiagnosticsStore :=
  let others := s.documents.filter (·.1 != p.uri)
  ⟨if p.diagnostics.isEmpty then others else others ++ [(p.uri, p.diagnostics)]⟩

/-- The diagnostics of a document. -/
def get (s : DiagnosticsStore) (uri : Uri) : List Diagnostic :=
  ((s.documents.find? (·.1 == uri)).map (·.2)).getD []

end DiagnosticsStore

/-- The documents with diagnostics, in the order in which they are looked at. -/
structure Snapshot where
  documents : List (Uri × List Diagnostic)
deriving BEq, Repr, Inhabited

namespace Snapshot

/-- Whether a document comes before another one. -/
def before (a b : Uri × List Diagnostic) : Bool :=
  let aError := a.2.any Diagnostic.isError
  let bError := b.2.any Diagnostic.isError
  if aError == bError then decide (a.1.text ≤ b.1.text) else aError

/-- The documents of a store. -/
def ofStore (s : DiagnosticsStore) : Snapshot := ⟨s.documents.mergeSort before⟩

/-- All diagnostics. -/
def diagnostics (s : Snapshot) : List Diagnostic := s.documents.flatMap (·.2)

/-- The number of diagnostics of a severity. -/
def count (s : Snapshot) (severity : Int) : Nat :=
  (s.diagnostics.filter (·.severity == some severity)).length

/-- The number of diagnostics. -/
def total (s : Snapshot) : Nat := s.diagnostics.length

/-- The line that sums a snapshot up, empty when there is nothing to show. -/
def status (s : Snapshot) : String :=
  if s.documents.isEmpty then ""
  else "E:" ++ toString (s.count Diagnostic.error) ++ " W:" ++ toString (s.count Diagnostic.warning)

end Snapshot

/-- The events that wait for a subscriber, oldest first, and how many before them it has
lost. -/
structure Subscriber where
  lost : Nat
  events : List Publication
deriving BEq, Repr, Inhabited

/-- The hub: what is known and who listens. -/
structure Hub where
  store : DiagnosticsStore
  subscribers : List Subscriber
deriving BEq, Repr, Inhabited

namespace Hub

/-- How many events can wait for a subscriber. -/
def capacity : Nat := 256

/-- The hub without documents and subscribers. -/
def empty : Hub := ⟨.empty, []⟩

end Hub

/-- A subscriber with one more event. -/
def Subscriber.push (s : Subscriber) (p : Publication) : Subscriber :=
  if s.events.length < Hub.capacity then ⟨s.lost, s.events ++ [p]⟩
  else ⟨s.lost + 1, s.events.drop 1 ++ [p]⟩

/-- What a subscriber takes when it asks for the next event, and what is left for it: first how many
events it has lost, if it has lost any, then the oldest event. -/
def Subscriber.next? (s : Subscriber) : Option (Subscriber × Subscriber) :=
  if s.lost = 0 then
    match s.events with
    | [] => none
    | p :: rest => some (⟨0, [p]⟩, ⟨0, rest⟩)
  else some (⟨s.lost, []⟩, ⟨0, s.events⟩)

namespace Hub

/-- The hub after a publication. -/
def publish (h : Hub) (p : Publication) : Hub :=
  ⟨h.store.update p, h.subscribers.map (·.push p)⟩

/-- The hub with one more subscriber, which gets what is published from now on. -/
def subscribe (h : Hub) : Hub := ⟨h.store, h.subscribers ++ [⟨0, []⟩]⟩

/-- What a subscriber receives when it asks for the next event, and the hub after that. -/
def receive (h : Hub) (subscriber : Nat) : Option Subscriber × Hub :=
  match h.subscribers[subscriber]? >>= Subscriber.next? with
  | some (taken, left) => (some taken, ⟨h.store, h.subscribers.set subscriber left⟩)
  | none => (none, h)

/-- What a subscriber receives when it asks again and again, at most `fuel` times, until nothing is
left, and the hub after that. -/
def receiveAll (subscriber : Nat) : Nat → Hub → Subscriber × Hub
  | 0, h => (⟨0, []⟩, h)
  | fuel + 1, h =>
    match h.receive subscriber with
    | (some taken, h) =>
      let (rest, h) := receiveAll subscriber fuel h
      (⟨taken.lost + rest.lost, taken.events ++ rest.events⟩, h)
    | (none, h) => (⟨0, []⟩, h)

/-- All that waits for a subscriber, and the hub after it has received that. -/
def drain (h : Hub) (subscriber : Nat) : Option Subscriber × Hub :=
  match h.subscribers[subscriber]? with
  | some s =>
    let (taken, h) := receiveAll subscriber (s.events.length + 1) h
    (some taken, h)
  | none => (none, h)

/-- The snapshot of what is known. -/
def snapshot (h : Hub) : Snapshot := .ofStore h.store

end Hub

end LanguageHub
