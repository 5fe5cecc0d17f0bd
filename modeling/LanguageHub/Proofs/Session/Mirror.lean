import LanguageHub.Proofs.Lsp.Frames
import Mathlib.Logic.Function.Basic

/-!
# A server that keeps the documents

A `Mirror` is what a server knows of the documents of its client: the version and the text of each
open document, by URI. `Mirror.receive` is what it makes of a frame. It is **strict**: it takes a
frame on a document only if the frame is a legal step,

* `didOpen` for a document that is not open, with version 1;
* `didChange` for an open document, with the version after the last one and the whole text;
* `didClose` for an open document;

and fails on any other frame of these three methods, be it out of turn or malformed. All
other frames say nothing about documents. `Mirror.replay` reads a whole sequence of frames.
-/

namespace LanguageHub

/-- The version and the text of each open document. -/
abbrev Mirror := String → Option (Int × String)

namespace Mirror

/-- A server without documents. -/
def empty : Mirror := fun _ => none

/-- The URI of the document that a notification is about. -/
def uriOf? (document : Json) : Option String := document.get? "uri" >>= Json.str?

/-- The version of the document that a notification is about. -/
def versionOf? (document : Json) : Option Int :=
  match document.get? "version" with
  | some (.num (.int n)) => some n
  | _ => none

/-- The text that a list of changes gives a document: one change of the whole. -/
def wholeText? (changes : Json) : Option String :=
  match changes.arr? with
  | some [change] => if change.has "range" then none else change.get? "text" >>= Json.str?
  | _ => none

/-- Takes a `didOpen`. -/
def takeOpen (m : Mirror) (params : Json) : Option Mirror := do
  let document ← params.get? "textDocument"
  let uri ← uriOf? document
  let version ← versionOf? document
  let text ← document.get? "text" >>= Json.str?
  if (m uri).isNone ∧ version = 1 then some (Function.update m uri (some (version, text)))
  else none

/-- Takes a `didChange`. -/
def takeChange (m : Mirror) (params : Json) : Option Mirror := do
  let document ← params.get? "textDocument"
  let uri ← uriOf? document
  let version ← versionOf? document
  let text ← params.get? "contentChanges" >>= wholeText?
  let (old, _) ← m uri
  if version = old + 1 then some (Function.update m uri (some (version, text))) else none

/-- Takes a `didClose`. -/
def takeClose (m : Mirror) (params : Json) : Option Mirror := do
  let document ← params.get? "textDocument"
  let uri ← uriOf? document
  if (m uri).isSome then some (Function.update m uri none) else none

/-- **What a server makes of a frame**; nothing if the frame is no legal step. -/
def receive (m : Mirror) (frame : Json) : Option Mirror :=
  match Lsp.Incoming.of? frame with
  | some (.notification method params) =>
    if method = "textDocument/didOpen" then params >>= m.takeOpen
    else if method = "textDocument/didChange" then params >>= m.takeChange
    else if method = "textDocument/didClose" then params >>= m.takeClose
    else some m
  | _ => some m

/-- What a server knows after a sequence of frames, if all of them are legal. -/
def replay (frames : List Json) : Option Mirror := frames.foldlM receive empty

theorem replay_append (fs gs : List Json) : replay (fs ++ gs) =
    (replay fs).bind fun m => gs.foldlM receive m := by
  simp only [replay, List.foldlM_append]
  rfl

theorem replay_concat {fs : List Json} {m : Mirror} (h : replay fs = some m) (frame : Json) :
    replay (fs ++ [frame]) = m.receive frame := by
  rw [replay_append, h]
  simp

variable (m : Mirror)

/-! ### Frames about documents -/

theorem receive_didOpen {uri : Uri} (language text : String) (h : m uri.text = none) :
    m.receive (Lsp.didOpen uri language text) =
      some (Function.update m uri.text (some (1, text))) := by
  simp [receive, Lsp.didOpen, Lsp.incoming_notification, takeOpen, Json.get?_object, uriOf?,
    versionOf?, Json.ofNat, Json.str?, h]

theorem receive_didChange {uri : Uri} {old : Int} {before : String} (text : String)
    (h : m uri.text = some (old, before)) : m.receive (Lsp.didChange uri (old + 1) text) =
      some (Function.update m uri.text (some (old + 1, text))) := by
  simp [receive, Lsp.didChange, Lsp.incoming_notification, takeChange, Json.get?_object, uriOf?,
    versionOf?, wholeText?, Json.ofInt, Json.str?, Json.arr?, Json.has, h]

theorem receive_didClose {uri : Uri} (h : (m uri.text).isSome = true) :
    m.receive (Lsp.didClose uri) = some (Function.update m uri.text none) := by
  simp [receive, Lsp.didClose, Lsp.incoming_notification, takeClose, uriOf?, Json.str?, h]

/-! ### Other frames -/

/-- A frame that says nothing about documents. -/
def Silent (frame : Json) : Prop := ∀ m : Mirror, m.receive frame = some m

theorem silent_request (id : Nat) (method : String) (params : Option Json) :
    Silent (Lsp.request id method params) := by
  intro m
  simp [receive, Lsp.incoming_request]

theorem silent_initialized (params : Option Json) :
    Silent (Lsp.notification "initialized" params) := by
  intro m
  simp [receive, Lsp.incoming_notification]

theorem silent_exit (params : Option Json) : Silent (Lsp.notification "exit" params) := by
  intro m
  simp [receive, Lsp.incoming_notification]

theorem silent_reply {frame : Json} (h : Lsp.IsReply frame) : Silent frame := by
  intro m
  rcases h.incoming with hf | ⟨n, body, hf⟩ <;> simp [receive, hf]

end Mirror

end LanguageHub
