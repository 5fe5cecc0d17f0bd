import LanguageHub.Proofs.Lsp.Frames
import LanguageHub.Lsp.Query
import Mathlib.Data.List.Induction

/-!
# The grammar of a conversation

What a client says to a server, its replies apart, is a **conversation**: it opens with `initialize`
and `initialized`, then come requests and notifications about documents, and at the end `shutdown`
and `exit`. `Lsp.Saying.of` sorts the frames of a client by their place in a conversation, and
`Lsp.Phase.hear` is a listener that is **strict**: it takes a saying only where the grammar
has it. `Lsp.Phase.replay` listens to a whole sequence of frames.

A beginning of a conversation is one (`Lsp.Phase.listen_of_prefix`), which is why frames that are
lost at the end do no harm. What the grammar says in plain terms is `Lsp.Grammatical`.
-/

namespace LanguageHub.Lsp

/-- What a client can say. -/
inductive Saying where
  /-- The request that opens a conversation, which has the id 1. -/
  | opening
  | initialized
  /-- A request of another method. -/
  | request
  /-- A notification about a document. -/
  | document
  | shutdown
  | exit
  /-- What has no place in a conversation. -/
  | stray
deriving DecidableEq, Repr

/-- The methods of the notifications about documents. -/
def documentMethods : List String :=
  ["textDocument/didOpen", "textDocument/didChange", "textDocument/didClose"]

/-- The place of a frame in a conversation. -/
def Saying.of (frame : Json) : Saying :=
  match Incoming.of? frame with
  | some (.request id method _) =>
    if method = "initialize" then if id.u64? = some 1 then .opening else .stray
    else if method = "shutdown" then .shutdown
    else .request
  | some (.notification method _) =>
    if method = "initialized" then .initialized
    else if method = "exit" then .exit
    else if method ∈ documentMethods then .document
    else .stray
  | _ => .stray

/-- **What is said in a sequence of frames**: all but the replies to the server, which have no
method. -/
def sayings (frames : List Json) : List Saying := (frames.filter (·.has "method")).map Saying.of

@[simp]
theorem sayings_append (fs gs : List Json) : sayings (fs ++ gs) = sayings fs ++ sayings gs := by
  simp [sayings]

theorem sayings_of_isPrefix {fs gs : List Json} (h : fs <+: gs) : sayings fs <+: sayings gs := by
  obtain ⟨rest, rfl⟩ := h
  rw [sayings_append]
  exact List.prefix_append ..

theorem mem_sayings {fs : List Json} {x : Saying} :
    x ∈ sayings fs ↔ ∃ frame ∈ fs, frame.has "method" = true ∧ Saying.of frame = x := by
  simp [sayings, and_assoc]

/-- Only what has a method says anything. -/
theorem has_method_of_saying {frame : Json} (h : Saying.of frame ≠ .stray) :
    frame.has "method" = true := by
  unfold Saying.of Incoming.of? at h
  cases hm : frame.get? "method" with
  | none => cases hi : frame.get? "id" <;> simp [hm, hi] at h
  | some j => simp [Json.has, hm]

/-! ### The frames of a client -/

theorem has_method_request (id : Nat) (method : String) (params : Option Json) :
    (request id method params).has "method" = true := by
  simp [Json.has, get?_request_method]

theorem has_method_notification (method : String) (params : Option Json) :
    (notification method params).has "method" = true := by
  simp [Json.has, get?_notification]

/-- A reply is no part of a conversation. -/
theorem sayings_reply {frame : Json} (h : IsReply frame) : sayings [frame] = [] := by
  simp [sayings, Json.has, h.1]

theorem sayings_singleton {frame : Json} (h : frame.has "method" = true) :
    sayings [frame] = [Saying.of frame] := by
  simp [sayings, h]

theorem saying_opening (params : Option Json) :
    Saying.of (request 1 "initialize" params) = .opening := by
  simp [Saying.of, incoming_request, Json.u64?, Json.ofNat, Json.intIn?]

theorem saying_shutdown (id : Nat) (params : Option Json) :
    Saying.of (request id "shutdown" params) = .shutdown := by
  simp [Saying.of, incoming_request]

theorem saying_initialized (params : Option Json) :
    Saying.of (notification "initialized" params) = .initialized := by
  simp [Saying.of, incoming_notification]

theorem saying_exit (params : Option Json) :
    Saying.of (notification "exit" params) = .exit := by
  simp [Saying.of, incoming_notification]

/-- A notification about a document is one. -/
theorem saying_document {method : String} (h : method ∈ documentMethods)
    (params : Option Json) : Saying.of (notification method params) = .document := by
  have hne : method ≠ "initialized" ∧ method ≠ "exit" := by
    constructor <;> (rintro rfl; exact absurd h (by decide))
  simp [Saying.of, incoming_notification, hne.1, hne.2, h]

/-- What asks about documents neither opens nor ends a conversation. -/
theorem saying_query (q : Query) (id : Nat) (params : Option Json) :
    Saying.of (request id q.method params) = .request := by
  have hne : q.method ≠ "initialize" ∧ q.method ≠ "shutdown" := by
    cases q <;> simp [Query.method]
  simp [Saying.of, incoming_request, hne.1, hne.2]

/-! ### The listener -/

/-- How far a conversation has come. -/
inductive Phase where
  | silent
  /-- The client has opened the conversation. -/
  | greeting
  | working
  /-- The client has asked the server to shut down. -/
  | closing
  | over
deriving DecidableEq, Repr

namespace Phase

/-- Whether the greeting is over. -/
def isOpen : Phase → Bool
  | .silent | .greeting => false
  | _ => true

/-- **What a listener makes of a saying**; nothing if it has no place there. -/
def hear (p : Phase) : Saying → Option Phase
  | .opening => if p = .silent then some .greeting else none
  | .initialized => if p = .greeting then some .working else none
  | .request | .document => if p.isOpen then some p else none
  | .shutdown => if p = .working then some .closing else none
  | .exit => if p = .closing then some .over else none
  | .stray => none

/-- Where a conversation has come to, if every saying is in its place. -/
def listen (said : List Saying) : Option Phase := said.foldlM hear .silent

/-- **Where a conversation has come to** after a sequence of frames. -/
def replay (frames : List Json) : Option Phase := listen (sayings frames)

variable {fs gs : List Json} {frame : Json} {said before after : List Saying} {x : Saying}
  {p p' : Phase}

theorem listen_append :
    listen (before ++ after) = (listen before).bind fun p => after.foldlM hear p := by
  simp only [listen, List.foldlM_append]
  rfl

/-- What is in its place is so after what was said before. -/
theorem listen_concat :
    listen (said ++ [x]) = some p' ↔ ∃ p, listen said = some p ∧ p.hear x = some p' := by
  simp [listen_append, Option.bind_eq_some_iff]

/-- **A beginning of a conversation is one.** -/
theorem listen_of_prefix (hp : before <+: said) (h : listen said = some p) :
    ∃ p', listen before = some p' := by
  obtain ⟨rest, rfl⟩ := hp
  rw [listen_append, Option.bind_eq_some_iff] at h
  obtain ⟨p', hp', -⟩ := h
  exact ⟨p', hp'⟩

/-- One more frame. -/
theorem replay_concat (h : replay fs = some p) (hm : frame.has "method" = true)
    (hx : p.hear (Saying.of frame) = some p') : replay (fs ++ [frame]) = some p' := by
  rw [replay, sayings_append, sayings_singleton hm, listen_concat]
  exact ⟨p, h, hx⟩

theorem replay_reply (h : replay fs = some p) (hr : IsReply frame) :
    replay (fs ++ [frame]) = some p := by
  rw [replay, sayings_append, sayings_reply hr, List.append_nil]
  exact h

/-- How often a client has said `shutdown`. -/
def shutdowns : Phase → Nat
  | .closing | .over => 1
  | _ => 0

/-- How often a client has said `exit`. -/
def exits : Phase → Nat
  | .over => 1
  | _ => 0

theorem eq_working (ho : p.isOpen = true) (hs : p.shutdowns = 0) : p = .working := by
  cases p <;> first | rfl | exact absurd hs (by decide) | cases ho

end Phase

/-! ### What the grammar says -/

/-- **The grammar of a conversation.** -/
structure Grammatical (said : List Saying) : Prop where
  /-- It opens with `initialize`, and `initialized` follows. -/
  opening : said.take 2 <+: [.opening, .initialized]
  /-- All the rest comes after these two, and neither of them is said again. -/
  later : ∀ x ∈ said.drop 2, x ∈ [Saying.request, .document, .shutdown, .exit]
  shutdown_le : said.count .shutdown ≤ 1
  exit_le : said.count .exit ≤ 1
  /-- Whoever says `exit` has said `shutdown` before. -/
  exit_after : ∀ {before after}, said = before ++ .exit :: after → .shutdown ∈ before

/-- **What was said, by the phase.** -/
inductive Spoken : Phase → List Saying → Prop
  | silent : Spoken .silent []
  | greeting : Spoken .greeting [.opening]
  | opened {p : Phase} (more : List Saying) : p.isOpen = true →
      (∀ x ∈ more, x ∈ [Saying.request, .document, .shutdown, .exit]) →
      more.count .shutdown = p.shutdowns → more.count .exit = p.exits →
      Spoken p (.opening :: .initialized :: more)

variable {said : List Saying} {x : Saying} {p p' : Phase}

/-- One more saying in its place. -/
theorem Spoken.hear (h : Spoken p said) (hx : p.hear x = some p') : Spoken p' (said ++ [x]) := by
  cases h with
  | silent =>
    cases x <;> cases hx
    exact .greeting
  | greeting =>
    cases x <;> cases hx
    exact .opened [] rfl (List.forall_mem_nil _) rfl rfl
  | opened more hopen hlater hshutdown hexit =>
    have hgo : x ∈ [Saying.request, .document, .shutdown, .exit] → p'.isOpen = true →
        [x].count .shutdown + p.shutdowns = p'.shutdowns → [x].count .exit + p.exits = p'.exits →
        Spoken p' (.opening :: .initialized :: more ++ [x]) := by
      intro hmem hopen' hshutdown' hexit'
      refine .opened (more ++ [x]) hopen' ?_ ?_ ?_
      · exact List.forall_mem_append.mpr ⟨hlater, List.forall_mem_singleton.mpr hmem⟩
      · rw [List.count_append, hshutdown]
        omega
      · rw [List.count_append, hexit]
        omega
    cases x <;> cases p <;> cases hx <;> first | exact hgo (by decide) rfl rfl rfl | cases hopen

theorem Spoken.of_listen (h : Phase.listen said = some p) : Spoken p said := by
  induction said using List.reverseRecOn generalizing p with
  | nil =>
    cases h
    exact .silent
  | append_singleton said x ih =>
    obtain ⟨p₀, h₀, hx⟩ := Phase.listen_concat.mp h
    exact (ih h₀).hear hx

theorem Spoken.shutdowns (h : Spoken p said) : said.count .shutdown = p.shutdowns := by
  cases h with
  | silent | greeting => rfl
  | opened more _ _ hshutdown _ => simpa using hshutdown

theorem Spoken.exits (h : Spoken p said) : said.count .exit = p.exits := by
  cases h with
  | silent | greeting => rfl
  | opened more _ _ _ hexit => simpa using hexit

/-- The greeting is over once `initialized` was said. -/
theorem Spoken.isOpen_iff (h : Spoken p said) : .initialized ∈ said ↔ p.isOpen = true := by
  cases h with
  | silent | greeting => decide
  | opened more hopen => simp [hopen]

/-- **What a strict listener takes is grammatical.** -/
theorem Grammatical.of_listen (h : Phase.listen said = some p) : Grammatical said := by
  have hs := Spoken.of_listen h
  refine ⟨?_, ?_, ?_, ?_, ?_⟩
  · cases hs with
    | silent => decide
    | greeting => decide
    | opened more => exact List.prefix_refl _
  · cases hs with
    | silent | greeting => simp
    | opened more _ hlater => exact hlater
  · rw [hs.shutdowns]
    cases p <;> decide
  · rw [hs.exits]
    cases p <;> decide
  · intro before after hsplit
    -- just before `exit` the listener is in the phase that comes after `shutdown`
    have hprefix : before ++ [.exit] <+: said := ⟨after, by simp [hsplit]⟩
    obtain ⟨p₁, h₁⟩ := Phase.listen_of_prefix hprefix h
    obtain ⟨p₀, h₀, hx⟩ := Phase.listen_concat.mp h₁
    have hcount := (Spoken.of_listen h₀).shutdowns
    cases p₀ <;> cases hx
    exact List.count_pos_iff.mp (by rw [hcount]; decide)

end LanguageHub.Lsp
