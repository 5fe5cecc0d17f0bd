import LanguageHub.Proofs.Lsp.Conversation
import LanguageHub.Proofs.Session.Correlation

/-!
# What a session has said

The frames of a session are what it **ever queued**, but for those that the writer has lost
(`Session.Tells`). So what was ever queued says how far the conversation has come, at any moment and
whatever becomes of the writer. It goes on by one frame at most in a step (`Session.Goes`), and a
reply to the server leaves the phase as it is.

Two calls move the conversation by their requests, the one that opens it and the one that asks the
server to shut down. `Session.Asks` says how far such a call has come. When it has ended well, the
reader has taken a response to it **without an error** (`Session.Answered`).
-/

namespace LanguageHub.Session

open Lsp (Saying Phase sayings)

variable {s s' : Session} {h : Host} {now n id : Nat} {op op' : Operation} {e : Event}
  {es es' : List Event}

/-! ### Answers without an error -/

/-- **The reader has taken a response to an id that has no error.** -/
def Answered (es : List Event) (id : Nat) : Prop :=
  ∃ e ∈ es, ∃ body, e.responseTo? id = some body ∧ body.has "error" = false

theorem Answered.mono (h : Answered es id) (hes : es ⊆ es') : Answered es' id := by
  obtain ⟨e, he, hbody⟩ := h
  exact ⟨e, hes he, hbody⟩

/-- Every response that a call can take was read. -/
def Received (es : List Event) (s : Session) : Prop :=
  ∀ x ∈ s.delivered, ∃ e ∈ es, e.responseTo? x.1 = some x.2

theorem Received.mono (h : Received es s) (hes : es ⊆ es')
    (hd : ∀ x ∈ s'.delivered, x ∈ s.delivered) : Received es' s' := by
  intro x hx
  obtain ⟨e, he, hr⟩ := h x (hd x hx)
  exact ⟨e, hes he, hr⟩

/-- A call that ends well has taken a response without an error. -/
theorem Received.answered (h : Received es s) {c : Call} {body r : Json}
    (hb : s.response? id = some body) (hr : c.resultOf body = .ok r) : Answered es id := by
  obtain ⟨x, hx, rfl⟩ := Option.map_eq_some_iff.mp hb
  obtain ⟨e, he, hresponse⟩ := h x (List.mem_of_find?_eq_some hx)
  have hid : x.1 = id := by simpa using List.find?_some hx
  refine ⟨e, he, x.2, hid ▸ hresponse, ?_⟩
  unfold Call.resultOf at hr
  split at hr
  · cases hr
  · next hnone => simp [Json.has, hnone]

/-- Only the reader delivers. -/
theorem OperationStep.delivered_subset (hs : OperationStep h now n s op s' op') :
    ∀ x ∈ s'.delivered, x ∈ s.delivered := by
  have hcall : ∀ {now c cs s' cs'}, CallStep now c s cs s' cs' →
      ∀ x ∈ s'.delivered, x ∈ s.delivered := by
    intro now c cs s' cs' hc
    cases hc with
    | answer | fail => exact fun x hx => List.mem_of_mem_filter hx
    | _ => exact fun x hx => hx
  cases hs with
  | handshake hs =>
    cases hs with
    | call hc => exact hcall hc
    | _ => exact fun x hx => hx
  | query hs =>
    cases hs with
    | call hc | begin _ hc => exact hcall hc
    | _ => exact fun x hx => hx
  | document hs =>
    cases hs with
    | locked hl => cases hl <;> exact fun x hx => hx
    | _ => exact fun x hx => hx
  | dispose hs =>
    cases hs with
    | call hc => exact hcall hc
    | _ => exact fun x hx => hx

/-- The background gives no ids. -/
theorem Turn.nextId_eq (ht : Turn s e s') : s'.nextId = s.nextId := by
  cases ht with
  | read frame rest =>
    rw [dispatch_session_eq]
  | _ => rfl

theorem Turn.received (ht : Turn s e s') (h : Received es s) : Received (es ++ [e]) s' := by
  have hkeep : s'.delivered = s.delivered → Received (es ++ [e]) s' := fun hd =>
    h.mono (List.subset_append_left ..) fun x hx => hd ▸ hx
  cases ht with
  | read frame rest =>
    rcases dispatch_session_cases frame { s with link := { s.link with arrived := rest } } with
      ⟨id, body, hf, -, hd⟩ | ⟨_, _, _, -, hd⟩ | ⟨-, hd⟩
    · rw [hd]
      intro x hx
      rcases List.mem_append.mp hx with hx | hx
      · obtain ⟨e, he, hr⟩ := h x hx
        exact ⟨e, List.mem_append_left _ he, hr⟩
      · cases List.mem_singleton.mp hx
        exact ⟨_, List.mem_append_right _ List.mem_cons_self, responseTo?_eq_some_iff.mpr hf⟩
    · exact hkeep (by rw [hd])
    · exact hkeep (by rw [hd])
  | _ => exact hkeep rfl

/-! ### What was ever queued -/

variable {told told' : List Json} {p p' : Phase} {frame : Json}

/-- **The frames of a session are what was ever queued**, but for those that the writer loses. -/
structure Tells (s : Session) (told : List Json) (p : Phase) : Prop where
  isPrefix : s.frames <+: told
  complete : s.writerEnded = false → s.frames = told
  phase : Phase.replay told = some p

/-- How a conversation goes on: it does not, or one more frame is queued. -/
inductive Goes (told : List Json) (p : Phase) : List Json → Phase → Prop
  | quiet : Goes told p told p
  | reply (frame : Json) : Lsp.IsReply frame → Goes told p (told ++ [frame]) p
  | say (frame : Json) {p' : Phase} : frame.has "method" = true →
      p.hear (Saying.of frame) = some p' → Goes told p (told ++ [frame]) p'

/-- Whatever asked the server to shut down has this id. -/
def AskedAs (told : List Json) (id : Nat) : Prop :=
  ∀ frame ∈ told, Saying.of frame = .shutdown → Lsp.requestId? frame = some (.ofNat id)

theorem Goes.replay (hg : Goes told p told' p') (h : Phase.replay told = some p) :
    Phase.replay told' = some p' := by
  cases hg with
  | quiet => exact h
  | reply frame hr => exact Phase.replay_reply h hr
  | say frame hm hx => exact Phase.replay_concat h hm hx

/-- An open conversation stays so. -/
theorem Goes.isOpen (hg : Goes told p told' p') (hp : p.isOpen = true) : p'.isOpen = true := by
  cases hg with
  | quiet | reply => exact hp
  | say frame _ hx =>
    generalize Saying.of frame = x at hx
    cases p <;> cases x <;> cases hx <;> first | rfl | cases hp

/-- Who asks the server to shut down moves the conversation. -/
theorem Goes.askedAs (hg : Goes told p told' p') (hs : p'.shutdowns = p.shutdowns)
    (ha : AskedAs told id) : AskedAs told' id := by
  have hadd : ∀ frame, Saying.of frame ≠ .shutdown → AskedAs (told ++ [frame]) id := by
    intro frame hne f hf hshut
    rcases List.mem_append.mp hf with hf | hf
    · exact ha f hf hshut
    · rw [List.mem_singleton.mp hf] at hshut
      exact absurd hshut hne
  cases hg with
  | quiet => exact ha
  | reply frame hr =>
    refine hadd frame fun hshut => ?_
    rcases hr.incoming with hf | ⟨_, _, hf⟩ <;> simp [Saying.of, hf] at hshut
  | say frame _ hx =>
    refine hadd frame fun hshut => ?_
    rw [hshut] at hx
    cases p <;> cases hx
    cases hs

/-- The first request to shut down has its own id. -/
theorem AskedAs.of_first (h : Phase.replay told = some p) (hp : p.shutdowns = 0) (id : Nat)
    (params : Option Json) : AskedAs (told ++ [Lsp.request id "shutdown" params]) id := by
  intro f hf hshut
  rcases List.mem_append.mp hf with hf | hf
  · have hcount := (Lsp.Spoken.of_listen h).shutdowns
    rw [hp, List.count_eq_zero] at hcount
    exact absurd (Lsp.mem_sayings.mpr ⟨f, hf, Lsp.has_method_of_saying (by simp [hshut]), hshut⟩)
      hcount
  · rw [List.mem_singleton.mp hf]
    simp [Lsp.requestId?, Lsp.incoming_request]

namespace Tells

/-- Steps that queue nothing and lose nothing. -/
theorem quiet (ht : Tells s told p) (hf : s'.frames = s.frames)
    (hw : s'.writerEnded = s.writerEnded) : Tells s' told p :=
  ⟨hf ▸ ht.isPrefix, fun hopen => hf.trans (ht.complete (hw ▸ hopen)), ht.phase⟩

/-- The next frame is queued. -/
theorem add (ht : Tells s told p) (hopen : s.writerEnded = false)
    (hf : s'.frames = s.frames ++ [frame]) (hg : Goes told p (told ++ [frame]) p') :
    Tells s' (told ++ [frame]) p' := by
  have hsame : s'.frames = told ++ [frame] := by rw [hf, ht.complete hopen]
  exact ⟨hsame ▸ List.prefix_refl _, fun _ => hsame, hg.replay ht.phase⟩

/-- What the background does to a conversation: it may queue a reply, and lose frames. -/
theorem turn (ht : Tells s told p) (hr : Replies s) (hs : Turn s e s') :
    ∃ told', Goes told p told' p ∧ Tells s' told' p := by
  rcases hs.frames_cases with ⟨hf, hw⟩ | ⟨lost, rfl, rfl, -⟩ | ⟨frame, hreader, hopen, hf⟩
  · exact ⟨told, .quiet, ht.quiet hf hw⟩
  · have hwire : s.endWriter.frames <+: s.frames := by
      rw [frames_endWriter]
      exact List.prefix_append _ _
    exact ⟨told, .quiet, hwire.trans ht.isPrefix, (fun hc => by cases hc), ht.phase⟩
  · have hgo : Goes told p (told ++ [frame]) p := .reply frame (hr frame hreader)
    exact ⟨_, hgo, ht.add hopen hf hgo⟩

end Tells

/-! ### Calls that move a conversation -/

/-- **How far a call has come whose request moves the conversation** from the phase `p₀` to
the phase `p₁`. Its id is `given` to it, and its request is `sent`. -/
inductive Asks (es : List Event) (given sent : Nat → Prop) (p₀ p₁ : Phase) :
    Phase → CallStage → Prop
  | begin : Asks es given sent p₀ p₁ p₀ .begin
  | numbered (id : Nat) : given id → Asks es given sent p₀ p₁ p₀ (.numbered id)
  | registered (id : Nat) : given id → Asks es given sent p₀ p₁ p₀ (.registered id)
  | waiting (id deadline : Nat) : sent id → Asks es given sent p₀ p₁ p₁ (.waiting id deadline)
  | failing {p : Phase} (id : Nat) (e : LspError) : p = p₀ ∨ p = p₁ →
      Asks es given sent p₀ p₁ p (.failing id e)
  | answered (id : Nat) (r : Json) : sent id → Answered es id →
      Asks es given sent p₀ p₁ p₁ (.finished (.ok r))
  | failed {p : Phase} (e : LspError) : p = p₀ ∨ p = p₁ →
      Asks es given sent p₀ p₁ p (.finished (.error e))

variable {given sent sent' : Nat → Prop} {p₀ p₁ : Phase} {c : Call} {st st' : CallStage}

theorem Asks.mono (ha : Asks es given sent p₀ p₁ p st) (hes : es ⊆ es')
    (hsent : ∀ id, sent id → sent' id) : Asks es' given sent' p₀ p₁ p st := by
  cases ha with
  | begin => exact .begin
  | numbered id hg => exact .numbered id hg
  | registered id hg => exact .registered id hg
  | waiting id deadline hs => exact .waiting id deadline (hsent id hs)
  | failing id e hp => exact .failing id e hp
  | answered id r hs hr => exact .answered id r (hsent id hs) (hr.mono hes)
  | failed e hp => exact .failed e hp

/-- **A stage of such a call** queues no frame, or it queues the request. -/
theorem Asks.step (ha : Asks es given sent p₀ p₁ p st) (hr : Received es s)
    (hgive : st = .begin → given s.nextId) (hs : CallStep now c s st s' st') :
    (s'.frames = s.frames ∧ Asks es given sent p₀ p₁ p st') ∨
      ∃ id deadline, st' = .waiting id deadline ∧ p = p₀ ∧ given id ∧ s.writerEnded = false ∧
        s'.frames = s.frames ++ [Lsp.request id c.method c.params] := by
  cases hs with
  | refuse =>
    cases ha
    exact .inl ⟨rfl, .failed _ (.inl rfl)⟩
  | number =>
    cases ha
    exact .inl ⟨rfl, .numbered _ (hgive rfl)⟩
  | register id =>
    cases ha with
    | numbered _ hg => exact .inl ⟨rfl, .registered id hg⟩
  | send id hopen =>
    cases ha with
    | registered _ hg =>
      exact .inr ⟨id, _, rfl, rfl, hg, hopen, frames_of_send rfl rfl rfl⟩
  | unsent id =>
    cases ha
    exact .inl ⟨rfl, .failing id _ (.inl rfl)⟩
  | answer id deadline body hb =>
    cases ha with
    | waiting _ _ hsent =>
      refine .inl ⟨rfl, ?_⟩
      cases hres : c.resultOf body with
      | ok r => exact .answered id r hsent (hr.answered hb hres)
      | error e => exact .failed e (.inr rfl)
  | giveUp id deadline e =>
    cases ha
    exact .inl ⟨rfl, .failing id e (.inr rfl)⟩
  | fail id e =>
    cases ha with
    | failing _ _ hp => exact .inl ⟨rfl, .failed e hp⟩

end LanguageHub.Session
