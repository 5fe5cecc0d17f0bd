import LanguageHub.Proofs.Session.Custody
import LanguageHub.Proofs.Session.Saying
import LanguageHub.Proofs.Session.Settling

/-!
# A session keeps to the grammar

A session that is started is for its first caller alone, who shakes hands with the server.
Everybody else comes when the start has returned the session (`Session.Life`). What the client then
says, whatever the server does, is grammatical (`Session.conversation_grammatical`).

The invariant `Session.Converses` follows the frames that were **ever queued**, so that the
phase of the conversation is exact at any moment. Two callers move it from phase to phase, and each
of them is alone in this:

* the first caller, as long as it shakes hands (`Session.Opening`): nobody else is there;
* the first disposal, which asks the server to shut down (`Session.Parting`): those after it return
  at once.

Whatever the others say is a request or a notification about a document, and comes after the
greeting.
-/

namespace LanguageHub

/-- Nothing comes after `disposed`. -/
theorem SessionState.eq_disposed_of_rank_le {st : SessionState} (h : 4 ≤ st.rank) :
    st = .disposed := by
  cases st <;> first | rfl | exact absurd h (by decide)

theorem SessionState.next_dispose (st : SessionState) : st.next .dispose = .disposed := by
  cases st <;> rfl

namespace Session

open Lsp (Saying Phase sayings)

/-! ### Sessions from their start -/

/-- A session that is being started, for its first caller. -/
def Scene.started (key : SessionKey) (server : String) (timeouts : Timeouts)
    (killFault : Option String) (now : Nat) : Scene :=
  { launched key server timeouts killFault now with callers := [.startHandshake] }

/-- **What can happen next to a session from its start**: those who are there go on, or somebody
comes to the session that the start has returned. -/
inductive LifeStep (h : Host) (sc : Scene) : Event → Scene → Prop
  | step {e : Event} {sc' : Scene} : Step h sc e sc' → sc'.callers.length = sc.callers.length →
      LifeStep h sc e sc'
  | call (op : Operation) (o : Outcome) : sc.callers[0]? = some (.returned (.ok o)) →
      op.isFresh = true → op ≠ .startHandshake →
      LifeStep h sc .silent { sc with callers := sc.callers ++ [op] }

/-- **The life of a session**, known by its events. -/
inductive Life (h : Host) (sc : Scene) : List Event → Scene → Prop
  | refl : Life h sc [] sc
  | tail {es : List Event} {e : Event} {sc' sc'' : Scene} :
      Life h sc es sc' → LifeStep h sc' e sc'' → Life h sc (es ++ [e]) sc''

variable {s s' : Session} {h : Host} {now n id : Nat} {op op' : Operation} {e : Event}
  {es es' : List Event}

theorem Life.leadsTo {sc sc' : Scene} (hl : Life h sc es sc') : LeadsTo sc.session sc'.session := by
  induction hl with
  | refl => exact .refl _
  | tail _ hs ih =>
    cases hs with
    | step hs => exact ih.trans hs.leadsTo
    | call => exact ih

variable {told told' : List Json} {p p' : Phase} {frame : Json} {given sent : Nat → Prop}
  {st : CallStage}

/-! ### The greeting -/

/-- **How far the first caller has come**, who shakes hands. -/
def Opening (s : Session) (es : List Event) (p : Phase) : Operation → Prop
  | .handshake .begin => p = .silent ∧ s.nextId = 1
  | .handshake (.calling c st) => c.method = "initialize" ∧ (st = .begin → s.nextId = 1) ∧
      Asks es (· = 1) (· = 1) .silent .greeting p st
  | .handshake .answered | .handshake .notifying => p = .greeting ∧ Answered es 1
  | .handshake (.failing _) => p.isOpen = false
  | .returned (.ok _) => p.isOpen = true ∧ Answered es 1
  | .returned (.error e) => p.isOpen = false ∧
      (∃ reason, e = .handshakeFailed s.server reason) ∧ s.state = .disposed ∧
      s.killRequested = true
  | _ => False

theorem Asks.isOpen_eq_false (ha : Asks es given sent .silent .greeting p st) :
    p.isOpen = false := by
  cases ha with
  | failing _ _ hp | failed _ hp => rcases hp with rfl | rfl <;> rfl
  | _ => rfl

namespace Opening

/-- The greeting is over when the start has returned the session, and not before. -/
theorem of_isOpen (ho : Opening s es p op) (hp : p.isOpen = true) :
    ∃ o, op = .returned (.ok o) ∧ Answered es 1 := by
  unfold Opening at ho
  split at ho
  · rw [ho.1] at hp
    cases hp
  · rw [ho.2.2.isOpen_eq_false] at hp
    cases hp
  · rw [ho.1] at hp
    cases hp
  · rw [ho.1] at hp
    cases hp
  · rw [ho] at hp
    cases hp
  · exact ⟨_, rfl, ho.2⟩
  · rw [ho.1] at hp
    cases hp
  · exact ho.elim

/-- Others leave the greeting where it is. -/
theorem mono (ho : Opening s es p op) (hes : es ⊆ es') (hn : s'.nextId = s.nextId)
    (hl : LeadsTo s s') (hk : s.killRequested = true → s'.killRequested = true) :
    Opening s' es' p op := by
  unfold Opening at ho
  split at ho
  · exact ⟨ho.1, hn.trans ho.2⟩
  · exact ⟨ho.1, fun hst => hn.trans (ho.2.1 hst), ho.2.2.mono hes fun _ hid => hid⟩
  · exact ⟨ho.1, ho.2.mono hes⟩
  · exact ⟨ho.1, ho.2.mono hes⟩
  · exact ho
  · exact ⟨ho.1, ho.2.mono hes⟩
  · obtain ⟨hp, ⟨reason, rfl⟩, hstate, hkill⟩ := ho
    have hrank := hl.state
    rw [hstate] at hrank
    exact ⟨hp, ⟨reason, by rw [hl.server]⟩, SessionState.eq_disposed_of_rank_le hrank, hk hkill⟩
  · exact ho.elim

/-- **A stage of the handshake** moves the conversation by what it queues. -/
theorem step (ho : Opening s es p op) (ht : Tells s told p) (hr : Received es s)
    (hs : OperationStep h now n s op s' op') :
    ∃ told' p', Goes told p told' p' ∧ Tells s' told' p' ∧ Opening s' es p' op' ∧
      p'.shutdowns = 0 := by
  have hquiet : p.isOpen = false → Opening s' es p op' → s'.frames = s.frames →
      ∃ told' p', Goes told p told' p' ∧ Tells s' told' p' ∧ Opening s' es p' op' ∧
        p'.shutdowns = 0 := by
    intro hp ho' hf
    exact ⟨told, p, .quiet, ht.quiet hf hs.adds.writerEnded, ho', by cases p <;> first | rfl | cases hp⟩
  cases hs with
  | handshake hs =>
    cases hs with
    | begin uri =>
      obtain ⟨rfl, hn⟩ := ho
      exact hquiet rfl ⟨rfl, fun _ => hn, .begin⟩ rfl
    | rootless =>
      obtain ⟨rfl, -⟩ := ho
      exact hquiet rfl rfl rfl
    | @call c _ _ _ hc =>
      obtain ⟨hm, hn, ha⟩ := ho
      rcases ha.step hr hn hc with ⟨hf, ha'⟩ | ⟨id, deadline, rfl, rfl, rfl, hopen, hf⟩
      · refine hquiet ha.isOpen_eq_false ⟨hm, fun hst => ?_, ha'⟩ hf
        subst hst
        cases hc
      · rw [hm] at hf
        have hgo : Goes told .silent (told ++ [Lsp.request 1 "initialize" c.params]) .greeting :=
          .say _ (Lsp.has_method_request ..) (by rw [Lsp.saying_opening]; rfl)
        exact ⟨_, _, hgo, ht.add hopen hf hgo, ⟨hm, nofun, .waiting 1 deadline rfl⟩, rfl⟩
    | answered c result =>
      obtain ⟨-, -, ha⟩ := ho
      cases ha with
      | answered id r hid hanswer => exact hquiet rfl ⟨rfl, hid ▸ hanswer⟩ rfl
    | unanswered c e =>
      obtain ⟨-, -, ha⟩ := ho
      exact hquiet ha.isOpen_eq_false ha.isOpen_eq_false rfl
    | ended =>
      obtain ⟨rfl, -⟩ := ho
      exact hquiet rfl rfl rfl
    | notify =>
      obtain ⟨rfl, hanswer⟩ := ho
      exact hquiet rfl ⟨rfl, hanswer⟩ rfl
    | complete hopen =>
      obtain ⟨rfl, hanswer⟩ := ho
      have hgo : Goes told .greeting
          (told ++ [Lsp.notification "initialized" (some (.obj []))]) .working :=
        .say _ (Lsp.has_method_notification ..) (by rw [Lsp.saying_initialized]; rfl)
      exact ⟨_, _, hgo, ht.add hopen (frames_of_send rfl rfl rfl) hgo,
        ⟨rfl, hanswer⟩, rfl⟩
    | unsent =>
      obtain ⟨rfl, -⟩ := ho
      exact hquiet rfl rfl rfl
    | fail e => exact hquiet ho ⟨ho, ⟨_, rfl⟩, SessionState.next_dispose _, rfl⟩ rfl
  | query => exact ho.elim
  | document => exact ho.elim
  | dispose => exact ho.elim

end Opening

/-! ### Everybody else -/

/-- **What the others ask for**: no handshake, and each call is that of its operation. -/
def Polite : Operation → Prop
  | .handshake _ => False
  | .query q _ (some (c, _)) => c.method = q.method
  | .dispose (.calling c _) => c = shutdownCall
  | _ => True

theorem Polite.of_isFresh (hf : op.isFresh = true) (hne : op ≠ .startHandshake) : Polite op := by
  cases op with
  | handshake st =>
    cases st with
    | begin => exact absurd rfl hne
    | _ => cases hf
  | query q cancelAt st =>
    cases st with
    | none => trivial
    | some x => cases hf
  | document => trivial
  | dispose st =>
    cases st with
    | begin => trivial
    | _ => cases hf
  | returned => cases hf

theorem Polite.step (ho : Polite op) (hs : OperationStep h now n s op s' op') : Polite op' := by
  cases hs with
  | handshake => exact ho.elim
  | query hs =>
    cases hs with
    | begin => exact rfl
    | call => exact ho
    | _ => trivial
  | document hs =>
    cases hs with
    | locked hl => cases hl <;> trivial
    | _ => trivial
  | dispose hs =>
    cases hs with
    | graceful => exact rfl
    | call => exact ho
    | _ => trivial

/-- **How far the disposal has come** that asks the server to shut down. -/
def Parting (es : List Event) (told : List Json) (p : Phase) : DisposeStage → Prop
  | .calling _ st => Asks es (fun _ => True) (AskedAs told) .working .closing p st
  | .answered | .notifying => p = .closing ∧ ∃ id, AskedAs told id ∧ Answered es id
  | _ => True

theorem Parting.mono {st : DisposeStage} (hp : Parting es told p st) (hes : es ⊆ es')
    (hg : Goes told p told' p) : Parting es' told' p st := by
  unfold Parting at hp
  split at hp
  · exact Asks.mono hp hes fun _ ha => hg.askedAs rfl ha
  · obtain ⟨rfl, id, ha, hr⟩ := hp
    exact ⟨rfl, id, hg.askedAs rfl ha, hr.mono hes⟩
  · obtain ⟨rfl, id, ha, hr⟩ := hp
    exact ⟨rfl, id, hg.askedAs rfl ha, hr.mono hes⟩
  · cases st <;> first | trivial | simp at *

/-- What an operation on documents has for the outbox is about a document. -/
theorem Prepared.saying {d after : Documents} {a : DocumentAction} (hp : Prepared d a frame after) :
    frame.has "method" = true ∧ Saying.of frame = .document := by
  cases hp with
  | openNew | change | close =>
    exact ⟨Lsp.has_method_notification .., Lsp.saying_document (by decide) _⟩

/-- **A stage of a request or of an operation on documents** leaves the phase. -/
theorem Tells.traffic (ht : Tells s told p) (hopen : p.isOpen = true) (ho : Polite op)
    (hd : ∀ st, op ≠ .dispose st)
    (hdoc : ∀ a frame after, op = .document a (.sending frame after) →
      Prepared s.documents a frame after)
    (hs : OperationStep h now n s op s' op') : ∃ told', Goes told p told' p ∧ Tells s' told' p := by
  have hquiet : s'.frames = s.frames → ∃ told', Goes told p told' p ∧ Tells s' told' p :=
    fun hf => ⟨told, .quiet, ht.quiet hf hs.adds.writerEnded⟩
  have hcall : ∀ {q : Lsp.Query} {c : Call} {now st st'}, c.method = q.method →
      CallStep now c s st s' st' → ∃ told', Goes told p told' p ∧ Tells s' told' p := by
    intro q c now st st' hm hc
    rcases hc.frames_cases with hf | ⟨id, hlive, hf⟩
    · exact hquiet hf
    · rw [hm] at hf
      have hgo : Goes told p (told ++ [Lsp.request id q.method c.params]) p :=
        .say _ (Lsp.has_method_request ..) (by simp [Lsp.saying_query, Phase.hear, hopen])
      exact ⟨_, hgo, ht.add hlive hf hgo⟩
  cases hs with
  | handshake => exact ho.elim
  | query hs =>
    cases hs with
    | begin _ hc => exact hcall rfl hc
    | call hc => exact hcall ho hc
    | _ => exact hquiet rfl
  | document hs =>
    cases hs with
    | locked hl => cases hl <;> exact hquiet rfl
    | send frame after hlive =>
      obtain ⟨hm, hx⟩ := (hdoc _ frame after rfl).saying
      have hgo : Goes told p (told ++ [frame]) p := .say _ hm (by simp [hx, Phase.hear, hopen])
      exact ⟨_, hgo, ht.add hlive (frames_of_send rfl rfl rfl) hgo⟩
    | _ => exact hquiet rfl
  | dispose => exact absurd rfl (hd _)

/-- **A stage of a disposal** moves the conversation by what it queues, if it is the disposal that
asks the server to shut down. -/
theorem Parting.step {stage : DisposeStage} (hp : stage ≠ .begin → Parting es told p stage)
    (hb : stage = .begin → s.disposing = false → p = .working) (ho : Polite (.dispose stage))
    (ht : Tells s told p) (hr : Received es s) (hs : DisposeStep now s stage s' op') :
    ∃ told' p', Goes told p told' p' ∧ Tells s' told' p' ∧
      (∀ st', op' = .dispose st' → Parting es told' p' st') ∧ (p' ≠ p → stage ≠ .begin) ∧
      (p' = .over → p = .over ∨ ∃ id, AskedAs told' id ∧ Answered es id) := by
  have hquiet : s'.frames = s.frames → s'.writerEnded = s.writerEnded →
      (∀ st', op' = .dispose st' → Parting es told p st') →
      ∃ told' p', Goes told p told' p' ∧ Tells s' told' p' ∧
        (∀ st', op' = .dispose st' → Parting es told' p' st') ∧ (p' ≠ p → stage ≠ .begin) ∧
        (p' = .over → p = .over ∨ ∃ id, AskedAs told' id ∧ Answered es id) :=
    fun hf hw hpart => ⟨told, p, .quiet, ht.quiet hf hw, hpart, fun hne => absurd rfl hne, .inl⟩
  -- what is past the farewell owes nothing
  have hpast : ∀ {stage'}, Parting es told p stage' →
      ∀ st', Operation.dispose stage' = .dispose st' → Parting es told p st' := by
    intro stage' hstage' st' heq
    cases heq
    exact hstage'
  cases hs with
  | again => exact hquiet rfl rfl (by simp [Operation.finish])
  | graceful hd =>
    obtain rfl := hb rfl hd
    exact hquiet rfl rfl (hpast .begin)
  | abrupt => exact hquiet rfl rfl (hpast trivial)
  | @call c _ _ _ hc =>
    have ha : Asks es (fun _ => True) (AskedAs told) .working .closing p _ := hp (by simp)
    rcases ha.step hr (fun _ => trivial) hc with ⟨hf, ha'⟩ | ⟨id, deadline, rfl, rfl, -, hlive, hf⟩
    · exact hquiet hf hc.adds.writerEnded (hpast ha')
    · obtain rfl : c = shutdownCall := ho
      have hgo : Goes told .working (told ++ [Lsp.request id "shutdown" none]) .closing :=
        .say _ (Lsp.has_method_request ..) (by rw [Lsp.saying_shutdown]; rfl)
      refine ⟨_, _, hgo, ht.add hlive hf hgo, ?_, fun _ => by simp, fun hc => by cases hc⟩
      intro st' heq
      cases heq
      exact .waiting id deadline (.of_first ht.phase rfl id none)
  | answered c result =>
    have ha : Asks es (fun _ => True) (AskedAs told) .working .closing p _ := hp (by simp)
    cases ha with
    | answered id r hid hanswer => exact hquiet rfl rfl (hpast ⟨rfl, id, hid, hanswer⟩)
  | notify =>
    have ha : p = .closing ∧ ∃ id, AskedAs told id ∧ Answered es id := hp (by simp)
    exact hquiet rfl rfl (hpast ha)
  | exit hlive =>
    obtain ⟨rfl, id, hid, hanswer⟩ : p = .closing ∧ ∃ id, AskedAs told id ∧ Answered es id :=
      hp (by simp)
    have hgo : Goes told .closing (told ++ [Lsp.notification "exit" none]) .over :=
      .say _ (Lsp.has_method_notification ..) (by rw [Lsp.saying_exit]; rfl)
    refine ⟨_, _, hgo, ht.add hlive (frames_of_send rfl rfl rfl) hgo, ?_,
      fun _ => by simp, fun _ => .inr ⟨id, hgo.askedAs rfl hid, hanswer⟩⟩
    intro st' heq
    cases heq
    trivial
  | close => exact hquiet (frames_of_shutdown rfl rfl rfl) rfl (hpast trivial)
  | clear => exact hquiet rfl rfl (by simp [Operation.finish])
  | unanswered | hurry | unsent | ending | closed => exact hquiet rfl rfl (hpast trivial)

/-! ### The one who disposes -/

variable {callers : List Operation}

/-- **One caller at most asks the server to shut down**, and the conversation is as far as its
disposal. -/
structure Leaving (s : Session) (callers : List Operation) (es : List Event) (told : List Json)
    (p : Phase) : Prop where
  parting : ∀ {n : Nat} {st : DisposeStage}, callers[n]? = some (.dispose st) → st ≠ .begin →
    s.disposing = true ∧ Parting es told p st
  single : ∀ {m n : Nat} {st st' : DisposeStage}, callers[m]? = some (.dispose st) →
    st ≠ .begin → callers[n]? = some (.dispose st') → st' ≠ .begin → m = n
  unasked : s.disposing = false → p.shutdowns = 0
  farewell : p = .over → ∃ id, AskedAs told id ∧ Answered es id

/-- Only the first disposal goes on. -/
theorem OperationStep.disposing_of_begin {st' : DisposeStage}
    (hs : OperationStep h now n s (.dispose .begin) s' (.dispose st')) :
    s.disposing = false ∧ s'.disposing = true := by
  cases hs with
  | dispose hs =>
    cases hs with
    | graceful hd | abrupt hd => exact ⟨hd, rfl⟩

/-- **Where a disposal that has begun comes from**: it had begun, or it is the first one. -/
theorem OperationStep.dispose_cases {st' : DisposeStage}
    (hs : OperationStep h now n s op s' (.dispose st')) :
    (∃ st, op = .dispose st ∧ st ≠ .begin) ∨ (s.disposing = false ∧ s'.disposing = true) := by
  obtain ⟨st, rfl⟩ := hs.exists_dispose
  by_cases hst : st = .begin
  · subst hst
    exact .inr hs.disposing_of_begin
  · exact .inl ⟨st, rfl, hst⟩

namespace Leaving

theorem mono (hl : Leaving s callers es told p) (hes : es ⊆ es') (hg : Goes told p told' p)
    (hd : s'.disposing = s.disposing) : Leaving s' callers es' told' p := by
  refine ⟨fun hn hst => ?_, hl.single, hd ▸ hl.unasked, fun hp => ?_⟩
  · obtain ⟨hdisposing, hpart⟩ := hl.parting hn hst
    exact ⟨hd.trans hdisposing, hpart.mono hes hg⟩
  · obtain ⟨id, ha, hanswer⟩ := hl.farewell hp
    exact ⟨id, hg.askedAs rfl ha, hanswer.mono hes⟩

/-- **A caller goes on.** If the conversation moves, it is the one who disposes. -/
theorem advance (hl : Leaving s callers es told p) (hn : callers[n]? = some op)
    (hs : OperationStep h now n s op s' op') (hes : es ⊆ es') (hg : Goes told p told' p')
    (hpart : ∀ st', op' = .dispose st' → Parting es told' p' st')
    (hmove : p' ≠ p → ∃ st, op = .dispose st ∧ st ≠ .begin)
    (hover : p' = .over → p = .over ∨ ∃ id, AskedAs told' id ∧ Answered es id) :
    Leaving s' (callers.set n op') es' told' p' := by
  -- nobody else has begun to dispose when this caller has
  have halone : ∀ {k : Nat} {st st'}, k ≠ n → callers[k]? = some (.dispose st) → st ≠ .begin →
      op' = .dispose st' → False := by
    rintro k st st' hkn hk hst rfl
    rcases hs.dispose_cases with ⟨st₀, rfl, hst₀⟩ | ⟨hd, -⟩
    · exact hkn (hl.single hk hst hn hst₀)
    · rw [(hl.parting hk hst).1] at hd
      cases hd
  refine ⟨fun {k st} hk hst => ?_, fun {i k st st'} hi hst hk hst' => ?_, fun hd' => ?_, ?_⟩
  · rcases getElem?_set_cases hk with ⟨rfl, rfl⟩ | ⟨hkn, hk⟩
    · refine ⟨?_, (hpart st rfl).mono hes .quiet⟩
      rcases hs.dispose_cases with ⟨st₀, rfl, hst₀⟩ | ⟨-, hd⟩
      · exact hs.leadsTo.disposing (hl.parting hn hst₀).1
      · exact hd
    · obtain ⟨hd, hp⟩ := hl.parting hk hst
      have hsame : p' = p := by
        by_contra hp'
        obtain ⟨st₀, rfl, hst₀⟩ := hmove hp'
        exact hkn (hl.single hk hst hn hst₀)
      subst hsame
      exact ⟨hs.leadsTo.disposing hd, hp.mono hes hg⟩
  · rcases getElem?_set_cases hi with ⟨rfl, rfl⟩ | ⟨hin, hi'⟩
    · rcases getElem?_set_cases hk with ⟨rfl, -⟩ | ⟨hki, hk⟩
      · rfl
      · exact (halone hki hk hst' rfl).elim
    · rcases getElem?_set_cases hk with ⟨rfl, rfl⟩ | ⟨-, hk'⟩
      · exact (halone hin hi' hst rfl).elim
      · exact hl.single hi' hst hk' hst'
  · have hd : s.disposing = false := by
      rw [← Bool.not_eq_true]
      intro hd
      rw [hs.leadsTo.disposing hd] at hd'
      cases hd'
    by_cases hp : p' = p
    · exact hp ▸ hl.unasked hd
    · obtain ⟨st₀, rfl, hst₀⟩ := hmove hp
      rw [(hl.parting hn hst₀).1] at hd
      cases hd
  · rintro rfl
    rcases hover rfl with rfl | ⟨id, ha, hanswer⟩
    · obtain ⟨id, ha, hanswer⟩ := hl.farewell rfl
      exact ⟨id, hg.askedAs rfl ha, hanswer.mono hes⟩
    · exact ⟨id, ha, hanswer.mono hes⟩

end Leaving

/-! ### The invariant -/

variable {sc sc' : Scene}

/-- **The conversation of a session** is as far as its callers have come. -/
structure Converses (es : List Event) (sc : Scene) (told : List Json) (p : Phase) : Prop where
  tells : Tells sc.session told p
  received : Received es sc.session
  replies : Replies sc.session
  order : InOrder sc.session (shown (·.document?) sc.callers)
  first : ∃ op, sc.callers[0]? = some op ∧ Greeted sc.session op ∧ Opening sc.session es p op
  others : ∀ {n : Nat} {op : Operation}, n ≠ 0 → sc.callers[n]? = some op →
    p.isOpen = true ∧ Polite op
  leaving : Leaving sc.session sc.callers es told p

theorem converses_started (key : SessionKey) (server : String) (timeouts : Timeouts)
    (killFault : Option String) (now : Nat) :
    Converses [] (.started key server timeouts killFault now) [] .silent := by
  have hcallers : ∀ {n op}, (Scene.started key server timeouts killFault now).callers[n]? = some op →
      n = 0 ∧ op = .startHandshake := by
    intro n op hn
    cases n with
    | zero =>
      cases hn
      exact ⟨rfl, rfl⟩
    | succ n => cases hn
  have horder : InOrder (Scene.launched key server timeouts killFault now).session
      (shown (·.document?) (Scene.launched key server timeouts killFault now).callers) :=
    inOrder_launched ..
  exact ⟨⟨List.prefix_refl _, fun _ => rfl, rfl⟩, List.forall_mem_nil _, nofun, horder.call rfl,
    ⟨_, rfl, .fresh, rfl, rfl⟩, fun hne hn => absurd (hcallers hn).1 hne,
    ⟨fun hn _ => absurd (hcallers hn).2 nofun, fun hm _ _ _ => absurd (hcallers hm).2 nofun,
      fun _ => rfl, nofun⟩⟩

namespace Converses

/-- Steps that move no caller keep the conversation. -/
theorem rest (hc : Converses es sc told p) (hcallers : sc'.callers = sc.callers)
    (hg : Goes told p told' p) (ht : Tells sc'.session told' p)
    (hr : Received (es ++ [e]) sc'.session) (hreply : Replies sc'.session)
    (hdoc : sc'.session.documents = sc.session.documents)
    (hqueue : sc'.session.documentQueue = sc.session.documentQueue)
    (hn : sc'.session.nextId = sc.session.nextId) (hl : LeadsTo sc.session sc'.session)
    (hd : sc'.session.disposing = sc.session.disposing)
    (hk : sc.session.killRequested = true → sc'.session.killRequested = true) :
    Converses (es ++ [e]) sc' told' p := by
  have hes : es ⊆ es ++ [e] := List.subset_append_left ..
  refine ⟨ht, hr, hreply, ?_, ?_, ?_, ?_⟩ <;> rw [hcallers]
  · exact hc.order.congr hdoc hqueue
  · obtain ⟨op, hop, hgreeted, ho⟩ := hc.first
    exact ⟨op, hop, hgreeted.leadsTo hl, ho.mono hes hn hl hk⟩
  · exact hc.others
  · exact hc.leaving.mono hes hg hd

/-- Somebody comes to the session that was started. -/
theorem call (hc : Converses es sc told p) {o : Outcome}
    (hfirst : sc.callers[0]? = some (.returned (.ok o))) (hf : op.isFresh = true)
    (hne : op ≠ .startHandshake) :
    Converses (es ++ [.silent]) { sc with callers := sc.callers ++ [op] } told p := by
  have hes : es ⊆ es ++ [.silent] := List.subset_append_left ..
  have hdispose : ∀ {n : Nat} {st}, (sc.callers ++ [op])[n]? = some (.dispose st) → st ≠ .begin →
      sc.callers[n]? = some (.dispose st) := by
    intro n st hn hst
    rcases getElem?_concat_cases hn with rfl | hn
    · cases st <;> first | exact absurd rfl hst | cases hf
    · exact hn
  obtain ⟨op₀, hop₀, hgreeted, ho⟩ := hc.first
  rw [hfirst] at hop₀
  cases hop₀
  have hleaving : Leaving sc.session sc.callers (es ++ [.silent]) told p :=
    hc.leaving.mono hes .quiet rfl
  refine ⟨hc.tells, hc.received.mono hes fun _ hx => hx, hc.replies, hc.order.call hf,
    ⟨_, ?_, hgreeted, ho.1, ho.2.mono hes⟩, ?_, ?_⟩
  · exact List.getElem?_append_left (List.getElem?_eq_some_iff.mp hfirst).1 ▸ hfirst
  · intro n op' hn hop'
    rcases getElem?_concat_cases hop' with rfl | hop'
    · exact ⟨ho.1, .of_isFresh hf hne⟩
    · exact hc.others hn hop'
  · exact ⟨fun hn hst => hleaving.parting (hdispose hn hst) hst,
      fun hm hst hn hst' => hleaving.single (hdispose hm hst) hst (hdispose hn hst') hst',
      hleaving.unasked, hleaving.farewell⟩

/-- The first caller goes on, who is alone. -/
theorem advance_first (hc : Converses es sc told p) (hn : sc.callers[0]? = some op)
    (hs : OperationStep h sc.now 0 sc.session op s' op') :
    ∃ told' p', Goes told p told' p' ∧ Converses (es ++ [.advanced 0 op op'])
      { sc with session := s', callers := sc.callers.set 0 op' } told' p' := by
  obtain ⟨op₀, hop₀, hgreeted, ho⟩ := hc.first
  rw [hn] at hop₀
  cases hop₀
  have hopen : p.isOpen = false := by
    rw [← Bool.not_eq_true]
    intro hp
    obtain ⟨o, rfl, -⟩ := ho.of_isOpen hp
    cases hs
  have hself : (sc.callers.set 0 op')[0]? = some op' := getElem?_set_of_getElem? hn op'
  have halone : ∀ {k : Nat} {op₁}, (sc.callers.set 0 op')[k]? = some op₁ → k = 0 ∧ op₁ = op' := by
    intro k op₁ hk
    rcases getElem?_set_cases hk with hk | ⟨hne, hk⟩
    · exact hk
    · rw [(hc.others hne hk).1] at hopen
      cases hopen
  have hes : es ⊆ es ++ [.advanced 0 op op'] := List.subset_append_left ..
  obtain ⟨told', p', hg, ht, ho', hp'⟩ := ho.step hc.tells hc.received hs
  have hdispose : ∀ st, op' ≠ .dispose st := by
    rintro st rfl
    exact ho'
  refine ⟨told', p', hg, ht, hc.received.mono hes hs.delivered_subset,
    fun frame hf => hc.replies frame (hs.reader ▸ hf), hc.order.advance hn hs,
    ⟨op', hself, hgreeted.step hs, ho'.mono hes rfl (.refl s') id⟩,
    fun hne hk => absurd (halone hk).1 hne,
    ⟨fun hk _ => absurd (halone hk).2.symm (hdispose _),
      fun hk _ _ _ => absurd (halone hk).2.symm (hdispose _), fun _ => hp', ?_⟩⟩
  rintro rfl
  exact absurd hp' (by decide)

/-- **What another caller says**, and what becomes of its disposal. Only a disposal that has begun
moves the conversation. -/
theorem speak (hc : Converses es sc told p) (hne : n ≠ 0) (hn : sc.callers[n]? = some op)
    (hs : OperationStep h sc.now n sc.session op s' op') :
    ∃ told' p', Goes told p told' p' ∧ Tells s' told' p' ∧
      (∀ st', op' = .dispose st' → Parting es told' p' st') ∧
      (p' ≠ p → ∃ st, op = .dispose st ∧ st ≠ .begin) ∧
      (p' = .over → p = .over ∨ ∃ id, AskedAs told' id ∧ Answered es id) := by
  obtain ⟨hopen, hpolite⟩ := hc.others hne hn
  by_cases hd : ∃ st, op = .dispose st
  · obtain ⟨st, rfl⟩ := hd
    cases hs with
    | dispose hs =>
      obtain ⟨told', p', hg, ht, hpart, hmove, hover⟩ :=
        Parting.step (fun hst => (hc.leaving.parting hn hst).2)
          (fun _ hd => Phase.eq_working hopen (hc.leaving.unasked hd)) hpolite hc.tells
          hc.received hs
      exact ⟨told', p', hg, ht, hpart, fun hp => ⟨st, rfl, hmove hp⟩, hover⟩
  · have hdoc : ∀ a frame after, op = .document a (.sending frame after) →
        Prepared sc.session.documents a frame after := by
      rintro a frame after rfl
      exact hc.order.prepared (shown_of_getElem? hn)
    obtain ⟨told', hg, ht⟩ :=
      hc.tells.traffic hopen hpolite (fun st hst => hd ⟨st, hst⟩) hdoc hs
    refine ⟨told', p, hg, ht, ?_, fun hp => absurd rfl hp, .inl⟩
    rintro st' rfl
    exact absurd hs.exists_dispose hd

/-- Another caller goes on. -/
theorem advance_other (hc : Converses es sc told p) (hne : n ≠ 0) (hn : sc.callers[n]? = some op)
    (hs : OperationStep h sc.now n sc.session op s' op') :
    ∃ told' p', Goes told p told' p' ∧ Converses (es ++ [.advanced n op op'])
      { sc with session := s', callers := sc.callers.set n op' } told' p' := by
  have hes : es ⊆ es ++ [.advanced n op op'] := List.subset_append_left ..
  obtain ⟨told', p', hg, ht, hpart, hmove, hover⟩ := hc.speak hne hn hs
  -- the start has returned the session to the first caller
  obtain ⟨hopen, hpolite⟩ := hc.others hne hn
  obtain ⟨op₀, hop₀, hgreeted, ho⟩ := hc.first
  obtain ⟨o, rfl, hanswer⟩ := ho.of_isOpen hopen
  refine ⟨told', p', hg, ht, hc.received.mono hes hs.delivered_subset,
    fun frame hf => hc.replies frame (hs.reader ▸ hf), hc.order.advance hn hs,
    ⟨_, (List.getElem?_set_ne hne).trans hop₀, hgreeted.leadsTo hs.leadsTo, hg.isOpen hopen,
      hanswer.mono hes⟩, ?_, hc.leaving.advance hn hs hes hg hpart hmove hover⟩
  intro k op₁ hk hop₁
  refine ⟨hg.isOpen hopen, ?_⟩
  rcases getElem?_set_cases hop₁ with ⟨-, rfl⟩ | ⟨-, hop₁⟩
  · exact hpolite.step hs
  · exact (hc.others hk hop₁).2

/-- **Every step keeps the conversation**, and it goes on by one frame at most. -/
theorem step (hc : Converses es sc told p) (hs : LifeStep h sc e sc') :
    ∃ told' p', Goes told p told' p' ∧ Converses (es ++ [e]) sc' told' p' := by
  have hes : es ⊆ es ++ [e] := List.subset_append_left ..
  cases hs with
  | call op o hfirst hf hne => exact ⟨told, p, .quiet, hc.call hfirst hf hne⟩
  | step hs hlength =>
    cases hs with
    | call op => simp at hlength
    | advance n op hn hop =>
      rcases eq_or_ne n 0 with rfl | hne
      · exact hc.advance_first hn (.of_stepOperation hop)
      · exact hc.advance_other hne hn (.of_stepOperation hop)
    | background part hb =>
      have hturn := Turn.of_stepPart hb
      obtain ⟨told', hg, ht⟩ := hc.tells.turn hc.replies hturn
      exact ⟨told', p, hg, hc.rest rfl hg ht (hturn.received hc.received) (hturn.replies hc.replies)
        hturn.documents.1 hturn.documents.2 hturn.nextId_eq hturn.leadsTo hturn.disposing_eq
        (tends_of_stepPart hb).told⟩
    | serve hl =>
      exact ⟨told, p, .quiet, hc.rest rfl .quiet (hc.tells.quiet (frames_serve hl.wire) rfl)
        (hc.received.mono hes fun _ hx => hx) hc.replies rfl rfl rfl
        ⟨rfl, rfl, rfl, Nat.le_refl _, Nat.le_refl _, id, id⟩ rfl id⟩
    | elapse =>
      exact ⟨told, p, .quiet, hc.rest rfl .quiet (hc.tells.quiet rfl rfl)
        (hc.received.mono hes fun _ hx => hx) hc.replies rfl rfl rfl (.refl _) rfl id⟩
    | release =>
      exact ⟨told, p, .quiet, hc.rest rfl .quiet (hc.tells.quiet rfl rfl)
        (hc.received.mono hes fun _ hx => hx) hc.replies rfl rfl rfl
        ⟨rfl, rfl, rfl, Nat.le_refl _, Nat.le_refl _, id, id⟩ rfl fun _ => rfl⟩

/-- The conversation of a life, which stays open once it is. -/
theorem life (hc : Converses es sc told p) (hl : Life h sc es' sc') :
    ∃ told' p', (p.isOpen = true → p'.isOpen = true) ∧ Converses (es ++ es') sc' told' p' := by
  induction hl with
  | refl => exact ⟨told, p, id, (List.append_nil es).symm ▸ hc⟩
  | tail _ hs ih =>
    obtain ⟨told₁, p₁, hopen, hc₁⟩ := ih
    obtain ⟨told₂, p₂, hg, hc₂⟩ := hc₁.step hs
    exact ⟨told₂, p₂, fun hp => hg.isOpen (hopen hp), List.append_assoc .. ▸ hc₂⟩

/-- **What is said is grammatical**, and what was said so far was said in some phase. -/
theorem listen (hc : Converses es sc told p) :
    ∃ p', Phase.listen (sayings sc.session.frames) = some p' :=
  Phase.listen_of_prefix (Lsp.sayings_of_isPrefix hc.tells.isPrefix) hc.tells.phase

/-- The greeting is over once `initialized` was said. -/
theorem isOpen_of_initialized (hc : Converses es sc told p)
    (hi : .initialized ∈ sayings sc.session.frames) : p.isOpen = true :=
  (Lsp.Spoken.of_listen hc.tells.phase).isOpen_iff.mp
    ((Lsp.sayings_of_isPrefix hc.tells.isPrefix).subset hi)

/-- Whoever says `exit` has asked the server to shut down and has its answer. -/
theorem exists_shutdown (hc : Converses es sc told p)
    (hexit : .exit ∈ sayings sc.session.frames) : ∃ frame ∈ sc.session.frames,
      Saying.of frame = .shutdown ∧ ∃ id, Lsp.requestId? frame = some (.ofNat id) ∧
        Answered es id := by
  obtain ⟨p', hp'⟩ := hc.listen
  obtain ⟨before, after, hsplit⟩ := List.append_of_mem hexit
  have hshut := (Lsp.Grammatical.of_listen hp').exit_after hsplit
  obtain ⟨frame, hf, -, hsaying⟩ := Lsp.mem_sayings.mp
    (hsplit ▸ List.mem_append_left _ hshut : Saying.shutdown ∈ sayings sc.session.frames)
  have hover : p = .over := by
    have hcount := (Lsp.Spoken.of_listen hc.tells.phase).exits
    have hpos := List.count_pos_iff.mpr
      ((Lsp.sayings_of_isPrefix hc.tells.isPrefix).subset hexit)
    rw [hcount] at hpos
    cases p <;> first | rfl | exact absurd hpos (by decide)
  obtain ⟨id, ha, hanswer⟩ := hc.leaving.farewell hover
  exact ⟨frame, hf, hsaying, id, ha frame (hc.tells.isPrefix.subset hf) hsaying, hanswer⟩

end Converses

/-! ### The main result -/

/-- **A session keeps to the grammar of a conversation.** Take any session from its start, with any
server and any interleaving of those who come to it. At every moment of its life:

* what is on the wire and in the outbox, the replies to the server apart, is grammatical;
* `initialized` was said only after a response to the first request, without an error, was read;
* `exit` was said only after a response to the request to shut down, without an error, was read;
* if the start has failed, its error is that of a failed handshake, the session is disposed and its
  process is told to die. Once `initialized` was said the start does not fail;
* if the start has returned the session, that is past its handshake.

Frames that the writer loses are covered by the moments before it ends, for nothing is queued
after. -/
theorem conversation_grammatical {key : SessionKey} {server : String} {timeouts : Timeouts}
    {killFault : Option String}
    (life : Life h (.started key server timeouts killFault now) es sc) :
    Lsp.Grammatical (sayings sc.session.frames) ∧
    (.initialized ∈ sayings sc.session.frames → Answered es 1) ∧
    (.exit ∈ sayings sc.session.frames → ∃ frame ∈ sc.session.frames,
      Saying.of frame = .shutdown ∧ ∃ id, Lsp.requestId? frame = some (.ofNat id) ∧
        Answered es id) ∧
    (∀ e, sc.callers[0]? = some (.returned (.error e)) →
      (∃ reason, e = .handshakeFailed server reason) ∧ sc.session.state = .disposed ∧
        sc.session.killRequested = true) ∧
    (.initialized ∈ sayings sc.session.frames → ∀ es' sc' e, Life h sc es' sc' →
      sc'.callers[0]? ≠ some (.returned (.error e))) ∧
    (∀ o, sc.callers[0]? = some (.returned (.ok o)) →
      sc.session.state ≠ .starting ∧ sc.session.state ≠ .initializing) := by
  obtain ⟨told, p, -, hc⟩ := (converses_started key server timeouts killFault now).life life
  rw [List.nil_append] at hc
  obtain ⟨p', hp'⟩ := hc.listen
  obtain ⟨op, hop, hgreeted, ho⟩ := hc.first
  refine ⟨.of_listen hp', fun hi => ?_, hc.exists_shutdown, fun e he => ?_,
    fun hi es' sc' e life' he => ?_, fun o hok => ?_⟩
  · obtain ⟨o, -, hanswer⟩ := ho.of_isOpen (hc.isOpen_of_initialized hi)
    exact hanswer
  · rw [hop] at he
    cases he
    obtain ⟨-, hreason, hstate, hkill⟩ := ho
    rw [life.leadsTo.server] at hreason
    exact ⟨hreason, hstate, hkill⟩
  · obtain ⟨told₁, p₁, hopen, hc₁⟩ := hc.life life'
    obtain ⟨op₁, hop₁, -, ho₁⟩ := hc₁.first
    rw [hop₁] at he
    cases he
    have hclosed : p₁.isOpen = false := ho₁.1
    rw [hopen (hc.isOpen_of_initialized hi)] at hclosed
    cases hclosed
  · rw [hop] at hok
    cases hok
    cases hgreeted with
    | ready _ hr =>
      constructor <;> (intro hst; rw [hst] at hr; exact absurd hr (by decide))

/-- A start that the server answers: the session is returned, and `initialized` was said after the
answer. -/
theorem conversation_grammatical_answered :
    ∃ (h : Host) (es : List Event) (sc : Scene),
      Life h (.started ⟨⟨[0x2F]⟩, "rust"⟩ "analyzer" .standard none 0) es sc ∧
      sc.callers[0]? = some (.returned (.ok .done)) ∧ sc.session.state = .ready ∧
      .initialized ∈ sayings sc.session.frames ∧ Answered es 1 := by
  -- a response without an error, as the server writes it
  obtain ⟨bytes, frame⟩ : ∃ bytes, Frame.next false bytes =
      .message (.obj [("id", .num (.int 1)), ("result", .num (.int 0))]) [] :=
    ⟨[67, 111, 110, 116, 101, 110, 116, 45, 76, 101, 110, 103, 116, 104, 58, 32, 49, 57, 13, 10, 13,
      10, 123, 34, 105, 100, 34, 58, 49, 44, 34, 114, 101, 115, 117, 108, 116, 34, 58, 48, 125],
      by with_unfolding_all rfl⟩
  have serves : Link.Serves (.fresh none) ⟨[], .taken, false, bytes, false, none, false, none⟩ :=
    ⟨rfl, rfl, rfl, rfl, List.nil_prefix⟩
  have started : Life { (default : Host) with directory := ⟨[0x2F]⟩ }
      (.started ⟨⟨[0x2F]⟩, "rust"⟩ "analyzer" .standard none 0) [] _ := .refl
  have begun := started.tail (.step (.advance 0 _ rfl rfl) rfl)
  have numbered := begun.tail (.step (.advance 0 _ rfl rfl) rfl)
  have registered := numbered.tail (.step (.advance 0 _ rfl rfl) rfl)
  have waits := registered.tail (.step (.advance 0 _ rfl rfl) rfl)
  have heard := (waits.tail (.step (.serve serves) rfl)).tail (.step (.read rfl frame) rfl)
  have finished := heard.tail (.step (.advance 0 _ rfl rfl) rfl)
  have answered := finished.tail (.step (.advance 0 _ rfl rfl) rfl)
  have notifying := answered.tail (.step (.advance 0 _ rfl rfl) rfl)
  have ready := notifying.tail (.step (.advance 0 _ rfl rfl) rfl)
  refine ⟨_, _, _, ready, rfl, rfl, ?said, (conversation_grammatical ready).2.1 ?said⟩
  exact Lsp.mem_sayings.mpr ⟨Lsp.notification "initialized" (some (.obj [])),
    List.mem_append_right _ (List.mem_cons_of_mem _ List.mem_cons_self),
    Lsp.has_method_notification .., Lsp.saying_initialized _⟩

end Session

end LanguageHub
