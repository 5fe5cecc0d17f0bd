import LanguageHub.Proofs.Lsp.Frames
import LanguageHub.Proofs.Session.Stages

/-!
# What the background of a session does

The writer, the two halves of the monitor and the reader are the four **parts** of the background.
`Session.Turn` says what each of them can do in one step, again with one constructor for each way
in which a step can end.

An operation queues one frame at most in a stage (`Session.Queues`), and the reader queues
its replies (`Session.Turn.frames_cases`). Only the end of the writer loses frames.

An `Event` is what is seen of a step, be it of an operation or of the background. A run is
known by its events, so that "the first response to an id" and "the last text of a document" are
functions of a list.

`Session.LeadsTo` is what never goes back, whoever takes the step: a session keeps its key,
its state does not fall, ids are not given twice, and a writer that has ended stays so. The state
also keeps up with the handshake (`Session.Greeted`).
-/

namespace LanguageHub

/-- The frame of a command, for one that sends a frame. -/
def WriterOrder.frame? : WriterOrder → Option Json
  | .send frame => some frame
  | .shutdown => none

/-- The terminal states are the last ones. -/
theorem SessionState.isTerminal_iff (st : SessionState) : st.isTerminal = true ↔ 3 ≤ st.rank := by
  cases st <;> decide

/-- A session that is disposed has ended. -/
theorem SessionState.isTerminal_next_dispose (st : SessionState) :
    (st.next .dispose).isTerminal = true := by
  cases st <;> rfl

/-- A session whose server has exited has ended. -/
theorem SessionState.isTerminal_next_processExited (st : SessionState) :
    (st.next .processExited).isTerminal = true := by
  cases st <;> rfl

/-- A handshake that has begun leaves nothing behind `initializing`. -/
theorem SessionState.one_le_rank_next_beginHandshake (st : SessionState) :
    1 ≤ (st.next .beginHandshake).rank := by
  cases st <;> decide

/-- A handshake that is complete leaves nothing behind `ready`. -/
theorem SessionState.two_le_rank_next_handshakeComplete {st : SessionState} (h : 1 ≤ st.rank) :
    2 ≤ (st.next .handshakeComplete).rank := by
  cases st
  · exact absurd h (by decide)
  all_goals decide

namespace Session

/-- What is seen of a step. -/
inductive Event where
  /-- A caller's operation has gone on by one stage. -/
  | advanced (caller : Nat) (before after : Operation)
  /-- The reader has taken a frame. -/
  | read (frame : Json)
  /-- The reader has told the calls that wait that the output is over. -/
  | cleared
  /-- The writer has ended, and these frames are never written. -/
  | stopped (lost : List Json)
  | silent

/-- A part of the background. -/
inductive Part where
  | writer
  | kill
  | exit
  | reader

/-- One step of one part of the background. -/
def stepPart : Part → Session → Option BackgroundStep
  | .writer => stepWriter
  | .kill => stepKill
  | .exit => stepExit
  | .reader => stepReader

/-- What is seen when a part of the background takes its step. -/
def eventOf (s : Session) : Part → Event
  | .writer =>
    match s.writing with
    | some frame =>
      match s.link.input with
      | .closed => .stopped (frame :: s.outbox.filterMap (·.frame?))
      | _ => .silent
    | none =>
      match s.outbox with
      | .send _ :: _ => .silent
      | .shutdown :: rest => .stopped (rest.filterMap (·.frame?))
      | [] => .stopped []
  | .reader =>
    match s.reader with
    | .reading =>
      match Frame.next s.link.outputEnded s.link.arrived with
      | .message frame _ => .read frame
      | _ => .silent
    | .clearing => .cleared
    | _ => .silent
  | _ => .silent

/-- The frames that are still to be written: the one in hand, then those in the outbox. -/
def unwritten (s : Session) : List Json := s.writing.toList ++ s.outbox.filterMap (·.frame?)

/-- The frames that were queued and are not lost: those on the wire, then those that are still to
be written. -/
def frames (s : Session) : List Json := s.link.wire ++ s.unwritten

variable {s s' s'' : Session}

/-- A frame that is queued comes last. -/
theorem frames_of_send {frame : Json} (hwire : s'.link.wire = s.link.wire)
    (hwriting : s'.writing = s.writing) (hout : s'.outbox = s.outbox ++ [.send frame]) :
    s'.frames = s.frames ++ [frame] := by
  simp [frames, unwritten, hwire, hwriting, hout, WriterOrder.frame?]

theorem frames_of_shutdown (hwire : s'.link.wire = s.link.wire)
    (hwriting : s'.writing = s.writing) (hout : s'.outbox = s.outbox ++ [.shutdown]) :
    s'.frames = s.frames := by
  simp [frames, unwritten, hwire, hwriting, hout, WriterOrder.frame?]

theorem frames_take {frame : Json} {rest : List WriterOrder} (hw : s.writing = none)
    (ho : s.outbox = .send frame :: rest) :
    ({ s with outbox := rest, writing := some frame } : Session).frames = s.frames := by
  simp [frames, unwritten, hw, ho, WriterOrder.frame?]

theorem frames_write {frame : Json} (hw : s.writing = some frame) :
    ({ s with
      writing := none
      link := { s.link with wire := s.link.wire ++ [frame] } } : Session).frames = s.frames := by
  simp [frames, unwritten, hw]

/-- When the writer ends, only what is on the wire is left. -/
theorem frames_endWriter (s : Session) : s.endWriter.frames = s.link.wire := by
  simp [frames, unwritten, endWriter]

theorem frames_serve {l : Link} (hl : l.wire = s.link.wire) :
    ({ s with link := l } : Session).frames = s.frames := by
  simp [frames, unwritten, hl]

/-! ### The steps -/

/-- **One step of the background.** -/
inductive Turn (s : Session) : Event → Session → Prop
  | take (frame : Json) (rest : List WriterOrder) : s.writing = none →
      s.outbox = .send frame :: rest →
      Turn s .silent { s with outbox := rest, writing := some frame }
  | write (frame : Json) : s.writing = some frame →
      Turn s .silent { s with
        writing := none, link := { s.link with wire := s.link.wire ++ [frame] } }
  /-- The writer ends. If it loses nothing, all it had to write is written. -/
  | endWriter (lost : List Json) : (lost = [] → s.unwritten = []) →
      Turn s (.stopped lost) s.endWriter
  | kill (killed : Bool) : Turn s .silent
      { s with monitorEnded := true, link := { s.link with killed := killed } }
  | exit : Turn s .silent { s.transition .processExited with monitorEnded := true }
  | read (frame : Json) (rest : List UInt8) : s.reader = .reading →
      Turn s (.read frame)
        (dispatch frame { s with link := { s.link with arrived := rest } }).session
  | endReading : s.reader = .reading → Turn s .silent s.endReading
  | reply (frame : Json) : s.reader = .replying frame → s.writerEnded = false →
      Turn s .silent { s with outbox := s.outbox ++ [.send frame], reader := .reading }
  | unreplied (frame : Json) : s.reader = .replying frame → s.writerEnded = true →
      Turn s .silent { s with reader := .reading }
  | clear : s.reader = .clearing → Turn s .cleared { s with pending := [], reader := .ended }

theorem Turn.of_stepWriter {b : BackgroundStep} (h : s.stepWriter = some b) :
    Turn s (s.eventOf .writer) b.session := by
  unfold stepWriter at h
  split at h
  · cases h
  cases hw : s.writing with
  | some frame =>
    simp only [hw] at h
    split at h
    · next hi =>
      cases h
      have he : s.eventOf .writer = .silent := by simp [eventOf, hw, hi]
      rw [he]
      exact .write frame hw
    · cases h
    · next hi =>
      cases h
      have he : s.eventOf .writer = .stopped (frame :: s.outbox.filterMap (·.frame?)) := by
        simp [eventOf, hw, hi]
      rw [he]
      exact .endWriter _ (fun hl => by cases hl)
  | none =>
    simp only [hw] at h
    split at h
    · next frame rest ho =>
      cases h
      have he : s.eventOf .writer = .silent := by simp [eventOf, hw, ho]
      rw [he]
      exact .take frame rest hw ho
    · next rest ho =>
      cases h
      have he : s.eventOf .writer = .stopped (rest.filterMap (·.frame?)) := by
        simp [eventOf, hw, ho]
      rw [he]
      exact .endWriter _ (fun hl => by simpa [unwritten, hw, ho, WriterOrder.frame?] using hl)
    · next ho =>
      split at h
      · cases h
        have he : s.eventOf .writer = .stopped [] := by simp [eventOf, hw, ho]
        rw [he]
        exact .endWriter _ (fun _ => by simp [unwritten, hw, ho])
      · cases h

theorem Turn.of_stepReader {b : BackgroundStep} (h : s.stepReader = some b) :
    Turn s (s.eventOf .reader) b.session := by
  unfold stepReader at h
  split at h
  · next hr =>
    split at h
    · next frame rest hf =>
      cases h
      have he : s.eventOf .reader = .read frame := by simp [eventOf, hr, hf]
      rw [he]
      exact .read frame rest hr
    · next hf =>
      cases h
      have he : s.eventOf .reader = .silent := by simp [eventOf, hr, hf]
      rw [he]
      exact .endReading hr
    · next e hf =>
      cases h
      have he : s.eventOf .reader = .silent := by simp [eventOf, hr, hf]
      rw [he]
      exact .endReading hr
    · cases h
  · next frame hr =>
    have he : s.eventOf .reader = .silent := by simp [eventOf, hr]
    rw [he]
    split at h
    · next hq =>
      cases h
      obtain ⟨hw, rfl⟩ := enqueue_eq_queued hq
      exact .reply frame hr hw
    · next hq =>
      cases h
      exact .unreplied frame hr (enqueue_eq_refused hq)
    · cases h
  · next hr =>
    cases h
    have he : s.eventOf .reader = .cleared := by simp [eventOf, hr]
    rw [he]
    exact .clear hr
  · cases h

theorem Turn.of_stepPart {p : Part} {b : BackgroundStep} (h : s.stepPart p = some b) :
    Turn s (s.eventOf p) b.session := by
  cases p with
  | writer => exact .of_stepWriter h
  | reader => exact .of_stepReader h
  | kill =>
    simp only [stepPart, stepKill] at h
    split at h
    · cases h
    · cases h
      exact .kill _
  | exit =>
    simp only [stepPart, stepExit] at h
    split at h
    · cases h
    · split at h
      · cases h
      · cases h
        exact .exit
      · cases h
        exact .exit

/-- Whatever part of the background goes first, it is one of the four. -/
theorem exists_stepPart_of_stepBackground {b : BackgroundStep} (h : s.stepBackground = some b) :
    ∃ p, s.stepPart p = some b := by
  unfold stepBackground at h
  rcases hw : s.stepWriter with _ | bw
  · rcases hk : s.stepKill with _ | bk
    · rcases hx : s.stepExit with _ | bx
      · exact ⟨.reader, by simpa [stepPart, hw, hk, hx] using h⟩
      · exact ⟨.exit, by simpa [stepPart, hw, hk, hx] using h⟩
    · exact ⟨.kill, by simpa [stepPart, hw, hk] using h⟩
  · exact ⟨.writer, by simpa [stepPart, hw] using h⟩

/-! ### What a stage of an operation queues -/

/-- **What an operation may queue in a stage.** -/
inductive Queues (op : Operation) : Json → Prop
  | request (id : Nat) (method : String) (params : Option Json) :
      Queues op (Lsp.request id method params)
  | initialized : Queues op (Lsp.notification "initialized" (some (.obj [])))
  | document (a : DocumentAction) (frame : Json) (after : Documents) :
      op = .document a (.sending frame after) → Queues op frame
  | exit : Queues op (Lsp.notification "exit" none)

/-- A call queues no frame, or it queues its request. -/
theorem CallStep.frames_cases {now : Nat} {c : Call} {st st' : CallStage}
    (hs : CallStep now c s st s' st') : s'.frames = s.frames ∨
      ∃ id, s.writerEnded = false ∧
        s'.frames = s.frames ++ [Lsp.request id c.method c.params] := by
  cases hs with
  | send id hopen => exact .inr ⟨id, hopen, frames_of_send rfl rfl rfl⟩
  | _ => exact .inl rfl

/-- **A stage of an operation queues one frame at most.** -/
theorem OperationStep.frames_cases {h : Host} {now id : Nat} {op op' : Operation}
    (hs : OperationStep h now id s op s' op') :
    s'.frames = s.frames ∨ ∃ frame, Queues op frame ∧ s'.frames = s.frames ++ [frame] := by
  have hcall : ∀ {c : Call} {s' : Session} {st st' : CallStage}, CallStep now c s st s' st' →
      s'.frames = s.frames ∨ ∃ frame, Queues op frame ∧ s'.frames = s.frames ++ [frame] := by
    intro c s' st st' hc
    rcases hc.frames_cases with hf | ⟨id, -, hf⟩
    · exact .inl hf
    · exact .inr ⟨_, .request id c.method c.params, hf⟩
  cases hs with
  | handshake hs =>
    cases hs with
    | call hc => exact hcall hc
    | complete =>
      exact .inr ⟨_, .initialized, frames_of_send rfl rfl rfl⟩
    | _ => exact .inl rfl
  | query hs =>
    cases hs with
    | begin _ hc | call hc => exact hcall hc
    | _ => exact .inl rfl
  | document hs =>
    cases hs with
    | locked hl => cases hl <;> exact .inl rfl
    | send frame after =>
      exact .inr ⟨frame, .document _ frame after rfl, frames_of_send rfl rfl rfl⟩
    | _ => exact .inl rfl
  | dispose hs =>
    cases hs with
    | call hc => exact hcall hc
    | exit => exact .inr ⟨_, .exit, frames_of_send rfl rfl rfl⟩
    | close => exact .inl (frames_of_shutdown rfl rfl rfl)
    | _ => exact .inl rfl

/-! ### What never goes back -/

/-- **What never goes back** from one state of a session to a later one. -/
structure LeadsTo (s s' : Session) : Prop where
  key : s'.key = s.key
  server : s'.server = s.server
  timeouts : s'.timeouts = s.timeouts
  state : s.state.rank ≤ s'.state.rank
  nextId : s.nextId ≤ s'.nextId
  writerEnded : s.writerEnded = true → s'.writerEnded = true
  disposing : s.disposing = true → s'.disposing = true

namespace LeadsTo

theorem refl (s : Session) : LeadsTo s s :=
  ⟨rfl, rfl, rfl, Nat.le_refl _, Nat.le_refl _, id, id⟩

theorem trans (h : LeadsTo s s') (h' : LeadsTo s' s'') : LeadsTo s s'' where
  key := h'.key.trans h.key
  server := h'.server.trans h.server
  timeouts := h'.timeouts.trans h.timeouts
  state := Nat.le_trans h.state h'.state
  nextId := Nat.le_trans h.nextId h'.nextId
  writerEnded := fun hw => h'.writerEnded (h.writerEnded hw)
  disposing := fun hd => h'.disposing (h.disposing hd)

/-- A session that has ended stays so. -/
theorem isTerminal (h : LeadsTo s s') (ht : s.state.isTerminal = true) :
    s'.state.isTerminal = true := by
  rw [SessionState.isTerminal_iff] at ht ⊢
  exact Nat.le_trans ht h.state

theorem degraded (h : LeadsTo s s') : s'.degraded = s.degraded := by
  simp only [Session.degraded, h.key]

end LeadsTo

theorem transition_leadsTo (s : Session) (t : Transition) : LeadsTo s (s.transition t) :=
  ⟨rfl, rfl, rfl, s.state.rank_le_next t, Nat.le_refl _, id, id⟩

theorem CallStep.leadsTo {now : Nat} {c : Call} {st st' : CallStage}
    (h : CallStep now c s st s' st') : LeadsTo s s' := by
  cases h with
  | number => exact ⟨rfl, rfl, rfl, Nat.le_refl _, Nat.le_succ _, id, id⟩
  | _ => exact ⟨rfl, rfl, rfl, Nat.le_refl _, Nat.le_refl _, id, id⟩

theorem HandshakeStep.leadsTo {h : Host} {now : Nat} {st : HandshakeStage} {op : Operation}
    (hs : HandshakeStep h now s st s' op) : LeadsTo s s' := by
  cases hs with
  | begin | rootless => exact transition_leadsTo s _
  | call hc => exact hc.leadsTo
  | complete => exact ⟨rfl, rfl, rfl, s.state.rank_le_next _, Nat.le_refl _, id, id⟩
  | fail => exact ⟨rfl, rfl, rfl, s.state.rank_le_next _, Nat.le_refl _, id, id⟩
  | _ => exact .refl s

theorem QueryStep.leadsTo {now : Nat} {q : Lsp.Query} {cancelAt : Option Nat}
    {st : Option (Call × CallStage)} {op : Operation}
    (h : QueryStep now q cancelAt s st s' op) : LeadsTo s s' := by
  cases h with
  | begin _ hc | call hc => exact hc.leadsTo
  | _ => exact .refl s

theorem LockedStep.leadsTo {a : DocumentAction} {op : Operation}
    (h : LockedStep a s s' op) : LeadsTo s s' := by
  cases h <;> exact ⟨rfl, rfl, rfl, Nat.le_refl _, Nat.le_refl _, id, id⟩

theorem DocumentStep.leadsTo {id : Nat} {a : DocumentAction} {st : DocumentStage}
    {op : Operation} (h : DocumentStep id a s st s' op) : LeadsTo s s' := by
  cases h with
  | locked hl => exact hl.leadsTo
  | _ => exact ⟨rfl, rfl, rfl, Nat.le_refl _, Nat.le_refl _, fun h => h, fun h => h⟩

theorem DisposeStep.leadsTo {now : Nat} {st : DisposeStage} {op : Operation}
    (h : DisposeStep now s st s' op) : LeadsTo s s' := by
  cases h with
  | graceful | abrupt => exact ⟨rfl, rfl, rfl, Nat.le_refl _, Nat.le_refl _, id, fun _ => rfl⟩
  | call hc => exact hc.leadsTo
  | ending => exact transition_leadsTo s _
  | _ => exact ⟨rfl, rfl, rfl, Nat.le_refl _, Nat.le_refl _, id, id⟩

theorem OperationStep.leadsTo {h : Host} {now id : Nat} {op op' : Operation}
    (hs : OperationStep h now id s op s' op') : LeadsTo s s' := by
  cases hs with
  | handshake hs => exact hs.leadsTo
  | query hs => exact hs.leadsTo
  | document hs => exact hs.leadsTo
  | dispose hs => exact hs.leadsTo

/-- What a frame makes of a session: a response moves its id, a request makes the reader reply, and
nothing else changes. -/
theorem dispatch_session_cases (frame : Json) (s : Session) :
    (∃ id body, Lsp.Incoming.of? frame = some (.response id body) ∧ id ∈ s.pending ∧
      (dispatch frame s).session = { s with
        pending := s.pending.filter (· != id), delivered := s.delivered ++ [(id, body)] }) ∨
    (∃ id method params, Lsp.Incoming.of? frame = some (.request id method params) ∧
      (dispatch frame s).session = { s with reader := .replying (answer id method params).1 }) ∨
    ((∀ id body, Lsp.Incoming.of? frame = some (.response id body) → id ∉ s.pending) ∧
      (dispatch frame s).session = s) := by
  unfold dispatch
  split
  · next hf => exact .inr (.inr ⟨fun id body h => by simp [hf] at h, rfl⟩)
  · next id body hf =>
    by_cases hp : id ∈ s.pending
    · refine .inl ⟨id, body, hf, hp, ?_⟩
      simp [hp, BackgroundStep.quiet]
    · refine .inr (.inr ⟨fun id' body' h => ?_, ?_⟩)
      · rw [hf] at h
        cases h
        exact hp
      · simp [hp, BackgroundStep.quiet]
  · next id method params hf => exact .inr (.inl ⟨id, method, params, hf, rfl⟩)
  · next method params hf => exact .inr (.inr ⟨fun id body h => by simp [hf] at h, rfl⟩)

/-- **A frame changes nothing but the calls that wait and the reader.** -/
theorem dispatch_session_eq (frame : Json) (s : Session) : (dispatch frame s).session = { s with
    pending := (dispatch frame s).session.pending
    delivered := (dispatch frame s).session.delivered
    reader := (dispatch frame s).session.reader } := by
  rcases dispatch_session_cases frame s with ⟨_, _, -, -, h⟩ | ⟨_, _, _, -, h⟩ | ⟨-, h⟩ <;> rw [h]

theorem dispatch_leadsTo (frame : Json) (s : Session) : LeadsTo s (dispatch frame s).session := by
  rw [dispatch_session_eq]
  exact ⟨rfl, rfl, rfl, Nat.le_refl _, Nat.le_refl _, id, id⟩

theorem Turn.leadsTo {e : Event} (h : Turn s e s') : LeadsTo s s' := by
  cases h with
  | endWriter => exact ⟨rfl, rfl, rfl, Nat.le_refl _, Nat.le_refl _, fun _ => rfl, id⟩
  | exit | endReading => exact ⟨rfl, rfl, rfl, s.state.rank_le_next _, Nat.le_refl _, id, id⟩
  | read frame rest =>
    have hl := dispatch_leadsTo frame { s with link := { s.link with arrived := rest } }
    exact ⟨hl.key, hl.server, hl.timeouts, hl.state, hl.nextId, hl.writerEnded, hl.disposing⟩
  | _ => exact ⟨rfl, rfl, rfl, Nat.le_refl _, Nat.le_refl _, id, id⟩

/-- **What a step of the background does to the frames**: nothing, or the writer ends, or the reader
queues its reply. -/
theorem Turn.frames_cases {e : Event} (h : Turn s e s') :
    (s'.frames = s.frames ∧ s'.writerEnded = s.writerEnded) ∨
    (∃ lost, e = .stopped lost ∧ s' = s.endWriter ∧
      (lost = [] → s.unwritten = [])) ∨
    ∃ frame, s.reader = .replying frame ∧ s.writerEnded = false ∧
      s'.frames = s.frames ++ [frame] := by
  cases h with
  | take frame rest hw ho => exact .inl ⟨frames_take hw ho, rfl⟩
  | write frame hw => exact .inl ⟨frames_write hw, rfl⟩
  | endWriter lost hl => exact .inr (.inl ⟨lost, rfl, rfl, hl⟩)
  | read frame rest =>
    rw [dispatch_session_eq]
    exact .inl ⟨rfl, rfl⟩
  | reply frame hreader hopen =>
    exact .inr (.inr ⟨frame, hreader, hopen, frames_of_send rfl rfl rfl⟩)
  | _ => exact .inl ⟨rfl, rfl⟩

theorem Turn.ne_advanced {e : Event} (h : Turn s e s') (n : Nat) (op op' : Operation) :
    e ≠ .advanced n op op' := by
  cases h <;> exact fun he => by cases he

/-! ### The handshake -/

/-- **The state of a session fits its handshake.** -/
inductive Greeted (s : Session) : Operation → Prop
  | fresh : Greeted s .startHandshake
  | under {st : HandshakeStage} : 1 ≤ s.state.rank → Greeted s (.handshake st)
  | ready (o : Outcome) : 2 ≤ s.state.rank → Greeted s (.returned (.ok o))
  | failed (e : LspError) : s.state.isTerminal = true → Greeted s (.returned (.error e))

theorem Greeted.leadsTo {op : Operation} (h : Greeted s op) (hl : LeadsTo s s') : Greeted s' op := by
  rcases h with _ | hr | ⟨o, hr⟩ | ⟨e, ht⟩
  · exact .fresh
  · exact .under (Nat.le_trans hr hl.state)
  · exact .ready o (Nat.le_trans hr hl.state)
  · exact .failed e (hl.isTerminal ht)

/-- A stage of a handshake moves the state with it. -/
theorem Greeted.step {h : Host} {now id : Nat} {op op' : Operation} (hg : Greeted s op)
    (hs : OperationStep h now id s op s' op') : Greeted s' op' := by
  have hl := hs.leadsTo
  rcases hs with hh | _ | _ | _
  · cases hh with
    | begin | rootless => exact .under s.state.one_le_rank_next_beginHandshake
    | complete =>
      rcases hg with _ | hr
      exact .ready _ (SessionState.two_le_rank_next_handshakeComplete hr)
    | fail => exact .failed _ s.state.isTerminal_next_dispose
    | _ =>
      -- the handshake has begun before
      rcases hg with _ | hr
      exact .under (Nat.le_trans hr hl.state)
  all_goals cases hg

/-! ### Replies to the server -/

theorem OperationStep.reader {h : Host} {now id : Nat} {op op' : Operation}
    (hs : OperationStep h now id s op s' op') : s'.reader = s.reader := by
  have hcall : ∀ {now c cs s' cs'}, CallStep now c s cs s' cs' → s'.reader = s.reader :=
    fun hc => by cases hc <;> rfl
  cases hs with
  | handshake hs =>
    cases hs with
    | call hc => exact hcall hc
    | _ => rfl
  | query hs =>
    cases hs with
    | call hc | begin _ hc => exact hcall hc
    | _ => rfl
  | document hs =>
    cases hs with
    | locked hl => cases hl <;> rfl
    | _ => rfl
  | dispose hs =>
    cases hs with
    | call hc => exact hcall hc
    | _ => rfl

/-- What the reader has for the writer is a reply. -/
def Replies (s : Session) : Prop := ∀ frame, s.reader = .replying frame → Lsp.IsReply frame

theorem Turn.replies {e : Event} (h : Turn s e s') (hr : Replies s) : Replies s' := by
  intro frame hf
  cases h with
  | read f rest hreading =>
    rcases dispatch_session_cases f { s with link := { s.link with arrived := rest } } with
      ⟨_, _, -, -, h⟩ | ⟨id, method, params, -, h⟩ | ⟨-, h⟩ <;> rw [h] at hf
    · exact hr frame hf
    · cases hf
      exact Lsp.isReply_answer method params id
    · exact hr frame hf
  | endReading | reply | unreplied | clear => cases hf
  | _ => exact hr frame hf

end Session

end LanguageHub
