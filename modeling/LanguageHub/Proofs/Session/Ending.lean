import LanguageHub.Proofs.Session.Documents
import LanguageHub.Proofs.Session.Scenarios
import LanguageHub.Proofs.Session.Settling

/-!
# A session that has ended

The state of a session goes **forward** only, and once it is terminal the session does nothing for
those who come: a request, an opening, a change or a closing that begins then is refused. What
such an operation can have come to is `Session.Barred`. It has looked at the state before it could
touch anything, so each of its stages leaves the session as it is, but for the queue of those who
wait for the map of documents.

A request is refused at its first stage (`Session.stepQuery_of_isTerminal`). An operation on a
document takes the map **before** it looks at the state, so it waits for those who had the map
before it. They are refused themselves, or they have a frame for an outbox that the writer empties
into a server that reads: with such a server the operation returns (`Session.Barred.returnsAlone`).

That is all there is. A server that has closed its output, and neither reads nor exits, can stall
the client (`Session.Stalled`), and then a change of a document waits in a session that has ended,
and nothing that the client does can end the wait (`Session.exists_stalled_change`).

A disposal that begins in a session that has ended skips the farewell (`Session.Hasty`).
`Session.ended_session_refuses` says all of this of every run.
-/

namespace LanguageHub

/-- What a session does only as long as it lives: requests, and changes of documents. -/
def Operation.needsLife : Operation → Bool
  | .query .. => true
  | op => op.changesDocuments

/-- A session becomes ready only while it shakes hands. -/
theorem SessionState.of_next_eq_ready {st : SessionState} {t : Transition}
    (h : st.next t = .ready) : st = .ready ∨ st = .initializing := by
  revert h
  cases st <;> cases t <;> decide

namespace Session

variable {s s' : Session} {h : Host} {now n : Nat} {op op' : Operation} {e : LspError}

/-! ### The state goes forward -/

theorem CallStep.state_eq {c : Call} {st st' : CallStage} (hs : CallStep now c s st s' st') :
    s'.state = s.state := by
  cases hs <;> rfl

/-- A stage moves the state by an event of its life, or not at all. -/
theorem OperationStep.state_cases (hs : OperationStep h now n s op s' op') :
    s'.state = s.state ∨ ∃ t, s'.state = s.state.next t := by
  cases hs with
  | handshake hs =>
    cases hs with
    | begin | rootless | complete | fail => exact .inr ⟨_, rfl⟩
    | call hc => exact .inl hc.state_eq
    | _ => exact .inl rfl
  | query hs =>
    cases hs with
    | call hc | begin _ hc => exact .inl hc.state_eq
    | _ => exact .inl rfl
  | document hs =>
    cases hs with
    | locked hl => cases hl <;> exact .inl rfl
    | _ => exact .inl rfl
  | dispose hs =>
    cases hs with
    | ending => exact .inr ⟨_, rfl⟩
    | call hc => exact .inl hc.state_eq
    | _ => exact .inl rfl

theorem Turn.state_cases {e : Event} (ht : Turn s e s') :
    s'.state = s.state ∨ ∃ t, s'.state = s.state.next t := by
  cases ht with
  | exit | endReading => exact .inr ⟨_, rfl⟩
  | read frame rest =>
    rw [dispatch_session_eq]
    exact .inl rfl
  | _ => exact .inl rfl

variable {sc sc' : Scene} {es : List Event}

theorem Step.state_cases {e : Event} (hs : Step h sc e sc') :
    sc'.session.state = sc.session.state ∨
      ∃ t, sc'.session.state = sc.session.state.next t := by
  cases hs with
  | advance n op _ hop => exact (OperationStep.of_stepOperation hop).state_cases
  | background p hb => exact (Turn.of_stepPart hb).state_cases
  | call | serve | elapse | release => exact .inl rfl

/-- **A session becomes ready only while it shakes hands.** -/
theorem Step.of_ready {e : Event} (hs : Step h sc e sc') (hr : sc'.session.state = .ready) :
    sc.session.state = .ready ∨ sc.session.state = .initializing := by
  rcases hs.state_cases with heq | ⟨t, heq⟩
  · exact .inl (heq.symm.trans hr)
  · exact SessionState.of_next_eq_ready (heq.symm.trans hr)

/-- **What a caller has come to in a session that has ended** is so throughout the run, if each of
its stages keeps it so. -/
theorem Run.caller_of_isTerminal {P : Operation → Prop} (r : Run h sc es sc')
    (ht : sc.session.state.isTerminal = true) (hn : sc.callers[n]? = some op) (hp : P op)
    (hstep : ∀ {s s' : Session} {now : Nat} {op op' : Operation}, s.state.isTerminal = true →
      s.degraded = sc.session.degraded → P op → OperationStep h now n s op s' op' → P op') :
    ∃ op', sc'.callers[n]? = some op' ∧ P op' := by
  induction r with
  | refl => exact ⟨op, hn, hp⟩
  | tail r hs ih =>
    obtain ⟨op₁, hn₁, hp₁⟩ := ih
    rcases hs.caller hn₁ with hn₂ | ⟨op₂, hn₂, hop⟩
    · exact ⟨op₁, hn₂, hp₁⟩
    · exact ⟨op₂, hn₂, hstep (r.leadsTo.isTerminal ht) r.leadsTo.degraded hp₁ hop⟩

/-! ### Refused operations -/

/-- **What an operation that is refused with an error can have come to.** -/
inductive Barred (e : LspError) : Operation → Prop
  | query (q : Lsp.Query) (cancelAt : Option Nat) : Barred e (.query q cancelAt none)
  | document (a : DocumentAction) (st : DocumentStage) : (∀ uri, a ≠ .query uri) →
      (∀ frame after, st ≠ .sending frame after) → Barred e (.document a st)
  | refused : Barred e (.returned (.error e))

theorem Barred.of_isFresh (hf : op.isFresh = true) (hl : op.needsLife = true) : Barred e op := by
  cases op with
  | query q cancelAt st =>
    cases st with
    | none => exact .query q cancelAt
    | some x => cases hf
  | document a st =>
    refine .document a st ?_ ?_
    · rintro uri rfl
      cases hl
    · rintro frame after rfl
      cases hf
  | _ => cases hl

/-- **In a session that has ended, an operation that is refused stays so**, and its stages change
nothing but the queue for the map. -/
theorem Barred.step (hb : Barred s.degraded op) (ht : s.state.isTerminal = true)
    (hs : OperationStep h now n s op s' op') :
    Barred s.degraded op' ∧ s' = { s with documentQueue := s'.documentQueue } := by
  cases hs with
  | query hs =>
    cases hb
    cases hs with
    | notReady => exact ⟨.refused, rfl⟩
    | begin hr => rw [hr] at ht; cases ht
  | document hs =>
    cases hb with
    | document a' st' ha hst =>
      have hgoes : ∀ st₁, (∀ frame after, st₁ ≠ .sending frame after) →
          Barred s.degraded (.document _ st₁) := fun st₁ => .document _ st₁ ha
      cases hs with
      | begin => exact ⟨hgoes .queued (by simp), rfl⟩
      | lock => exact ⟨hgoes .locked (by simp), rfl⟩
      | locked hl =>
        cases hl with
        | ask uri hq => exact absurd hq (ha uri)
        | ended => exact ⟨.refused, rfl⟩
        | openNew _ _ _ hlive | change _ _ _ hlive | close _ _ hlive | absent _ _ _ hlive =>
          simp [ht] at hlive
      | send frame after | unsent frame after => exact absurd rfl (hst frame after)
  | handshake => cases hb
  | dispose => cases hb

/-- An operation that is refused is so throughout the run. -/
theorem Run.barred (r : Run h sc es sc') (ht : sc.session.state.isTerminal = true)
    (hn : sc.callers[n]? = some op) (hb : Barred sc.session.degraded op) :
    ∃ op', sc'.callers[n]? = some op' ∧ Barred sc.session.degraded op' :=
  r.caller_of_isTerminal ht hn hb fun ht' hd hb' hs => hd ▸ (Barred.step (hd ▸ hb') ht' hs).1

/-- **A request is refused at its first stage.** -/
theorem stepQuery_of_isTerminal (ht : s.state.isTerminal = true) (q : Lsp.Query)
    (cancelAt : Option Nat) :
    s.stepQuery now q cancelAt none = some (s, .returned (.error s.degraded), []) := by
  have hready : ¬ (s.state == .ready) = true := by
    intro hr
    rw [eq_of_beq hr] at ht
    cases ht
  rw [stepQuery, if_neg hready]
  rfl

/-- An operation that is refused has returned, or the client can go on alone, or it is stalled. -/
theorem Barred.loneStep_or_stalled (hb : Barred e op) (hn : sc.callers[n]? = some op)
    (ht : sc.session.state.isTerminal = true)
    (ho : InOrder sc.session (shown (·.document?) sc.callers)) :
    op = .returned (.error e) ∨ (∃ sc', LoneStep h sc sc') ∨ Stalled sc := by
  cases hb with
  | refused => exact .inl rfl
  | query q cancelAt =>
    exact .inr (.inl ⟨_, .advance n _ hn (stepQuery_of_isTerminal ht q cancelAt)⟩)
  | document a st ha hst =>
    refine .inr ?_
    cases st with
    | begin => exact .inl ⟨_, .advance n _ hn rfl⟩
    | queued =>
      have hplaced := ho.placed n
      rw [shown_of_getElem? hn] at hplaced
      cases hplaced with
      | queued hmem => exact ho.loneStep_or_stalled (List.ne_nil_of_mem hmem)
    | locked => exact loneStep_or_stalled_of_holds hn rfl
    | sending frame after => exact absurd rfl (hst frame after)

/-- **An operation that is refused needs no more of the server than that it reads.** -/
theorem Barred.returnsAlone (hb : Barred sc.session.degraded op) (hn : sc.callers[n]? = some op)
    (ht : sc.session.state.isTerminal = true)
    (ho : InOrder sc.session (shown (·.document?) sc.callers)) :
    ReturnsAlone h sc n (.error sc.session.degraded) := by
  refine ⟨sc.work, fun k sc' r => ⟨?_, fun hrest => ?_⟩⟩
  · have hle := r.add_work_le
    omega
  · obtain ⟨es, run⟩ := r.run
    obtain ⟨op', hn', hb'⟩ := run.barred ht hn hb
    have hgo := hb'.loneStep_or_stalled (h := h) hn' (run.leadsTo.isTerminal ht) (run.inOrder ho)
    rcases hgo with rfl | ⟨sc'', hs⟩ | hstalled
    · exact hn'
    · exact absurd (.alone hs) (hrest sc'')
    · exact absurd (.relieve hstalled.stuck.full) (hrest _)

/-! ### Disposals without a farewell -/

/-- **What a disposal without a farewell can have come to.** -/
inductive Hasty : Operation → Prop
  | begin : Hasty (.dispose .begin)
  | ending : Hasty (.dispose .ending)
  | closing : Hasty (.dispose .closing)
  | clearing : Hasty (.dispose .clearing)
  | returned (r : Except LspError Outcome) : Hasty (.returned r)

/-- **In a session that has ended, a disposal queues no frame.** -/
theorem Hasty.step (hb : Hasty op) (ht : s.state.isTerminal = true)
    (hs : OperationStep h now n s op s' op') : Hasty op' ∧ s'.frames = s.frames := by
  cases hs with
  | dispose hs =>
    cases hs with
    | graceful _ hr => rw [hr] at ht; cases ht
    | again | clear => exact ⟨.returned _, rfl⟩
    | abrupt => exact ⟨.ending, rfl⟩
    | ending => exact ⟨.closing, rfl⟩
    | close => exact ⟨.clearing, frames_of_shutdown rfl rfl rfl⟩
    | closed => exact ⟨.clearing, rfl⟩
    | _ => cases hb
  | handshake => cases hb
  | query => cases hb
  | document => cases hb

theorem Run.hasty (r : Run h sc es sc') (ht : sc.session.state.isTerminal = true)
    (hn : sc.callers[n]? = some op) (hb : Hasty op) :
    ∃ op', sc'.callers[n]? = some op' ∧ Hasty op' :=
  r.caller_of_isTerminal ht hn hb fun ht' _ hb' hs => (hb'.step ht' hs).1

/-! ### The main result -/

/-- **A session that has ended stays so, and refuses.** Take any run of a session from its launch.

* No step moves the state back, and a session becomes ready only while it shakes hands.
* Take an operation that begins when the session has ended, and let the run go on in any way. If it
  is a request, or the opening, the change or the closing of a document, none of its stages changes
  anything of the session but the queue for the map of documents: no frame is queued, no id is
  given or waits in the table, and the map stays as it is. Whatever it returns is the error of a
  session that has ended. A request returns it at its first stage. And at any moment the client
  brings any of them to return it, without time and with a server that does nothing but read; or,
  without the server, it can go on, unless the operation has returned or the client is stalled.
* If it is a disposal, none of its stages queues a frame. -/
theorem ended_session_refuses {key : SessionKey} {server : String} {timeouts : Timeouts}
    {killFault : Option String} {now : Nat}
    (run : Run h (.launched key server timeouts killFault now) es sc) :
    (∀ e sc', Step h sc e sc' → sc.session.state.rank ≤ sc'.session.state.rank ∧
      (sc'.session.state = .ready →
        sc.session.state = .ready ∨ sc.session.state = .initializing)) ∧
    (sc.session.state.isTerminal = true → ∀ op, op.isFresh = true → ∀ es' sc₁,
      Run h { sc with callers := sc.callers ++ [op] } es' sc₁ →
      (op.needsLife = true →
        (∀ op₁ op₂ sc₂, Step h sc₁ (.advanced sc.callers.length op₁ op₂) sc₂ → sc₂.session =
          { sc₁.session with documentQueue := sc₂.session.documentQueue }) ∧
        (∀ r, sc₁.callers[sc.callers.length]? = some (.returned r) →
          r = .error (.sessionDegraded key)) ∧
        (∀ q cancelAt, sc₁.callers[sc.callers.length]? = some (.startQuery q cancelAt) →
          sc₁.session.stepOperation h sc₁.now sc.callers.length (.startQuery q cancelAt) =
            some (sc₁.session, .returned (.error (.sessionDegraded key)), [])) ∧
        ReturnsAlone h sc₁ sc.callers.length (.error (.sessionDegraded key)) ∧
        (sc₁.callers[sc.callers.length]? = some (.returned (.error (.sessionDegraded key))) ∨
          (∃ sc₂, LoneStep h sc₁ sc₂) ∨ Stalled sc₁)) ∧
      (op = .startDispose →
        ∀ op₁ op₂ sc₂, Step h sc₁ (.advanced sc.callers.length op₁ op₂) sc₂ →
          sc₂.session.frames = sc₁.session.frames)) := by
  refine ⟨fun e sc' hs => ⟨hs.leadsTo.state, hs.of_ready⟩, ?_⟩
  intro ht op hf es' sc₁ run'
  have hbegins : (sc.callers ++ [op])[sc.callers.length]? = some op := by simp
  have ht₁ : sc₁.session.state.isTerminal = true := run'.leadsTo.isTerminal ht
  have hkey : sc₁.session.degraded = .sessionDegraded key := by
    have hkey := run'.leadsTo.key.trans run.leadsTo.key
    rw [degraded, hkey]
    rfl
  have hcaller : ∀ {op₁ op₂ op₃ sc₂}, sc₁.callers[sc.callers.length]? = some op₃ →
      Step h sc₁ (.advanced sc.callers.length op₁ op₂) sc₂ →
      OperationStep h sc₁.now sc.callers.length sc₁.session op₃ sc₂.session op₂ := by
    intro op₁ op₂ op₃ sc₂ hn hs
    obtain ⟨s', hn', hop, rfl⟩ := hs.of_advanced
    rw [hn] at hn'
    cases hn'
    exact hop
  refine ⟨fun hl => ?_, fun hd => ?_⟩
  · obtain ⟨op₃, hn, hb⟩ := run'.barred ht hbegins (Barred.of_isFresh hf hl)
    have hdegraded : sc₁.session.degraded = sc.session.degraded := run'.leadsTo.degraded
    rw [← hdegraded] at hb
    have ho := run'.inOrder ((run.inOrder (inOrder_launched ..)).call hf)
    refine ⟨fun op₁ op₂ sc₂ hs => (hb.step ht₁ (hcaller hn hs)).2, fun r hr => ?_,
      fun q cancelAt _ => ?_, hkey ▸ hb.returnsAlone hn ht₁ ho, ?_⟩
    · rw [hn] at hr
      cases hr
      cases hb
      rw [hkey]
    · rw [← hkey]
      exact stepQuery_of_isTerminal ht₁ q cancelAt
    · rw [← hkey, hn]
      exact (hb.loneStep_or_stalled hn ht₁ ho).imp_left (congrArg some)
  · subst hd
    obtain ⟨op₃, hn, hb⟩ := run'.hasty ht hbegins .begin
    exact fun op₁ op₂ sc₂ hs => (hb.step ht₁ (hcaller hn hs)).2

/-- A change that begins when the server has exited is refused, though it comes while an opening
holds the map. -/
theorem ended_session_refuses_changed :
    ∃ es sc, Run default (.launched ⟨⟨[0x2F]⟩, "rust"⟩ "analyzer" .standard none 0) es sc ∧
      sc.session.state = .degraded ∧ sc.session.documentQueue = [0] ∧
      shown (·.document?) sc.callers 1 =
        some (.changeText ⟨"file:///a.rs"⟩ "fn main() \x7b\x7d", .begin) ∧
      ReturnsAlone default sc 1 (.error (.sessionDegraded ⟨⟨[0x2F]⟩, "rust"⟩)) := by
  have serves : Link.Serves (.fresh none)
      ⟨[], .taken, false, [], true, some (.code 1), false, none⟩ :=
    ⟨rfl, rfl, rfl, rfl, List.nil_prefix⟩
  have launched : Run default (.launched ⟨⟨[0x2F]⟩, "rust"⟩ "analyzer" .standard none 0) [] _ :=
    .refl
  have called := launched.tail
    (.call (.startDocument (.openText ⟨"file:///a.rs"⟩ "rust" "")) rfl)
  have queued := called.tail (.advance 0 _ rfl rfl)
  have locked := queued.tail (.advance 0 _ rfl rfl)
  have exited := (locked.tail (.serve serves)).tail (.background .exit rfl)
  have refused := ((ended_session_refuses exited).2 rfl
    (.startDocument (.changeText ⟨"file:///a.rs"⟩ "fn main() \x7b\x7d")) rfl _ _ .refl).1 rfl
  exact ⟨_, _, exited.tail (.call _ rfl), rfl, rfl, rfl, refused.2.2.2.1⟩

/-- **A change can hang in a session that has ended.** The server fills the outbox with its
questions and reads none of the replies, and an opening waits for a place while it holds the map.
Then the output of the server ends. A change that begins now waits for the map, and no caller and
no part of the background can go on, at whatever instant. -/
theorem exists_stalled_change :
    ∃ (h : Host) (key : SessionKey) (es es' : List Event) (sc sc' : Scene) (uri : Uri)
      (text : String), Run h (.launched key "analyzer" .standard none 0) es sc ∧
      sc.session.state = .degraded ∧
      Run h { sc with callers := sc.callers ++ [.startDocument (.changeText uri text)] } es' sc' ∧
      sc'.callers[sc.callers.length]? = some (.document (.changeText uri text) .queued) ∧
      sc'.session.stepBackground = none ∧
      ∀ t n op, sc'.callers[n]? = some op → sc'.session.stepOperation h t n op = none := by
  obtain ⟨h, root, hroot⟩ := exists_rooted
  obtain ⟨es, blocked⟩ :=
    @exists_run_crowded h ⟨⟨[0x2F]⟩, "rust"⟩ root "analyzer" .standard 0 hroot
  have called := blocked.tail
    (.call (.startDocument (.openText ⟨"file:///a.rs"⟩ "rust" "")) rfl)
  have locked := (called.tail (.advance 1 _ rfl rfl)).tail (.advance 1 _ rfl rfl)
  obtain ⟨frame, after, es₁, sending⟩ : ∃ frame after es,
      Run h (.launched ⟨⟨[0x2F]⟩, "rust"⟩ "analyzer" .standard none 0) es
        ⟨{ (greeted h ⟨⟨[0x2F]⟩, "rust"⟩ "analyzer" .standard root).crowded refusal with
            documentQueue := [1] },
          [.finish, .document (.openText ⟨"file:///a.rs"⟩ "rust" "") (.sending frame after)], 0⟩ :=
    ⟨_, _, _, locked.tail (.advance 1 _ rfl rfl)⟩
  have closes : Link.Serves
      { Link.fresh none with wire := greetings h ⟨⟨[0x2F]⟩, "rust"⟩ root, input := .full }
      { Link.fresh none with
        wire := greetings h ⟨⟨[0x2F]⟩, "rust"⟩ root, input := .full, outputEnded := true } :=
    ⟨rfl, rfl, rfl, rfl, List.nil_prefix⟩
  have hcut : Frame.next true [] = .ended := by with_unfolding_all rfl
  have ended := (sending.tail (.serve closes)).tail (.endReading rfl hcut)
  have cleared := ended.tail (.background .reader rfl)
  refine ⟨h, ⟨⟨[0x2F]⟩, "rust"⟩, _, _, _, _, ⟨"file:///a.rs"⟩, "fn main() \x7b\x7d", cleared, rfl,
    .tail .refl (.advance 2 _ rfl rfl), rfl, rfl, ?_⟩
  intro t n op hn
  match n with
  | 0 | 1 | 2 =>
    cases hn
    rfl
  | n + 3 => cases hn

end Session

end LanguageHub
