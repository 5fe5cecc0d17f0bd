import LanguageHub.Proofs.Manager.Lookup

/-!
# What a routed action leaves alone

A routed action is a change or a closing of a document, or a question about it. Whatever comes of
it, and whoever else is under way, it **stays in one session**: the one that its lookup has chosen.
The other sessions are only asked whether they have the document open (`Session.Asked`), and the
chosen one has done to it what a call needs (`Session.Engaged`). No stage touches anything else of
the manager, and none moves the state of a session: that is left to its server and to those who
shake hands or dispose of it (`Manager.Isolates`).

What a single stage cannot say is that the whole call queues **one frame at most**. For this it is
known of each stage whether the frame of the call may still be to come (`Task.mayQueue`): a stage
that queues one leaves this behind, and nothing brings it back (`Manager.Advance`).
-/

namespace LanguageHub

/-- Whether a routed action is a question. -/
def RoutedAction.asks : RoutedAction → Bool
  | .ask .. => true
  | _ => false

/-- The session that the lookup of a routed action has chosen. -/
def Task.chosen? : Task → Option Nat
  | .routed _ (.running i _) => some i
  | _ => none

/-- Whether the frame of a call may still be to come. -/
def CallStage.mayQueue : CallStage → Bool
  | .begin | .numbered _ | .registered _ => true
  | _ => false

/-- Whether a frame of an operation may still be to come. -/
def Operation.mayQueue : Operation → Bool
  | .query _ _ (some (_, st)) => st.mayQueue
  | .returned _ => false
  | _ => true

/-- Whether a frame of a routed action may still be to come. -/
def Task.mayQueue : Task → Bool
  | .routed _ (.running _ op) => op.mayQueue
  | .returned _ => false
  | _ => true

/-! ### One session -/

namespace Session

variable {s s' : Session} {h : Host} {now id : Nat} {op : Operation} {a : DocumentAction}
  {before after : Bool}

/-- **An operation has come for the map of documents, or gone**, and nothing else has changed. -/
def Asked (s s' : Session) : Prop := s' = { s with documentQueue := s'.documentQueue }

/-- **What a call may change in its session**: the numbers of requests and who waits for their
responses, the documents and who waits for them, and the outbox, at the end of which one frame may
be put. -/
structure Engaged (s s' : Session) : Prop where
  rest : s' = { s with
    nextId := s'.nextId
    pending := s'.pending
    delivered := s'.delivered
    documents := s'.documents
    documentQueue := s'.documentQueue
    outbox := s'.outbox }
  outbox : s'.outbox = s.outbox ∨ ∃ frame, s'.outbox = s.outbox ++ [.send frame]

theorem Asked.outbox (h : Asked s s') : s'.outbox = s.outbox := by
  rw [h]

theorem Asked.documents (h : Asked s s') : s'.documents = s.documents := by
  rw [h]

theorem Asked.engaged (h : Asked s s') : Engaged s s' := by
  refine ⟨?_, .inl h.outbox⟩
  rw [h]

theorem Engaged.refl (s : Session) : Engaged s s := ⟨rfl, .inl rfl⟩

theorem Engaged.state (h : Engaged s s') : s'.state = s.state := by
  rw [h.rest]

/-- **One stage of an operation**, whose frame may still be to come before it and after it. -/
structure Proceeds (s : Session) (before : Bool) (s' : Session) (after : Bool) : Prop where
  engaged : Engaged s s'
  once : s'.outbox = s.outbox ∨ (before = true ∧ after = false)
  lasts : before = false → after = false

theorem CallStep.proceeds {c : Call} {st st' : CallStage} (hs : CallStep now c s st s' st') :
    Proceeds s st.mayQueue s' st'.mayQueue ∧ s'.documents = s.documents := by
  cases hs with
  | send id => exact ⟨⟨⟨rfl, .inr ⟨_, rfl⟩⟩, .inr ⟨rfl, rfl⟩, fun hb => by cases hb⟩, rfl⟩
  | number | register => exact ⟨⟨⟨rfl, .inl rfl⟩, .inl rfl, fun hb => by cases hb⟩, rfl⟩
  | _ => exact ⟨⟨⟨rfl, .inl rfl⟩, .inl rfl, fun _ => rfl⟩, rfl⟩

/-- **A stage of a query leaves the documents alone.** -/
theorem QueryStep.proceeds {q : Lsp.Query} {cancelAt : Option Nat}
    {st : Option (Call × CallStage)} (hs : QueryStep now q cancelAt s st s' op) :
    Proceeds s (Operation.query q cancelAt st).mayQueue s' op.mayQueue ∧
      s'.documents = s.documents := by
  cases hs with
  | notReady => exact ⟨⟨.refl s, .inl rfl, fun _ => rfl⟩, rfl⟩
  | begin _ hc =>
    obtain ⟨hp, hd⟩ := hc.proceeds
    exact ⟨⟨hp.engaged, hp.once, fun hb => by cases hb⟩, hd⟩
  | call hc => exact hc.proceeds
  | answered => exact ⟨⟨.refl s, .inl rfl, fun _ => rfl⟩, rfl⟩

theorem DocumentStep.proceeds {st : DocumentStage} (hs : DocumentStep id a s st s' op) :
    Proceeds s true s' op.mayQueue := by
  have hover : true = false → op.mayQueue = false := fun hb => by cases hb
  cases hs with
  | locked hl => cases hl <;> exact ⟨⟨rfl, .inl rfl⟩, .inl rfl, hover⟩
  | send frame after => exact ⟨⟨rfl, .inr ⟨frame, rfl⟩⟩, .inr ⟨rfl, rfl⟩, hover⟩
  | _ => exact ⟨⟨rfl, .inl rfl⟩, .inl rfl, hover⟩

/-- **A question about a document only waits for the map.** -/
theorem DocumentStep.asked {uri : Uri} {st : DocumentStage}
    (hs : DocumentStep id (.query uri) s st s' op) (hst : ∀ frame after, st ≠ .sending frame after) :
    Asked s s' := by
  cases hs with
  | locked hl =>
    cases hl with
    | ask => rfl
    | ended hne => exact absurd rfl (hne uri)
    | openNew _ _ _ _ ht | change _ _ _ _ ht => cases ht
    | close _ _ _ ha | absent _ ha => cases ha
  | send frame after | unsent frame after => exact absurd rfl (hst frame after)
  | _ => rfl

end Session

/-! ### One stage of an action -/

namespace Manager

variable {env : ManagerEnvironment} {sc sc' sc₁ sc₂ : Scene} {m m' : Manager}
  {action : RoutedAction} {asks : Bool} {chosen : Option Nat} {now id i n : Nat} {t t' : Task}
  {op op' : Operation} {path : Path} {s s' : Session}

/-- **What a stage of a routed action leaves alone**, for a question or not, and when the lookup
has chosen a session or not. -/
structure Isolates (asks : Bool) (chosen : Option Nat) (m m' : Manager) : Prop where
  /-- The table, the slots and everything else outside of the sessions. -/
  rest : m' = { m with sessions := m'.sessions }
  length : m'.sessions.length = m.sessions.length
  others : ∀ (i : Nat) (s s' : Session), m.sessions[i]? = some s → m'.sessions[i]? = some s' →
    chosen ≠ some i → s.Asked s'
  own : ∀ (i : Nat) (s s' : Session), m.sessions[i]? = some s → m'.sessions[i]? = some s' →
    s.Engaged s'
  documents : asks = true → ∀ (i : Nat) (s s' : Session), m.sessions[i]? = some s →
    m'.sessions[i]? = some s' → s'.documents = s.documents
  state : ∀ i, m'.stateOf i = m.stateOf i

/-- No frame is put into an outbox. -/
def Silent (m m' : Manager) : Prop :=
  ∀ (i : Nat) (s s' : Session), m.sessions[i]? = some s → m'.sessions[i]? = some s' →
    s'.outbox = s.outbox

theorem Silent.refl (m : Manager) : m.Silent m := by
  intro i s s' hs hs'
  rw [hs] at hs'
  cases hs'
  rfl

/-- After one session has gone on, every session is as it was, or it is that one. -/
theorem setSession_cases {j : Nat} {x x' : Session} (hi : m.sessions[i]? = some s)
    (hx : m.sessions[j]? = some x) (hx' : (m.setSession i s').sessions[j]? = some x') :
    (j = i ∧ x = s ∧ x' = s') ∨ (j ≠ i ∧ x' = x) := by
  obtain ⟨hlt, -⟩ := List.getElem?_eq_some_iff.mp hi
  rcases eq_or_ne j i with rfl | hne
  · have hnew : (m.setSession j s').sessions[j]? = some s' := List.getElem?_set_self hlt
    rw [hi] at hx
    rw [hnew] at hx'
    exact .inl ⟨rfl, (Option.some.inj hx).symm, (Option.some.inj hx').symm⟩
  · have hold : (m.setSession i s').sessions[j]? = m.sessions[j]? :=
      List.getElem?_set_ne hne.symm
    rw [hold, hx] at hx'
    exact .inr ⟨hne, (Option.some.inj hx').symm⟩

namespace Isolates

theorem refl (asks : Bool) (chosen : Option Nat) (m : Manager) : Isolates asks chosen m m := by
  have hsame : ∀ (i : Nat) (s s' : Session), m.sessions[i]? = some s →
      m.sessions[i]? = some s' → s' = s := fun i s s' hs hs' => by
    rw [hs] at hs'
    exact (Option.some.inj hs').symm
  refine ⟨rfl, rfl, fun i s s' hs hs' _ => ?_, fun i s s' hs hs' => ?_,
    fun _ i s s' hs hs' => ?_, fun _ => rfl⟩ <;> rw [hsame i s s' hs hs']
  · rfl
  · exact .refl s

/-- One session goes on. -/
theorem of_setSession (hi : m.sessions[i]? = some s) (hs : s.Engaged s')
    (hother : chosen ≠ some i → s.Asked s')
    (hdocuments : asks = true → s'.documents = s.documents) :
    Isolates asks chosen m (m.setSession i s') where
  rest := rfl
  length := List.length_set
  others j x x' hx hx' hne := by
    rcases setSession_cases hi hx hx' with ⟨rfl, rfl, rfl⟩ | ⟨-, rfl⟩
    · exact hother hne
    · rfl
  own j x x' hx hx' := by
    rcases setSession_cases hi hx hx' with ⟨-, rfl, rfl⟩ | ⟨-, rfl⟩
    · exact hs
    · exact .refl _
  documents hasks j x x' hx hx' := by
    rcases setSession_cases hi hx hx' with ⟨-, rfl, rfl⟩ | ⟨-, rfl⟩
    · exact hdocuments hasks
    · rfl
  state j := by
    obtain ⟨hlt, -⟩ := List.getElem?_eq_some_iff.mp hi
    rw [stateOf, stateOf, setSession]
    rcases eq_or_ne j i with rfl | hne
    · rw [List.getElem?_set_self hlt, hi, Option.map_some, Option.map_some, hs.state]
    · rw [List.getElem?_set_ne hne.symm]

end Isolates

theorem silent_setSession (hi : m.sessions[i]? = some s) (h : s'.outbox = s.outbox) :
    m.Silent (m.setSession i s') := by
  intro j x x' hx hx'
  rcases setSession_cases hi hx hx' with ⟨-, rfl, rfl⟩ | ⟨-, rfl⟩
  · exact h
  · rfl

/-- **What the operation of a routed action has come to**, in the chosen session. -/
inductive Performs (action : RoutedAction) : Operation → Prop
  | document (a : DocumentAction) (st : DocumentStage) : action.asks = false →
      Performs action (.document a st)
  | query (q : Lsp.Query) (cancelAt : Option Nat) (st : Option (Call × CallStage)) :
      Performs action (.query q cancelAt st)
  | returned (r : Except LspError Outcome) : Performs action (.returned r)

/-- **Where a routed action has come to.** In the lookup nothing is under way but questions whether
the document is open. -/
inductive Underway (action : RoutedAction) : Task → Prop
  | begin (path : Path) : Underway action (.routed action (.begin path))
  | asking {path : Path} {uri u : Uri} {known : List Candidate} {i : Nat} {rest : List Nat}
      {st : DocumentStage} : (∀ frame after, st ≠ .sending frame after) →
      Underway action (.routed action (.asking path uri known i (.document (.query u) st) rest))
  | told {path : Path} {uri : Uri} {known : List Candidate} {i : Nat} {rest : List Nat}
      {r : Except LspError Outcome} :
      Underway action (.routed action (.asking path uri known i (.returned r) rest))
  | choosing {path : Path} {uri : Uri} {known : List Candidate} :
      Underway action (.routed action (.choosing path uri known))
  | running {i : Nat} {op : Operation} : Performs action op →
      Underway action (.routed action (.running i op))
  | returned (r : Except LspError Answer) : Underway action (.returned r)

/-- **One stage of a routed action**: what it leaves alone, whether it queues the frame, and how it
comes by its session. -/
structure Advance (action : RoutedAction) (m : Manager) (t : Task) (m' : Manager) (t' : Task) :
    Prop where
  underway : Underway action t'
  isolates : Isolates action.asks t.chosen? m m'
  once : m.Silent m' ∨ (t.mayQueue = true ∧ t'.mayQueue = false)
  lasts : t.mayQueue = false → t'.mayQueue = false
  chosen : ∀ i, t'.chosen? = some i → t.chosen? = some i ∨
    ∃ path uri known, t = .routed action (.choosing path uri known) ∧ choose known = some i
  keeps : ∀ i, t.chosen? = some i → t'.chosen? = some i ∨ ∃ r, t' = .returned r

/-- The operation of an action is what it should be. -/
theorem performs_operation (uri : Uri) : Performs action (RoutedAction.operation uri action) := by
  cases action with
  | change text => exact .document _ _ rfl
  | close => exact .document _ _ rfl
  | ask query cancelAt => exact .query _ _ _

theorem underway_askNext {uri : Uri} {known : List Candidate} {rest : List Nat} :
    Underway action (.routed action (askNext path uri known rest)) := by
  cases rest with
  | nil => exact .choosing
  | cons i rest => exact .asking fun _ _ h => by cases h

theorem chosen?_askNext {uri : Uri} {known : List Candidate} {rest : List Nat} :
    (Task.routed action (askNext path uri known rest)).chosen? = none := by
  cases rest <;> rfl

/-- **A stage in the chosen session.** -/
theorem Performs.step (h : Performs action op) (hs : SessionStep env now id m i op m' op') :
    Performs action op' ∧ Isolates action.asks (some i) m m' ∧
      (m.Silent m' ∨ (op.mayQueue = true ∧ op'.mayQueue = false)) ∧
      (op.mayQueue = false → op'.mayQueue = false) := by
  obtain @⟨s, s', op', hi, ho⟩ := hs
  have hall : Session.Proceeds s op.mayQueue s' op'.mayQueue →
      (action.asks = true → s'.documents = s.documents) →
      Isolates action.asks (some i) m (m.setSession i s') ∧
        (m.Silent (m.setSession i s') ∨ (op.mayQueue = true ∧ op'.mayQueue = false)) ∧
        (op.mayQueue = false → op'.mayQueue = false) := fun hp hdocuments =>
    ⟨.of_setSession hi hp.engaged (fun hne => absurd rfl hne) hdocuments,
      hp.once.imp_left (silent_setSession hi), hp.lasts⟩
  cases h with
  | document a st hasks =>
    cases ho with
    | document hd =>
      have hno : action.asks = true → s'.documents = s.documents := fun hc => by
        rw [hasks] at hc
        cases hc
      refine ⟨?_, hall hd.proceeds hno⟩
      cases hd with
      | begin | lock => exact .document _ _ hasks
      | locked hl =>
        cases hl with
        | openNew | change | close => exact .document _ _ hasks
        | _ => exact .returned _
      | send | unsent => exact .returned _
  | query q cancelAt st =>
    cases ho with
    | query hq =>
      refine ⟨?_, hall hq.proceeds.1 fun _ => hq.proceeds.2⟩
      cases hq with
      | notReady | answered => exact .returned _
      | begin | call => exact .query _ _ _
  | returned r => cases ho

/-- A stage at which the manager stays as it is. -/
theorem advance_of_refl (hu : Underway action t') (hover : t.mayQueue = false → t'.mayQueue = false)
    (hchosen : ∀ i, t'.chosen? = some i → t.chosen? = some i ∨
      ∃ path uri known, t = .routed action (.choosing path uri known) ∧ choose known = some i)
    (hkeeps : ∀ i, t.chosen? = some i → t'.chosen? = some i ∨ ∃ r, t' = .returned r) :
    Advance action m t m t' :=
  ⟨hu, .refl _ _ m, .inl (.refl m), hover, hchosen, hkeeps⟩

/-- **Every stage of a routed action stays in its session.** -/
theorem Underway.step (h : Underway action t) (hs : TaskStep env now id m t m' t') :
    Advance action m t m' t' := by
  cases h with
  | begin path =>
    obtain _ | hs := hs
    cases hs with
    | nameless =>
      exact advance_of_refl (.returned _) (fun hb => by cases hb) (fun _ hc => by cases hc)
        fun _ hc => by cases hc
    | begin =>
      refine advance_of_refl underway_askNext (fun hb => by cases hb) (fun _ hc => ?_)
        fun _ hc => by cases hc
      rw [chosen?_askNext] at hc
      cases hc
  | @asking path uri u known i rest st hst =>
    obtain _ | hs := hs
    cases hs with
    | ask _ _ _ _ _ hs =>
      have hask := hs
      obtain @⟨s, s', op', hi, ho⟩ := hs
      cases ho with
      | document hd =>
        have hasked := hd.asked hst
        refine ⟨?_, .of_setSession hi hasked.engaged (fun _ => hasked) fun _ => hasked.documents,
          .inl (silent_setSession hi hasked.outbox), (fun hb => by cases hb),
          (fun _ hc => by cases hc), fun _ hc => by cases hc⟩
        rcases hask.asked hst with ⟨st', rfl, hst'⟩ | ⟨b, rfl, -⟩
        · exact .asking hst'
        · exact .told
  | told =>
    obtain _ | hs := hs
    cases hs with
    | ask _ _ _ _ _ hs => cases hs.result?_eq_none
    | told =>
      refine advance_of_refl underway_askNext (fun hb => by cases hb) (fun _ hc => ?_)
        fun _ hc => by cases hc
      rw [chosen?_askNext] at hc
      cases hc
  | @choosing path uri known =>
    obtain _ | hs := hs
    cases hs with
    | choose _ _ _ j hj =>
      refine advance_of_refl (.running (performs_operation uri)) (fun hb => by cases hb)
        (fun i hc => .inr ⟨path, uri, known, rfl, ?_⟩) fun _ hc => by cases hc
      cases hc
      exact hj
    | ownerless =>
      exact advance_of_refl (.returned _) (fun hb => by cases hb) (fun _ hc => by cases hc)
        fun _ hc => by cases hc
  | @running i op hp =>
    obtain _ | hs := hs
    cases hs with
    | run _ hs =>
      obtain ⟨hp', hi, hsilent, hover⟩ := hp.step hs
      exact ⟨.running hp', hi, hsilent, hover, fun _ hc => .inl hc, fun _ hc => .inl hc⟩
    | done _ r =>
      exact advance_of_refl (.returned _) (fun _ => rfl) (fun _ hc => by cases hc)
        fun _ _ => .inr ⟨_, rfl⟩
  | returned r => cases hs

/-! ### The whole call -/

/-- **A routed action goes on as one**, whatever else happens. -/
theorem Run.underway (run : Run (Step env) sc sc') (hn : sc.tasks[n]? = some t)
    (h : Underway action t) :
    ∃ t', sc'.tasks[n]? = some t' ∧ Underway action t' ∧
      (t.mayQueue = false → t'.mayQueue = false) := by
  refine run.invariant (I := fun sc' => ∃ t', sc'.tasks[n]? = some t' ∧ Underway action t' ∧
    (t.mayQueue = false → t'.mayQueue = false)) ?_ ⟨t, hn, h, fun hb => hb⟩
  rintro x e x' ⟨u, hu, hunder, hover⟩ hs
  obtain ⟨u', hu', rfl | ⟨-, htask⟩⟩ := hs.task hu
  · exact ⟨u', hu', hunder, hover⟩
  · have hadvance := hunder.step htask
    exact ⟨u', hu', hadvance.underway, fun hb => hadvance.lasts (hover hb)⟩

/-- A stage of a routed action that is under way. -/
theorem Step.advance_of_underway (step : Step env sc (.advanced n t t') sc') {u : Task}
    (hn : sc.tasks[n]? = some u) (h : Underway action u) :
    u = t ∧ Advance action sc.manager t sc'.manager t' ∧ sc'.tasks[n]? = some t' := by
  obtain ⟨m', hn', htask, rfl⟩ := step.of_advanced
  rw [hn] at hn'
  obtain rfl := Option.some.inj hn'
  exact ⟨rfl, h.step htask, getElem?_set_of_getElem? hn t'⟩

/-- **Changes, closings and questions are isolated.** Whatever else goes on in the manager, each
stage of the call leaves alone everything but sessions, moves the state of none, and engages none
but the chosen one; a question changes no document. The session is chosen once, by the lookup. And
of two stages of the call one at most puts a frame into an outbox. -/
theorem routed_isolated
    (run : Run (Step env) { sc with tasks := sc.tasks ++ [.routed action (.begin path)] } sc₁)
    (step : Step env sc₁ (.advanced sc.tasks.length t t') sc₂) :
    Isolates action.asks t.chosen? sc₁.manager sc₂.manager ∧
    (∀ i, t'.chosen? = some i → t.chosen? = some i ∨
      ∃ path uri known, t = .routed action (.choosing path uri known) ∧
        choose known = some i) ∧
    (∀ i, t.chosen? = some i → t'.chosen? = some i ∨ ∃ r, t' = .returned r) ∧
    (sc₁.manager.Silent sc₂.manager ∨
      ∀ (sc₃ sc₄ : Scene) (u u' : Task), Run (Step env) sc₂ sc₃ →
        Step env sc₃ (.advanced sc.tasks.length u u') sc₄ → sc₃.manager.Silent sc₄.manager) := by
  have hbegin : (sc.tasks ++ [.routed action (.begin path)])[sc.tasks.length]? =
      some (.routed action (.begin path)) := List.getElem?_concat_length
  obtain ⟨x, hx, hunder, -⟩ := run.underway hbegin (.begin path)
  obtain ⟨rfl, hadvance, hn'⟩ := step.advance_of_underway hx hunder
  refine ⟨hadvance.isolates, hadvance.chosen, hadvance.keeps, ?_⟩
  rcases hadvance.once with hsilent | ⟨-, hover⟩
  · exact .inl hsilent
  · refine .inr fun sc₃ sc₄ u u' run' step' => ?_
    obtain ⟨y, hy, hunder', hover'⟩ := run'.underway hn' hadvance.underway
    obtain ⟨rfl, hadvance', -⟩ := step'.advance_of_underway hy hunder'
    rcases hadvance'.once with hsilent | ⟨hmay, -⟩
    · exact hsilent
    · rw [hover' hover] at hmay
      cases hmay

/-- A document `/w/b`. -/
def outer : Path := ⟨[0x2F, 0x77, 0x2F, 0x62]⟩

/-- A change of the document opens it in the session of the outer root: this session gets a frame,
the one of the inner root none, and no later stage of the call queues another. -/
theorem routed_isolated_nested : ∃ (sc₁ sc₂ : Scene) (t t' : Task),
    Run (Step barren) ⟨nested, [.routed (.change "") (.begin outer)], 0, [], []⟩ sc₁ ∧
    Step barren sc₁ (.advanced 0 t t') sc₂ ∧ t.chosen? = some 0 ∧
    Isolates false (some 0) sc₁.manager sc₂.manager ∧ ¬ sc₁.manager.Silent sc₂.manager ∧
    ∀ (sc₃ sc₄ : Scene) (u u' : Task), Run (Step barren) sc₂ sc₃ →
      Step barren sc₃ (.advanced 0 u u') sc₄ → sc₃.manager.Silent sc₄.manager := by
  obtain ⟨sc, hsc⟩ : ∃ sc : Scene, sc = ⟨nested, [], 0, [], []⟩ := ⟨_, rfl⟩
  have hplay : (({ sc with
        tasks := sc.tasks ++ [.routed (.change "") (.begin outer)] } : Scene).play barren
      (fun _ _ _ => true) (List.replicate 9 (.advance 0 0))).any (fun sc₁ =>
        (sc₁.tasks[0]?).any fun t => (sc₁.manager.step barren sc₁.now 0 0 t).any fun y =>
          t.chosen? == some 0 && (sc₁.manager.sessionAt 0).outbox.length == 0 &&
            (y.1.sessionAt 0).outbox.length == 1 && y.1.sessions.length == 2) = true := by
    rw [hsc]
    decide +kernel
  obtain ⟨sc₁, hsc₁, hplay⟩ := (Option.any_eq_true _ _).mp hplay
  obtain ⟨t, hn, hplay⟩ := (Option.any_eq_true _ _).mp hplay
  obtain ⟨⟨m, t', log⟩, hstep, hcheck⟩ := (Option.any_eq_true _ _).mp hplay
  simp only [Bool.and_eq_true, beq_iff_eq] at hcheck
  obtain ⟨⟨⟨hchosen, hempty⟩, hone⟩, hlength⟩ := hcheck
  have run : Run (Step barren) { sc with
      tasks := sc.tasks ++ [.routed (.change "") (.begin outer)] } sc₁ :=
    .of_play (fun hs _ => hs) hsc₁
  have step : Step barren sc₁ (.advanced sc.tasks.length t t') (sc₁.after 0 t m t') := by
    rw [hsc]
    exact .advance 0 0 t hn hstep
  obtain ⟨hisolates, -, -, honce⟩ := routed_isolated run step
  have hqueued : ¬ sc₁.manager.Silent m := by
    intro hsilent
    have hlength' : sc₁.manager.sessions.length = 2 := hisolates.length.symm.trans hlength
    have hs : sc₁.manager.sessions[0]? = some (sc₁.manager.sessionAt 0) := by
      rw [sessionAt, List.getElem?_eq_getElem (by omega), Option.getD_some]
    have hs' : m.sessions[0]? = some (m.sessionAt 0) := by
      rw [sessionAt, List.getElem?_eq_getElem (by omega), Option.getD_some]
    rw [hsilent 0 _ _ hs hs', hempty] at hone
    cases hone
  subst hsc
  rw [hchosen] at hisolates
  exact ⟨sc₁, _, t, t', run, step, hchosen, hisolates, hqueued, honce.resolve_left hqueued⟩

end Manager

end LanguageHub
