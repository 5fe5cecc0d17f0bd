import LanguageHub.Proofs.Session.Lock

/-!
# A session comes to rest on its own

A `Session.LoneStep` is a step that needs **nobody but the client**: an operation goes on by one
stage, or the writer takes its step. The server does nothing meanwhile, and no time passes. A
`Session.ClientStep` asks one thing of the server besides, that it **reads**: an input that is full
has room again. So a writer that steps of this kind are left to is not blocked forever.

With a server that reads the client comes to rest. What is still to be done is
`Session.Scene.work`. Each command in the outbox takes the writer two steps, and a stage may queue
one command, which is why it counts three times. So every step of the client leaves less to do, and
no run of client steps is longer than the work at its start (`Session.ClientRun.add_work_le`).

Nobody waits for the map of documents when the client has come to rest
(`Session.InOrder.exists_clientStep`): whoever is first in the queue can go on, or the outbox is
full and the writer can. Without the server the last may fail: the client is **stalled** when the
writer waits for a full input while the map is held for a frame that finds the outbox full
(`Session.Stalled`).
-/

namespace LanguageHub

/-! ### The stages that are left -/

/-- How many stages a call has before it at most. -/
@[simp] def CallStage.left : CallStage → Nat
  | .begin => 5
  | .numbered _ => 4
  | .registered _ => 3
  | .waiting .. => 2
  | .failing .. => 1
  | .finished _ => 0

/-- How many stages a handshake has before it at most. -/
@[simp] def HandshakeStage.left : HandshakeStage → Nat
  | .begin => 10
  | .calling _ st => st.left + 4
  | .answered => 3
  | .notifying => 2
  | .failing _ => 1

/-- How many stages an operation on a document has before it at most. -/
@[simp] def DocumentStage.left : DocumentStage → Nat
  | .begin => 4
  | .queued => 3
  | .locked => 2
  | .sending .. => 1

/-- How many stages a disposal has before it at most. -/
@[simp] def DisposeStage.left : DisposeStage → Nat
  | .begin => 12
  | .calling _ st => st.left + 6
  | .answered => 5
  | .notifying => 4
  | .ending => 3
  | .closing => 2
  | .clearing => 1

/-- **How many stages an operation has before it** at most. -/
@[simp] def Operation.left : Operation → Nat
  | .handshake st => st.left
  | .query _ _ none => 6
  | .query _ _ (some (_, st)) => st.left + 1
  | .document _ st => st.left
  | .dispose st => st.left
  | .returned _ => 0

/-- How many steps a server that reads takes to make room for a write. -/
def Intake.steps : Intake → Nat
  | .full => 1
  | _ => 0

namespace Session

variable {s s' : Session} {h : Host} {now n : Nat} {op op' : Operation}

theorem CallStep.left_lt {c : Call} {st st' : CallStage} (hs : CallStep now c s st s' st') :
    st'.left < st.left := by
  cases hs <;> simp

/-- **Every stage leaves fewer stages.** -/
theorem OperationStep.left_lt (hs : OperationStep h now n s op s' op') : op'.left < op.left := by
  cases hs with
  | handshake hs =>
    cases hs with
    | call hc => exact Nat.add_lt_add_right hc.left_lt 4
    | _ => simp [Operation.finish, Operation.fail]
  | query hs =>
    cases hs with
    | call hc => exact Nat.add_lt_add_right hc.left_lt 1
    | begin _ hc => exact Nat.add_lt_add_right hc.left_lt 1
    | _ => simp [Operation.fail]
  | document hs =>
    cases hs with
    | locked hl => cases hl <;> simp [Operation.finish, Operation.fail]
    | _ => simp [Operation.finish, Operation.fail]
  | dispose hs =>
    cases hs with
    | call hc => exact Nat.add_lt_add_right hc.left_lt 6
    | _ => simp [Operation.finish]

/-- **What a stage leaves to the writer**: one command more at most. -/
structure Adds (s s' : Session) : Prop where
  outbox : s'.outbox.length ≤ s.outbox.length + 1
  writing : s'.writing = s.writing
  writerEnded : s'.writerEnded = s.writerEnded
  link : s'.link = s.link

theorem Adds.of_eq (ho : s'.outbox = s.outbox) (hw : s'.writing = s.writing)
    (he : s'.writerEnded = s.writerEnded) (hl : s'.link = s.link) : Adds s s' :=
  ⟨by rw [ho]; exact Nat.le_succ _, hw, he, hl⟩

theorem Adds.of_concat {o : WriterOrder} (ho : s'.outbox = s.outbox ++ [o])
    (hw : s'.writing = s.writing) (he : s'.writerEnded = s.writerEnded) (hl : s'.link = s.link) :
    Adds s s' :=
  ⟨by simp [ho], hw, he, hl⟩

theorem CallStep.adds {c : Call} {st st' : CallStage} (hs : CallStep now c s st s' st') :
    Adds s s' := by
  cases hs with
  | send => exact .of_concat rfl rfl rfl rfl
  | _ => exact .of_eq rfl rfl rfl rfl

/-- A stage queues one command at most, and it does not end the writer. -/
theorem OperationStep.adds (hs : OperationStep h now n s op s' op') : Adds s s' := by
  cases hs with
  | handshake hs =>
    cases hs with
    | call hc => exact hc.adds
    | complete => exact .of_concat rfl rfl rfl rfl
    | _ => exact .of_eq rfl rfl rfl rfl
  | query hs =>
    cases hs with
    | call hc | begin _ hc => exact hc.adds
    | _ => exact .of_eq rfl rfl rfl rfl
  | document hs =>
    cases hs with
    | locked hl => cases hl <;> exact .of_eq rfl rfl rfl rfl
    | send => exact .of_concat rfl rfl rfl rfl
    | _ => exact .of_eq rfl rfl rfl rfl
  | dispose hs =>
    cases hs with
    | call hc => exact hc.adds
    | exit | close => exact .of_concat rfl rfl rfl rfl
    | _ => exact .of_eq rfl rfl rfl rfl

/-! ### Steps of the client -/

variable {sc sc' sc'' : Scene}

/-- **A step of the client alone.** -/
inductive LoneStep (h : Host) (sc : Scene) : Scene → Prop
  | advance (n : Nat) (op : Operation) {s' : Session} {op' : Operation} {log : List LogEntry} :
      sc.callers[n]? = some op → sc.session.stepOperation h sc.now n op = some (s', op', log) →
      LoneStep h sc { sc with session := s', callers := sc.callers.set n op' }
  | write {b : BackgroundStep} : sc.session.stepWriter = some b →
      LoneStep h sc { sc with session := b.session }

/-- The session whose server has read some of its input. -/
def relieve (s : Session) : Session := { s with link := { s.link with input := .taken } }

/-- **A step of the client, or of a server that reads** its input. -/
inductive ClientStep (h : Host) (sc : Scene) : Scene → Prop
  | alone {sc' : Scene} : LoneStep h sc sc' → ClientStep h sc sc'
  | relieve : sc.session.link.input = .full →
      ClientStep h sc { sc with session := sc.session.relieve }

theorem LoneStep.step (hs : LoneStep h sc sc') : ∃ e, Step h sc e sc' := by
  cases hs with
  | advance n op hn hop => exact ⟨_, .advance n op hn hop⟩
  | write hb => exact ⟨_, .background .writer hb⟩

theorem ClientStep.step (hs : ClientStep h sc sc') : ∃ e, Step h sc e sc' := by
  cases hs with
  | alone hs => exact hs.step
  | relieve => exact ⟨_, .serve ⟨rfl, rfl, rfl, rfl, List.prefix_refl _⟩⟩

/-- **A run of the client** with a server that reads, and the number of its steps. -/
inductive ClientRun (h : Host) (sc : Scene) : Nat → Scene → Prop
  | refl : ClientRun h sc 0 sc
  | tail {k : Nat} {sc' sc'' : Scene} : ClientRun h sc k sc' → ClientStep h sc' sc'' →
      ClientRun h sc (k + 1) sc''

theorem ClientRun.run {k : Nat} (r : ClientRun h sc k sc') : ∃ es, Run h sc es sc' := by
  induction r with
  | refl => exact ⟨[], .refl⟩
  | tail _ hs ih =>
    obtain ⟨es, r⟩ := ih
    obtain ⟨e, hs⟩ := hs.step
    exact ⟨es ++ [e], r.tail hs⟩

/-- How many stages some operations have before them at most. -/
def stagesLeft : List Operation → Nat
  | [] => 0
  | op :: rest => op.left + stagesLeft rest

/-- How many steps there are for the writer at most, and for a server that reads. -/
def stepsToWrite (s : Session) : Nat :=
  2 * s.outbox.length + s.writing.toList.length + s.link.input.steps + (!s.writerEnded).toNat

/-- **What the client has still to do.** -/
def Scene.work (sc : Scene) : Nat := 3 * stagesLeft sc.callers + sc.session.stepsToWrite

theorem stagesLeft_set_lt {callers : List Operation} (hn : callers[n]? = some op)
    (hlt : op'.left < op.left) : stagesLeft (callers.set n op') < stagesLeft callers := by
  induction callers generalizing n with
  | nil => cases hn
  | cons x rest ih =>
    cases n with
    | zero =>
      cases hn
      exact Nat.add_lt_add_right hlt _
    | succ n => exact Nat.add_lt_add_left (ih hn) _

theorem stepsToWrite_endWriter_lt (hopen : s.writerEnded = false) :
    s.endWriter.stepsToWrite < s.stepsToWrite := by
  simp only [stepsToWrite, endWriter, hopen, List.length_nil, Option.toList_none, Bool.not_false,
    Bool.not_true, Bool.toNat_true, Bool.toNat_false]
  omega

/-- A writer that takes a command has one less in the outbox, one that writes has nothing in hand,
and one that ends has ended. -/
theorem stepsToWrite_lt_of_stepWriter {b : BackgroundStep} (hb : s.stepWriter = some b) :
    b.session.stepsToWrite < s.stepsToWrite := by
  unfold stepWriter at hb
  split at hb
  · cases hb
  next hopen =>
  rw [Bool.not_eq_true] at hopen
  have hended := stepsToWrite_endWriter_lt hopen
  split at hb
  · next frame hw =>
    split at hb
    · cases hb
      simp only [stepsToWrite, BackgroundStep.quiet, hw, Option.toList_some, Option.toList_none,
        List.length_cons, List.length_nil]
      omega
    · cases hb
    · cases hb
      exact hended
  · next hw =>
    split at hb
    · next frame rest ho =>
      cases hb
      simp only [stepsToWrite, BackgroundStep.quiet, hw, ho, Option.toList_some, Option.toList_none,
        List.length_nil, List.length_cons]
      omega
    · cases hb
      exact hended
    · split at hb
      · cases hb
        exact hended
      · cases hb

theorem stepsToWrite_relieve_lt (hf : s.link.input = .full) :
    s.relieve.stepsToWrite < s.stepsToWrite := by
  simp only [stepsToWrite, relieve, hf, Intake.steps]
  omega

theorem Adds.stepsToWrite_le (ha : Adds s s') : s'.stepsToWrite ≤ s.stepsToWrite + 2 := by
  obtain ⟨hout, hw, he, hl⟩ := ha
  simp only [stepsToWrite, hw, he, hl]
  omega

/-- **Every step of the client leaves less to do.** -/
theorem ClientStep.work_lt (hs : ClientStep h sc sc') : sc'.work < sc.work := by
  cases hs with
  | alone hs =>
    cases hs with
    | advance n op hn hop =>
      have hstep := OperationStep.of_stepOperation hop
      have hsum := stagesLeft_set_lt hn hstep.left_lt
      have hadds := hstep.adds.stepsToWrite_le
      simp only [Scene.work]
      omega
    | write hb => exact Nat.add_lt_add_left (stepsToWrite_lt_of_stepWriter hb) _
  | relieve hf => exact Nat.add_lt_add_left (stepsToWrite_relieve_lt hf) _

/-- **The client comes to rest**: a run of the client takes at most as many steps as there is work
at its start. -/
theorem ClientRun.add_work_le {k : Nat} (r : ClientRun h sc k sc') : k + sc'.work ≤ sc.work := by
  induction r with
  | refl => omega
  | tail _ hs ih =>
    have hlt := hs.work_lt
    omega

/-- **The client brings a caller to a result** with a server that does nothing but read: it takes a
bounded number of steps, in whatever order, and when none of them is left the caller has the
result. -/
def ReturnsAlone (h : Host) (sc : Scene) (n : Nat) (r : Except LspError Outcome) : Prop :=
  ∃ bound, ∀ k sc', ClientRun h sc k sc' →
    k ≤ bound ∧ ((∀ sc'', ¬ ClientStep h sc' sc'') → sc'.callers[n]? = some (.returned r))

/-! ### Nobody waits for the map in vain -/

/-- **The writer is stuck**: it has a frame in hand that the input of the server has no room for. -/
structure Stuck (s : Session) : Prop where
  live : s.writerEnded = false
  inHand : s.writing.isSome = true
  full : s.link.input = .full

/-- A writer with no room left in its outbox has something to do, or it is stuck. -/
theorem stepWriter_or_stuck_of_full {o : WriterOrder} (hf : s.enqueue o = .full) :
    (∃ b, s.stepWriter = some b) ∨ Stuck s := by
  unfold enqueue at hf
  split at hf
  · cases hf
  next hopen =>
  split at hf
  · cases hf
  next hlen =>
  unfold stepWriter
  rw [if_neg hopen]
  cases hw : s.writing with
  | some frame =>
    cases hi : s.link.input with
    | taken => exact .inl ⟨_, rfl⟩
    | full => exact .inr ⟨by simpa using hopen, by rw [hw]; rfl, hi⟩
    | closed => exact .inl ⟨_, rfl⟩
  | none =>
    cases ho : s.outbox with
    | cons o rest => cases o <;> exact .inl ⟨_, rfl⟩
    | nil =>
      rw [ho] at hlen
      exact absurd (by decide) hlen

/-- **The client is stalled**: somebody holds the map of documents who has a frame for a full
outbox, and the writer is stuck. -/
structure Stalled (sc : Scene) : Prop where
  held : ∃ (n : Nat) (a : DocumentAction) (frame : Json) (after : Documents),
    sc.callers[n]? = some (.document a (.sending frame after)) ∧
      sc.session.enqueue (.send frame) = .full
  stuck : Stuck sc.session

/-- A stage that holds the map can go on, or the writer can, or the client is stalled. -/
theorem loneStep_or_stalled_of_holds {a : DocumentAction} {st : DocumentStage}
    (hn : sc.callers[n]? = some (.document a st)) (hst : st.holds = true) :
    (∃ sc', LoneStep h sc sc') ∨ Stalled sc := by
  have hgo : ∀ {x}, sc.session.stepDocument n a st = some x →
      (∃ sc', LoneStep h sc sc') ∨ Stalled sc := fun hx => .inl ⟨_, .advance n _ hn hx⟩
  cases st with
  | begin => cases hst
  | queued => cases hst
  | locked => exact hgo rfl
  | sending frame after =>
    cases hq : sc.session.enqueue (.send frame) with
    | queued s' => exact hgo (by simp only [stepDocument, hq]; rfl)
    | refused => exact hgo (by simp only [stepDocument, hq]; rfl)
    | full =>
      rcases stepWriter_or_stuck_of_full hq with ⟨b, hb⟩ | hstuck
      · exact .inl ⟨_, .write hb⟩
      · exact .inr ⟨⟨n, a, frame, after, hn, hq⟩, hstuck⟩

/-- **As long as somebody stands in the queue for the map, the client can go on** on its own, unless
it is stalled. -/
theorem InOrder.loneStep_or_stalled (ho : InOrder sc.session (shown (·.document?) sc.callers))
    (hqueue : sc.session.documentQueue ≠ []) : (∃ sc', LoneStep h sc sc') ∨ Stalled sc := by
  obtain ⟨m, rest, hq⟩ := List.exists_cons_of_ne_nil hqueue
  have hhead : sc.session.documentQueue.head? = some m := by rw [hq, List.head?_cons]
  have hmem : m ∈ sc.session.documentQueue := by rw [hq]; exact List.mem_cons_self
  have hcaller : ∀ {a st}, shown (·.document?) sc.callers m = some (a, st) →
      sc.callers[m]? = some (.document a st) := by
    intro a st hm
    obtain ⟨op, hop, hdoc⟩ := exists_of_shown hm
    cases op with
    | document b st' =>
      cases hdoc
      exact hop
    | _ => cases hdoc
  have hplaced := ho.placed m
  generalize hm : shown (·.document?) sc.callers m = o at hplaced
  cases hplaced with
  | idle hnot | fresh hnot => exact absurd hmem hnot
  | @queued a =>
    have hstep : sc.session.stepDocument m a .queued =
        some (sc.session, .document a .locked, []) := by
      simp only [stepDocument, hhead, BEq.rfl, if_true]
    exact .inl ⟨_, .advance m _ (hcaller hm) hstep⟩
  | locked | sending => exact loneStep_or_stalled_of_holds (hcaller hm) rfl

/-- With a server that reads, nobody waits for the map in vain. -/
theorem InOrder.exists_clientStep (ho : InOrder sc.session (shown (·.document?) sc.callers))
    (hqueue : sc.session.documentQueue ≠ []) : ∃ sc', ClientStep h sc sc' := by
  rcases ho.loneStep_or_stalled (h := h) hqueue with ⟨sc', hs⟩ | hstalled
  · exact ⟨sc', .alone hs⟩
  · exact ⟨_, .relieve hstalled.stuck.full⟩

end Session

end LanguageHub
