import LanguageHub.Session.Background

/-!
# What a stage does

`Session.stepOperation` is a function by cases on the stage that an operation has reached.
This file says what each stage can do as **relations**, one for calls and one for each
kind of operation, with one constructor for each way in which a stage can end. Every later
argument about a stage is a case distinction on one of these relations, so that none of
them opens the functions again.

A relation says *less* than its function in one point only: it does not repeat the order
in which a call that gives up looks for a reason (`Session.GivesUp`).
-/

namespace LanguageHub

/-- The document that an action gives a text, with the text. -/
def DocumentAction.text? : DocumentAction → Option (Uri × String)
  | .openText uri _ text => some (uri, text)
  | .changeText uri text => some (uri, text)
  | _ => none

namespace Session

variable {s s' : Session}

/-! ### The outbox -/

/-- A command that is queued stands at the end of the outbox. -/
theorem enqueue_eq_queued {o : WriterOrder} (h : s.enqueue o = .queued s') :
    s.writerEnded = false ∧ s' = { s with outbox := s.outbox ++ [o] } := by
  unfold enqueue at h
  split at h
  · cases h
  · next hw =>
    split at h
    · cases h
      exact ⟨by simpa using hw, rfl⟩
    · cases h

/-- Only a writer that has ended refuses a command. -/
theorem enqueue_eq_refused {o : WriterOrder} (h : s.enqueue o = .refused) :
    s.writerEnded = true := by
  unfold enqueue at h
  split at h
  · next hw => exact hw
  · split at h <;> cases h

/-! ### Calls -/

/-- Why a call that has no response stops waiting for it, with its error. -/
inductive GivesUp (now : Nat) (c : Call) (s : Session) (id deadline : Nat) : LspError → Prop
  /-- Its id was taken out of the table. -/
  | forgotten : id ∉ s.pending → GivesUp now c s id deadline s.degraded
  | cancelled : c.isCancelled now = true → GivesUp now c s id deadline (.cancelled c.method)
  | ended : s.state.isTerminal = true → GivesUp now c s id deadline s.degraded
  | late : deadline ≤ now →
      GivesUp now c s id deadline (.requestFailed c.method (.timeout c.timeout))

/-- **One stage of a call.** -/
inductive CallStep (now : Nat) (c : Call) (s : Session) :
    CallStage → Session → CallStage → Prop
  | refuse : s.state.isTerminal = true →
      CallStep now c s .begin s (.finished (.error s.degraded))
  | number : s.state.isTerminal = false →
      CallStep now c s .begin { s with nextId := s.nextId + 1 } (.numbered s.nextId)
  | register (id : Nat) :
      CallStep now c s (.numbered id) { s with pending := s.pending ++ [id] } (.registered id)
  | send (id : Nat) : s.writerEnded = false →
      CallStep now c s (.registered id)
        { s with outbox := s.outbox ++ [.send (Lsp.request id c.method c.params)] }
        (.waiting id (now + c.timeout))
  | unsent (id : Nat) : s.writerEnded = true →
      CallStep now c s (.registered id) s (.failing id s.degraded)
  | answer (id deadline : Nat) (body : Json) : s.response? id = some body →
      CallStep now c s (.waiting id deadline) (s.forget id) (.finished (c.resultOf body))
  | giveUp (id deadline : Nat) (e : LspError) : s.response? id = none →
      GivesUp now c s id deadline e →
      CallStep now c s (.waiting id deadline) s (.failing id e)
  | fail (id : Nat) (e : LspError) :
      CallStep now c s (.failing id e) (s.forget id) (.finished (.error e))

theorem CallStep.of_stepCall {now : Nat} {c : Call} {st st' : CallStage} {log : List LogEntry}
    (h : s.stepCall now c st = some (s', st', log)) : CallStep now c s st s' st' := by
  cases st with
  | begin =>
    simp only [stepCall] at h
    split at h
    · next ht =>
      cases h
      exact .refuse ht
    · next ht =>
      cases h
      exact .number (by simpa using ht)
  | numbered id =>
    cases h
    exact .register id
  | registered id =>
    simp only [stepCall] at h
    split at h
    · next hq =>
      cases h
      obtain ⟨hw, rfl⟩ := enqueue_eq_queued hq
      exact .send id hw
    · cases h
    · next hq =>
      cases h
      exact .unsent id (enqueue_eq_refused hq)
  | waiting id deadline =>
    simp only [stepCall] at h
    split at h
    · next body hb =>
      cases h
      exact .answer id deadline body hb
    · next hb =>
      -- the reasons to give up, in the order in which the call looks at them
      split at h
      · next hp =>
        cases h
        exact .giveUp id deadline _ hb (.forgotten (by simpa using hp))
      · split at h
        · next hc =>
          cases h
          exact .giveUp id deadline _ hb (.cancelled hc)
        · split at h
          · next ht =>
            cases h
            exact .giveUp id deadline _ hb (.ended ht)
          · split at h
            · next hl =>
              cases h
              exact .giveUp id deadline _ hb (.late hl)
            · cases h
  | failing id e =>
    cases h
    exact .fail id e
  | finished r => cases h

/-! ### The handshake -/

/-- **One stage of a handshake.** -/
inductive HandshakeStep (h : Host) (now : Nat) (s : Session) :
    HandshakeStage → Session → Operation → Prop
  | begin (uri : Uri) : HandshakeStep h now s .begin (s.transition .beginHandshake)
      (.handshake (.calling (initializeCall h (s.transition .beginHandshake) uri) .begin))
  | rootless : HandshakeStep h now s .begin (s.transition .beginHandshake)
      (.handshake (.failing (.invalidPath s.key.root)))
  | call {c : Call} {st st' : CallStage} {s' : Session} : CallStep now c s st s' st' →
      HandshakeStep h now s (.calling c st) s' (.handshake (.calling c st'))
  | answered (c : Call) (result : Json) :
      HandshakeStep h now s (.calling c (.finished (.ok result))) s (.handshake .answered)
  | unanswered (c : Call) (e : LspError) :
      HandshakeStep h now s (.calling c (.finished (.error e))) s (.handshake (.failing e))
  | ended : s.state.isTerminal = true →
      HandshakeStep h now s .answered s (.handshake (.failing s.degraded))
  | notify : s.state.isTerminal = false →
      HandshakeStep h now s .answered s (.handshake .notifying)
  | complete : s.writerEnded = false → HandshakeStep h now s .notifying
      (({ s with outbox := s.outbox ++
          [.send (Lsp.notification "initialized" (some (.obj [])))] } : Session).transition
        .handshakeComplete) .finish
  | unsent : s.writerEnded = true →
      HandshakeStep h now s .notifying s (.handshake (.failing s.degraded))
  | fail (e : LspError) : HandshakeStep h now s (.failing e)
      { s.transition .dispose with killRequested := true }
      (.fail (.handshakeFailed s.server e.message))

theorem HandshakeStep.of_stepHandshake {h : Host} {now : Nat} {st : HandshakeStage}
    {op : Operation} {log : List LogEntry}
    (hs : s.stepHandshake h now st = some (s', op, log)) : HandshakeStep h now s st s' op := by
  cases st with
  | begin =>
    simp only [stepHandshake] at hs
    split at hs
    · cases hs
      exact .begin _
    · cases hs
      exact .rootless
  | calling c stage =>
    by_cases hf : ∃ r, stage = .finished r
    · obtain ⟨r, rfl⟩ := hf
      cases r with
      | ok result =>
        cases hs
        exact .answered c result
      | error e =>
        cases hs
        exact .unanswered c e
    · have hcall : (s.stepCall now c stage).map
          (fun x => (x.1, Operation.handshake (.calling c x.2.1), x.2.2)) = some (s', op, log) := by
        cases stage with
        | finished r => exact absurd ⟨r, rfl⟩ hf
        | _ => exact hs
      obtain ⟨⟨t, st', log'⟩, hc, heq⟩ := Option.map_eq_some_iff.mp hcall
      cases heq
      exact .call (.of_stepCall hc)
  | answered =>
    simp only [stepHandshake] at hs
    split at hs
    · next ht =>
      cases hs
      exact .ended ht
    · next ht =>
      cases hs
      exact .notify (by simpa using ht)
  | notifying =>
    simp only [stepHandshake] at hs
    split at hs
    · next hq =>
      cases hs
      obtain ⟨hw, rfl⟩ := enqueue_eq_queued hq
      exact .complete hw
    · cases hs
    · next hq =>
      cases hs
      exact .unsent (enqueue_eq_refused hq)
  | failing e =>
    cases hs
    exact .fail e

/-! ### Queries -/

/-- The call of a query. -/
def queryCall (s : Session) (q : Lsp.Query) (cancelAt : Option Nat) : Call :=
  ⟨q.method, some q.params, s.timeouts.request, cancelAt⟩

/-- **One stage of a query.** -/
inductive QueryStep (now : Nat) (q : Lsp.Query) (cancelAt : Option Nat) (s : Session) :
    Option (Call × CallStage) → Session → Operation → Prop
  | notReady : s.state ≠ .ready → QueryStep now q cancelAt s none s (.fail s.degraded)
  | begin {st : CallStage} {s' : Session} : s.state = .ready →
      CallStep now (s.queryCall q cancelAt) s .begin s' st →
      QueryStep now q cancelAt s none s' (.query q cancelAt (some (s.queryCall q cancelAt, st)))
  | call {c : Call} {st st' : CallStage} {s' : Session} : CallStep now c s st s' st' →
      QueryStep now q cancelAt s (some (c, st)) s' (.query q cancelAt (some (c, st')))
  | answered (c : Call) (r : Except LspError Json) (r' : Except LspError Outcome) :
      QueryStep now q cancelAt s (some (c, .finished r)) s (.returned r')

theorem QueryStep.of_stepQuery {now : Nat} {q : Lsp.Query} {cancelAt : Option Nat}
    {st : Option (Call × CallStage)} {op : Operation} {log : List LogEntry}
    (h : s.stepQuery now q cancelAt st = some (s', op, log)) :
    QueryStep now q cancelAt s st s' op := by
  cases st with
  | none =>
    simp only [stepQuery] at h
    split at h
    · next hr =>
      obtain ⟨⟨t, st', log'⟩, hc, heq⟩ := Option.map_eq_some_iff.mp h
      cases heq
      exact .begin (by simpa using hr) (.of_stepCall hc)
    · next hr =>
      cases h
      exact .notReady (by simpa using hr)
  | some x =>
    obtain ⟨c, stage⟩ := x
    by_cases hf : ∃ r, stage = .finished r
    · obtain ⟨r, rfl⟩ := hf
      cases r with
      | ok result =>
        simp only [stepQuery] at h
        split at h <;> cases h <;> exact .answered c _ _
      | error e =>
        cases h
        exact .answered c _ _
    · have hcall : (s.stepCall now c stage).map
          (fun x => (x.1, Operation.query q cancelAt (some (c, x.2.1)), x.2.2)) =
          some (s', op, log) := by
        cases stage with
        | finished r => exact absurd ⟨r, rfl⟩ hf
        | _ => exact h
      obtain ⟨⟨t, st', log'⟩, hc, heq⟩ := Option.map_eq_some_iff.mp hcall
      cases heq
      exact .call (.of_stepCall hc)

/-! ### Documents -/

/-- **What an operation does with the map of documents** when it holds it: it looks, it gives the
map back, or it has a frame for the outbox and the map that comes with it. -/
inductive LockedStep (a : DocumentAction) (s : Session) : Session → Operation → Prop
  | ask (uri : Uri) : a = .query uri →
      LockedStep a s s.unlock (.returned (.ok (.flag (s.documents.version? uri.text).isSome)))
  /-- Only the question whether a document is open is answered by a session that has ended. -/
  | ended : (∀ uri, a ≠ .query uri) → s.state.isTerminal = true →
      LockedStep a s s.unlock (.fail s.degraded)
  | openNew (uri : Uri) (language text : String) : s.state.isTerminal = false →
      a.text? = some (uri, text) → s.documents.version? uri.text = none →
      LockedStep a s s (.document a
        (.sending (Lsp.didOpen uri language text) (s.documents.set uri.text 1)))
  | change (uri : Uri) (text : String) (version : Int) : s.state.isTerminal = false →
      a.text? = some (uri, text) → s.documents.version? uri.text = some version →
      LockedStep a s s (.document a
        (.sending (Lsp.didChange uri (version + 1) text)
          (s.documents.set uri.text (version + 1))))
  | close (uri : Uri) (version : Int) : s.state.isTerminal = false →
      a = .close uri → s.documents.version? uri.text = some version →
      LockedStep a s { s with documents := s.documents.erase uri.text }
        (.document a (.sending (Lsp.didClose uri) (s.documents.erase uri.text)))
  | absent (uri : Uri) : a = .close uri → s.documents.version? uri.text = none →
      s.state.isTerminal = false → LockedStep a s s.unlock .finish

theorem LockedStep.of_stepLocked (a : DocumentAction) (s : Session) :
    LockedStep a s (s.stepLocked a).1 (s.stepLocked a).2 := by
  cases a with
  | query uri => exact .ask uri rfl
  | openText uri language text =>
    simp only [stepLocked]
    split
    · next ht => exact .ended (fun _ h => by cases h) ht
    · next ht =>
      have ht : s.state.isTerminal = false := by simpa using ht
      cases hv : s.documents.version? uri.text with
      | none => exact .openNew uri language text ht rfl hv
      | some version => exact .change uri text version ht rfl hv
  | changeText uri text =>
    simp only [stepLocked]
    split
    · next ht => exact .ended (fun _ h => by cases h) ht
    · next ht =>
      have ht : s.state.isTerminal = false := by simpa using ht
      cases hv : s.documents.version? uri.text with
      | none => exact .openNew uri s.key.language text ht rfl hv
      | some version => exact .change uri text version ht rfl hv
  | close uri =>
    simp only [stepLocked]
    split
    · next ht => exact .ended (fun _ h => by cases h) ht
    · next ht =>
      have ht : s.state.isTerminal = false := by simpa using ht
      cases hv : s.documents.version? uri.text with
      | none => exact .absent uri rfl hv ht
      | some version => exact .close uri version ht rfl hv

/-- **One stage of an operation on a document**, which is known as `id`. -/
inductive DocumentStep (id : Nat) (a : DocumentAction) (s : Session) :
    DocumentStage → Session → Operation → Prop
  | begin : DocumentStep id a s .begin { s with documentQueue := s.documentQueue ++ [id] }
      (.document a .queued)
  | lock : s.documentQueue.head? = some id →
      DocumentStep id a s .queued s (.document a .locked)
  | locked {s' : Session} {op : Operation} : LockedStep a s s' op →
      DocumentStep id a s .locked s' op
  | send (frame : Json) (after : Documents) : s.writerEnded = false →
      DocumentStep id a s (.sending frame after)
        ({ s with outbox := s.outbox ++ [.send frame], documents := after } : Session).unlock
        .finish
  | unsent (frame : Json) (after : Documents) : s.writerEnded = true →
      DocumentStep id a s (.sending frame after) s.unlock (.fail s.degraded)

theorem DocumentStep.of_stepDocument {id : Nat} {a : DocumentAction} {st : DocumentStage}
    {op : Operation} {log : List LogEntry} (h : s.stepDocument id a st = some (s', op, log)) :
    DocumentStep id a s st s' op := by
  cases st with
  | begin =>
    cases h
    exact .begin
  | queued =>
    simp only [stepDocument] at h
    split at h
    · next hq =>
      cases h
      exact .lock (by simpa using hq)
    · cases h
  | locked =>
    cases h
    exact .locked (.of_stepLocked a s)
  | sending frame after =>
    simp only [stepDocument] at h
    split at h
    · next hq =>
      cases h
      obtain ⟨hw, rfl⟩ := enqueue_eq_queued hq
      exact .send frame after hw
    · cases h
    · next hq =>
      cases h
      exact .unsent frame after (enqueue_eq_refused hq)

/-! ### Disposal -/

/-- **One stage of a disposal.** -/
inductive DisposeStep (now : Nat) (s : Session) : DisposeStage → Session → Operation → Prop
  | again : s.disposing = true → DisposeStep now s .begin s .finish
  | graceful : s.disposing = false → s.state = .ready →
      DisposeStep now s .begin { s with disposing := true }
        (.dispose (.calling shutdownCall .begin))
  | abrupt : s.disposing = false → s.state ≠ .ready →
      DisposeStep now s .begin { s with disposing := true } (.dispose .ending)
  | call {c : Call} {st st' : CallStage} {s' : Session} : CallStep now c s st s' st' →
      DisposeStep now s (.calling c st) s' (.dispose (.calling c st'))
  | answered (c : Call) (result : Json) :
      DisposeStep now s (.calling c (.finished (.ok result))) s (.dispose .answered)
  | unanswered (c : Call) (e : LspError) :
      DisposeStep now s (.calling c (.finished (.error e))) s (.dispose .ending)
  | hurry : s.state.isTerminal = true → DisposeStep now s .answered s (.dispose .ending)
  | notify : s.state.isTerminal = false → DisposeStep now s .answered s (.dispose .notifying)
  | exit : s.writerEnded = false → DisposeStep now s .notifying
      { s with outbox := s.outbox ++ [.send (Lsp.notification "exit" none)] } (.dispose .ending)
  | unsent : s.writerEnded = true → DisposeStep now s .notifying s (.dispose .ending)
  | ending : DisposeStep now s .ending (s.transition .dispose) (.dispose .closing)
  | close : s.writerEnded = false → DisposeStep now s .closing
      { s with outbox := s.outbox ++ [.shutdown], killRequested := true } (.dispose .clearing)
  | closed : s.writerEnded = true →
      DisposeStep now s .closing { s with killRequested := true } (.dispose .clearing)
  | clear : DisposeStep now s .clearing { s with pending := [] } .finish

theorem DisposeStep.of_stepDispose {now : Nat} {st : DisposeStage} {op : Operation}
    {log : List LogEntry} (h : s.stepDispose now st = some (s', op, log)) :
    DisposeStep now s st s' op := by
  cases st with
  | begin =>
    simp only [stepDispose] at h
    split at h
    · next hd =>
      cases h
      exact .again hd
    · next hd =>
      have hd : s.disposing = false := by simpa using hd
      cases h
      by_cases hr : s.state = .ready
      · have hs : DisposeStep now s .begin _ _ := .graceful hd hr
        simpa [hr] using hs
      · have hs : DisposeStep now s .begin _ _ := .abrupt hd hr
        simpa [hr] using hs
  | calling c stage =>
    by_cases hf : ∃ r, stage = .finished r
    · obtain ⟨r, rfl⟩ := hf
      cases r with
      | ok result =>
        cases h
        exact .answered c result
      | error e =>
        cases h
        exact .unanswered c e
    · have hcall : (s.stepCall now c stage).map
          (fun x => (x.1, Operation.dispose (.calling c x.2.1), x.2.2)) = some (s', op, log) := by
        cases stage with
        | finished r => exact absurd ⟨r, rfl⟩ hf
        | _ => exact h
      obtain ⟨⟨t, st', log'⟩, hc, heq⟩ := Option.map_eq_some_iff.mp hcall
      cases heq
      exact .call (.of_stepCall hc)
  | answered =>
    cases h
    by_cases ht : s.state.isTerminal = true
    · have hs : DisposeStep now s .answered _ _ := .hurry ht
      simpa [ht] using hs
    · have hs : DisposeStep now s .answered _ _ := .notify (by simpa using ht)
      simpa [ht] using hs
  | notifying =>
    simp only [stepDispose] at h
    split at h
    · next hq =>
      cases h
      obtain ⟨hw, rfl⟩ := enqueue_eq_queued hq
      exact .exit hw
    · cases h
    · next hq =>
      cases h
      exact .unsent (enqueue_eq_refused hq)
  | ending =>
    cases h
    exact .ending
  | closing =>
    simp only [stepDispose] at h
    split at h
    · next hq =>
      cases h
      obtain ⟨hw, rfl⟩ := enqueue_eq_queued hq
      exact .close hw
    · cases h
    · next hq =>
      cases h
      exact .closed (enqueue_eq_refused hq)
  | clearing =>
    cases h
    exact .clear

/-! ### Any operation -/

/-- **One stage of an operation**, which is known as `id`. -/
inductive OperationStep (h : Host) (now id : Nat) (s : Session) :
    Operation → Session → Operation → Prop
  | handshake {st : HandshakeStage} {s' : Session} {op : Operation} :
      HandshakeStep h now s st s' op → OperationStep h now id s (.handshake st) s' op
  | query {q : Lsp.Query} {cancelAt : Option Nat} {st : Option (Call × CallStage)}
      {s' : Session} {op : Operation} :
      QueryStep now q cancelAt s st s' op → OperationStep h now id s (.query q cancelAt st) s' op
  | document {a : DocumentAction} {st : DocumentStage} {s' : Session} {op : Operation} :
      DocumentStep id a s st s' op → OperationStep h now id s (.document a st) s' op
  | dispose {st : DisposeStage} {s' : Session} {op : Operation} :
      DisposeStep now s st s' op → OperationStep h now id s (.dispose st) s' op

theorem OperationStep.of_stepOperation {h : Host} {now id : Nat} {op op' : Operation}
    {log : List LogEntry} (hs : s.stepOperation h now id op = some (s', op', log)) :
    OperationStep h now id s op s' op' := by
  cases op with
  | handshake st => exact .handshake (.of_stepHandshake hs)
  | query q cancelAt st => exact .query (.of_stepQuery hs)
  | document a st => exact .document (.of_stepDocument hs)
  | dispose st => exact .dispose (.of_stepDispose hs)
  | returned r => cases hs

end Session

end LanguageHub
