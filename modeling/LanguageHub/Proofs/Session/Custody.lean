import LanguageHub.Proofs.Session.Run

/-!
# Who answers for a process

The process of a session ends on its own, or its monitor kills it. A session is **guarded**
(`Session.Guarded`) if its monitor watches as long as the process runs, and if nobody gives the
session up without telling the monitor to kill. Every step keeps a guarded session so, and takes
back no order to kill (`Session.Tends`). What is asked of the process is only that it **stays
exited** once it has.

So a guarded session whose background has come to rest has no running process once the order was
given (`Session.Guarded.isRunning_eq_false`). Who gives the order is what a disposal is about: one
that is not the first returns at once, so it is the first one that has to
(`Session.OperationStep.of_dispose`).
-/

namespace LanguageHub

namespace Session

variable {s s' s'' : Session}

/-- **Somebody answers for the process**: whoever holds the session, or its monitor. -/
structure Guarded (s : Session) : Prop where
  /-- A session that was given up has been told to kill. -/
  held : s.held = false → s.killRequested = true
  /-- A monitor that has ended has seen the process exit, or has killed it. -/
  watched : s.monitorEnded = true → s.link.isRunning = false

theorem guarded_launched (key : SessionKey) (server : String) (timeouts : Timeouts)
    (killFault : Option String) : (launched key server timeouts killFault).Guarded :=
  ⟨fun h => Bool.noConfusion h, fun h => Bool.noConfusion h⟩

/-- Whether no part of the background can take a step. -/
def Rests (s : Session) : Prop := ∀ p, s.stepPart p = none

theorem rests_iff : s.Rests ↔ s.stepBackground = none := by
  refine ⟨fun h => ?_, fun h p => ?_⟩
  · rw [Option.eq_none_iff_forall_ne_some]
    intro b hb
    obtain ⟨p, hp⟩ := exists_stepPart_of_stepBackground hb
    rw [h p] at hp
    cases hp
  · simp only [stepBackground, Option.orElse_eq_orElse, Option.orElse_eq_or,
      Option.or_eq_none_iff] at h
    obtain ⟨hwriter, hkill, hexit, hreader⟩ := h
    cases p <;> assumption

/-- **The order to kill is carried out**: once the background has come to rest, the process of a
session that was told to kill does not run. -/
theorem Guarded.isRunning_eq_false (h : s.Guarded) (hrest : s.Rests)
    (hkill : s.killRequested = true) : s.link.isRunning = false := by
  have hstep : s.stepKill = none := hrest .kill
  unfold stepKill at hstep
  split at hstep
  · next hended =>
    rw [hkill, Bool.not_true, Bool.or_false] at hended
    exact h.watched hended
  · cases hstep

/-! ### Steps -/

/-- **What a step keeps** of the custody of the process. -/
structure Tends (s s' : Session) : Prop where
  told : s.killRequested = true → s'.killRequested = true
  guarded : s.Guarded → s'.Guarded

namespace Tends

theorem refl (s : Session) : Tends s s := ⟨id, id⟩

/-- The process and its monitor are left alone. -/
theorem of_eq (hexited : s'.link.exited = s.link.exited) (hkilled : s'.link.killed = s.link.killed)
    (hmonitor : s'.monitorEnded = s.monitorEnded) (hheld : s'.held = s.held)
    (htold : s.killRequested = true → s'.killRequested = true) : Tends s s' := by
  refine ⟨htold, fun h => ⟨fun hf => htold (h.held (hheld ▸ hf)), fun he => ?_⟩⟩
  have hwatched := h.watched (hmonitor ▸ he)
  rwa [Link.isRunning, hexited, hkilled]

end Tends

theorem release_tends (s : Session) : Tends s s.release :=
  ⟨fun _ => rfl, fun h => ⟨fun _ => rfl, h.watched⟩⟩

/-- A server may do anything but rise again. -/
theorem serve_tends {l : Link} (h : s.link.Serves l)
    (hexited : s.link.exited.isSome = true → l.exited.isSome = true) :
    Tends s { s with link := l } := by
  refine ⟨id, fun hg => ⟨hg.held, fun he => ?_⟩⟩
  have hwatched := hg.watched he
  simp only [Link.isRunning, Bool.and_eq_false_iff, Bool.not_eq_false', Option.isNone_eq_false_iff]
    at hwatched ⊢
  exact hwatched.imp hexited fun hk => h.killed.trans hk

theorem CallStep.tends {now : Nat} {c : Call} {st st' : CallStage}
    (h : CallStep now c s st s' st') : Tends s s' := by
  cases h <;> exact .of_eq rfl rfl rfl rfl id

theorem OperationStep.tends {h : Host} {now n : Nat} {op op' : Operation}
    (hs : OperationStep h now n s op s' op') : Tends s s' := by
  cases hs with
  | handshake hs =>
    cases hs with
    | call hc => exact hc.tends
    | fail => exact .of_eq rfl rfl rfl rfl fun _ => rfl
    | _ => exact .of_eq rfl rfl rfl rfl id
  | query hs =>
    cases hs with
    | call hc | begin _ hc => exact hc.tends
    | _ => exact .refl s
  | document hs =>
    cases hs with
    | locked hl => cases hl <;> exact .of_eq rfl rfl rfl rfl id
    | _ => exact .of_eq rfl rfl rfl rfl id
  | dispose hs =>
    cases hs with
    | call hc => exact hc.tends
    | close | closed => exact .of_eq rfl rfl rfl rfl fun _ => rfl
    | _ => exact .of_eq rfl rfl rfl rfl id

theorem dispatch_tends (frame : Json) (s : Session) : Tends s (dispatch frame s).session := by
  rw [dispatch_session_eq]
  exact .of_eq rfl rfl rfl rfl id

theorem tends_of_stepWriter {b : BackgroundStep} (h : s.stepWriter = some b) :
    Tends s b.session := by
  unfold stepWriter at h
  split at h
  · cases h
  split at h
  -- a frame in hand
  · split at h
    · cases h
      exact .of_eq rfl rfl rfl rfl id
    · cases h
    · cases h
      exact .of_eq rfl rfl rfl rfl id
  -- the next command
  · split at h
    · cases h
      exact .of_eq rfl rfl rfl rfl id
    · cases h
      exact .of_eq rfl rfl rfl rfl id
    · split at h
      · cases h
        exact .of_eq rfl rfl rfl rfl id
      · cases h

theorem tends_of_stepReader {b : BackgroundStep} (h : s.stepReader = some b) :
    Tends s b.session := by
  unfold stepReader at h
  split at h
  · split at h
    · next frame rest _ =>
      cases h
      have hd := dispatch_tends frame { s with link := { s.link with arrived := rest } }
      exact ⟨hd.told, fun hg => hd.guarded ⟨hg.held, hg.watched⟩⟩
    · cases h
      exact .of_eq rfl rfl rfl rfl id
    · cases h
      exact .of_eq rfl rfl rfl rfl id
    · cases h
  · split at h
    · next hq =>
      cases h
      obtain ⟨-, rfl⟩ := enqueue_eq_queued hq
      exact .of_eq rfl rfl rfl rfl id
    · cases h
      exact .of_eq rfl rfl rfl rfl id
    · cases h
  · cases h
    exact .of_eq rfl rfl rfl rfl id
  · cases h

/-- The monitor ends when it has killed the process, unless that has exited. -/
theorem tends_of_stepKill {b : BackgroundStep} (h : s.stepKill = some b) : Tends s b.session := by
  unfold stepKill at h
  split at h
  · cases h
  · cases h
    refine ⟨id, fun hg => ⟨hg.held, fun _ => ?_⟩⟩
    cases hx : s.link.exited <;> simp [Link.isRunning, BackgroundStep.quiet, hx]

/-- The monitor ends when the process has exited. -/
theorem tends_of_stepExit {b : BackgroundStep} (h : s.stepExit = some b) : Tends s b.session := by
  unfold stepExit at h
  split at h
  · cases h
  split at h
  · cases h
  all_goals
    next hx =>
    cases h
    refine ⟨id, fun hg => ⟨hg.held, fun _ => ?_⟩⟩
    simp [Link.isRunning, BackgroundStep.quiet, transition, hx]

theorem tends_of_stepPart {p : Part} {b : BackgroundStep} (h : s.stepPart p = some b) :
    Tends s b.session := by
  cases p with
  | writer => exact tends_of_stepWriter h
  | kill => exact tends_of_stepKill h
  | exit => exact tends_of_stepExit h
  | reader => exact tends_of_stepReader h

/-! ### Disposals -/

/-- **A disposal that has begun gives the order**: it goes on until it has, and it has given it when
it comes to the calls that wait. Only a disposal that is not the first one ends at once. -/
theorem OperationStep.of_dispose {h : Host} {now n : Nat} {st : DisposeStage} {op' : Operation}
    (hs : OperationStep h now n s (.dispose st) s' op') :
    (∃ st', op' = .dispose st' ∧ st' ≠ .begin) ∨ (st = .begin ∧ s.disposing = true) ∨
      st = .clearing := by
  cases hs with
  | dispose hs =>
    cases hs with
    | again hd => exact .inr (.inl ⟨rfl, hd⟩)
    | clear => exact .inr (.inr rfl)
    | _ => exact .inl ⟨_, rfl, fun h => by cases h⟩

/-- No operation becomes a disposal. -/
theorem OperationStep.exists_dispose {h : Host} {now n : Nat} {op : Operation} {st' : DisposeStage}
    (hs : OperationStep h now n s op s' (.dispose st')) : ∃ st, op = .dispose st := by
  cases hs with
  | handshake hs => cases hs
  | query hs => cases hs
  | document hs =>
    cases hs with
    | locked hl => cases hl
  | dispose => exact ⟨_, rfl⟩

/-- What comes to the calls that wait has given the order. -/
theorem OperationStep.killRequested_of_clearing {h : Host} {now n : Nat} {op : Operation}
    (hs : OperationStep h now n s op s' (.dispose .clearing)) : s'.killRequested = true := by
  obtain ⟨st, rfl⟩ := hs.exists_dispose
  cases hs with
  | dispose hs => cases hs <;> rfl

/-- Only a disposal has a session disposed of. -/
theorem OperationStep.disposing {h : Host} {now n : Nat} {op op' : Operation}
    (hs : OperationStep h now n s op s' op') (hd : s'.disposing = true) :
    s.disposing = true ∨ ∃ st, op' = .dispose st ∧ st ≠ .begin := by
  have hcall : ∀ {c st t st'}, CallStep now c s st t st' → t.disposing = s.disposing :=
    fun hc => by cases hc <;> rfl
  cases hs with
  | handshake hs =>
    cases hs with
    | call hc => exact .inl (hcall hc ▸ hd)
    | _ => exact .inl hd
  | query hs =>
    cases hs with
    | call hc | begin _ hc => exact .inl (hcall hc ▸ hd)
    | _ => exact .inl hd
  | document hs =>
    cases hs with
    | locked hl => cases hl <;> exact .inl hd
    | _ => exact .inl hd
  | dispose hs =>
    cases hs with
    | again | clear => exact .inl hd
    | _ => exact .inr ⟨_, rfl, fun h => by cases h⟩

/-- The background has no session disposed of. -/
theorem Turn.disposing_eq {e : Event} (h : Turn s e s') : s'.disposing = s.disposing := by
  cases h with
  | read frame rest =>
    rw [dispatch_session_eq]
  | _ => rfl

end Session

end LanguageHub
