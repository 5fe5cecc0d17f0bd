import LanguageHub.Proofs.Manager.Routing
import LanguageHub.Proofs.Session.Custody

/-!
# Tasks and their operations

All that a task does to sessions it does by its operations. A stage of a task is a stage of one of
them, or the operations that the task had are over and those that it has next have not begun
(`Manager.Operates`). So an operation stays with its task and goes on by its stages until it has
ended (`Manager.Works.step`), and what goes on was there before (`Manager.Works.of_step`).

What matters here are disposals. A session **leaves the table only to be disposed of**
(`Manager.mem_listed_step`), and it counts as disposed of only when a disposal goes on
(`Manager.Step.disposing`). Only assurances and shutdowns dispose of sessions
(`Manager.TaskStep.spares`), and tasks that are no assurances take the sessions that they use from
the table (`Manager.TaskStep.refs`).
-/

namespace LanguageHub

namespace Task

variable {t : Task} {i : Nat} {op : Operation}

/-- Whether all operations of a task have ended. -/
def Done (t : Task) : Prop := ∀ b ∈ t.operations, b.2.result?.isSome = true

/-- Whether no operation of a task has begun. -/
def Begins (t : Task) : Prop := ∀ b ∈ t.operations, b.2.isFresh = true

theorem done_of_nil (h : t.operations = []) : t.Done :=
  fun _ hb => absurd (h ▸ hb) List.not_mem_nil

theorem begins_of_nil (h : t.operations = []) : t.Begins :=
  fun _ hb => absurd (h ▸ hb) List.not_mem_nil

theorem done_of_singleton {r : Except LspError Outcome} (h : t.operations = [(i, .returned r)]) :
    t.Done := by
  intro b hb
  rw [h] at hb
  rw [List.mem_singleton.mp hb]
  rfl

theorem begins_of_singleton (h : t.operations = [(i, op)]) (hop : op.isFresh = true) :
    t.Begins := by
  intro b hb
  rw [h] at hb
  rw [List.mem_singleton.mp hb]
  exact hop

theorem begins_of_map {is : List Nat} (h : t.operations = is.map fun i => (i, op))
    (hop : op.isFresh = true) : t.Begins := by
  intro b hb
  rw [h] at hb
  obtain ⟨i, -, rfl⟩ := List.mem_map.mp hb
  exact hop

theorem operations_of_isFresh (h : t.isFresh = true) : t.operations = [] := by
  unfold isFresh at h
  split at h <;> trivial

theorem refs_of_isFresh (h : t.isFresh = true) : t.refs = [] := by
  unfold isFresh at h
  split at h <;> trivial

/-- Whether a task is an assurance in progress. -/
def isEnsure : Task → Bool
  | .ensure .. => true
  | _ => false

/-- Whether a task may dispose of sessions: an assurance may, and a shutdown. -/
def disposes : Task → Bool
  | .ensure .. | .shutdown _ => true
  | _ => false

/-- A task that may not dispose of sessions has no disposal of one. -/
def Spares (t : Task) : Prop :=
  t.disposes = false → ∀ (i : Nat) (st : DisposeStage), (i, Operation.dispose st) ∉ t.operations

end Task

namespace Manager

variable {env : ManagerEnvironment} {sc sc' : Scene} {e : Event} {m m' : Manager}
  {κ : Nat → SessionKey} {n i now id : Nat} {t t' : Task} {op : Operation}

/-! ### Operations of tasks -/

/-- **What a stage of a task does to sessions**: one of its operations goes on by a stage, or those
that it had have ended and those that it has now have not begun. A launch is of the second kind. -/
inductive Operates (env : ManagerEnvironment) (now id : Nat) (m : Manager) (t : Task)
    (m' : Manager) (t' : Task) : Prop
  | advance (p i : Nat) {op op' : Operation} : t.operations[p]? = some (i, op) →
      SessionStep env now id m i op m' op' → t'.operations = t.operations.set p (i, op') →
      Operates env now id m t m' t'
  | turn : t.Done → t'.Begins → m'.sessions = m.sessions → m'.launches = m.launches →
      Operates env now id m t m' t'
  | launch (key : SessionKey) (server : String) (killFault : Option String) (spec : LaunchSpec) :
      t.operations = [] → t'.operations = [(m.sessions.length, .startHandshake)] →
      m'.sessions = m.sessions ++ [.launched key server env.timeouts killFault] →
      m'.launches = m.launches ++ [spec] → Operates env now id m t m' t'

theorem bind_launches {key : SessionKey} {slot : Nat} :
    (m.bind key slot).launches = m.launches := by
  unfold bind
  split <;> rfl

theorem enterSlot_launches {slot : Nat} : (m.enterSlot slot n).launches = m.launches := by
  unfold enterSlot
  split <;> rfl

theorem leaveSlot_launches {slot : Nat} : (m.leaveSlot slot).launches = m.launches := by
  unfold leaveSlot
  split <;> rfl

theorem EnsureStep.operates {language text : String} {stage : EnsureStage}
    (h : EnsureStep env now id language text m stage m' t') :
    Operates env now id m (.ensure language text stage) m' t' := by
  cases h with
  | dispose _ _ _ _ hs | greet _ _ _ _ hs | openDocument _ hs => exact .advance 0 _ rfl hs rfl
  | launch _ _ _ _ _ spec killFault => exact .launch _ _ killFault spec rfl rfl rfl rfl
  | fresh =>
    exact .turn (Task.done_of_nil rfl) (Task.begins_of_nil rfl) (by simp [newSlot]) bind_launches
  | replace =>
    exact .turn (Task.done_of_nil rfl) (Task.begins_of_singleton rfl rfl) (by simp [newSlot])
      bind_launches
  | queue =>
    exact .turn (Task.done_of_nil rfl) (Task.begins_of_nil rfl) (by simp) enterSlot_launches
  | abandon =>
    exact .turn (Task.done_of_nil rfl) (Task.begins_of_nil rfl) (by simp [unbind])
      leaveSlot_launches
  | leave =>
    exact .turn (Task.done_of_nil rfl) (Task.begins_of_nil rfl) (by simp) leaveSlot_launches
  | meet | served =>
    exact .turn (Task.done_of_nil rfl) (Task.begins_of_singleton rfl rfl) rfl rfl
  | fill => exact .turn (Task.done_of_singleton rfl) (Task.begins_of_singleton rfl rfl) rfl rfl
  | disposed | ungreeted | done =>
    exact .turn (Task.done_of_singleton rfl) (Task.begins_of_nil rfl) rfl rfl
  | _ => exact .turn (Task.done_of_nil rfl) (Task.begins_of_nil rfl) rfl rfl

theorem begins_askNext {action : RoutedAction} {path : Path} {uri : Uri}
    {known : List Candidate} {rest : List Nat} :
    (Task.routed action (askNext path uri known rest)).Begins := by
  cases rest with
  | nil => exact Task.begins_of_nil rfl
  | cons i rest => exact Task.begins_of_singleton rfl rfl

theorem RoutedStep.operates {action : RoutedAction} {stage : RoutedStage}
    (h : RoutedStep env now id action m stage m' t') :
    Operates env now id m (.routed action stage) m' t' := by
  cases h with
  | ask _ _ _ _ _ hs | run _ hs => exact .advance 0 _ rfl hs rfl
  | begin => exact .turn (Task.done_of_nil rfl) begins_askNext rfl rfl
  | told => exact .turn (Task.done_of_singleton rfl) begins_askNext rfl rfl
  | choose =>
    have hfresh : ∀ uri, (RoutedAction.operation uri action).isFresh = true :=
      fun _ => by cases action <;> rfl
    exact .turn (Task.done_of_nil rfl) (Task.begins_of_singleton rfl (hfresh _)) rfl rfl
  | done => exact .turn (Task.done_of_singleton rfl) (Task.begins_of_nil rfl) rfl rfl
  | _ => exact .turn (Task.done_of_nil rfl) (Task.begins_of_nil rfl) rfl rfl

theorem TaskStep.operates (h : TaskStep env now id m t m' t') : Operates env now id m t m' t' := by
  cases h with
  | ensure he => exact he.operates
  | routed hr => exact hr.operates
  | searchBranch _ _ branch _ hb hs | drainBranch branch _ hb hs =>
    exact .advance branch _ hb hs rfl
  | direct _ hs => exact .advance 0 _ rfl hs rfl
  | search | drain => exact .turn (Task.done_of_nil rfl) (Task.begins_of_map rfl rfl) rfl rfl
  | searched _ _ _ hall | drained _ hall =>
    exact .turn (List.all_eq_true.mp hall) (Task.begins_of_nil rfl) rfl rfl
  | directed => exact .turn (Task.done_of_singleton rfl) (Task.begins_of_nil rfl) rfl rfl
  | _ => exact .turn (Task.done_of_nil rfl) (Task.begins_of_nil rfl) rfl rfl
/-! ### The sessions of the table -/

variable {key : SessionKey} {slot : Nat}

/-- What is in the table after a key was bound: the other keys as they were, and the key with the
slot. -/
theorem of_mem_bind {x : SessionKey × Nat} (hx : x ∈ (m.bind key slot).table) :
    (x ∈ m.table ∧ x.1.same key = false) ∨ (x.2 = slot ∧ x.1.same key = true) := by
  unfold bind at hx
  split at hx
  · obtain ⟨y, hy, rfl⟩ := List.mem_map.mp hx
    by_cases hk : y.1.same key = true
    · simp [hk]
    · simp [hk, hy]
  · next hany =>
    rcases List.mem_append.mp hx with hx | hx
    · refine .inl ⟨hx, ?_⟩
      rw [Bool.eq_false_iff]
      exact fun hk => hany (List.any_eq_true.mpr ⟨x, hx, hk⟩)
    · obtain rfl := List.mem_singleton.mp hx
      exact .inr ⟨rfl, SessionKey.same_refl key⟩

theorem mem_bind_of_not_same {x : SessionKey × Nat} (hx : x ∈ m.table)
    (hk : x.1.same key = false) : x ∈ (m.bind key slot).table := by
  unfold bind
  split
  · exact List.mem_map.mpr ⟨x, hx, by simp [hk]⟩
  · exact List.mem_append_left _ hx

/-- **Every entry of the table is found by its key.** -/
def Findable (m : Manager) : Prop := ∀ x ∈ m.table, m.slotOf x.1 = some x.2

theorem Findable.bind (h : Findable m) (key : SessionKey) (slot : Nat) :
    Findable (m.bind key slot) := by
  intro x hx
  rw [slotOf_bind]
  rcases of_mem_bind hx with ⟨hx, hk⟩ | ⟨hslot, hk⟩
  · rw [if_neg fun hc => ?_, h x hx]
    rw [SessionKey.same_symm hc] at hk
    cases hk
  · rw [if_pos (SessionKey.same_symm hk), hslot]

theorem Findable.unbind (h : Findable m) (key : SessionKey) : Findable (m.unbind key) := by
  intro x hx
  obtain ⟨hx, hk⟩ := List.mem_filter.mp hx
  rw [slotOf_unbind, if_neg fun hc => ?_, h x hx]
  rw [SessionKey.same_symm hc] at hk
  cases hk

/-- Only its table decides what a manager finds. -/
theorem Findable.of_table_eq (h : Findable m) (ht : m'.table = m.table) : Findable m' := by
  intro x hx
  rw [slotOf, ht]
  exact h x (ht ▸ hx)

theorem EnsureStep.findable {language text : String} {stage : EnsureStage}
    (hs : EnsureStep env now id language text m stage m' t') (h : Findable m) : Findable m' := by
  cases hs with
  | fresh | replace =>
    have hnew : Findable m.newSlot.1 := h.of_table_eq rfl
    exact hnew.bind _ _
  | dispose _ _ _ _ hs | greet _ _ _ _ hs | openDocument _ hs => exact h.of_table_eq hs.stirs.table
  | queue => exact h.of_table_eq enterSlot_table
  | leave => exact h.of_table_eq leaveSlot_table
  | abandon => exact (h.of_table_eq leaveSlot_table).unbind _
  | _ => exact h.of_table_eq rfl

theorem Step.findable (hs : Step env sc e sc') (h : Findable sc.manager) :
    Findable sc'.manager := by
  rcases e with ⟨n, t, t'⟩ | _
  · obtain ⟨m', -, ht, rfl⟩ := hs.of_advanced
    by_cases hensure : ∃ language text stage, t = .ensure language text stage
    · obtain ⟨language, text, stage, rfl⟩ := hensure
      exact ht.ensureStep.findable h
    · rcases ht.stirs_or_drains fun l x s hc => hensure ⟨l, x, s, hc⟩ with hm | ⟨-, rfl⟩
      · exact h.of_table_eq hm.table
      · exact fun x hx => absurd hx List.not_mem_nil
  · exact h.of_table_eq hs.of_silent.1.table

theorem mem_listed_iff {i : Nat} :
    i ∈ m.listed ↔ ∃ x ∈ m.table, m.sessionIn x.2 = some i := List.mem_filterMap

/-- An assurance takes a session out of the table only to dispose of it. -/
theorem EnsureStep.mem_table {language text : String} {stage : EnsureStage}
    (hs : EnsureStep env now id language text m stage m' t') (h : Findable m)
    {x : SessionKey × Nat} (hx : x ∈ m.table) (hi : m.sessionIn x.2 = some i) :
    x ∈ m'.table ∨ (i, Operation.startDispose) ∈ t'.operations := by
  cases hs with
  | fresh uri key hnone =>
    refine .inl (mem_bind_of_not_same hx ?_)
    rw [Bool.eq_false_iff]
    intro hk
    rw [← slotOf_congr m hk, h x hx] at hnone
    cases hnone
  | replace uri key slot old hslot hold =>
    by_cases hk : x.1.same key = true
    · rw [← slotOf_congr m hk, h x hx] at hslot
      obtain rfl := Option.some.inj hslot
      rw [hold] at hi
      obtain rfl := Option.some.inj hi
      exact .inr (List.mem_singleton_self _)
    · exact .inl (mem_bind_of_not_same hx (by simpa using hk))
  | abandon key slot e hslot hnone =>
    refine .inl (List.mem_filter.mpr ⟨by rwa [leaveSlot_table], ?_⟩)
    rw [Bool.not_eq_true', Bool.eq_false_iff]
    intro hk
    rw [← slotOf_congr m hk, h x hx] at hslot
    obtain rfl := Option.some.inj hslot
    rw [hnone] at hi
    cases hi
  | dispose _ _ _ _ hs | greet _ _ _ _ hs | openDocument _ hs =>
    exact .inl (by rwa [hs.stirs.table])
  | queue => exact .inl (by rwa [enterSlot_table])
  | leave => exact .inl (by rwa [leaveSlot_table])
  | _ => exact .inl hx

/-- **What leaves the table is disposed of.** A session that is in the table stays there, or the
task whose stage it was is to dispose of it. -/
theorem mem_listed_step (htidy : Tidy κ sc) (hfind : Findable sc.manager)
    (hs : Step env sc e sc') (hi : i ∈ sc.manager.listed) :
    i ∈ sc'.manager.listed ∨ ∃ t ∈ sc'.tasks, (i, Operation.startDispose) ∈ t.operations := by
  obtain ⟨x, hx, hin⟩ := mem_listed_iff.mp hi
  have hin' := htidy.sessionIn_step hs hin
  have stays : x ∈ sc'.manager.table → i ∈ sc'.manager.listed :=
    fun hx' => mem_listed_iff.mpr ⟨x, hx', hin'⟩
  rcases e with ⟨n, t, t'⟩ | _
  · obtain ⟨m', hn, ht, rfl⟩ := hs.of_advanced
    have hmem : t' ∈ (sc.after n t m' t').tasks :=
      List.mem_of_getElem? (getElem?_set_of_getElem? hn t')
    by_cases hensure : ∃ language text stage, t = .ensure language text stage
    · obtain ⟨language, text, stage, rfl⟩ := hensure
      exact (ht.ensureStep.mem_table hfind hx hin).imp stays fun h => ⟨t', hmem, h⟩
    · rcases ht.stirs_or_drains fun l x s hc => hensure ⟨l, x, s, hc⟩ with hm | ⟨rfl, -⟩
      · exact .inl (stays (by rwa [Scene.after, hm.table]))
      · cases ht with
        | drainNone hnone =>
          rw [hnone] at hi
          exact absurd hi List.not_mem_nil
        | drain => exact .inr ⟨_, hmem, List.mem_map.mpr ⟨i, hi, rfl⟩⟩
  · exact .inl (stays (by rwa [hs.of_silent.1.table]))

/-! ### Operations that go on -/

/-- Some task has an operation on a session. -/
def Works (sc : Scene) (i : Nat) (op : Operation) : Prop :=
  ∃ t ∈ sc.tasks, (i, op) ∈ t.operations

/-- An operation on a session goes on by a stage. -/
def GoesOn (env : ManagerEnvironment) (sc : Scene) (i : Nat) (op : Operation) (m' : Manager)
    (op' : Operation) : Prop :=
  ∃ id s s', sc.manager.sessions[i]? = some s ∧ m'.sessions[i]? = some s' ∧
    Session.OperationStep env.host sc.now id s op s' op'

theorem SessionStep.goesOn (h : SessionStep env sc.now id sc.manager i op m' op') :
    GoesOn env sc i op m' op' := by
  obtain @⟨s, s', _, hi, ho⟩ := h
  obtain ⟨hlt, -⟩ := List.getElem?_eq_some_iff.mp hi
  exact ⟨id, s, s', hi, List.getElem?_set_self hlt, ho⟩

/-- **An operation stays with its task, or goes on by a stage, until it has ended.** -/
theorem Works.step (h : Works sc i op) (hop : op.result? = none) (hs : Step env sc e sc') :
    Works sc' i op ∨ ∃ op', GoesOn env sc i op sc'.manager op' ∧ Works sc' i op' := by
  obtain ⟨t, ht, hmem⟩ := h
  rcases e with ⟨n, u, u'⟩ | _
  · obtain ⟨m', hn, hu, rfl⟩ := hs.of_advanced
    obtain ⟨k, hk⟩ := List.getElem?_of_mem ht
    rcases eq_or_ne k n with rfl | hne
    · rw [hn] at hk
      obtain rfl := Option.some.inj hk
      have hu' : u' ∈ (sc.after k u m' u').tasks :=
        List.mem_of_getElem? (getElem?_set_of_getElem? hn u')
      cases hu.operates with
      | advance p j hp hstep heq =>
        obtain ⟨q, hq⟩ := List.getElem?_of_mem hmem
        rcases eq_or_ne q p with rfl | hne
        · rw [hp] at hq
          cases hq
          obtain ⟨hlt, -⟩ := List.getElem?_eq_some_iff.mp hp
          refine .inr ⟨_, hstep.goesOn, u', hu', ?_⟩
          rw [heq]
          exact List.mem_set hlt _
        · refine .inl ⟨u', hu', ?_⟩
          rw [heq]
          exact List.mem_of_getElem? (by rw [List.getElem?_set_ne hne.symm, hq])
      | turn hdone =>
        have hsome := hdone _ hmem
        rw [hop] at hsome
        cases hsome
      | launch _ _ _ _ hnil =>
        rw [hnil] at hmem
        exact absurd hmem List.not_mem_nil
    · refine .inl ⟨t, List.mem_of_getElem? (i := k) ?_, hmem⟩
      rw [Scene.after, List.getElem?_set_ne hne.symm, hk]
  · obtain ⟨-, -, -, heq | ⟨u, -, heq⟩⟩ := hs.of_silent
    · exact .inl ⟨t, heq ▸ ht, hmem⟩
    · exact .inl ⟨t, heq ▸ List.mem_append_left _ ht, hmem⟩

/-- Where a task comes from: it was there before, or it has come just now, or it has gone on by a
stage. -/
theorem Step.of_mem_tasks (hs : Step env sc e sc') (ht : t' ∈ sc'.tasks) :
    t' ∈ sc.tasks ∨ t'.isFresh = true ∨
      ∃ n, ∃ t ∈ sc.tasks, TaskStep env sc.now n sc.manager t sc'.manager t' := by
  rcases e with ⟨n, u, u'⟩ | _
  · obtain ⟨m', hn, hu, rfl⟩ := hs.of_advanced
    rcases List.mem_or_eq_of_mem_set ht with ht | rfl
    · exact .inl ht
    · exact .inr (.inr ⟨n, u, List.mem_of_getElem? hn, hu⟩)
  · obtain ⟨-, -, -, heq | ⟨u, hu, heq⟩⟩ := hs.of_silent
    · exact .inl (heq ▸ ht)
    · rw [heq] at ht
      rcases List.mem_append.mp ht with ht | ht
      · exact .inl ht
      · rw [List.mem_singleton.mp ht]
        exact .inr (.inl hu)

/-- **Where an operation comes from**: a task had it before, or it has not begun, or it has gone on
by a stage. -/
theorem Works.of_step (h : Works sc' i op) (hs : Step env sc e sc') :
    Works sc i op ∨ op.isFresh = true ∨ ∃ op₀, GoesOn env sc i op₀ sc'.manager op := by
  obtain ⟨t', ht', hmem⟩ := h
  rcases hs.of_mem_tasks ht' with ht | hfresh | ⟨n, t, ht, hstep⟩
  · exact .inl ⟨t', ht, hmem⟩
  · rw [Task.operations_of_isFresh hfresh] at hmem
    exact absurd hmem List.not_mem_nil
  · cases hstep.operates with
    | advance p j hp hop heq =>
      rw [heq] at hmem
      rcases List.mem_or_eq_of_mem_set hmem with hmem | heq
      · exact .inl ⟨t, ht, hmem⟩
      · cases heq
        exact .inr (.inr ⟨_, hop.goesOn⟩)
    | turn _ hbegins => exact .inr (.inl (hbegins _ hmem))
    | launch _ _ _ _ _ heq =>
      rw [heq] at hmem
      cases List.mem_singleton.mp hmem
      exact .inr (.inl rfl)

/-- A session counts as disposed of, so that further disposals of it return at once. -/
def Disposing (m : Manager) (i : Nat) : Prop := ∃ s, m.sessions[i]? = some s ∧ s.disposing = true

/-- One session moves, and does not come to be disposed of by that. -/
theorem Disposing.of_set {j : Nat} {x x' : Session} (h : Disposing m' i)
    (hs : m'.sessions = m.sessions.set j x') (hj : m.sessions[j]? = some x)
    (hx : x'.disposing = true → x.disposing = true) : Disposing m i := by
  obtain ⟨s, hi, hd⟩ := h
  rw [hs] at hi
  rcases eq_or_ne j i with rfl | hne
  · obtain ⟨hlt, -⟩ := List.getElem?_eq_some_iff.mp hj
    rw [List.getElem?_set_self hlt] at hi
    cases hi
    exact ⟨x, hj, hx hd⟩
  · rw [List.getElem?_set_ne hne] at hi
    exact ⟨s, hi, hd⟩

theorem Operates.disposing (ho : Operates env now id m t m' t') (h : Disposing m' i) :
    Disposing m i ∨ ∃ st, st ≠ .begin ∧ (i, Operation.dispose st) ∈ t'.operations := by
  cases ho with
  | advance p j hp hstep heq =>
    obtain @⟨x, x', op', hj, hop⟩ := hstep
    by_cases hx : x'.disposing = true → x.disposing = true
    · exact .inl (h.of_set rfl hj hx)
    · obtain ⟨hx', hx⟩ := Classical.not_imp.mp hx
      obtain ⟨st, rfl, hst⟩ := (hop.disposing hx').resolve_left hx
      rcases eq_or_ne j i with rfl | hne
      · obtain ⟨hlt, -⟩ := List.getElem?_eq_some_iff.mp hp
        exact .inr ⟨st, hst, heq ▸ List.mem_set hlt _⟩
      · obtain ⟨s, hi, hd⟩ := h
        exact .inl ⟨s, by rwa [← List.getElem?_set_ne hne], hd⟩
  | turn _ _ hsame =>
    obtain ⟨s, hi, hd⟩ := h
    exact .inl ⟨s, hsame ▸ hi, hd⟩
  | launch _ _ _ _ _ _ hsame =>
    obtain ⟨s, hi, hd⟩ := h
    rw [hsame, List.getElem?_append] at hi
    split at hi
    · exact .inl ⟨s, hi, hd⟩
    -- nobody has disposed of a session that was just launched
    · rw [List.mem_singleton.mp (List.mem_of_getElem? hi)] at hd
      cases hd

/-- **A session comes to be disposed of only with a disposal** of it that goes on. -/
theorem Step.disposing (hs : Step env sc e sc') (h : Disposing sc'.manager i) :
    Disposing sc.manager i ∨ ∃ st, st ≠ .begin ∧ Works sc' i (.dispose st) := by
  cases hs with
  | call | elapse | rewrite => exact .inl h
  | background j p hj hb =>
    have hturn := (Session.Turn.of_stepPart hb).disposing_eq
    exact .inl (h.of_set rfl hj fun hd => hturn ▸ hd)
  | serve j hj => exact .inl (h.of_set rfl hj id)
  | release =>
    obtain ⟨s', hi, hd⟩ := h
    simp only [releaseUnused, List.getElem?_mapIdx, Option.map_eq_some_iff] at hi
    obtain ⟨s, hs, rfl⟩ := hi
    refine .inl ⟨s, hs, ?_⟩
    split at hd <;> exact hd
  | advance n branch t hn hstep =>
    refine ((TaskStep.of_step hstep).operates.disposing h).imp id ?_
    rintro ⟨st, hst, hmem⟩
    exact ⟨st, hst, _, List.mem_of_getElem? (getElem?_set_of_getElem? hn _), hmem⟩

/-! ### The sessions that tasks use -/

theorem mem_of_choose {known : List Candidate} (h : choose known = some i) :
    i ∈ known.map (·.session) := by
  obtain ⟨c, hc, rfl⟩ := Option.map_eq_some_iff.mp h
  have hmem : c ∈ known.mergeSort Candidate.before := List.mem_of_head? hc
  exact List.mem_map_of_mem (List.mem_mergeSort.mp hmem)

theorem refs_askNext {action : RoutedAction} {path : Path} {uri : Uri}
    {known : List Candidate} {rest : List Nat} :
    (Task.routed action (askNext path uri known rest)).refs =
      known.map (·.session) ++ rest := by
  cases rest <;> simp [askNext, Task.refs]

/-- A branch that goes on remains one of its session. -/
theorem mem_map_of_mem_map_set {l : List (Nat × Operation)} {p j : Nat} (hp : l[p]? = some (j, op))
    {op' : Operation} (hi : i ∈ (l.set p (j, op')).map (·.1)) : i ∈ l.map (·.1) := by
  obtain ⟨b, hb, rfl⟩ := List.mem_map.mp hi
  rcases List.mem_or_eq_of_mem_set hb with hb | rfl
  · exact List.mem_map_of_mem hb
  · exact List.mem_map.mpr ⟨_, List.mem_of_getElem? hp, rfl⟩

theorem RoutedStep.refs {action : RoutedAction} {stage : RoutedStage}
    (h : RoutedStep env now id action m stage m' t') (ht' : t'.assures = false)
    (hi : i ∈ t'.refs) : i ∈ (Task.routed action stage).refs ∨ i ∈ m.listed := by
  cases h with
  | nameless | ownerless | done => cases ht'
  | ask | run => exact .inl hi
  | begin path =>
    rw [refs_askNext] at hi
    obtain ⟨x, hx, hin⟩ := List.mem_filterMap.mp hi
    split at hin
    · exact .inr (mem_listed_iff.mpr ⟨x, hx, hin⟩)
    · cases hin
  | told _ _ known j rest =>
    rw [refs_askNext, List.map_append, List.append_assoc] at hi
    exact .inl hi
  | choose _ _ known j hj =>
    rw [List.mem_singleton.mp hi]
    exact .inl (mem_of_choose hj)

/-- **A task that is no assurance takes its sessions from the table.** -/
theorem TaskStep.refs (h : TaskStep env now id m t m' t') (ht' : t'.assures = false) :
    t.assures = false ∧ ∀ i ∈ t'.refs, i ∈ t.refs ∨ i ∈ m.listed := by
  cases h with
  | ensure he => cases he <;> cases ht'
  | routed hr => exact ⟨rfl, fun i hi => hr.refs ht' hi⟩
  | search =>
    refine ⟨rfl, fun i hi => .inr ?_⟩
    simp only [Task.refs, Task.operations, List.map_map, List.mem_map, Function.comp_apply,
      exists_eq_right, List.mem_filter] at hi
    exact hi.1
  | drain =>
    refine ⟨rfl, fun i hi => .inr ?_⟩
    simpa [Task.refs, Task.operations] using hi
  | searchBranch _ _ branch _ hb | drainBranch branch _ hb =>
    exact ⟨rfl, fun i hi => .inl (mem_map_of_mem_map_set hb hi)⟩
  | direct => exact ⟨rfl, fun i hi => .inl hi⟩
  | _ => cases ht'

/-! ### Who may dispose of sessions -/

theorem spares_of_nil (h : t.operations = []) : t.Spares :=
  fun _ _ _ hmem => absurd (h ▸ hmem) List.not_mem_nil

theorem spares_of_singleton (h : t.operations = [(i, op)]) (hop : ∀ st, op ≠ .dispose st) :
    t.Spares := by
  intro _ j st hmem
  rw [h] at hmem
  exact hop st (Prod.ext_iff.mp (List.mem_singleton.mp hmem)).2.symm

/-- No operation of a task becomes a disposal. -/
theorem spares_of_set {p : Nat} {op' : Operation} (h : t.Spares)
    (hkind : t.disposes = t'.disposes) (hp : t.operations[p]? = some (i, op))
    (hs : SessionStep env now id m i op m' op')
    (heq : t'.operations = t.operations.set p (i, op')) : t'.Spares := by
  intro hd j st hmem
  rw [heq] at hmem
  rcases List.mem_or_eq_of_mem_set hmem with hmem | heq
  · exact h (hkind ▸ hd) j st hmem
  · cases heq
    obtain ⟨-, ho⟩ := hs
    obtain ⟨st₀, rfl⟩ := ho.exists_dispose
    exact h (hkind ▸ hd) i st₀ (List.mem_of_getElem? hp)

theorem spares_askNext {action : RoutedAction} {path : Path} {uri : Uri}
    {known : List Candidate} {rest : List Nat} :
    (Task.routed action (askNext path uri known rest)).Spares := by
  cases rest with
  | nil => exact spares_of_nil rfl
  | cons j rest => exact spares_of_singleton rfl fun st h => by cases h

theorem RoutedStep.spares {action : RoutedAction} {stage : RoutedStage}
    (h : RoutedStep env now id action m stage m' t') (ht : (Task.routed action stage).Spares) :
    t'.Spares := by
  cases h with
  | nameless | ownerless | done => exact spares_of_nil rfl
  | begin | told => exact spares_askNext
  | ask _ _ _ _ _ hs | run _ hs => exact spares_of_set (p := 0) ht rfl rfl hs rfl
  | choose =>
    exact spares_of_singleton rfl fun st h => by cases action <;> cases h

theorem TaskStep.spares (h : TaskStep env now id m t m' t') (ht : t.Spares) : t'.Spares := by
  cases h with
  | ensure he =>
    cases he with
    | nameless | abandon | leave | done => exact spares_of_nil rfl
    | _ => exact fun hd => by cases hd
  | routed hr => exact hr.spares ht
  | search =>
    intro _ i st hmem
    obtain ⟨j, -, heq⟩ := List.mem_map.mp hmem
    cases heq
  | searchBranch _ _ branch _ hb hs => exact spares_of_set (p := branch) ht rfl hb hs rfl
  | direct _ hs => exact spares_of_set (p := 0) ht rfl rfl hs rfl
  | drain | drainBranch => exact fun hd => by cases hd
  | _ => exact spares_of_nil rfl

/-! ### What a shutdown leaves -/

/-- Only an assurance puts something into an empty table. -/
theorem Step.table_eq_nil (hs : Step env sc e sc') (hno : ∀ t ∈ sc.tasks, t.isEnsure = false)
    (h : sc.manager.table = []) : sc'.manager.table = [] := by
  rcases e with ⟨n, t, t'⟩ | _
  · obtain ⟨m', hn, ht, rfl⟩ := hs.of_advanced
    have hensure := hno t (List.mem_of_getElem? hn)
    rcases ht.stirs_or_drains (fun l x s hc => by rw [hc] at hensure; cases hensure) with
      hm | ⟨-, rfl⟩
    · rw [Scene.after, hm.table, h]
    · rfl
  · rw [hs.of_silent.1.table, h]

/-- A shutdown begins by emptying the table. -/
theorem Step.table_eq_nil_of_shutdown
    (hs : Step env sc (.advanced n (.shutdown none) t') sc') : sc'.manager.table = [] := by
  obtain ⟨m', -, ht, rfl⟩ := hs.of_advanced
  cases ht <;> rfl

/-- A session in use is in the table, or an assurance uses it, or another task in progress. -/
theorem mem_inUse_cases {tasks : List Task} (hi : i ∈ m.inUse tasks) :
    i ∈ m.listed ∨ ∃ t ∈ tasks, t.isEnsure = true ∨ (t.assures = false ∧ i ∈ t.refs) := by
  rcases List.mem_append.mp hi with hi | hi
  · obtain ⟨slot, hslot, hin⟩ := List.mem_filterMap.mp hi
    rcases List.mem_append.mp hslot with hslot | hslot
    · obtain ⟨x, hx, rfl⟩ := List.mem_map.mp hslot
      exact .inl (mem_listed_iff.mpr ⟨x, hx, hin⟩)
    -- only assurances use slots
    · obtain ⟨t, ht, hslot⟩ := List.mem_flatMap.mp hslot
      cases t with
      | ensure => exact .inr ⟨_, ht, .inl rfl⟩
      | _ => exact absurd hslot List.not_mem_nil
  · obtain ⟨t, ht, hi⟩ := List.mem_flatMap.mp hi
    cases t with
    | ensure => exact .inr ⟨_, ht, .inl rfl⟩
    | returned => exact absurd hi List.not_mem_nil
    | _ => exact .inr ⟨_, ht, .inr ⟨rfl, hi⟩⟩

end Manager

end LanguageHub
