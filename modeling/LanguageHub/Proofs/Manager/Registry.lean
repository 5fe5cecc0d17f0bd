import LanguageHub.Proofs.Manager.Run

/-!
# A slot without a session is in the table

The callers of one key can share a slot only if they find the same one, and a caller finds the slot
that is in the table. So what keeps a manager in order is that **a slot that still has to get its
session is in the table** as long as somebody has a place at it, unless it was abandoned
(`Manager.At.current`). Everything else follows the creation of a session from there:

* the creator at a slot is the first in its queue, so there is only one, and the slot is empty
  while it creates (`Manager.Holds`);
* the session that it shakes hands with is as far as the handshake (`Session.Greeted`), so one that
  comes into a slot has been ready, and one whose handshake fails has ended;
* every session that has not ended is in a slot or still shakes hands, and a slot with such a
  session is in the table as well, unless a shutdown has taken it out.

`Manager.Tidy` is this invariant, and every step preserves it (`Manager.Tidy.step`).

Which key a slot was made for is not written down anywhere in a manager. The invariant speaks of
*some* assignment `κ` of keys to slots, which grows with the slots.
-/

namespace LanguageHub

/-- The session that a task shakes hands with. -/
def Task.greets? : Task → Option Nat
  | .ensure _ _ (.handshaking _ _ _ session _) => some session
  | _ => none

namespace Manager

variable {env : ManagerEnvironment} {sc sc' : Scene} {e : Event} {m m' : Manager}
  {κ κ' : Nat → SessionKey} {key : SessionKey} {slot n k i now : Nat} {op : Operation}
  {t t' : Task} {o o' drained : List Nat}

/-! ### The places of the tasks -/

/-- **The place of a task at a slot**, which is in the table as long as it has no session
and is none of the abandoned ones `o`. -/
structure At (κ : Nat → SessionKey) (m : Manager) (o : List Nat) (key : SessionKey)
    (slot : Nat) : Prop where
  bound : slot < m.slots.length
  same : key.same (κ slot) = true
  current : m.sessionIn slot = none → slot ∉ o → m.slotOf (κ slot) = some slot

/-- **The creator at a slot.** -/
structure Holds (m : Manager) (n slot : Nat) : Prop where
  empty : m.sessionIn slot = none
  first : m.creatorAt slot = some n

/-- The session of a handshake. -/
def Greets (m : Manager) (key : SessionKey) (i : Nat) (op : Operation) : Prop :=
  ∃ s, m.sessions[i]? = some s ∧ s.key = key ∧ Session.Greeted s op

/-- **The place of a task**, as far as it has come. -/
def Seated (κ : Nat → SessionKey) (m : Manager) (o : List Nat) (n : Nat) : Task → Prop
  | .ensure _ _ (.replacing _ key slot _ _) | .ensure _ _ (.entering _ key slot)
  | .ensure _ _ (.queued _ key slot) => At κ m o key slot
  | .ensure _ _ (.installing _ key slot _ _) | .ensure _ _ (.launching _ key slot _ _)
  | .ensure _ _ (.failing key slot _) => At κ m o key slot ∧ Holds m n slot
  | .ensure _ _ (.handshaking _ key slot i op) =>
    At κ m o key slot ∧ Holds m n slot ∧ Greets m key i op
  | _ => True

theorem At.stir (h : At κ m o key slot) (hs : Stirs m m') : At κ m' o key slot where
  bound := by rw [hs.slots]; exact h.bound
  same := h.same
  current := by rw [hs.sessionIn, hs.slotOf]; exact h.current

theorem At.weaken (h : At κ m o key slot) (ho : ∀ slot ∈ o, slot ∈ o') : At κ m o' key slot :=
  ⟨h.bound, h.same, fun hnone hnot => h.current hnone fun hs => hnot (ho slot hs)⟩

theorem update_of_lt (hlt : slot < m.slots.length) :
    Function.update κ m.slots.length key slot = κ slot :=
  Function.update_of_ne (Nat.ne_of_lt hlt) _ _

/-- The place at a new slot of the key. -/
theorem At.fresh : At (Function.update κ m.slots.length key)
    (m.newSlot.1.bind key m.slots.length) o key m.slots.length where
  bound := by rw [length_bind_newSlot]; omega
  same := by rw [Function.update_self]; exact SessionKey.same_refl key
  current := by
    intro _ _
    rw [slotOf_bind_newSlot, Function.update_self, if_pos (SessionKey.same_refl key)]

/-- A place stays when a key gets a new slot, if the slot that the key had has a session. -/
theorem At.bind_newSlot {key' : SessionKey} (h : At κ m o key' slot)
    (hold : ∀ slot, m.slotOf key = some slot → m.sessionIn slot ≠ none) :
    At (Function.update κ m.slots.length key) (m.newSlot.1.bind key m.slots.length) o key'
      slot where
  bound := by rw [length_bind_newSlot]; exact Nat.lt_succ_of_lt h.bound
  same := by rw [update_of_lt h.bound]; exact h.same
  current := by
    intro hnone hnot
    rw [sessionIn_bind_newSlot] at hnone
    have hc := h.current hnone hnot
    rw [update_of_lt h.bound, slotOf_bind_newSlot]
    split
    · next hk => exact absurd hnone (hold slot ((slotOf_congr _ hk).trans hc))
    · exact hc

theorem Holds.stir (h : Holds m n slot) (hs : Stirs m m') : Holds m' n slot :=
  ⟨by rw [hs.sessionIn, h.empty], by rw [hs.creatorAt, h.first]⟩

theorem Holds.unique (h : Holds m n slot) (h' : Holds m k slot) : n = k :=
  Option.some.inj (h.first.symm.trans h'.first)

theorem Greets.evolves (h : Greets m key i op) (he : Evolves m m') : Greets m' key i op := by
  obtain ⟨s, hs, hk, hg⟩ := h
  obtain ⟨s', hs', hl⟩ := he i s hs
  exact ⟨s', hs', hl.key.trans hk, hg.leadsTo hl⟩

theorem Greets.step {op' : Operation} {id : Nat} (h : Greets m key i op)
    (hs : SessionStep env now id m i op m' op') : Greets m' key i op' := by
  obtain ⟨s, hi, hk, hg⟩ := h
  obtain ⟨hi', ho⟩ := hs
  rw [hi] at hi'
  cases hi'
  obtain ⟨hlt, -⟩ := List.getElem?_eq_some_iff.mp hi
  exact ⟨_, by simp [setSession, hlt], ho.leadsTo.key.trans hk, hg.step ho⟩

/-- A task keeps its place when its slot and what it holds stay. -/
theorem Seated.mono (h : Seated κ m o n t)
    (hat : ∀ key, ∀ slot ∈ t.slotRefs, At κ m o key slot → At κ' m' o' key slot)
    (hholds : ∀ slot, Holds m n slot → Holds m' n slot) (he : Evolves m m') :
    Seated κ' m' o' n t := by
  rcases t with ⟨l, x, stage⟩ | _ | _ | _ | _ | _ | _
  · cases stage with
    | replacing | entering | queued => exact hat _ _ (by simp [Task.slotRefs]) h
    | installing | launching | failing =>
      exact ⟨hat _ _ (by simp [Task.slotRefs]) h.1, hholds _ h.2⟩
    | handshaking =>
      exact ⟨hat _ _ (by simp [Task.slotRefs]) h.1, hholds _ h.2.1, h.2.2.evolves he⟩
    | _ => trivial
  all_goals trivial

theorem Seated.stir (h : Seated κ m o n t) (hs : Stirs m m') : Seated κ m' o n t :=
  h.mono (fun _ _ _ ha => ha.stir hs) (fun _ hh => hh.stir hs) hs.evolves

/-- Slots that are abandoned ask less of a place. -/
theorem Seated.weaken (h : Seated κ m o n t) (ho : ∀ slot ∈ o, slot ∈ o') : Seated κ m o' n t :=
  h.mono (fun _ _ _ ha => ha.weaken ho) (fun _ hh => hh) (.refl m)

theorem seated_of_isFresh (h : t.isFresh = true) : Seated κ m o n t := by
  unfold Task.isFresh at h
  split at h <;> trivial

/-! ### The invariant -/

/-- **A slot without a session is in the table**, if anybody has a place at it. -/
structure Tidy (κ : Nat → SessionKey) (sc : Scene) : Prop where
  entry : ∀ e ∈ sc.manager.table,
    e.2 < sc.manager.slots.length ∧ e.1.same (κ e.2) = true
  seated : ∀ (n : Nat) (t : Task), sc.tasks[n]? = some t → Seated κ sc.manager sc.abandoned n t
  filled : ∀ slot i, sc.manager.sessionIn slot = some i →
    ∃ s, sc.manager.sessions[i]? = some s ∧ s.key.same (κ slot) = true ∧ 2 ≤ s.state.rank ∧
      (s.state.isTerminal = true ∨ i ∈ sc.drained ∨ slot ∈ sc.abandoned ∨
        sc.manager.slotOf (κ slot) = some slot)
  housed : ∀ (i : Nat) (s : Session), sc.manager.sessions[i]? = some s → s.state.isTerminal = true ∨
    (∃ slot, sc.manager.sessionIn slot = some i) ∨
    ∃ (n : Nat) (t : Task), sc.tasks[n]? = some t ∧ t.greets? = some i

theorem tidy_start (files : FileTree) (now : Nat) (κ : Nat → SessionKey) :
    Tidy κ (.start files now) := by
  constructor <;> intros <;> simp_all [Scene.start, start, sessionIn]

namespace Tidy

/-- **Only sessions move**, and one task goes on or nobody does. -/
theorem stir (h : Tidy κ sc) (hs : Stirs sc.manager sc'.manager)
    (hd : ∀ i ∈ sc.drained, i ∈ sc'.drained) (ho : ∀ slot ∈ sc.abandoned, slot ∈ sc'.abandoned)
    (hseated : ∀ (k : Nat) (t : Task), sc'.tasks[k]? = some t →
      Seated κ sc'.manager sc'.abandoned k t)
    (hgreets : ∀ (k : Nat) (t : Task) (i : Nat), sc.tasks[k]? = some t → t.greets? = some i →
      (∃ s : Session, sc'.manager.sessions[i]? = some s ∧ s.state.isTerminal = true) ∨
        ∃ (k' : Nat) (t' : Task), sc'.tasks[k']? = some t' ∧ t'.greets? = some i) :
    Tidy κ sc' where
  entry := by
    intro e he
    rw [hs.table] at he
    rw [hs.slots]
    exact h.entry e he
  seated := hseated
  filled := by
    intro slot i hi
    rw [hs.sessionIn] at hi
    obtain ⟨s, hsi, hk, hr, hend⟩ := h.filled slot i hi
    obtain ⟨s', hsi', hl⟩ := hs.evolves i s hsi
    refine ⟨s', hsi', by rw [hl.key]; exact hk, Nat.le_trans hr hl.state, ?_⟩
    rw [hs.slotOf]
    exact hend.imp hl.isTerminal (Or.imp (hd i) (Or.imp_left (ho slot)))
  housed := by
    intro i s' hi
    obtain ⟨s, hsi, hl⟩ := hs.exists_before hi
    rcases h.housed i s hsi with ht | ⟨slot, hslot⟩ | ⟨k, t, hk, hg⟩
    · exact .inl (hl.isTerminal ht)
    · exact .inr (.inl ⟨slot, by rw [hs.sessionIn]; exact hslot⟩)
    · rcases hgreets k t i hk hg with ⟨x, hx, ht⟩ | hlater
      · rw [hi] at hx
        cases hx
        exact .inl ht
      · exact .inr (.inr hlater)

/-- The places after one of the tasks has gone on. -/
theorem seated_set (h : Tidy κ sc) (hself : Seated κ' m' o' n t')
    (hothers : ∀ (k : Nat) (t : Task), k ≠ n → sc.tasks[k]? = some t →
      Seated κ sc.manager sc.abandoned k t → Seated κ' m' o' k t) :
    ∀ (k : Nat) (t : Task), (sc.tasks.set n t')[k]? = some t → Seated κ' m' o' k t := by
  intro k t hk
  rcases getElem?_set_cases hk with ⟨rfl, rfl⟩ | ⟨hne, hk⟩
  · exact hself
  · exact hothers k t hne hk (h.seated k t hk)

/-- **A stage that only moves sessions**: the task gets its new place, and a handshake that it
gives up has come to its end. -/
theorem stir_set (h : Tidy κ sc) (hn : sc.tasks[n]? = some t) (hs : Stirs sc.manager m')
    (hself : Seated κ m' sc.abandoned n t') (hgreets : ∀ i, t.greets? = some i →
      t'.greets? = some i ∨ ∃ s : Session, m'.sessions[i]? = some s ∧ s.state.isTerminal = true) :
    Tidy κ (sc.after n t m' t') := by
  have ho : ∀ slot ∈ sc.abandoned, slot ∈ (sc.after n t m' t').abandoned := fun slot hslot =>
    List.mem_append_left _ hslot
  refine h.stir hs (fun i hi => List.mem_append_left _ hi) ho ?_ ?_
  · exact h.seated_set (hself.weaken ho) fun k x _ _ hx => (hx.stir hs).weaken ho
  · intro k x i hk hx
    rcases eq_or_ne k n with rfl | hne
    · rw [hn] at hk
      cases hk
      rcases hgreets i hx with hg | hend
      · exact .inr ⟨k, t', getElem?_set_of_getElem? hn t', hg⟩
      · exact .inl hend
    · refine .inr ⟨k, x, ?_, hx⟩
      exact (List.getElem?_set_ne hne.symm).trans hk

/-- Nothing happens to a handshake when another task goes on. -/
theorem housed_set (h : Tidy κ sc) (hn : sc.tasks[n]? = some t) (ht : t.greets? = none)
    {s : Session} (hi : sc.manager.sessions[i]? = some s) :
    s.state.isTerminal = true ∨ (∃ slot, sc.manager.sessionIn slot = some i) ∨
      ∃ (k : Nat) (x : Task), (sc.tasks.set n t')[k]? = some x ∧ x.greets? = some i := by
  rcases h.housed i s hi with hend | hslot | ⟨k, x, hk, hg⟩
  · exact .inl hend
  · exact .inr (.inl hslot)
  · refine .inr (.inr ⟨k, x, ?_, hg⟩)
    have hne : k ≠ n := by
      rintro rfl
      rw [hn] at hk
      cases hk
      rw [ht] at hg
      cases hg
    rw [List.getElem?_set_ne hne.symm, hk]

/-- **A key gets a new slot**, because it has none or because the session in its slot has
ended. Nobody else has a place at a slot of the key that has no session. -/
theorem bind_fresh (h : Tidy κ sc) (hn : sc.tasks[n]? = some t) (ht : t.greets? = none)
    (hold : ∀ slot, sc.manager.slotOf key = some slot → ∃ i s, sc.manager.sessionIn slot = some i ∧
      sc.manager.sessions[i]? = some s ∧ s.state.isTerminal = true)
    (hself : ∀ κ' m' o', At κ' m' o' key sc.manager.slots.length → Seated κ' m' o' n t') :
    Tidy (Function.update κ sc.manager.slots.length key)
      (sc.after n t (sc.manager.newSlot.1.bind key sc.manager.slots.length) t') := by
  unfold Scene.after
  constructor
  · intro e he
    rw [length_bind_newSlot]
    rcases mem_bind he with he | ⟨he, hk⟩
    · obtain ⟨hlt, hk⟩ := h.entry e he
      rw [update_of_lt hlt]
      exact ⟨by omega, hk⟩
    · rw [he, Function.update_self]
      exact ⟨by omega, hk⟩
  · refine h.seated_set (hself _ _ _ .fresh) fun k x _ _ hx => hx.mono ?_ ?_ ?_
    · intro k' slot _ ha
      refine (ha.bind_newSlot fun slot hs => ?_).weaken fun _ => List.mem_append_left _
      obtain ⟨i, s, hi, -⟩ := hold slot hs
      simp [hi]
    · intro slot hh
      exact ⟨by rw [sessionIn_bind_newSlot, hh.empty],
        by rw [creatorAt_bind, creatorAt_newSlot hh.first]⟩
    · exact .of_sessions_eq (by simp [newSlot])
  · intro slot i hi
    rw [sessionIn_bind_newSlot] at hi
    obtain ⟨s, hs, hk, hr, hend⟩ := h.filled slot i hi
    rw [update_of_lt (lt_length_of_sessionIn hi), slotOf_bind_newSlot]
    refine ⟨s, by simpa [newSlot] using hs, hk, hr, ?_⟩
    rcases hend with hend | hdr | hab | hcur
    · exact .inl hend
    · exact .inr (.inl (List.mem_append_left _ hdr))
    · exact .inr (.inr (.inl (List.mem_append_left _ hab)))
    · split
      · next hsame =>
        -- a slot of the key has a session that has ended
        obtain ⟨j, x, hj, hx, hend⟩ := hold slot ((slotOf_congr _ hsame).trans hcur)
        obtain rfl := Option.some.inj (hi.symm.trans hj)
        obtain rfl := Option.some.inj (hs.symm.trans hx)
        exact .inl hend
      · exact .inr (.inr (.inr hcur))
  · intro i s hi
    simp only [sessionIn_bind_newSlot]
    exact h.housed_set hn ht (by simpa [newSlot] using hi)

/-- A session that is in a slot stays in order when nothing leaves the table. -/
theorem filled_mono (h : Tidy κ sc) {slot : Nat} {d a : List Nat}
    (hi : sc.manager.sessionIn slot = some i) :
    ∃ s, sc.manager.sessions[i]? = some s ∧ s.key.same (κ slot) = true ∧ 2 ≤ s.state.rank ∧
      (s.state.isTerminal = true ∨ i ∈ sc.drained ++ d ∨ slot ∈ sc.abandoned ++ a ∨
        sc.manager.slotOf (κ slot) = some slot) := by
  obtain ⟨s, hs, hk, hr, hend⟩ := h.filled slot i hi
  exact ⟨s, hs, hk, hr, hend.imp_right
    (Or.imp (List.mem_append_left _) (Or.imp_left (List.mem_append_left _)))⟩

/-- A task comes to the queue of its slot. -/
theorem enter (h : Tidy κ sc) (hn : sc.tasks[n]? = some t) (ht : t.greets? = none)
    (hself : Seated κ (sc.manager.enterSlot slot n) sc.abandoned n t') :
    Tidy κ (sc.after n t (sc.manager.enterSlot slot n) t') := by
  have hof : ∀ k, (sc.manager.enterSlot slot n).slotOf k = sc.manager.slotOf k := by
    intro k
    simp only [slotOf, enterSlot_table]
  unfold Scene.after
  constructor
  · simpa only [enterSlot_table, enterSlot_length] using h.entry
  · refine h.seated_set (hself.weaken fun _ => List.mem_append_left _)
      fun k x _ _ hx => hx.mono ?_ ?_ (.of_sessions_eq (by simp))
    · intro key s _ ha
      refine ⟨by rw [enterSlot_length]; exact ha.bound, ha.same, ?_⟩
      rw [sessionIn_enterSlot, hof]
      exact (ha.weaken fun _ => List.mem_append_left _).current
    · intro s hh
      exact ⟨by rw [sessionIn_enterSlot, hh.empty], creatorAt_enterSlot hh.first⟩
  · intro s i hi
    rw [sessionIn_enterSlot] at hi
    rw [enterSlot_sessions, hof]
    exact h.filled_mono hi
  · intro i s hi
    simp only [sessionIn_enterSlot]
    exact h.housed_set hn ht (by simpa using hi)

/-- A creator launches a server. -/
theorem launch (h : Tidy κ sc) (hn : sc.tasks[n]? = some t) (ht : t.greets? = none)
    (htable : m'.table = sc.manager.table) (hslots : m'.slots = sc.manager.slots)
    {s : Session} (hs : m'.sessions = sc.manager.sessions ++ [s])
    (hself : Seated κ m' sc.abandoned n t')
    (ht' : t'.greets? = some sc.manager.sessions.length) :
    Tidy κ (sc.after n t m' t') := by
  have hin : ∀ slot, m'.sessionIn slot = sc.manager.sessionIn slot := fun slot => by
    simp only [sessionIn, hslots]
  have hof : ∀ k, m'.slotOf k = sc.manager.slotOf k := fun k => by simp only [slotOf, htable]
  unfold Scene.after
  constructor
  · simpa only [htable, hslots] using h.entry
  · refine h.seated_set (hself.weaken fun _ => List.mem_append_left _)
      fun k x _ _ hx => hx.mono ?_ ?_ (.of_append hs)
    · intro key slot _ ha
      refine ⟨by rw [hslots]; exact ha.bound, ha.same, ?_⟩
      rw [hin, hof]
      exact (ha.weaken fun _ => List.mem_append_left _).current
    · intro slot hh
      exact ⟨by rw [hin, hh.empty], by simpa only [creatorAt, hslots] using hh.first⟩
  · intro slot i hi
    rw [hin] at hi
    obtain ⟨x, hx, hrest⟩ := h.filled_mono hi
    obtain ⟨hlt, -⟩ := List.getElem?_eq_some_iff.mp hx
    rw [hof]
    exact ⟨x, by rw [hs, List.getElem?_append_left hlt, hx], hrest⟩
  · intro i x hi
    rcases Nat.lt_or_ge i sc.manager.sessions.length with hlt | hge
    · rw [hs, List.getElem?_append_left hlt] at hi
      simp only [hin]
      exact h.housed_set hn ht hi
    · have hi' : i = sc.manager.sessions.length := by
        obtain ⟨hlt, -⟩ := List.getElem?_eq_some_iff.mp hi
        rw [hs, List.length_append, List.length_singleton] at hlt
        omega
      exact .inr (.inr ⟨n, t', getElem?_set_of_getElem? hn t', by rw [ht', hi']⟩)

/-- **A creation succeeds**: its session comes into the slot, at which nobody else creates. -/
theorem fill (h : Tidy κ sc) (hn : sc.tasks[n]? = some t) (ht : t.greets? = some i)
    (hat : At κ sc.manager sc.abandoned key slot) (hholds : Holds sc.manager n slot)
    {s : Session} (hs : sc.manager.sessions[i]? = some s) (hk : s.key = key)
    (hr : 2 ≤ s.state.rank) (hself : ∀ m' o', Seated κ m' o' n t') :
    Tidy κ (sc.after n t (sc.manager.setSlot slot ⟨some i, []⟩) t') := by
  have hin := fun s => sessionIn_setSlot (t := s) hat.bound ⟨some i, []⟩
  unfold Scene.after
  constructor
  · intro e he
    simpa [setSlot] using h.entry e he
  · refine h.seated_set (hself _ _) fun k x hkn _ hx => hx.mono ?_ ?_ (.of_sessions_eq rfl)
    · intro key' s' _ ha
      refine ⟨by simpa [setSlot] using ha.bound, ha.same, fun hnone hnot => ?_⟩
      rw [hin] at hnone
      split at hnone
      · cases hnone
      · exact ha.current hnone fun hs => hnot (List.mem_append_left _ hs)
    · intro s' hh
      have hne : s' ≠ slot := by
        rintro rfl
        exact hkn (hh.unique hholds)
      exact ⟨by rw [hin, if_neg hne, hh.empty], by rw [creatorAt_setSlot_of_ne hne, hh.first]⟩
  · intro s' j hj
    rw [hin] at hj
    split at hj
    · next hs' =>
      cases hj
      rw [hs']
      refine ⟨s, hs, by rw [hk]; exact hat.same, hr, .inr (.inr ?_)⟩
      by_cases hab : slot ∈ sc.abandoned
      · exact .inl (List.mem_append_left _ hab)
      · exact .inr (hat.current hholds.empty hab)
    · exact h.filled_mono hj
  · intro j x hj
    rcases h.housed j x hj with hend | ⟨s', hs'⟩ | ⟨k, y, hky, hg⟩
    · exact .inl hend
    · refine .inr (.inl ⟨s', ?_⟩)
      have hne : s' ≠ slot := by
        rintro rfl
        rw [hholds.empty] at hs'
        cases hs'
      rw [hin, if_neg hne, hs']
    · rcases eq_or_ne k n with rfl | hne
      · rw [hn] at hky
        cases hky
        rw [ht] at hg
        cases hg
        exact .inr (.inl ⟨slot, by rw [hin, if_pos rfl]⟩)
      · exact .inr (.inr ⟨k, y, by rw [List.getElem?_set_ne hne.symm, hky], hg⟩)

/-- **Slots leave the table**: those without a session that are still in use are
abandoned, and those with a session are drained. -/
theorem drop (h : Tidy κ sc) (hn : sc.tasks[n]? = some t) (ht : t.greets? = none)
    (hsub : ∀ e ∈ m'.table, e ∈ sc.manager.table)
    (hlen : m'.slots.length = sc.manager.slots.length)
    (hin : ∀ slot, m'.sessionIn slot = sc.manager.sessionIn slot)
    (hs : m'.sessions = sc.manager.sessions)
    (hholds : ∀ k slot, k ≠ n → Holds sc.manager k slot → m'.creatorAt slot = some k)
    (hof : ∀ slot, sc.manager.slotOf (κ slot) = some slot → sc.manager.sessionIn slot = none →
      m'.slotOf (κ slot) = some slot ∨ slot ∉ m'.table.map (·.2))
    (hfilled : ∀ slot i, sc.manager.sessionIn slot = some i →
      sc.manager.slotOf (κ slot) = some slot →
      i ∈ t.drains sc.manager ∨ m'.slotOf (κ slot) = some slot)
    (hself : ∀ o', Seated κ m' o' n t') :
    Tidy κ (sc.after n t m' t') := by
  unfold Scene.after
  constructor
  · intro e he
    rw [hlen]
    exact h.entry e (hsub e he)
  · refine h.seated_set (hself _) fun k x hkn hk hx => hx.mono ?_ ?_ (.of_sessions_eq hs)
    · intro key slot hx ha
      refine ⟨by rw [hlen]; exact ha.bound, ha.same, fun hnone hnot => ?_⟩
      rw [hin] at hnone
      have hc := ha.current hnone fun hs => hnot (List.mem_append_left _ hs)
      rcases hof slot hc hnone with hc' | hgone
      · exact hc'
      · have hk' : (sc.tasks.set n t')[k]? = some x := by rw [List.getElem?_set_ne hkn.symm, hk]
        exact absurd (List.mem_append_right _ (mem_abandons hc hnone hgone hk' hx)) hnot
    · intro slot hh
      exact ⟨by rw [hin, hh.empty], hholds k slot hkn hh⟩
  · intro slot i hi
    rw [hin] at hi
    rw [hs]
    obtain ⟨x, hx, hk, hr, hend⟩ := h.filled_mono hi
    refine ⟨x, hx, hk, hr, ?_⟩
    rcases hend with hend | hdr | hab | hc
    · exact .inl hend
    · exact .inr (.inl hdr)
    · exact .inr (.inr (.inl hab))
    · rcases hfilled slot i hi hc with hdr | hc'
      · exact .inr (.inl (List.mem_append_right _ hdr))
      · exact .inr (.inr (.inr hc'))
  · intro i x hi
    rw [hs] at hi
    simp only [hin]
    exact h.housed_set hn ht hi

/-- **A creation fails**, and its slot leaves the table with its key. -/
theorem abandon (h : Tidy κ sc) (hn : sc.tasks[n]? = some t) (ht : t.greets? = none)
    (hat : At κ sc.manager sc.abandoned key slot) (hholds : Holds sc.manager n slot)
    (hslot : sc.manager.slotOf key = some slot) (hself : ∀ m' o', Seated κ m' o' n t') :
    Tidy κ (sc.after n t ((sc.manager.leaveSlot slot).unbind key) t') := by
  have hof : ∀ k, ((sc.manager.leaveSlot slot).unbind key).slotOf k =
      if key.same k then none else sc.manager.slotOf k := by
    intro k
    rw [slotOf_unbind]
    simp only [slotOf, leaveSlot_table]
  have hmem : ∀ e ∈ ((sc.manager.leaveSlot slot).unbind key).table,
      e ∈ sc.manager.table ∧ e.1.same key = false := by
    intro e he
    simpa [unbind] using he
  -- the slot of the key is the one that its creator leaves
  have heq : ∀ s, key.same (κ s) = true → sc.manager.slotOf (κ s) = some s → s = slot := by
    intro s hk hs
    rw [← slotOf_congr _ hk, hslot] at hs
    exact (Option.some.inj hs).symm
  refine h.drop hn ht (fun e he => (hmem e he).1) (by simp [unbind])
    (fun s => sessionIn_leaveSlot) (by simp [unbind]) ?_ ?_ ?_ (hself _)
  · intro k s hkn hh
    have hne : s ≠ slot := by
      rintro rfl
      exact hkn (hh.unique hholds)
    rw [← hh.first]
    exact creatorAt_leaveSlot_of_ne hne
  · intro s hs _
    rw [hof]
    by_cases hk : key.same (κ s) = true
    · obtain rfl := heq s hk hs
      refine .inr fun hin => ?_
      obtain ⟨e, he, rfl⟩ := List.mem_map.mp hin
      obtain ⟨he, hfalse⟩ := hmem e he
      have hsame := SessionKey.same_trans (h.entry e he).2 (SessionKey.same_symm hat.same)
      rw [hfalse] at hsame
      cases hsame
    · rw [if_neg hk]
      exact .inl hs
  · intro s i hi hs
    rw [hof]
    by_cases hk : key.same (κ s) = true
    · obtain rfl := heq s hk hs
      rw [hholds.empty] at hi
      cases hi
    · rw [if_neg hk]
      exact .inr hs

/-- A creation fails whose slot is not in the table. -/
theorem leave (h : Tidy κ sc) (hn : sc.tasks[n]? = some t) (ht : t.greets? = none)
    (hholds : Holds sc.manager n slot) (hself : ∀ m' o', Seated κ m' o' n t') :
    Tidy κ (sc.after n t (sc.manager.leaveSlot slot) t') := by
  have hof : ∀ k, (sc.manager.leaveSlot slot).slotOf k = sc.manager.slotOf k := fun k => by
    simp only [slotOf, leaveSlot_table]
  refine h.drop hn ht (by simp) (by simp) (fun s => sessionIn_leaveSlot) (by simp) ?_ ?_ ?_
    (hself _)
  · intro k s hkn hh
    have hne : s ≠ slot := by
      rintro rfl
      exact hkn (hh.unique hholds)
    rw [creatorAt_leaveSlot_of_ne hne, hh.first]
  · intro s hs _
    exact .inl (by rw [hof, hs])
  · intro s i _ hs
    exact .inr (by rw [hof, hs])

/-- **A shutdown empties the table**, and the sessions in it are drained. -/
theorem drain (h : Tidy κ sc) (hn : sc.tasks[n]? = some (.shutdown none))
    (hself : ∀ m' o', Seated κ m' o' n t') :
    Tidy κ (sc.after n (.shutdown none) { sc.manager with table := [] } t') := by
  refine h.drop hn rfl (by simp) rfl (fun _ => rfl) rfl ?_ ?_ ?_ (hself _)
  · intro k s _ hh
    exact hh.first
  · intro s _ _
    exact .inr (by simp)
  · intro s i hi hs
    obtain ⟨e, he, -, rfl⟩ := exists_entry_of_slotOf hs
    exact .inl (List.mem_filterMap.mpr ⟨e, he, hi⟩)

end Tidy

/-! ### Steps and runs -/

/-- A slot that a key leads to is a place for whoever looks it up. -/
theorem Tidy.at_of_slotOf (h : Tidy κ sc) (hslot : sc.manager.slotOf key = some slot) :
    At κ sc.manager o key slot := by
  obtain ⟨e, he, hk, rfl⟩ := exists_entry_of_slotOf hslot
  obtain ⟨hlt, hsame⟩ := h.entry e he
  have hkey := SessionKey.same_trans (SessionKey.same_symm hk) hsame
  exact ⟨hlt, hkey, fun _ _ => (slotOf_congr _ hkey).symm.trans hslot⟩

/-- **A stage of an assurance preserves the invariant.** -/
theorem Tidy.ensure {language text : String} {stage : EnsureStage} (h : Tidy κ sc)
    (hn : sc.tasks[n]? = some (.ensure language text stage))
    (hs : EnsureStep env sc.now n language text sc.manager stage m' t') :
    ∃ κ', Tidy κ' (sc.after n (.ensure language text stage) m' t') := by
  have hseat := h.seated n _ hn
  -- most stages leave the slots and the table alone, and hand the place on
  have quiet : ∀ {m₁ t₁}, Stirs sc.manager m₁ → Seated κ m₁ sc.abandoned n t₁ →
      Task.greets? (.ensure language text stage) = none →
      ∃ κ', Tidy κ' (sc.after n (.ensure language text stage) m₁ t₁) :=
    fun hm ht hg => ⟨κ, h.stir_set hn hm ht fun i hi => by rw [hg] at hi; cases hi⟩
  cases hs with
  | nameless | root | meet | served | done => exact quiet (.refl _) trivial rfl
  | fresh uri key hnone =>
    refine ⟨_, h.bind_fresh hn rfl (fun s hs => ?_) fun _ _ _ ha => ha⟩
    rw [hnone] at hs
    cases hs
  | replace uri key slot old hslot hold hend =>
    refine ⟨_, h.bind_fresh hn rfl (fun s hs => ?_) fun _ _ _ ha => ha⟩
    rw [hslot] at hs
    cases hs
    obtain ⟨x, hx, -⟩ := h.filled slot old hold
    exact ⟨old, x, hold, hx, by simpa [stateOf, hx] using hend⟩
  | share uri key slot hslot => exact quiet (.refl _) (h.at_of_slotOf hslot) rfl
  | dispose uri key slot old hs => exact quiet hs.stirs (At.stir hseat hs.stirs) rfl
  | disposed => exact quiet (.refl _) hseat rfl
  | queue uri key slot =>
    have ha : At κ sc.manager sc.abandoned key slot := hseat
    refine ⟨κ, h.enter hn rfl ⟨by rw [enterSlot_length]; exact ha.bound, ha.same, ?_⟩⟩
    rw [sessionIn_enterSlot]
    simpa only [slotOf, enterSlot_table] using ha.current
  | create uri key slot server hnone hc => exact quiet (.refl _) ⟨hseat, hnone, hc⟩ rfl
  | unknown uri key slot hnone hc => exact quiet (.refl _) ⟨hseat, hnone, hc⟩ rfl
  | install | unlaunched =>
    have hm : ∀ {m'}, m'.table = sc.manager.table → m'.slots = sc.manager.slots →
        m'.sessions = sc.manager.sessions → Stirs sc.manager m' := .of_sessions_eq
    exact quiet (hm rfl rfl rfl) (Seated.stir hseat (hm rfl rfl rfl)) rfl
  | installed | uninstalled | malformed => exact quiet (.refl _) hseat rfl
  | launch uri key slot server executable spec killFault =>
    refine ⟨κ, h.launch hn rfl rfl rfl rfl ?_ rfl⟩
    obtain ⟨ha, hh⟩ := hseat
    exact ⟨⟨ha.bound, ha.same, ha.current⟩, ⟨hh.empty, hh.first⟩, _,
      List.getElem?_concat_length, rfl, .fresh⟩
  | greet uri key slot session hs =>
    refine ⟨κ, h.stir_set hn hs.stirs ?_ fun i hi => .inl hi⟩
    exact ⟨hseat.1.stir hs.stirs, hseat.2.1.stir hs.stirs, hseat.2.2.step hs⟩
  | fill uri key slot session o =>
    obtain ⟨ha, hh, s, hs, hk, hg⟩ := hseat
    cases hg with
    | ready _ hr => exact ⟨κ, h.fill hn rfl ha hh hs hk hr fun _ _ => trivial⟩
  | ungreeted uri key slot session e =>
    obtain ⟨ha, hh, s, hs, hk, hg⟩ := hseat
    refine ⟨κ, h.stir_set hn (.refl _) ⟨ha, hh⟩ fun i hi => .inr ?_⟩
    cases hi
    cases hg with
    | failed _ hend => exact ⟨s, hs, hend⟩
  | abandon key slot e hslot =>
    exact ⟨κ, h.abandon hn rfl hseat.1 hseat.2 hslot fun _ _ => trivial⟩
  | leave key slot e => exact ⟨κ, h.leave hn rfl hseat.2 fun _ _ => trivial⟩
  | openDocument session hs => exact quiet hs.stirs trivial rfl

/-- A task other than an assurance has no place at a slot. -/
theorem TaskStep.seated {id : Nat} (h : TaskStep env now id m t m' t')
    (ht : ∀ language text stage, t ≠ .ensure language text stage) : Seated κ m' o n t' := by
  cases h with
  | ensure => exact absurd rfl (ht _ _ _)
  | routed hr => cases hr <;> trivial
  | _ => trivial

/-- **Every step preserves the invariant.** -/
theorem Tidy.step (h : Tidy κ sc) (hs : Step env sc e sc') : ∃ κ', Tidy κ' sc' := by
  rcases e with ⟨n, t, t'⟩ | _
  · obtain ⟨m', hn, ht, rfl⟩ := hs.of_advanced
    by_cases hensure : ∃ language text stage, t = .ensure language text stage
    · obtain ⟨language, text, stage, rfl⟩ := hensure
      cases ht with
      | ensure he => exact h.ensure hn he
    · have hensure : ∀ language text stage, t ≠ .ensure language text stage :=
        fun l x s hc => hensure ⟨l, x, s, hc⟩
      have hgreets : t.greets? = none := by
        cases t with
        | ensure => exact absurd rfl (hensure _ _ _)
        | _ => rfl
      rcases ht.stirs_or_drains hensure with hm | ⟨rfl, rfl⟩
      · refine ⟨κ, h.stir_set hn hm (ht.seated hensure) fun i hi => ?_⟩
        rw [hgreets] at hi
        cases hi
      · refine ⟨κ, h.drain hn fun m o => ?_⟩
        cases ht <;> trivial
  · obtain ⟨hm, hd, ha, htasks⟩ := hs.of_silent
    refine ⟨κ, h.stir hm (fun i hi => by rw [hd]; exact hi) (fun i hi => by rw [ha]; exact hi)
      ?_ ?_⟩
    · intro k t hk
      rw [ha]
      rcases htasks with heq | ⟨x, hx, heq⟩
      · rw [heq] at hk
        exact (h.seated k t hk).stir hm
      · rw [heq] at hk
        rcases getElem?_concat_cases hk with rfl | hk
        · exact seated_of_isFresh hx
        · exact (h.seated k t hk).stir hm
    · intro k t i hk hi
      rcases htasks with heq | ⟨x, hx, heq⟩
      · exact .inr ⟨k, t, by rw [heq]; exact hk, hi⟩
      · obtain ⟨hlt, -⟩ := List.getElem?_eq_some_iff.mp hk
        exact .inr ⟨k, t, by rw [heq, List.getElem?_append_left hlt]; exact hk, hi⟩

theorem Run.tidy {R : Scene → Event → Scene → Prop} {files : FileTree}
    (hR : ∀ {sc e sc'}, R sc e sc' → Step env sc e sc')
    (r : Run R (.start files now) sc) : ∃ κ, Tidy κ sc := by
  refine Run.invariant (I := fun sc => ∃ κ, Tidy κ sc) ?_
    ⟨fun _ => default, tidy_start files now _⟩ r
  rintro sc e sc' ⟨κ, h⟩ hs
  exact h.step (hR hs)

end Manager

end LanguageHub
