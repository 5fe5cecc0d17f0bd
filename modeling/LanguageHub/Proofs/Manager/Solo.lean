import LanguageHub.Proofs.Manager.Operations

/-!
# What a call leaves alone

A call for one key has the manager **to itself** while nobody comes and no other call goes on
(`Manager.Solo`). Others may be under way, and may have left a slot without a session.

Such a call leaves alone all that is of other keys (`Manager.Spared`): their entries in the table,
the slots that these lead to, and the sessions in the slots. Only the server and the background of
such a session move it (`Session.Undisturbed`), and nobody gives it up, since it is in use.

A call that replaces a session works on a session that is not its own. This one is in no slot of
another key, because a session knows its key (`Manager.Tidy.not_other`).
-/

namespace LanguageHub

namespace Session

variable {s s' s'' : Session}

/-- **Nobody has worked on a session**: what has become of it, its server and its background have
done. It may have come to its end, but only because the server has. -/
structure Undisturbed (s s' : Session) : Prop where
  key : s'.key = s.key
  documents : s'.documents = s.documents
  held : s'.held = s.held
  disposing : s'.disposing = s.disposing
  killRequested : s'.killRequested = s.killRequested
  state : s'.state = s.state ∨ s'.state = s.state.next .processExited

namespace Undisturbed

theorem refl (s : Session) : Undisturbed s s := ⟨rfl, rfl, rfl, rfl, rfl, .inl rfl⟩

theorem trans (h : Undisturbed s s') (h' : Undisturbed s' s'') : Undisturbed s s'' where
  key := h'.key.trans h.key
  documents := h'.documents.trans h.documents
  held := h'.held.trans h.held
  disposing := h'.disposing.trans h.disposing
  killRequested := h'.killRequested.trans h.killRequested
  state := by
    have htwice : ∀ st : SessionState, (st.next .processExited).next .processExited =
        st.next .processExited := fun st => by cases st <;> rfl
    rcases h'.state with heq' | heq'
    · rw [heq']
      exact h.state
    · rcases h.state with heq | heq
      · exact .inr (by rw [heq', heq])
      · exact .inr (by rw [heq', heq, htwice])

end Undisturbed

theorem Turn.undisturbed {e : Event} (h : Turn s e s') : Undisturbed s s' := by
  cases h with
  | exit | endReading => exact ⟨rfl, rfl, rfl, rfl, rfl, .inr rfl⟩
  | read frame rest =>
    rw [dispatch_session_eq]
    exact ⟨rfl, rfl, rfl, rfl, rfl, .inl rfl⟩
  | _ => exact ⟨rfl, rfl, rfl, rfl, rfl, .inl rfl⟩

end Session

namespace Manager

variable {env : ManagerEnvironment} {sc sc' : Scene} {e : Event} {m m₀ m' : Manager}
  {κ : Nat → SessionKey} {still : List Nat} {key : SessionKey} {slot n i now : Nat} {t t' : Task}
  {op : Operation}

/-! ### The other keys -/

/-- The entries of the table that are not of a key. -/
def otherEntries (m : Manager) (key : SessionKey) : List (SessionKey × Nat) :=
  m.table.filter fun e => !e.1.same key

theorem mem_otherEntries {x : SessionKey × Nat} :
    x ∈ m.otherEntries key ↔ x ∈ m.table ∧ x.1.same key = false := by
  simp [otherEntries]

/-- Only its table decides what the entries are. -/
theorem otherEntries_congr (h : m'.table = m.table) : m'.otherEntries key = m.otherEntries key := by
  rw [otherEntries, h, otherEntries]

/-- Binding a key leaves the other entries as they are. -/
theorem otherEntries_bind : (m.bind key slot).otherEntries key = m.otherEntries key := by
  unfold bind otherEntries
  split
  · rw [List.filter_map]
    have hsame : ((fun e : SessionKey × Nat => !e.1.same key) ∘
        fun e : SessionKey × Nat => if e.1.same key then (e.1, slot) else e) =
          fun e => !e.1.same key := by
      funext e
      by_cases he : e.1.same key = true <;> simp [he]
    rw [hsame]
    refine (List.map_congr_left fun e he => ?_).trans (List.map_id _)
    have hother := (List.mem_filter.mp he).2
    rw [Bool.not_eq_true'] at hother
    simp [hother]
  · simp [SessionKey.same_refl]

/-- Unbinding a key leaves the other entries, and only them. -/
theorem otherEntries_unbind : (m.unbind key).otherEntries key = m.otherEntries key := by
  simp [unbind, otherEntries]

/-- **A session of another key**: one in a slot that an entry of another key leads to. -/
def Other (m : Manager) (key : SessionKey) (i : Nat) (s : Session) : Prop :=
  ∃ x ∈ m.otherEntries key, m.sessionIn x.2 = some i ∧ m.sessions[i]? = some s

/-- **What a call for a key has left alone** since a manager was `m₀`. The sessions `still` are
those that nothing has happened to. -/
structure Spared (m₀ : Manager) (still : List Nat) (key : SessionKey) (m : Manager) : Prop where
  entries : m.otherEntries key = m₀.otherEntries key
  slots : ∀ x ∈ m₀.otherEntries key, m.sessionIn x.2 = m₀.sessionIn x.2
  sessions : ∀ (i : Nat) (s : Session), m₀.Other key i s →
    ∃ s', m.sessions[i]? = some s' ∧ s.Undisturbed s' ∧ (i ∈ still → s' = s)
  length : m₀.sessions.length ≤ m.sessions.length

theorem Spared.refl (m : Manager) (still : List Nat) (key : SessionKey) : Spared m still key m where
  entries := rfl
  slots := fun _ _ => rfl
  sessions := fun _ s ⟨_, _, _, hi⟩ => ⟨s, hi, .refl s, fun _ => rfl⟩
  length := Nat.le_refl _

/-- What was left alone stays so if the entries and the slots stay, and the sessions in them. -/
theorem Spared.move (h : Spared m₀ still key m)
    (hentries : m'.otherEntries key = m.otherEntries key)
    (hslots : ∀ slot, m'.sessionIn slot = m.sessionIn slot)
    (hsessions : ∀ (i : Nat) (s s₁ : Session), m₀.Other key i s → m.sessions[i]? = some s₁ →
      ∃ s', m'.sessions[i]? = some s' ∧ s₁.Undisturbed s' ∧ (i ∈ still → s' = s₁))
    (hlength : m.sessions.length ≤ m'.sessions.length) : Spared m₀ still key m' where
  entries := hentries.trans h.entries
  slots := fun x hx => (hslots x.2).trans (h.slots x hx)
  sessions := by
    intro i s ho
    obtain ⟨s₁, hi, hu, hstill⟩ := h.sessions i s ho
    obtain ⟨s', hi', hu', hstill'⟩ := hsessions i s s₁ ho hi
    exact ⟨s', hi', hu.trans hu', fun hmem => (hstill' hmem).trans (hstill hmem)⟩
  length := Nat.le_trans h.length hlength

/-- A stage that leaves all sessions as they are, and may launch one. -/
theorem Spared.keep (h : Spared m₀ still key m)
    (hentries : m'.otherEntries key = m.otherEntries key)
    (hslots : ∀ slot, m'.sessionIn slot = m.sessionIn slot) {l : List Session}
    (hs : m'.sessions = m.sessions ++ l) : Spared m₀ still key m' := by
  refine h.move hentries hslots (fun i s s₁ _ hi => ?_) (by simp [hs])
  obtain ⟨hlt, -⟩ := List.getElem?_eq_some_iff.mp hi
  exact ⟨s₁, by rw [hs, List.getElem?_append_left hlt, hi], .refl s₁, fun _ => rfl⟩

/-- A stage of an operation on a session that is none of another key. -/
theorem Spared.operate {id : Nat} {op' : Operation} (h : Spared m₀ still key m)
    (hs : SessionStep env now id m i op m' op') (hi : ∀ s, ¬ m₀.Other key i s) :
    Spared m₀ still key m' := by
  have hm := hs.stirs
  refine h.move (otherEntries_congr hm.table) hm.sessionIn (fun j s s₁ ho hj => ?_)
    (Nat.le_of_eq hm.length.symm)
  have hne : i ≠ j := by
    rintro rfl
    exact hi s ho
  obtain ⟨-, -⟩ := hs
  exact ⟨s₁, by rw [setSession, List.getElem?_set_ne hne, hj], .refl s₁, fun _ => rfl⟩

/-- A session of another key was there before the call. -/
theorem Other.lt {s : Session} (h : m₀.Other key i s) : i < m₀.sessions.length := by
  obtain ⟨_, -, -, hi⟩ := h
  exact (List.getElem?_eq_some_iff.mp hi).1

/-- **A session that is in the slot of a key is none of another key.** -/
theorem Tidy.not_other (h : Tidy κ sc) (hspared : Spared m₀ still key sc.manager)
    (hslot : sc.manager.slotOf key = some slot) (hi : sc.manager.sessionIn slot = some i)
    (s : Session) : ¬ m₀.Other key i s := by
  rintro ⟨x, hx, hin, -⟩
  obtain ⟨y, hy, hkey, rfl⟩ := exists_entry_of_slotOf hslot
  obtain ⟨hx', hother⟩ := mem_otherEntries.mp (hspared.entries ▸ hx)
  obtain ⟨s₁, hs₁, hkey₁, -⟩ := h.filled y.2 i hi
  obtain ⟨s₂, hs₂, hkey₂, -⟩ := h.filled x.2 i ((hspared.slots x hx).trans hin)
  obtain rfl := Option.some.inj (hs₁.symm.trans hs₂)
  -- the session has the key of both slots
  have hslots : (κ x.2).same (κ y.2) = true :=
    SessionKey.same_trans (SessionKey.same_symm hkey₂) hkey₁
  have hsame : x.1.same key = true :=
    SessionKey.same_trans (SessionKey.same_trans (h.entry x hx').2 hslots)
      (SessionKey.same_trans (SessionKey.same_symm (h.entry y hy).2) hkey)
  rw [hother] at hsame
  cases hsame

/-! ### Steps that are no stage of a task -/

theorem mem_inUse_of_mem_table {tasks : List Task} {x : SessionKey × Nat} (hx : x ∈ m.table)
    (hi : m.sessionIn x.2 = some i) : i ∈ m.inUse tasks :=
  List.mem_append_left _ (List.mem_filterMap.mpr
    ⟨x.2, List.mem_append_left _ (List.mem_map_of_mem hx), hi⟩)

/-- **A session when no task goes on**: an order to kill is not taken back, and a session that is in
use is not given up. -/
theorem Step.session_of_silent {s : Session} (hs : Step env sc .silent sc')
    (hi : sc.manager.sessions[i]? = some s) : ∃ s', sc'.manager.sessions[i]? = some s' ∧
      (s.killRequested = true → s'.killRequested = true) ∧
      (i ∈ sc.manager.inUse sc.tasks → s.Undisturbed s') := by
  have hset : ∀ {j : Nat} {x x' : Session}, sc.manager.sessions[j]? = some x →
      x.Undisturbed x' → ∃ s', (sc.manager.setSession j x').sessions[i]? = some s' ∧
        (s.killRequested = true → s'.killRequested = true) ∧
        (i ∈ sc.manager.inUse sc.tasks → s.Undisturbed s') := by
    intro j x x' hj hu
    obtain ⟨hlt, -⟩ := List.getElem?_eq_some_iff.mp hj
    rcases eq_or_ne j i with rfl | hne
    · rw [hi] at hj
      obtain rfl := Option.some.inj hj
      exact ⟨x', List.getElem?_set_self hlt, fun hk => hu.killRequested.trans hk, fun _ => hu⟩
    · exact ⟨s, (List.getElem?_set_ne hne).trans hi, id, fun _ => .refl s⟩
  cases hs with
  | call | rewrite | elapse => exact ⟨s, hi, id, fun _ => .refl s⟩
  | background j p hj hb => exact hset hj (Session.Turn.of_stepPart hb).undisturbed
  | serve j hj hl => exact hset hj ⟨rfl, rfl, rfl, rfl, rfl, .inl rfl⟩
  | release =>
    by_cases hgiven : (s.held && !(sc.manager.inUse sc.tasks).contains i) = true
    · refine ⟨s.release, ?_, fun _ => rfl, fun hused => ?_⟩
      · simp only [releaseUnused, List.getElem?_mapIdx, hi, Option.map_some, if_pos hgiven]
      · simp [hused] at hgiven
    · refine ⟨s, ?_, id, fun _ => .refl s⟩
      simp only [releaseUnused, List.getElem?_mapIdx, hi, Option.map_some, if_neg hgiven]

/-! ### A call that has the manager alone -/

/-- Whether a step is a stage of one task, or of none. -/
def Event.isOwn (n : Nat) : Event → Bool
  | .advanced k _ _ => k == n
  | .silent => true

/-- **A step while one task has the manager alone**: nobody comes, no other task goes on, and
nothing happens to the sessions `still` but what the task does to them. -/
structure Solo (env : ManagerEnvironment) (n : Nat) (still : List Nat) (sc : Scene) (e : Event)
    (sc' : Scene) : Prop where
  step : Step env sc e sc'
  uncalled : sc'.tasks.length = sc.tasks.length
  own : e.isOwn n = true
  quiet : e = .silent → ∀ i ∈ still, sc'.manager.sessions[i]? = sc.manager.sessions[i]?

/-- A step is a stage of the task, or none at all. -/
theorem Solo.cases (hs : Solo env n still sc e sc') (hn : sc.tasks[n]? = some t) :
    (∃ m' t', TaskStep env sc.now n sc.manager t m' t' ∧ sc' = sc.after n t m' t') ∨
    (e = .silent ∧ sc'.tasks[n]? = some t) := by
  rcases e with ⟨k, x, x'⟩ | _
  · have hk : k = n := by simpa [Event.isOwn] using hs.own
    subst hk
    obtain ⟨m', hk, ht, rfl⟩ := hs.step.of_advanced
    rw [hn] at hk
    obtain rfl := Option.some.inj hk
    exact .inl ⟨m', x', ht, rfl⟩
  · obtain ⟨t', hn', rfl | ⟨he, -⟩⟩ := hs.step.task hn
    · exact .inr ⟨rfl, hn'⟩
    · cases he

theorem Solo.advance {log : List LogEntry} (hn : sc.tasks[n]? = some t)
    (hs : sc.manager.step env sc.now n 0 t = some (m', t', log)) :
    Solo env n still sc (.advanced n t t') (sc.after n t m' t') where
  step := .advance n 0 t hn hs
  uncalled := List.length_set
  own := by simp [Event.isOwn]
  quiet := fun he => by cases he

/-- A step that is no call and no stage of another task. -/
theorem Solo.of_step (hs : Step env sc e sc')
    (h : (sc'.tasks.length == sc.tasks.length && e.isOwn n) = true) : Solo env n [] sc e sc' := by
  rw [Bool.and_eq_true, beq_iff_eq] at h
  exact ⟨hs, h.1, h.2, fun _ i hi => absurd hi List.not_mem_nil⟩

/-- When no task goes on, a call has left alone what it had. -/
theorem Spared.silent (h : Spared m₀ still key sc.manager) (hs : Solo env n still sc .silent sc') :
    Spared m₀ still key sc'.manager := by
  have hm := hs.step.of_silent.1
  refine h.move (otherEntries_congr hm.table) hm.sessionIn (fun i s s₁ ho hi => ?_)
    (Nat.le_of_eq hm.length.symm)
  obtain ⟨x, hx, hin, -⟩ := ho
  have hused : i ∈ sc.manager.inUse sc.tasks :=
    mem_inUse_of_mem_table (mem_otherEntries.mp (h.entries ▸ hx)).1 ((h.slots x hx).trans hin)
  obtain ⟨s', hi', -, hu⟩ := hs.step.session_of_silent hi
  refine ⟨s', hi', hu hused, fun hmem => ?_⟩
  rw [hs.quiet rfl i hmem, hi] at hi'
  exact (Option.some.inj hi').symm

end Manager

end LanguageHub
