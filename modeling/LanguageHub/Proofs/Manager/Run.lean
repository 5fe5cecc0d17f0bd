import LanguageHub.Proofs.Manager.Stages
import LanguageHub.Proofs.Session.Run
import Mathlib.Logic.Relation

/-!
# Runs of a manager

A `Manager.Scene` is a manager with everybody who asks something of it, and a
`Manager.Step` is what happens next: somebody comes with a new task, one branch of one
task goes on by one stage, one part of the background of one session takes its step, a
server does something at its end of the connection, the files change, time passes, or
sessions that nobody uses are given up. Nothing decides between them, so that a run is
**any interleaving** of any number of tasks with servers and files that may do anything at
any time. How installations and launches end is up to the environment.

A run is a chain of steps of *some* kind, because what is true of a manager may be true of
some runs only.

A scene remembers two things that a manager does not: which sessions a shutdown has taken
out of the table to dispose of them, and which slots were **abandoned**. A slot is
abandoned when it leaves the table without a session while a task still uses it.

Inside a session a step of a manager is a step of that session, or nothing. So what never goes
back in a session never goes back here (`Manager.Evolves`), and a step that only moves sessions
leaves the slots and the table alone (`Manager.Stirs`).
-/

namespace LanguageHub

/-- Whether a caller of a manager can come with a task. -/
def Task.isFresh : Task → Bool
  | .ensure _ _ (.begin _) | .routed _ (.begin _) | .symbols _ _ none | .shutdown none => true
  | _ => false

/-- The sessions that a task takes out of the table to dispose of them. -/
def Task.drains (m : Manager) : Task → List Nat
  | .shutdown none => m.listed
  | _ => []

namespace Manager

/-- A manager and those who ask something of it. -/
structure Scene where
  manager : Manager
  /-- The tasks of the callers, by their numbers. -/
  tasks : List Task
  now : Nat
  /-- The sessions that were taken out of the table to be disposed of. -/
  drained : List Nat
  /-- The slots that left the table without a session while a task used them. -/
  abandoned : List Nat

/-- A manager without sessions that nobody has asked for anything. -/
def Scene.start (files : FileTree) (now : Nat) : Scene := ⟨.start files, [], now, [], []⟩

/-- The slots without a session that leave the table although one of the tasks uses them. -/
def abandons (m m' : Manager) (tasks : List Task) : List Nat :=
  (m.table.map (·.2)).filter fun slot => (m.sessionIn slot).isNone &&
    !(m'.table.map (·.2)).contains slot && (tasks.flatMap Task.slotRefs).contains slot

/-- The scene after a stage of a task. -/
def Scene.after (sc : Scene) (n : Nat) (t : Task) (m' : Manager) (t' : Task) : Scene where
  manager := m'
  tasks := sc.tasks.set n t'
  now := sc.now
  drained := sc.drained ++ t.drains sc.manager
  abandoned := sc.abandoned ++ sc.manager.abandons m' (sc.tasks.set n t')

/-- What is seen of a step. -/
inductive Event where
  /-- A task has gone on by one stage. -/
  | advanced (task : Nat) (before after : Task)
  | silent

/-- **What can happen next.** -/
inductive Step (env : ManagerEnvironment) (sc : Scene) : Event → Scene → Prop
  | call (t : Task) : t.isFresh = true →
      Step env sc .silent { sc with tasks := sc.tasks ++ [t] }
  | advance (n branch : Nat) (t : Task) {m' : Manager} {t' : Task} {log : List LogEntry} :
      sc.tasks[n]? = some t → sc.manager.step env sc.now n branch t = some (m', t', log) →
      Step env sc (.advanced n t t') (sc.after n t m' t')
  | background (i : Nat) (p : Session.Part) {s : Session} {b : Session.BackgroundStep} :
      sc.manager.sessions[i]? = some s → s.stepPart p = some b →
      Step env sc .silent { sc with manager := { sc.manager.setSession i b.session with
        hub := b.published.foldl Hub.publish sc.manager.hub } }
  | serve (i : Nat) {s : Session} {l : Link} : sc.manager.sessions[i]? = some s →
      s.link.Serves l →
      Step env sc .silent { sc with manager := sc.manager.setSession i { s with link := l } }
  | rewrite (files : FileTree) : Step env sc .silent { sc with
      manager := { sc.manager with install := { sc.manager.install with files := files } } }
  | elapse {t : Nat} : sc.now ≤ t → Step env sc .silent { sc with now := t }
  | release : Step env sc .silent { sc with manager := sc.manager.releaseUnused sc.tasks }

/-- **A run**: a chain of steps of one kind. -/
abbrev Run (R : Scene → Event → Scene → Prop) : Scene → Scene → Prop :=
  Relation.ReflTransGen fun sc sc' => ∃ e, R sc e sc'

variable {env : ManagerEnvironment} {R : Scene → Event → Scene → Prop} {sc sc' : Scene}
  {e : Event} {m m' : Manager} {now id i : Nat} {op op' : Operation}

/-- What abandons a slot: it has no session, it leaves the table, and a task uses it. -/
theorem mem_abandons {tasks : List Task} {slot n : Nat} {t : Task} {key : SessionKey}
    (hslot : m.slotOf key = some slot) (hnone : m.sessionIn slot = none)
    (hgone : slot ∉ m'.table.map (·.2)) (hn : tasks[n]? = some t) (ht : slot ∈ t.slotRefs) :
    slot ∈ m.abandons m' tasks := by
  obtain ⟨e, he, -, rfl⟩ := exists_entry_of_slotOf hslot
  refine List.mem_filter.mpr ⟨List.mem_map_of_mem he, ?_⟩
  have hused : e.2 ∈ tasks.flatMap Task.slotRefs :=
    List.mem_flatMap.mpr ⟨t, List.mem_of_getElem? hn, ht⟩
  simp only [hnone, Option.isNone_none, Bool.true_and, Bool.and_eq_true, Bool.not_eq_true',
    List.contains_iff_mem, hused, and_true]
  simpa using hgone

/-- What is seen as a stage of a task is one. -/
theorem Step.of_advanced {n : Nat} {t t' : Task} (h : Step env sc (.advanced n t t') sc') :
    ∃ m', sc.tasks[n]? = some t ∧ TaskStep env sc.now n sc.manager t m' t' ∧
      sc' = sc.after n t m' t' := by
  cases h with
  | advance _ branch _ hn hs => exact ⟨_, hn, .of_step hs, rfl⟩

/-! ### What never goes back -/

/-- **Every session goes on**, and none is forgotten. -/
def Evolves (m m' : Manager) : Prop :=
  ∀ (i : Nat) (s : Session), m.sessions[i]? = some s →
    ∃ s', m'.sessions[i]? = some s' ∧ Session.LeadsTo s s'

theorem Evolves.refl (m : Manager) : Evolves m m := fun _ s hs => ⟨s, hs, .refl s⟩

theorem Evolves.of_sessions_eq (h : m'.sessions = m.sessions) : Evolves m m' :=
  fun _ s hs => ⟨s, h ▸ hs, .refl s⟩

theorem Evolves.of_append {l : List Session} (h : m'.sessions = m.sessions ++ l) :
    Evolves m m' := by
  intro i s hs
  obtain ⟨hlt, -⟩ := List.getElem?_eq_some_iff.mp hs
  exact ⟨s, by rw [h, List.getElem?_append_left hlt, hs], .refl s⟩

/-- **Only sessions have moved**, each on its own. -/
structure Stirs (m m' : Manager) : Prop where
  table : m'.table = m.table
  slots : m'.slots = m.slots
  length : m'.sessions.length = m.sessions.length
  evolves : Evolves m m'

namespace Stirs

theorem of_sessions_eq (ht : m'.table = m.table) (hl : m'.slots = m.slots)
    (hs : m'.sessions = m.sessions) : Stirs m m' :=
  ⟨ht, hl, by rw [hs], .of_sessions_eq hs⟩

theorem refl (m : Manager) : Stirs m m := of_sessions_eq rfl rfl rfl

/-- One session moves, and something outside of sessions may be changed. -/
theorem of_set {s s' : Session} (hi : m.sessions[i]? = some s) (hl : Session.LeadsTo s s')
    (ht : m'.table = m.table) (hslots : m'.slots = m.slots)
    (hs : m'.sessions = m.sessions.set i s') : Stirs m m' := by
  refine ⟨ht, hslots, by rw [hs, List.length_set], fun j x hx => ?_⟩
  obtain ⟨hlt, -⟩ := List.getElem?_eq_some_iff.mp hi
  rw [hs]
  rcases eq_or_ne j i with rfl | hne
  · rw [hi] at hx
    cases hx
    exact ⟨s', by simp [hlt], hl⟩
  · exact ⟨x, by rw [List.getElem?_set_ne hne.symm, hx], .refl x⟩

theorem sessionIn (h : Stirs m m') (slot : Nat) : m'.sessionIn slot = m.sessionIn slot := by
  simp [Manager.sessionIn, h.slots]

theorem creatorAt (h : Stirs m m') (slot : Nat) : m'.creatorAt slot = m.creatorAt slot := by
  simp [Manager.creatorAt, h.slots]

theorem slotOf (h : Stirs m m') (key : SessionKey) : m'.slotOf key = m.slotOf key := by
  simp [Manager.slotOf, h.table]

/-- No session is new. -/
theorem exists_before {s' : Session} (h : Stirs m m') (hi : m'.sessions[i]? = some s') :
    ∃ s, m.sessions[i]? = some s ∧ Session.LeadsTo s s' := by
  obtain ⟨hlt, -⟩ := List.getElem?_eq_some_iff.mp hi
  rw [h.length] at hlt
  obtain ⟨x, hx, hl⟩ := h.evolves i _ (List.getElem?_eq_getElem hlt)
  rw [hi] at hx
  cases hx
  exact ⟨_, List.getElem?_eq_getElem hlt, hl⟩

end Stirs

theorem SessionStep.stirs (h : SessionStep env now id m i op m' op') : Stirs m m' := by
  obtain ⟨hi, ho⟩ := h
  exact .of_set hi ho.leadsTo rfl rfl rfl

theorem releaseUnused_stirs (m : Manager) (tasks : List Task) :
    Stirs m (m.releaseUnused tasks) := by
  refine ⟨rfl, rfl, by simp [releaseUnused], fun i s hi => ?_⟩
  simp only [releaseUnused, List.getElem?_mapIdx, hi, Option.map_some, Option.some.injEq,
    exists_eq_left']
  split
  · exact ⟨rfl, rfl, rfl, Nat.le_refl _, Nat.le_refl _, id, id⟩
  · exact .refl s

/-- **A step that is no stage of a task only moves sessions**, or somebody comes with a new task. -/
theorem Step.of_silent (h : Step env sc .silent sc') :
    Stirs sc.manager sc'.manager ∧ sc'.drained = sc.drained ∧ sc'.abandoned = sc.abandoned ∧
      (sc'.tasks = sc.tasks ∨ ∃ t, t.isFresh = true ∧ sc'.tasks = sc.tasks ++ [t]) := by
  cases h with
  | call t ht => exact ⟨.refl _, rfl, rfl, .inr ⟨t, ht, rfl⟩⟩
  | background i p hi hb =>
    exact ⟨.of_set hi (Session.Turn.of_stepPart hb).leadsTo rfl rfl rfl, rfl, rfl, .inl rfl⟩
  | serve i hi _ =>
    refine ⟨.of_set hi ?_ rfl rfl rfl, rfl, rfl, .inl rfl⟩
    exact ⟨rfl, rfl, rfl, Nat.le_refl _, Nat.le_refl _, id, id⟩
  | rewrite files => exact ⟨.of_sessions_eq rfl rfl rfl, rfl, rfl, .inl rfl⟩
  | elapse => exact ⟨.refl _, rfl, rfl, .inl rfl⟩
  | release => exact ⟨releaseUnused_stirs _ _, rfl, rfl, .inl rfl⟩

/-- **A step is a stage of a task, or the task stays as it is.** -/
theorem Step.task {n : Nat} {t : Task} (hs : Step env sc e sc') (hn : sc.tasks[n]? = some t) :
    ∃ t', sc'.tasks[n]? = some t' ∧
      (t' = t ∨ (e = .advanced n t t' ∧ TaskStep env sc.now n sc.manager t sc'.manager t')) := by
  obtain ⟨hlt, -⟩ := List.getElem?_eq_some_iff.mp hn
  rcases e with ⟨k, x, x'⟩ | _
  · obtain ⟨m', hk, ht, rfl⟩ := hs.of_advanced
    rcases eq_or_ne k n with rfl | hne
    · rw [hn] at hk
      obtain rfl := Option.some.inj hk
      exact ⟨x', getElem?_set_of_getElem? hn x', .inr ⟨rfl, ht⟩⟩
    · exact ⟨t, by rw [Scene.after, List.getElem?_set_ne hne, hn], .inl rfl⟩
  · obtain ⟨-, -, -, heq | ⟨x, -, heq⟩⟩ := hs.of_silent
    · exact ⟨t, by rw [heq, hn], .inl rfl⟩
    · exact ⟨t, by rw [heq, List.getElem?_append_left hlt, hn], .inl rfl⟩

theorem EnsureStep.evolves {language text : String} {stage : EnsureStage} {t : Task}
    (h : EnsureStep env now id language text m stage m' t) : Evolves m m' := by
  cases h with
  | dispose _ _ _ _ hs | greet _ _ _ _ hs | openDocument _ hs => exact hs.stirs.evolves
  | launch => exact .of_append rfl
  | fresh | replace => exact .of_sessions_eq (by simp [newSlot])
  | queue | abandon | leave => exact .of_sessions_eq (by simp [unbind])
  | _ => exact .of_sessions_eq rfl

/-- **A task other than an assurance only moves sessions**, or it empties the table. -/
theorem TaskStep.stirs_or_drains {t t' : Task} (h : TaskStep env now id m t m' t')
    (ht : ∀ language text stage, t ≠ .ensure language text stage) :
    Stirs m m' ∨ (t = .shutdown none ∧ m' = { m with table := [] }) := by
  cases h with
  | ensure => exact absurd rfl (ht _ _ _)
  | routed hr =>
    cases hr with
    | ask _ _ _ _ _ hs | run _ hs => exact .inl hs.stirs
    | _ => exact .inl (.refl m)
  | searchBranch _ _ _ _ _ hs | drainBranch _ _ _ hs | direct _ hs => exact .inl hs.stirs
  | drainNone | drain => exact .inr ⟨rfl, rfl⟩
  | _ => exact .inl (.refl m)

theorem TaskStep.evolves {t t' : Task} (h : TaskStep env now id m t m' t') : Evolves m m' := by
  by_cases ht : ∃ language text stage, t = .ensure language text stage
  · obtain ⟨language, text, stage, rfl⟩ := ht
    cases h with
    | ensure he => exact he.evolves
  · rcases h.stirs_or_drains (fun l x s he => ht ⟨l, x, s, he⟩) with hs | ⟨-, rfl⟩
    · exact hs.evolves
    · exact .of_sessions_eq rfl

theorem Step.evolves (h : Step env sc e sc') : Evolves sc.manager sc'.manager := by
  cases e with
  | advanced n t t' =>
    obtain ⟨m', -, ht, rfl⟩ := h.of_advanced
    exact ht.evolves
  | silent => exact h.of_silent.1.evolves

/-- **What holds at first and survives every step holds throughout a run.** -/
theorem Run.invariant {I : Scene → Prop} (hstep : ∀ {sc e sc'}, I sc → R sc e sc' → I sc')
    (h₀ : I sc) (r : Run R sc sc') : I sc' := by
  induction r with
  | refl => exact h₀
  | tail _ hs ih =>
    obtain ⟨e, hs⟩ := hs
    exact hstep ih hs

/-- A run of one kind is one of a kind that has its steps. -/
theorem Run.mono {R' : Scene → Event → Scene → Prop}
    (hR : ∀ {sc e sc'}, R sc e sc' → R' sc e sc') (r : Run R sc sc') : Run R' sc sc' := by
  refine Relation.ReflTransGen.mono ?_ _ _ r
  rintro _ _ ⟨e, hs⟩
  exact ⟨e, hR hs⟩

/-! ### Runs that are computed -/

/-- What can be chosen to happen next. -/
inductive Move where
  | call (t : Task)
  | advance (task branch : Nat)
  | background (session : Nat) (part : Session.Part)
  /-- The output of a server arrives. -/
  | output (session : Nat) (bytes : List UInt8)

/-- What becomes of a choice, if it can be made. -/
def Move.play (env : ManagerEnvironment) (sc : Scene) : Move → Option (Event × Scene)
  | .call t =>
    if t.isFresh then some (.silent, { sc with tasks := sc.tasks ++ [t] }) else none
  | .advance n branch => (sc.tasks[n]?).bind fun t =>
    (sc.manager.step env sc.now n branch t).map fun x =>
      (.advanced n t x.2.1, sc.after n t x.1 x.2.1)
  | .background i p => (sc.manager.sessions[i]?).bind fun s =>
    (s.stepPart p).map fun b => (.silent, { sc with
      manager := { sc.manager.setSession i b.session with
        hub := b.published.foldl Hub.publish sc.manager.hub } })
  | .output i bytes => (sc.manager.sessions[i]?).map fun s => (.silent, { sc with
      manager := sc.manager.setSession i
        { s with link := { s.link with arrived := s.link.arrived ++ bytes } } })

/-- What becomes of choices one after the other, if all of them can be made and are allowed. -/
def Scene.play (env : ManagerEnvironment) (allowed : Scene → Event → Scene → Bool) :
    List Move → Scene → Option Scene
  | [], sc => some sc
  | mv :: rest, sc => (mv.play env sc).bind fun x =>
    if allowed sc x.1 x.2 then x.2.play env allowed rest else none

theorem Step.of_play {mv : Move} (h : mv.play env sc = some (e, sc')) : Step env sc e sc' := by
  cases mv with
  | call t =>
    simp only [Move.play] at h
    split at h
    · next ht =>
      cases h
      exact .call t ht
    · cases h
  | advance n branch =>
    obtain ⟨t, hn, h⟩ := Option.bind_eq_some_iff.mp h
    obtain ⟨⟨m', t', log⟩, hs, heq⟩ := Option.map_eq_some_iff.mp h
    cases heq
    exact .advance n branch t hn hs
  | background i p =>
    obtain ⟨s, hi, h⟩ := Option.bind_eq_some_iff.mp h
    obtain ⟨b, hb, heq⟩ := Option.map_eq_some_iff.mp h
    cases heq
    exact .background i p hi hb
  | output i bytes =>
    obtain ⟨s, hi, heq⟩ := Option.map_eq_some_iff.mp h
    cases heq
    exact .serve i hi ⟨rfl, rfl, rfl, rfl, List.prefix_append _ _⟩

/-- **Choices make a run**, of every kind that has the steps that were allowed. -/
theorem Run.of_play {allowed : Scene → Event → Scene → Bool}
    (hR : ∀ {sc e sc'}, Step env sc e sc' → allowed sc e sc' = true → R sc e sc')
    {moves : List Move} (h : sc.play env allowed moves = some sc') : Run R sc sc' := by
  induction moves generalizing sc with
  | nil =>
    cases h
    exact .refl
  | cons mv rest ih =>
    obtain ⟨⟨e, sc₁⟩, hmv, h⟩ := Option.bind_eq_some_iff.mp h
    simp only at h
    split at h
    · next hok => exact (ih h).head ⟨e, hR (Step.of_play hmv) hok⟩
    · cases h

/-- Somebody wants a session for a document at the root. -/
def visitor : Task := .ensure "rust" "" (.begin ⟨[0x2F, 0x61]⟩)

end Manager

end LanguageHub
