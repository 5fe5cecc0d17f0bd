import LanguageHub.Proofs.Manager.Operations

/-!
# No process is left behind

Every session answers for its process, as long as processes that have exited stay so
(`Manager.Lasting`): its monitor watches while the process runs, and whoever gives the session up
has the monitor kill it. So in a scene where nothing is left to do without the callers
(`Manager.Settled`) a process that runs on is the process of a session **in use**
(`Manager.Watched.of_isRunning`). When all callers have got their answers, only the table uses
sessions.

That is not enough to know what a shutdown leaves behind while other callers go on, since they may
use sessions that are not in the table any longer. Those have been told to kill, or a disposal of
them is under way (`Manager.Answered`). The disposal may have to rely on another one: all but the
first disposal of a session return at once, so what has to be kept is that the first one still
gives the order (`Manager.Custody`). Assurances are outside of this custody: a session that was
just created is in no table yet, and its creator alone answers for it.
-/

namespace LanguageHub

namespace Manager

variable {env : ManagerEnvironment} {sc sc' : Scene} {e : Event} {m m' : Manager}
  {κ : Nat → SessionKey} {n i now id : Nat} {t t' : Task} {op : Operation}

/-! ### The custody of processes -/

/-- **A step in which an exit lasts**: no process that has exited rises again. -/
def Lasting (env : ManagerEnvironment) (sc : Scene) (e : Event) (sc' : Scene) : Prop :=
  Step env sc e sc' ∧ ∀ (i : Nat) (s s' : Session), sc.manager.sessions[i]? = some s →
    sc'.manager.sessions[i]? = some s' → s.link.exited.isSome = true →
    s'.link.exited.isSome = true

/-- What a step keeps of the custody of every process. -/
structure Tends (m m' : Manager) : Prop where
  old : ∀ (i : Nat) (s : Session), m.sessions[i]? = some s →
    ∃ s', m'.sessions[i]? = some s' ∧ s.Tends s'
  new : ∀ (i : Nat) (s' : Session), m.sessions[i]? = none → m'.sessions[i]? = some s' →
    s'.Guarded

namespace Tends

theorem of_sessions_eq (h : m'.sessions = m.sessions) : Tends m m' where
  old := fun _ s hs => ⟨s, h ▸ hs, .refl s⟩
  new := by
    intro i s' hnone hi
    rw [h, hnone] at hi
    cases hi

theorem of_set {s s' : Session} (hi : m.sessions[i]? = some s) (ht : s.Tends s')
    (hs : m'.sessions = m.sessions.set i s') : Tends m m' where
  old := by
    intro j x hx
    rw [hs]
    rcases eq_or_ne j i with rfl | hne
    · obtain ⟨hlt, -⟩ := List.getElem?_eq_some_iff.mp hi
      rw [hi] at hx
      cases hx
      exact ⟨s', List.getElem?_set_self hlt, ht⟩
    · exact ⟨x, by rw [List.getElem?_set_ne hne.symm, hx], .refl x⟩
  new := by
    intro j x hnone hj
    have hlen : j < (m.sessions.set i s').length := (List.getElem?_eq_some_iff.mp (hs ▸ hj)).1
    rw [List.length_set] at hlen
    exact absurd (List.getElem?_eq_none_iff.mp hnone) (Nat.not_le.mpr hlen)

theorem of_launch {x : Session} (hs : m'.sessions = m.sessions ++ [x]) (hx : x.Guarded) :
    Tends m m' where
  old := by
    intro j s hj
    obtain ⟨hlt, -⟩ := List.getElem?_eq_some_iff.mp hj
    exact ⟨s, by rw [hs, List.getElem?_append_left hlt, hj], .refl s⟩
  new := by
    intro j s' hnone hj
    rw [hs, List.getElem?_append_right (List.getElem?_eq_none_iff.mp hnone)] at hj
    rw [List.mem_singleton.mp (List.mem_of_getElem? hj)]
    exact hx

end Tends

theorem Operates.tends (h : Operates env now id m t m' t') : Tends m m' := by
  cases h with
  | advance p i _ hs =>
    obtain ⟨hi, ho⟩ := hs
    exact .of_set hi ho.tends rfl
  | turn _ _ hs => exact .of_sessions_eq hs
  | launch key server killFault spec _ _ hs =>
    exact .of_launch hs (Session.guarded_launched key server _ killFault)

theorem releaseUnused_tends (m : Manager) (tasks : List Task) :
    Tends m (m.releaseUnused tasks) where
  old := by
    intro i s hi
    simp only [releaseUnused, List.getElem?_mapIdx, hi, Option.map_some, Option.some.injEq,
      exists_eq_left']
    split
    · exact s.release_tends
    · exact .refl s
  new := by
    intro i s' hnone hi
    simp only [releaseUnused, List.getElem?_mapIdx, hnone, Option.map_none] at hi
    cases hi

theorem Lasting.tends (h : Lasting env sc e sc') : Tends sc.manager sc'.manager := by
  obtain ⟨hs, hlast⟩ := h
  cases hs with
  | call | elapse | rewrite => exact .of_sessions_eq rfl
  | advance n branch t hn hstep => exact (TaskStep.of_step hstep).operates.tends
  | background i p hi hb => exact .of_set hi (Session.tends_of_stepPart hb) rfl
  | serve i hi hl =>
    obtain ⟨hlt, -⟩ := List.getElem?_eq_some_iff.mp hi
    exact .of_set hi (Session.serve_tends hl (hlast i _ _ hi (List.getElem?_set_self hlt))) rfl
  | release => exact releaseUnused_tends _ _

/-- **Somebody answers for every process that was launched.** -/
structure Watched (sc : Scene) : Prop where
  guarded : ∀ (i : Nat) (s : Session), sc.manager.sessions[i]? = some s → s.Guarded
  launched : sc.manager.launches.length = sc.manager.sessions.length

theorem watched_start (files : FileTree) (now : Nat) : Watched (.start files now) where
  guarded := fun _ _ hi => by cases hi
  launched := rfl

theorem Operates.launched (h : Operates env now id m t m' t')
    (hl : m.launches.length = m.sessions.length) :
    m'.launches.length = m'.sessions.length := by
  cases h with
  | advance p i _ hs =>
    obtain ⟨-, -⟩ := hs
    simpa [setSession] using hl
  | turn _ _ hs hlaunches => rw [hs, hlaunches, hl]
  | launch _ _ _ _ _ _ hs hlaunches => simp [hs, hlaunches, hl]

theorem Watched.step (h : Watched sc) (hs : Lasting env sc e sc') : Watched sc' where
  guarded := by
    intro i s' hi
    rcases hbefore : sc.manager.sessions[i]? with _ | s
    · exact hs.tends.new i s' hbefore hi
    · obtain ⟨x, hx, ht⟩ := hs.tends.old i s hbefore
      rw [hi] at hx
      cases hx
      exact ht.guarded (h.guarded i s hbefore)
  launched := by
    rcases hs.1 with _ | ⟨n, branch, t, hn, hstep⟩ | _ | _ | _ | _ | _
    · exact h.launched
    · exact (TaskStep.of_step hstep).operates.launched h.launched
    all_goals simpa [setSession, releaseUnused] using h.launched

/-- **Nothing is left to do without the callers**: the background of every session rests, and every
session that is held is in use. -/
structure Settled (sc : Scene) : Prop where
  rests : ∀ (i : Nat) (s : Session), sc.manager.sessions[i]? = some s → s.Rests
  released : ∀ (i : Nat) (s : Session), sc.manager.sessions[i]? = some s → s.held = true →
    i ∈ sc.manager.inUse sc.tasks

theorem settled_iff : Settled sc ↔ sc.manager.sessions.zipIdx.all (fun x =>
    x.1.stepBackground.isNone &&
      (!x.1.held || (sc.manager.inUse sc.tasks).contains x.2)) = true := by
  simp only [List.all_eq_true, Bool.and_eq_true, Option.isNone_iff_eq_none,
    Bool.or_eq_true, Bool.not_eq_true', List.contains_iff_mem, Prod.forall,
    List.mk_mem_zipIdx_iff_getElem?]
  refine ⟨fun h s i hi => ⟨Session.rests_iff.mp (h.rests i s hi), ?_⟩, fun h => ⟨?_, ?_⟩⟩
  · rw [or_iff_not_imp_left, Bool.not_eq_false]
    exact h.released i s hi
  · exact fun i s hi => Session.rests_iff.mpr (h s i hi).1
  · intro i s hi hheld
    refine (h s i hi).2.resolve_left ?_
    rwa [Bool.not_eq_false]

instance (sc : Scene) : Decidable (Settled sc) := decidable_of_iff _ settled_iff.symm

/-- **A process that runs on is the process of a session in use** that nobody has told to kill. -/
theorem Watched.of_isRunning (h : Watched sc) (hset : Settled sc) {s : Session}
    (hi : sc.manager.sessions[i]? = some s) (hrun : s.link.isRunning = true) :
    s.killRequested = false ∧ i ∈ sc.manager.inUse sc.tasks := by
  have hg := h.guarded i s hi
  have hkill : s.killRequested = false := by
    rw [Bool.eq_false_iff]
    intro hkill
    rw [hg.isRunning_eq_false (hset.rests i s hi) hkill] at hrun
    cases hrun
  refine ⟨hkill, hset.released i s hi ?_⟩
  rw [← Bool.not_eq_false]
  intro hheld
  rw [hg.held hheld] at hkill
  cases hkill

/-! ### The custody of tasks -/

/-- A session has been told to kill its process. -/
def Told (m : Manager) (i : Nat) : Prop := ∃ s, m.sessions[i]? = some s ∧ s.killRequested = true

theorem Told.tends (h : Told m i) (ht : Tends m m') : Told m' i := by
  obtain ⟨s, hi, hk⟩ := h
  obtain ⟨s', hi', hs⟩ := ht.old i s hi
  exact ⟨s', hi', hs.told hk⟩

/-- **A session that is disposed of**: it has been told to kill, or a disposal of it goes on. -/
def Doomed (sc : Scene) (i : Nat) : Prop :=
  Told sc.manager i ∨ ∃ st, st ≠ .begin ∧ Works sc i (.dispose st)

/-- **Somebody answers for a session**: it is in the table, or it is to be disposed of. -/
def Answered (sc : Scene) (i : Nat) : Prop :=
  Told sc.manager i ∨ i ∈ sc.manager.listed ∨ ∃ st, Works sc i (.dispose st)

theorem Doomed.answered (h : Doomed sc i) : Answered sc i :=
  h.imp id fun ⟨st, _, hw⟩ => .inr ⟨st, hw⟩

/-- **What tasks owe to processes.** -/
structure Custody (sc : Scene) : Prop where
  findable : Findable sc.manager
  spares : ∀ t ∈ sc.tasks, t.Spares
  /-- A disposal that comes to the calls that wait has given the order to kill. -/
  cleared : ∀ i, Works sc i (.dispose .clearing) → Told sc.manager i
  /-- A session that counts as disposed of has got the order or gets it. -/
  disposing : ∀ i, Disposing sc.manager i → Doomed sc i
  /-- Somebody answers for every session that a task uses which is no assurance. -/
  used : ∀ t ∈ sc.tasks, t.assures = false → ∀ i ∈ t.refs, Answered sc i

namespace Custody

/-- A disposal that has begun goes on until the order is given. -/
theorem disposal_step {st : DisposeStage} (h : Custody sc) (hs : Lasting env sc e sc')
    (hst : st ≠ .begin) (hw : Works sc i (.dispose st)) : Doomed sc' i := by
  rcases hw.step rfl hs.1 with hw' | ⟨op', ⟨id, s, s', hi, hi', ho⟩, hw'⟩
  · exact .inr ⟨st, hst, hw'⟩
  · rcases ho.of_dispose with ⟨st', rfl, hst'⟩ | ⟨hbegin, -⟩ | rfl
    · exact .inr ⟨st', hst', hw'⟩
    · exact absurd hbegin hst
    · exact .inl ((h.cleared i hw).tends hs.tends)

theorem doomed_step (h : Custody sc) (hs : Lasting env sc e sc') (hd : Doomed sc i) :
    Doomed sc' i := by
  rcases hd with htold | ⟨st, hst, hw⟩
  · exact .inl (htold.tends hs.tends)
  · exact h.disposal_step hs hst hw

/-- A disposal that has not begun begins, unless another one has. -/
theorem begin_step (h : Custody sc) (hs : Lasting env sc e sc')
    (hw : Works sc i (.dispose .begin)) : Answered sc' i := by
  rcases hw.step rfl hs.1 with hw' | ⟨op', ⟨id, s, s', hi, hi', ho⟩, hw'⟩
  · exact .inr (.inr ⟨_, hw'⟩)
  · rcases ho.of_dispose with ⟨st', rfl, -⟩ | ⟨-, hd⟩ | hst
    · exact .inr (.inr ⟨st', hw'⟩)
    · exact (h.doomed_step hs (h.disposing i ⟨s, hi, hd⟩)).answered
    · cases hst

/-- **Whoever answers for a session does so until somebody else does.** -/
theorem answered_step (h : Custody sc) (htidy : Tidy κ sc)
    (hs : Lasting env sc e sc') (ha : Answered sc i) : Answered sc' i := by
  rcases ha with htold | hlisted | ⟨st, hw⟩
  · exact .inl (htold.tends hs.tends)
  · exact .inr ((mem_listed_step htidy h.findable hs.1 hlisted).imp id fun hw => ⟨_, hw⟩)
  · by_cases hst : st = .begin
    · subst hst
      exact h.begin_step hs hw
    · exact (h.disposal_step hs hst hw).answered

theorem start (files : FileTree) (now : Nat) : Custody (.start files now) where
  findable := fun _ hx => absurd hx List.not_mem_nil
  spares := fun _ ht => absurd ht List.not_mem_nil
  cleared := fun _ ⟨_, ht, _⟩ => absurd ht List.not_mem_nil
  disposing := fun _ ⟨_, hi, _⟩ => by cases hi
  used := fun _ ht => absurd ht List.not_mem_nil

theorem step (h : Custody sc) (htidy : Tidy κ sc) (hs : Lasting env sc e sc') : Custody sc' where
  findable := hs.1.findable h.findable
  spares := by
    intro t' ht'
    rcases hs.1.of_mem_tasks ht' with ht | hfresh | ⟨n, t, ht, hstep⟩
    · exact h.spares t' ht
    · exact spares_of_nil (Task.operations_of_isFresh hfresh)
    · exact hstep.spares (h.spares t ht)
  cleared := by
    intro i hw
    rcases hw.of_step hs.1 with hw | hfresh | ⟨op₀, id, s, s', -, hi', ho⟩
    · exact (h.cleared i hw).tends hs.tends
    · cases hfresh
    · exact ⟨s', hi', ho.killRequested_of_clearing⟩
  disposing := by
    intro i hd
    rcases hs.1.disposing hd with hd | hw
    · exact h.doomed_step hs (h.disposing i hd)
    · exact .inr hw
  used := by
    intro t' ht' hassures i hi
    have answered : Answered sc i := by
      rcases hs.1.of_mem_tasks ht' with ht | hfresh | ⟨n, t, ht, hstep⟩
      · exact h.used t' ht hassures i hi
      · rw [Task.refs_of_isFresh hfresh] at hi
        exact absurd hi List.not_mem_nil
      · obtain ⟨hassures, hrefs⟩ := hstep.refs hassures
        rcases hrefs i hi with hi | hi
        · exact h.used t ht hassures i hi
        · exact .inr (.inl hi)
    exact h.answered_step htidy hs answered

end Custody

/-! ### No process is left behind -/

/-- **A step while no session is assured.** -/
def Unassured (env : ManagerEnvironment) (sc : Scene) (e : Event) (sc' : Scene) : Prop :=
  Lasting env sc e sc' ∧ ∀ t ∈ sc.tasks, t.isEnsure = false

theorem Run.watched {files : FileTree} (run : Run (Lasting env) (.start files now) sc) :
    Watched sc :=
  run.invariant (fun h hs => h.step hs) (watched_start files now)

theorem Run.custody {files : FileTree} (run : Run (Lasting env) (.start files now) sc) :
    Custody sc := by
  have hall : (∃ κ, Tidy κ sc) ∧ Custody sc := by
    refine run.invariant (I := fun sc => (∃ κ, Tidy κ sc) ∧ Custody sc) ?_
      ⟨Run.tidy (fun hs => hs.1) (.refl : Run (Lasting env) (.start files now) _),
        .start files now⟩
    rintro sc e sc' ⟨⟨κ, htidy⟩, h⟩ hs
    exact ⟨htidy.step hs.1, h.step htidy hs⟩
  exact hall.2

/-- **Without assurances and shutdowns there is somebody to answer only in the table.** -/
theorem Custody.listed_of_answered (h : Custody sc) (hall : ∀ t ∈ sc.tasks, t.disposes = false)
    (ha : Answered sc i) : Told sc.manager i ∨ i ∈ sc.manager.listed := by
  rcases ha with htold | hlisted | ⟨st, t, ht, hmem⟩
  · exact .inl htold
  · exact .inr hlisted
  · exact absurd hmem (h.spares t ht (hall t ht) i st)

/-- **No process is left behind.** Every process that was launched is the process of a session, and
in a scene where nothing is left to do without the callers:

* when all tasks have ended, a process that runs on is the process of a session in the table;
* when a shutdown has returned, and no session has been assured since it began, no process runs
  on, whatever else the callers still do. -/
theorem no_process_left {files : FileTree} (run : Run (Lasting env) (.start files now) sc)
    (settled : Settled sc) :
    sc.manager.launches.length = sc.manager.sessions.length ∧
    ((∀ t ∈ sc.tasks, t.result?.isSome = true) → ∀ (i : Nat) (s : Session),
      sc.manager.sessions[i]? = some s → s.link.isRunning = true → i ∈ sc.manager.listed) ∧
    ∀ (sc₁ sc₂ : Scene) (n : Nat) (t' : Task),
      Lasting env sc₁ (.advanced n (.shutdown none) t') sc₂ → Run (Unassured env) sc₂ sc →
      (∀ t ∈ sc.tasks, t.disposes = false) → ∀ (i : Nat) (s : Session),
      sc.manager.sessions[i]? = some s → s.link.isRunning = false := by
  have hwatched := run.watched
  have hcustody := run.custody
  refine ⟨hwatched.launched, ?_, ?_⟩
  · intro hall i s hi hrun
    obtain ⟨-, huse⟩ := hwatched.of_isRunning settled hi hrun
    rcases mem_inUse_cases huse with hlisted | ⟨t, ht, hbusy⟩
    · exact hlisted
    · have hended := hall t ht
      cases t with
      | returned => rcases hbusy with hc | ⟨hc, -⟩ <;> cases hc
      | _ => cases hended
  · intro sc₁ sc₂ n t' drains since hall i s hi
    have hempty : sc.manager.table = [] :=
      since.invariant (I := fun sc => sc.manager.table = [])
        (fun h hs => hs.1.1.table_eq_nil hs.2 h) drains.1.table_eq_nil_of_shutdown
    have hunlisted : i ∉ sc.manager.listed := by
      rw [listed, hempty]
      exact List.not_mem_nil
    rw [Bool.eq_false_iff]
    intro hrun
    obtain ⟨hkill, huse⟩ := hwatched.of_isRunning settled hi hrun
    rcases mem_inUse_cases huse with hlisted | ⟨t, ht, hensure | ⟨hassures, hrefs⟩⟩
    · exact hunlisted hlisted
    · have hd := hall t ht
      cases t with
      | ensure => cases hd
      | _ => cases hensure
    · rcases hcustody.listed_of_answered hall (hcustody.used t ht hassures i hrefs) with
        ⟨x, hx, htold⟩ | hlisted
      · rw [hi] at hx
        cases hx
        rw [hkill] at htold
        cases htold
      · exact hunlisted hlisted

/-- Whether no process has exited. -/
def Scene.exitless (sc : Scene) : Bool := sc.manager.sessions.all (·.link.exited.isNone)

/-- As long as no process has exited, every exit lasts. -/
theorem Lasting.of_exitless (hs : Step env sc e sc') (h : sc.exitless = true) :
    Lasting env sc e sc' := by
  refine ⟨hs, fun i s s' hi _ hexited => ?_⟩
  have hnone := List.all_eq_true.mp h s (List.mem_of_getElem? hi)
  rw [Option.isNone_iff_eq_none.mp hnone] at hexited
  cases hexited

/-- A session is assured for a document, its server shakes hands, and all frames are written. -/
def assurance : List Move :=
  [.call visitor] ++ List.replicate 12 (.advance 0 0) ++
    [.output 0 greeting, .background 0 .reader] ++ List.replicate 10 (.advance 0 0) ++
    List.replicate 6 (.background 0 .writer)

/-- The server agrees to shut down, and its process is killed. -/
def disposal : List Move :=
  List.replicate 4 (.advance 1 0) ++
    [.background 0 .writer, .background 0 .writer, .output 0 (greeting.set 28 50),
      .background 0 .reader] ++
    List.replicate 8 (.advance 1 0) ++
    [.background 0 .kill] ++ List.replicate 3 (.background 0 .writer)

/-- **A process runs** once a session was assured for a document, until a shutdown has returned. -/
theorem no_process_left_sample : ∃ sc sc' : Scene,
    Run (Lasting (staffed 0)) (.start shelf 0) sc ∧
    sc.manager.sessions.map (·.link.isRunning) = [true] ∧ 0 ∈ sc.manager.listed ∧
    Run (Lasting (staffed 0)) sc sc' ∧
    ∀ (i : Nat) (s : Session), sc'.manager.sessions[i]? = some s → s.link.isRunning = false := by
  have hplay : ((Scene.start shelf 0).play (staffed 0) (fun sc _ _ => sc.exitless)
      assurance).any (fun sc => decide (Settled sc) && sc.exitless && sc.tasks.length == 1 &&
        sc.tasks.all (·.result?.isSome) &&
        sc.manager.sessions.map (·.link.isRunning) == [true] &&
        (sc.manager.step (staffed 0) sc.now 1 0 (.shutdown none)).any fun y =>
          ((Scene.after { sc with tasks := sc.tasks ++ [.shutdown none] } 1 (.shutdown none)
              y.1 y.2.1).play (staffed 0)
            (fun sc _ _ => sc.exitless && sc.tasks.all (!·.isEnsure)) disposal).any fun sc =>
            sc.exitless && sc.tasks.all (!·.isEnsure) && sc.tasks.all (!·.disposes) &&
              decide (Settled { sc with manager := sc.manager.releaseUnused sc.tasks })) = true := by
    decide +kernel
  obtain ⟨sc, hsc, hplay⟩ := (Option.any_eq_true _ _).mp hplay
  simp only [Bool.and_eq_true, beq_iff_eq, decide_eq_true_eq] at hplay
  obtain ⟨⟨⟨⟨⟨hset, hexits⟩, hlength⟩, hended⟩, hrunning⟩, hplay⟩ := hplay
  obtain ⟨⟨m', t', log⟩, hdrain, hplay⟩ := (Option.any_eq_true _ _).mp hplay
  obtain ⟨sc₂, hsc₂⟩ : ∃ sc₂ : Scene, sc₂ = Scene.after
    { sc with tasks := sc.tasks ++ [.shutdown none] } 1 (.shutdown none) m' t' := ⟨_, rfl⟩
  obtain ⟨sc₃, hsc₃, hplay⟩ := (Option.any_eq_true _ _).mp (hsc₂ ▸ hplay)
  simp only [Bool.and_eq_true, decide_eq_true_eq] at hplay
  obtain ⟨⟨⟨hexits₃, hunassured⟩, hspares⟩, hset'⟩ := hplay
  -- the assurance, and the first stage of the shutdown
  have run : Run (Lasting (staffed 0)) (.start shelf 0) sc := .of_play .of_exitless hsc
  have called : Lasting (staffed 0) sc .silent _ := .of_exitless (.call (.shutdown none) rfl) hexits
  have drains : Lasting (staffed 0) { sc with tasks := sc.tasks ++ [.shutdown none] }
      (.advanced 1 (.shutdown none) t') sc₂ := by
    rw [hsc₂]
    refine .of_exitless (.advance 1 0 _ ?_ hdrain) hexits
    rw [← hlength]
    exact List.getElem?_concat_length
  -- the disposal, and the session is given up
  have disposed : Run (Unassured (staffed 0)) sc₂ sc₃ := by
    refine .of_play (fun hs hok => ?_) hsc₃
    simp only [Bool.and_eq_true, List.all_eq_true, Bool.not_eq_true'] at hok
    exact ⟨.of_exitless hs hok.1, hok.2⟩
  have released : Run (Unassured (staffed 0)) sc₂
      { sc₃ with manager := sc₃.manager.releaseUnused sc₃.tasks } :=
    disposed.tail ⟨_, .of_exitless .release hexits₃, by simpa using hunassured⟩
  have run' : Run (Lasting (staffed 0)) sc _ :=
    ((Relation.ReflTransGen.refl.tail ⟨_, called⟩).tail ⟨_, drains⟩).trans
      (released.mono fun hs => hs.1)
  refine ⟨sc, _, run, hrunning, ?_, run', ?_⟩
  · obtain ⟨s, hs, hrun⟩ : ∃ s, sc.manager.sessions[0]? = some s ∧ s.link.isRunning = true := by
      rcases hl : sc.manager.sessions with _ | ⟨s, rest⟩ <;> rw [hl] at hrunning
      · cases hrunning
      · exact ⟨s, rfl, (List.cons.inj hrunning).1⟩
    exact (no_process_left run hset).2.1 (List.all_eq_true.mp hended) 0 s hs hrun
  · exact (no_process_left (run.trans run') hset').2.2 _ _ 1 t' drains released
      (by simpa using hspares)

end Manager

end LanguageHub
