import LanguageHub.Proofs.Entries
import LanguageHub.Proofs.Installer.Stability
import Mathlib

/-!
# The course of a call

What one stage of a call may do to the requests, and where the call is then, is said once
(`Installer.Course`): it finds the program, waits for the lock, starts a download after its second
look, asks for an archive, works with it, and succeeds or fails.

No call goes on for ever, and none is left waiting. Each stage leaves fewer stages, or fewer entries
to unpack, so that the calls that have begun come to rest whatever is downloaded
(`Installer.wellFounded_advances`); and as long as one of them has not returned there is one that
can go on (`Installer.InLine.exists_step`).
-/

namespace LanguageHub

namespace InstallStage

/-- **What an installation has asked for**, from its second look to its end. -/
@[simp] def asked : InstallStage → List String
  | .receiving j _ _ | .clearing j _ | .opening j _ | .extracting j _ _ | .verifying j _
  | .removing j _ _ | .marking j _ => [j.build.downloadUrl]
  | _ => []

/-- How many stages an installation has before it at most, if an extraction is one stage. -/
@[simp] def left : InstallStage → Nat
  | .begin _ => 12
  | .looking _ => 11
  | .queued _ => 10
  | .lookingAgain _ => 9
  | .preparing _ => 8
  | .requesting .. => 7
  | .receiving .. => 6
  | .clearing .. => 5
  | .opening .. => 4
  | .extracting .. => 3
  | .verifying .. => 2
  | .removing .. | .marking .. => 1
  | .returned _ => 0

/-- How many entries are left to unpack. -/
@[simp] def entriesLeft : InstallStage → Nat
  | .extracting _ _ u => u.entries.length
  | _ => 0

/-- What is left after a stage: fewer stages, or fewer entries to unpack. -/
def Sinks (st st' : InstallStage) : Prop :=
  st'.left < st.left ∨ st'.left = st.left ∧ st'.entriesLeft < st.entriesLeft

variable {st : InstallStage} {j : InstallJob}

theorem holds?_of_misses? (h : st.misses? = some j) : st.holds? = some j := by
  cases st <;> cases h <;> rfl

theorem misses?_eq_none (h : st.holds? = none) : st.misses? = none := by
  by_contra hmisses
  obtain ⟨j, hj⟩ := Option.ne_none_iff_exists'.mp hmisses
  rw [holds?_of_misses? hj] at h
  cases h

theorem job?_of_holds? (h : st.holds? = some j) : st.job? = some j := by
  cases st <;> cases h <;> rfl

theorem job?_of_misses? (h : st.misses? = some j) : st.job? = some j :=
  job?_of_holds? (holds?_of_misses? h)

theorem reports?_of_job? (h : st.job? = some j) : st.reports? = none := by
  cases st <;> cases h <;> rfl

end InstallStage

namespace Installer

variable {i : Installer} {env : InstallEnvironment} {sc sc' : Scene} {s s' : InstallState}
  {st st' : InstallStage} {j : InstallJob} {n : Nat} {log : List LogEntry}

/-! ### The course of a call -/

/-- **What a stage of a call may do**, as far as requests are concerned. -/
inductive Course (i : Installer) (s s' : InstallState) : InstallStage → InstallStage → Prop
  | begins {language : String} {j : InstallJob} : i.job language = .ok j →
      s'.files = s.files → s'.requests = s.requests → Course i s s' (.begin language) (.looking j)
  /-- The program is there at the first look or at the second one. -/
  | finds {st : InstallStage} {j : InstallJob} : st.job? = some j → st.misses? = none →
      s.files.pathExists (i.host.locate j.executable) = true → s'.files = s.files →
      s'.requests = s.requests → st.Sinks (.returned (.ok j.executable)) →
      Course i s s' st (.returned (.ok j.executable))
  /-- It queues for the lock, or gets it. -/
  | waits {st st' : InstallStage} {j : InstallJob} : st.job? = some j → st'.job? = some j →
      st.misses? = none → st'.misses? = none → s'.files = s.files → s'.requests = s.requests →
      st.Sinks st' → Course i s s' st st'
  /-- The program is still missing at the second look. -/
  | starts (j : InstallJob) : s.files.pathExists (i.host.locate j.executable) = false →
      s'.requests = s.requests → Course i s s' (.lookingAgain j) (.preparing j)
  | asks (j : InstallJob) (archive : Path) (reply : HttpReply) :
      s'.requests = s.requests ++ [j.build.downloadUrl] →
      Course i s s' (.requesting j archive) (.receiving j archive reply)
  | works {st st' : InstallStage} {j : InstallJob} : st.misses? = some j → st'.misses? = some j →
      st'.asked = st.asked → s'.requests = s.requests → st.Sinks st' → Course i s s' st st'
  | succeeds (j : InstallJob) (archive : Path) : s'.requests = s.requests →
      Course i s s' (.marking j archive) (.returned (.ok j.executable))
  | fails {st : InstallStage} (e : InstallError) : 0 < st.left →
      Course i s s' st (.returned (.error e))

theorem Course.of_prepare (i : Installer) (s : InstallState) (j : InstallJob) :
    Course i s (i.prepare s j).1 (.preparing j) (i.prepare s j).2 := by
  unfold prepare
  split
  · exact .fails _ (Nat.succ_pos _)
  · dsimp only
    split
    · exact .fails _ (Nat.succ_pos _)
    · exact .works rfl rfl rfl rfl (.inl (by simp))

theorem Course.of_receive (i : Installer) (s : InstallState) (j : InstallJob) (archive : Path)
    (reply : HttpReply) : Course i s (receive s j archive reply).1 (.receiving j archive reply)
      (receive s j archive reply).2.1 := by
  unfold receive
  split
  · exact .fails _ (Nat.succ_pos _)
  · split
    · exact .fails _ (Nat.succ_pos _)
    · split
      · exact .fails _ (Nat.succ_pos _)
      · split
        · exact .fails _ (Nat.succ_pos _)
        · exact .works rfl rfl rfl rfl (.inl (by simp))

theorem Course.of_extracting {archive : Path} {left : Unpacking}
    (h : i.step env n (.extracting j archive left) s = some (s', st', log)) :
    Course i s s' (.extracting j archive left) st' := by
  obtain ⟨_ | ⟨x, rest⟩, fault⟩ := left
  · cases fault <;> cases h <;> exact .works rfl rfl rfl rfl (.inl (by simp))
  · simp only [step] at h
    split at h <;> cases h
    · exact .works rfl rfl rfl rfl (.inr (by simp))
    · exact .works rfl rfl rfl rfl (.inl (by simp))

theorem Course.of_step (h : i.step env n st s = some (s', st', log)) : Course i s s' st st' := by
  cases st with
  | begin language =>
    simp only [step] at h
    split at h <;> cases h
    · next hjob => exact .begins hjob rfl rfl
    · exact .fails _ (Nat.succ_pos _)
  | looking j =>
    simp only [step] at h
    split at h <;> cases h
    · next hfound => exact .finds rfl rfl hfound rfl rfl (.inl (by simp))
    · exact .waits rfl rfl rfl rfl rfl rfl (.inl (by simp))
  | queued j =>
    simp only [step] at h
    split at h <;> cases h
    exact .waits rfl rfl rfl rfl rfl rfl (.inl (by simp))
  | lookingAgain j =>
    simp only [step] at h
    split at h
    · next hfound =>
      cases h
      exact .finds rfl rfl hfound rfl rfl (.inl (by simp))
    · next hmissed =>
      split at h <;> cases h
      · exact .fails _ (Nat.succ_pos _)
      · exact .starts j (Bool.eq_false_iff.mpr hmissed) rfl
  | preparing j =>
    cases h
    exact .of_prepare i s j
  | requesting j archive =>
    cases h
    exact .asks j archive _ rfl
  | receiving j archive reply =>
    have hreceive : receive s j archive reply = (s', st', log) := Option.some.inj h
    have hcourse := Course.of_receive i s j archive reply
    rwa [hreceive] at hcourse
  | clearing j archive =>
    simp only [step] at h
    split at h
    · split at h <;> cases h
      · exact .works rfl rfl rfl rfl (.inl (by simp))
      · exact .fails _ (Nat.succ_pos _)
    · cases h
      exact .works rfl rfl rfl rfl (.inl (by simp))
  | opening j archive =>
    simp only [step] at h
    split at h
    · cases h
      exact .fails _ (Nat.succ_pos _)
    · split at h <;> cases h <;> exact .works rfl rfl rfl rfl (.inl (by simp))
  | extracting j archive left => exact .of_extracting h
  | verifying j archive =>
    simp only [step] at h
    split at h <;> cases h <;> exact .works rfl rfl rfl rfl (.inl (by simp))
  | removing j archive e =>
    simp only [step] at h
    split at h <;> cases h <;> exact .fails _ (Nat.succ_pos _)
  | marking j archive =>
    cases h
    exact .succeeds j archive rfl
  | returned r => cases h

/-- **Every stage leaves less to do.** -/
theorem Course.sinks (h : Course i s s' st st') : st.Sinks st' := by
  cases h with
  | begins | starts | asks | succeeds => exact .inl (by simp)
  | finds _ _ _ _ _ hs => exact hs
  | waits _ _ _ _ _ _ hs => exact hs
  | works _ _ _ _ hs => exact hs
  | fails _ hpos => exact .inl hpos

/-- **A call leaves everything as it is**; and what it reports then was there. -/
structure Stays (i : Installer) (s s' : InstallState) (st st' : InstallStage) : Prop where
  misses : st'.misses? = none
  files : s'.files = s.files
  requests : s'.requests = s.requests
  reported : ∀ p, st'.reports? = some p → ∃ j, st.job? = some j ∧
    s.files.pathExists (i.host.locate j.executable) = true

/-- **A call that does not download** leaves everything as it is, unless it fails or starts to
download. -/
theorem Course.of_quiet (h : Course i s s' st st') (hst : st.misses? = none) :
    (∃ e, st' = .returned (.error e)) ∨
      (∃ j, st = .lookingAgain j ∧ st' = .preparing j ∧
        s.files.pathExists (i.host.locate j.executable) = false ∧ s'.requests = s.requests) ∨
      Stays i s s' st st' := by
  cases h with
  | begins _ hfiles hrequests =>
    exact .inr (.inr ⟨rfl, hfiles, hrequests, by rintro _ ⟨⟩⟩)
  | finds hjob _ hfound hfiles hrequests =>
    exact .inr (.inr ⟨rfl, hfiles, hrequests, fun _ _ => ⟨_, hjob, hfound⟩⟩)
  | waits _ hjob _ hmisses hfiles hrequests =>
    refine .inr (.inr ⟨hmisses, hfiles, hrequests, fun p hp => ?_⟩)
    rw [InstallStage.reports?_of_job? hjob] at hp
    cases hp
  | starts j hgone hrequests => exact .inr (.inl ⟨j, rfl, rfl, hgone, hrequests⟩)
  | asks | succeeds => cases hst
  | works hmisses =>
    rw [hmisses] at hst
    cases hst
  | fails e => exact .inl ⟨e, rfl⟩

/-! ### No call goes on for ever -/

/-- **One of the calls goes on** by one stage. -/
def Advances (i : Installer) (sc sc' : Scene) : Prop :=
  ∃ n st st', Step i sc (.advanced n st st') sc'

/-- Every call has returned. -/
def Scene.Over (sc : Scene) : Prop := ∀ st ∈ sc.stages, ∃ r, st = .returned r

/-- What is left to do: stages first, and entries to unpack in the second place. -/
def Scene.left (sc : Scene) : Nat ×ₗ Nat :=
  toLex ((sc.stages.map (·.left)).sum, (sc.stages.map (·.entriesLeft)).sum)

/-- A sum over the calls changes by what one of them changes. -/
theorem sum_map_set (f : InstallStage → Nat) {l : List InstallStage} (h : l[n]? = some st)
    (st' : InstallStage) : ((l.set n st').map f).sum + f st = (l.map f).sum + f st' := by
  induction l generalizing n with
  | nil => cases h
  | cons x l ih =>
    cases n with
    | zero =>
      cases h
      simp only [List.set_cons_zero, List.map_cons, List.sum_cons]
      omega
    | succ n =>
      have hrest := ih (n := n) h
      simp only [List.set_cons_succ, List.map_cons, List.sum_cons]
      omega

theorem Advances.left_lt (h : i.Advances sc sc') : sc'.left < sc.left := by
  obtain ⟨n, st, st', h⟩ := h
  cases h with
  | advance env _ hn hstep =>
    have hleft := sum_map_set (·.left) hn st'
    have hentries := sum_map_set (·.entriesLeft) hn st'
    refine Prod.Lex.toLex_lt_toLex.mpr ?_
    dsimp only
    rcases (Course.of_step hstep).sinks with hlt | ⟨heq, hlt⟩
    · exact .inl (by omega)
    · exact .inr ⟨by omega, by omega⟩

/-- **The calls that have begun cannot go on for ever**, whatever is downloaded. -/
theorem wellFounded_advances (i : Installer) : WellFounded fun sc' sc => i.Advances sc sc' :=
  Subrelation.wf (fun h => Advances.left_lt h) (InvImage.wf Scene.left wellFounded_lt)

/-- A stage comes to an end unless it waits for a lock. -/
theorem exists_step (i : Installer) (env : InstallEnvironment) (n : Nat) (s : InstallState)
    (hst : ∀ r, st ≠ .returned r)
    (hfirst : ∀ j, st = .queued j → (s.queueOf j.lock).head? = some n) :
    ∃ x, i.step env n st s = some x := by
  rw [← Option.isSome_iff_exists]
  cases st with
  | returned r => exact absurd rfl (hst r)
  | queued j => simp [step, hfirst j rfl]
  | extracting j archive u =>
    obtain ⟨_ | ⟨x, rest⟩, _ | fault⟩ := u <;> simp only [step] <;> repeat' split
    all_goals rfl
  | _ =>
    simp only [step]
    repeat' split
    all_goals rfl

/-- **Some call can go on** as long as one of them has not returned: if all that are left wait for
locks, the first one in the queue of a lock gets it. -/
theorem InLine.exists_step (h : InLine sc) (i : Installer) (env : InstallEnvironment)
    (hover : ¬ sc.Over) :
    ∃ n st x, sc.stages[n]? = some st ∧ i.step env n st sc.state = some x := by
  simp only [Scene.Over, not_forall, not_exists] at hover
  obtain ⟨st, hmem, hst⟩ := hover
  obtain ⟨n, hn⟩ := List.mem_iff_getElem?.mp hmem
  by_cases hqueued : ∃ j, st = .queued j
  · obtain ⟨j, rfl⟩ := hqueued
    have hmember : n ∈ sc.state.queueOf j.lock := by
      rw [h.mem_iff, hn]
      rfl
    obtain ⟨m, rest, hqueue⟩ := List.exists_cons_of_ne_nil (List.ne_nil_of_mem hmember)
    have hm : (sc.stages[m]?).bind (·.lock?) = some j.lock := by
      rw [← h.mem_iff, hqueue]
      exact List.mem_cons_self
    obtain ⟨st', hstage, hlock⟩ := Option.bind_eq_some_iff.mp hm
    have hst' : ∀ r, st' ≠ .returned r := by
      rintro r rfl
      cases hlock
    have hfirst : ∀ j', st' = .queued j' → (sc.state.queueOf j'.lock).head? = some m := by
      rintro j' rfl
      rw [Option.some.inj hlock, hqueue]
      rfl
    obtain ⟨x, hx⟩ := Installer.exists_step i env m sc.state hst' hfirst
    exact ⟨m, st', x, hstage, hx⟩
  · obtain ⟨x, hx⟩ := Installer.exists_step i env n sc.state hst
      fun j hj => absurd ⟨j, hj⟩ hqueued
    exact ⟨n, st, x, hn, hx⟩

end Installer

end LanguageHub
