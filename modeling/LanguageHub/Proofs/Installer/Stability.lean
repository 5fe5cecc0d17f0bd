import LanguageHub.Proofs.FileTree.Keeping
import LanguageHub.Proofs.Installer.Lock

/-!
# What is installed stays

An installation takes away its version directory, when it starts to unpack or when it fails, and
its temporary file (`InstallStage.clears`); everything else it leaves in place. It gets to the
version directory only if it has missed its own program there.

The version directory is made of the name and the version of a server alone. Two servers of one
catalog may have them in common and differ in their programs, and then **installing the second one
takes the program of the first one away** (`Installer.exists_installed_lost`). In a catalog where
no version directory lies on the way to the program of another server (`Installer.Apart`),
a program that has been reported stays through all later calls, whatever becomes of them
(`Installer.installed_stays`). Temporary files get names of their own, and so they are assumed to
stay out of the way of every program (`Installer.Onward`).
-/

namespace LanguageHub

namespace InstallStage

/-- The job of an installation. -/
def job? : InstallStage → Option InstallJob
  | .looking j | .queued j => some j
  | st => st.holds?

/-- The temporary file of an installation. -/
def archive? : InstallStage → Option Path
  | .requesting _ a | .receiving _ a _ | .clearing _ a | .opening _ a | .extracting _ a _
  | .verifying _ a | .removing _ a _ | .marking _ a => some a
  | _ => none

/-- The job of an installation that has missed its program also on its second look. -/
def misses? : InstallStage → Option InstallJob
  | .lookingAgain _ => none
  | st => st.holds?

/-- The job of an installation that has found its program among what it has unpacked. -/
def marks? : InstallStage → Option InstallJob
  | .marking j _ => some j
  | _ => none

/-- The program that an installation has reported. -/
def reports? : InstallStage → Option Path
  | .returned (.ok p) => some p
  | _ => none

/-- The places that an installation may clear in a stage. -/
def clears (h : Host) (st : InstallStage) : List Place :=
  (st.archive?.map (·.place)).toList ++
    match st with
    | .clearing j _ | .removing j _ _ => [(h.locate j.target).place]
    | _ => []

theorem place_mem_clears {h : Host} {st : InstallStage} {archive : Path}
    (ha : st.archive? = some archive) : archive.place ∈ st.clears h := by
  unfold clears
  rw [ha]
  exact List.mem_append_left _ (List.mem_singleton.mpr rfl)

theorem mem_clears {h : Host} {st : InstallStage} {q : Place} (hq : q ∈ st.clears h) :
    (∃ a, st.archive? = some a ∧ q = a.place) ∨
      ∃ j, st.job? = some j ∧ st.misses? = some j ∧ q = (h.locate j.target).place := by
  unfold clears at hq
  rcases List.mem_append.mp hq with hq | hq
  · rw [Option.mem_toList, Option.map_eq_some_iff] at hq
    obtain ⟨a, ha, rfl⟩ := hq
    exact .inl ⟨a, ha, rfl⟩
  · split at hq
    · exact .inr ⟨_, rfl, rfl, List.mem_singleton.mp hq⟩
    · exact .inr ⟨_, rfl, rfl, List.mem_singleton.mp hq⟩
    · cases hq

theorem mem_clears_of_marks? {h : Host} {st : InstallStage} {j : InstallJob} {q : Place}
    (hst : st.marks? = some j) (hq : q ∈ st.clears h) : ∃ a, st.archive? = some a ∧ q = a.place := by
  unfold marks? at hst
  split at hst
  · exact ⟨_, rfl, List.mem_singleton.mp hq⟩
  · cases hst

end InstallStage

namespace Installer

variable {i : Installer} {env : InstallEnvironment} {s s' s'' : InstallState}
  {st st' : InstallStage} {j j' : InstallJob} {n : Nat} {log : List LogEntry} {archive : Path}
  {gone : List Place}

/-! ### What a stage does -/

/-- **What a stage of an installation does** to files, and how it finds its program. -/
structure Effect (i : Installer) (s : InstallState) (st : InstallStage) (s' : InstallState)
    (st' : InstallStage) : Prop where
  keeps : s.files.Keeps s'.files (st.clears i.host)
  job : ∀ j, st'.job? = some j → st.job? = some j ∨ ∃ language, i.job language = .ok j
  archive : ∀ a, st'.archive? = some a → st.archive? = some a ∨ ∃ j, st' = .requesting j a
  misses : ∀ j, st'.misses? = some j →
    st.misses? = some j ∨ s.files.pathExists (i.host.locate j.executable) = false
  found : ∀ j, st'.marks? = some j → s'.files.pathExists (i.host.locate j.executable) = true
  reported : ∀ p, st'.reports? = some p → ∃ j, st.job? = some j ∧ j.executable = p ∧
    (s'.files.pathExists (i.host.locate p) = true ∨ st.marks? = some j)

theorem keeps_discard (s : InstallState) (j : InstallJob) (r : Except InstallError Path)
    (h : archive.place ∈ gone) : s.files.Keeps (discard s j archive r).1.files gone := by
  unfold discard
  dsimp only [conclude, InstallState.leave, InstallState.setQueue]
  split
  · next hstat =>
    obtain ⟨-, hp, -, -⟩ := FileTree.stat_eq_ok_iff.mp hstat
    rw [← FileTree.locate_eq_ok hp] at h
    exact .prune h
  · exact .refl _ _

/-- An installation fails. -/
theorem Effect.fails {e : InstallError} (keeps : s.files.Keeps s'.files (st.clears i.host)) :
    Effect i s st s' (.returned (.error e)) where
  keeps := keeps
  job := by rintro _ ⟨⟩
  archive := by rintro _ ⟨⟩
  misses := by rintro _ ⟨⟩
  found := by rintro _ ⟨⟩
  reported := by rintro _ ⟨⟩

/-- An installation with a temporary file fails. -/
theorem Effect.discards {files : FileTree} {e : InstallError}
    (keeps : s.files.Keeps files (st.clears i.host)) (ha : st.archive? = some archive) :
    Effect i s st (discard { s with files := files } j archive (.error e)).1
      (discard { s with files := files } j archive (.error e)).2 :=
  .fails (keeps.trans (keeps_discard { s with files := files } j (.error e)
    (InstallStage.place_mem_clears ha)))

/-- An installation goes on with the same job and the same temporary file. -/
theorem Effect.goes_on (keeps : s.files.Keeps s'.files (st.clears i.host))
    (hjob : st'.job? = st.job?) (ha : st'.archive? = st.archive?) (hmisses : st'.misses? = st.misses?)
    (hmarks : st'.marks? = none) (hreports : st'.reports? = none) :
    Effect i s st s' st' where
  keeps := keeps
  job := fun _ hj => .inl (hjob ▸ hj)
  archive := fun _ h => .inl (ha ▸ h)
  misses := fun _ hj => .inl (hmisses ▸ hj)
  found := by
    intro j hj
    rw [hmarks] at hj
    cases hj
  reported := by
    intro p hp
    rw [hreports] at hp
    cases hp

/-- An installation finds its program. -/
theorem Effect.finds (keeps : s.files.Keeps s'.files (st.clears i.host)) (hj : st.job? = some j)
    (h : s'.files.pathExists (i.host.locate j.executable) = true ∨ st.marks? = some j) :
    Effect i s st s' (.returned (.ok j.executable)) where
  keeps := keeps
  job := by rintro _ ⟨⟩
  archive := by rintro _ ⟨⟩
  misses := by rintro _ ⟨⟩
  found := by rintro _ ⟨⟩
  reported := by
    rintro _ ⟨⟩
    exact ⟨j, hj, rfl, h⟩

theorem Effect.of_prepare (i : Installer) (s : InstallState) (j : InstallJob) :
    Effect i s (.preparing j) (i.prepare s j).1 (i.prepare s j).2 := by
  unfold prepare
  split
  · exact .fails (.refl _ _)
  · next hmade =>
    dsimp only
    split
    · exact .fails (.of_makeDirectories hmade)
    · next hwritten =>
      exact {
        keeps := (FileTree.Keeps.of_makeDirectories hmade).trans (.of_write hwritten)
        job := fun _ hj => .inl hj
        archive := by
          rintro a ⟨⟩
          exact .inr ⟨j, rfl⟩
        misses := fun _ hj => .inl hj
        found := by rintro _ ⟨⟩
        reported := by rintro _ ⟨⟩ }

theorem Effect.of_receive (i : Installer) (s : InstallState) (j : InstallJob) (archive : Path)
    (reply : HttpReply) : Effect i s (.receiving j archive reply) (receive s j archive reply).1
      (receive s j archive reply).2.1 := by
  unfold receive
  split
  · exact .discards (.refl _ _) rfl
  · split
    · exact .discards (.refl _ _) rfl
    · split
      · exact .discards (.refl _ _) rfl
      · next hwritten =>
        split
        · exact .discards (.of_write hwritten) rfl
        · exact .goes_on (.of_write hwritten) rfl rfl rfl rfl rfl

theorem Effect.of_extracting {left : Unpacking}
    (h : i.step env n (.extracting j archive left) s = some (s', st', log)) :
    Effect i s (.extracting j archive left) s' st' := by
  obtain ⟨_ | ⟨x, rest⟩, fault⟩ := left
  · cases fault <;> cases h <;> exact .goes_on (.refl _ _) rfl rfl rfl rfl rfl
  · simp only [step] at h
    split at h <;> cases h
    · next hunpacked => exact .goes_on (.of_unpack hunpacked) rfl rfl rfl rfl rfl
    · exact .goes_on (.refl _ _) rfl rfl rfl rfl rfl

theorem Effect.of_step (h : i.step env n st s = some (s', st', log)) : Effect i s st s' st' := by
  cases st with
  | begin language =>
    simp only [step] at h
    split at h <;> cases h
    · next hjob =>
      exact {
        keeps := .refl _ _
        job := by
          rintro _ ⟨⟩
          exact .inr ⟨language, hjob⟩
        archive := by rintro _ ⟨⟩
        misses := by rintro _ ⟨⟩
        found := by rintro _ ⟨⟩
        reported := by rintro _ ⟨⟩ }
    · exact .fails (.refl _ _)
  | looking j =>
    simp only [step] at h
    split at h <;> cases h
    · next hfound => exact .finds (.refl _ _) rfl (.inl hfound)
    · exact .goes_on (.refl _ _) rfl rfl rfl rfl rfl
  | queued j =>
    simp only [step] at h
    split at h <;> cases h
    exact .goes_on (.refl _ _) rfl rfl rfl rfl rfl
  | lookingAgain j =>
    simp only [step] at h
    split at h
    · next hfound =>
      cases h
      exact .finds (.refl _ _) rfl (.inl hfound)
    · next hmissed =>
      split at h <;> cases h
      · exact .fails (.refl _ _)
      · exact {
          keeps := .refl _ _
          job := fun _ hj => .inl hj
          archive := by rintro _ ⟨⟩
          misses := by
            rintro _ ⟨⟩
            exact .inr (Bool.eq_false_iff.mpr hmissed)
          found := by rintro _ ⟨⟩
          reported := by rintro _ ⟨⟩ }
  | preparing j =>
    cases h
    exact .of_prepare i s j
  | requesting j archive =>
    cases h
    exact .goes_on (.refl _ _) rfl rfl rfl rfl rfl
  | receiving j archive reply =>
    have hreceive : receive s j archive reply = (s', st', log) := Option.some.inj h
    have heffect := Effect.of_receive i s j archive reply
    rwa [hreceive] at heffect
  | clearing j archive =>
    have htarget : (i.host.locate j.target).place ∈
        (InstallStage.clearing j archive).clears i.host := List.mem_append_right _ (by simp)
    simp only [step] at h
    split at h
    · split at h <;> cases h
      · next hremoved =>
        exact .goes_on (.of_removeDirectory hremoved htarget) rfl rfl rfl rfl rfl
      · exact .discards (.refl _ _) rfl
    · cases h
      exact .goes_on (.refl _ _) rfl rfl rfl rfl rfl
  | opening j archive =>
    simp only [step] at h
    split at h
    · cases h
      exact .discards (.refl _ _) rfl
    · next hmade =>
      split at h <;> cases h <;>
        exact .goes_on (.of_makeDirectories hmade) rfl rfl rfl rfl rfl
  | extracting j archive left => exact .of_extracting h
  | verifying j archive =>
    simp only [step] at h
    split at h <;> cases h
    · next hfound =>
      exact {
        keeps := .refl _ _
        job := fun _ hj => .inl hj
        archive := fun _ ha => .inl ha
        misses := fun _ hj => .inl hj
        found := by
          rintro _ ⟨⟩
          exact hfound
        reported := by rintro _ ⟨⟩ }
    · exact .goes_on (.refl _ _) rfl rfl rfl rfl rfl
  | removing j archive e =>
    have htarget : (i.host.locate j.target).place ∈
        (InstallStage.removing j archive e).clears i.host := List.mem_append_right _ (by simp)
    simp only [step] at h
    split at h <;> cases h
    · next hremoved => exact .discards (.of_removeDirectory hremoved htarget) rfl
    · exact .discards (.refl _ _) rfl
  | marking j archive =>
    cases h
    refine .finds ?_ rfl (.inr rfl)
    refine FileTree.Keeps.trans ?_ (keeps_discard _ j (.ok j.executable)
      (InstallStage.place_mem_clears rfl))
    dsimp only
    split
    · exact .refl _ _
    · exact .allowRunning _ _ _
  | returned r => cases h

/-! ### Sequences of calls -/

/-- The job of each server that can be installed. -/
def jobs (i : Installer) : List InstallJob :=
  (i.catalog.servers.filter (·.enabled)).filterMap fun s => i.platform.bind fun p =>
    (s.buildFor p).map fun b =>
      ⟨s, p, b, i.versionDir s p, (i.versionDir s p).join (.ofString b.executable)⟩

theorem mem_jobs {language : String} (h : i.job language = .ok j) : j ∈ i.jobs := by
  unfold job at h
  split at h
  · cases h
  · next s hs =>
    split at h
    · cases h
    · next p hp =>
      split at h <;> cases h
      next b hb =>
        have henabled := List.find?_some hs
        simp only [Bool.and_eq_true] at henabled
        refine List.mem_filterMap.mpr ⟨s, List.mem_filter.mpr ⟨List.mem_of_find?_eq_some hs,
          henabled.1⟩, ?_⟩
        rw [hp, Option.bind_some, hb]
        rfl

/-- No program is at a place or below it, nor is the way to one. -/
def Spares (i : Installer) (q : Place) : Prop :=
  ∀ j ∈ i.jobs, (i.host.locate j.executable).Avoids q

instance (i : Installer) (q : Place) : Decidable (i.Spares q) :=
  inferInstanceAs (Decidable (∀ j ∈ i.jobs, (i.host.locate j.executable).Avoids q))

/-- **The version directory of a server holds no program of another one**, nor is one on the way to
such a program. -/
def Apart (i : Installer) : Prop :=
  ∀ j ∈ i.jobs, ∀ j' ∈ i.jobs, j'.executable = j.executable ∨
    (i.host.locate j'.executable).Avoids (i.host.locate j.target).place

instance (i : Installer) : Decidable i.Apart :=
  inferInstanceAs (Decidable (∀ j ∈ i.jobs, ∀ j' ∈ i.jobs, j'.executable = j.executable ∨
    (i.host.locate j'.executable).Avoids (i.host.locate j.target).place))

/-- **A call goes on by one stage.** Downloads and extractions may come out in any way; a temporary
file gets a name that leads to no program. -/
def Onward (i : Installer) (n : Nat) (x y : InstallState × InstallStage) : Prop :=
  (∃ env log, i.step env n x.2 x.1 = some (y.1, y.2, log)) ∧
    ∀ j a, y.2 = .requesting j a → i.Spares a.place

/-- **A call**, from its first stage to what it returns. -/
def Call (i : Installer) (s : InstallState) (language : String) (r : Except InstallError Path)
    (s' : InstallState) : Prop :=
  ∃ n, Relation.ReflTransGen (i.Onward n) (s, .begin language) (s', .returned r)

/-- **Any number of calls**, one after the other. -/
abbrev Calls (i : Installer) : InstallState → InstallState → Prop :=
  Relation.ReflTransGen fun s s' => ∃ language r, i.Call s language r s'

variable {x y : InstallState × InstallStage}

/-- **What a call knows**: it works for one of the servers, and what it reports is there. -/
structure Sound (i : Installer) (x : InstallState × InstallStage) : Prop where
  job : ∀ j, x.2.job? = some j → j ∈ i.jobs
  archive : ∀ a, x.2.archive? = some a → i.Spares a.place
  found : ∀ j, x.2.marks? = some j → x.1.files.pathExists (i.host.locate j.executable) = true
  reported : ∀ p, x.2.reports? = some p →
    x.1.files.pathExists (i.host.locate p) = true ∧ ∃ j ∈ i.jobs, j.executable = p

theorem Sound.begin (s : InstallState) (language : String) : i.Sound (s, .begin language) where
  job := by rintro _ ⟨⟩
  archive := by rintro _ ⟨⟩
  found := by rintro _ ⟨⟩
  reported := by rintro _ ⟨⟩

theorem Sound.onward (h : i.Sound x) (hs : i.Onward n x y) : i.Sound y := by
  obtain ⟨⟨env, log, hstep⟩, hfresh⟩ := hs
  have heffect := Effect.of_step hstep
  refine ⟨fun j hj => ?_, fun a ha => ?_, heffect.found, fun p hp => ?_⟩
  · rcases heffect.job j hj with hj | ⟨language, hj⟩
    · exact h.job j hj
    · exact mem_jobs hj
  · rcases heffect.archive a ha with ha | ⟨j, hj⟩
    · exact h.archive a ha
    · exact hfresh j a hj
  · obtain ⟨j, hj, rfl, hfound | hmarks⟩ := heffect.reported p hp
    · exact ⟨hfound, j, h.job j hj, rfl⟩
    -- only the temporary file goes away at the end
    · refine ⟨heffect.keeps.pathExists (h.found j hmarks) fun g hg => ?_, j, h.job j hj, rfl⟩
      obtain ⟨a, ha, rfl⟩ := InstallStage.mem_clears_of_marks? hmarks hg
      exact h.archive a ha j (h.job j hj)

theorem Sound.run (h : i.Sound x) (r : Relation.ReflTransGen (i.Onward n) x y) : i.Sound y := by
  induction r with
  | refl => exact h
  | tail _ hs ih => exact ih.onward hs

/-- **A program is there, and a call does not take it for missing.** -/
structure Present (i : Installer) (p : Path) (x : InstallState × InstallStage) : Prop where
  there : x.1.files.pathExists (i.host.locate p) = true
  ne : ∀ j, x.2.misses? = some j → p ≠ j.executable

/-- **Every stage leaves the program of every server in place.** -/
theorem Present.onward (apart : i.Apart) (hj : j ∈ i.jobs) (sound : i.Sound x)
    (h : i.Present j.executable x) (hs : i.Onward n x y) : i.Present j.executable y := by
  obtain ⟨⟨env, log, hstep⟩, -⟩ := hs
  have heffect := Effect.of_step hstep
  refine ⟨heffect.keeps.pathExists h.there fun g hg => ?_, fun j' hj' => ?_⟩
  · rcases InstallStage.mem_clears hg with ⟨a, ha, rfl⟩ | ⟨j', hjob, hmisses, rfl⟩
    · exact sound.archive a ha j hj
    · exact (apart j' (sound.job j' hjob) j hj).resolve_left (h.ne j' hmisses)
  · rcases heffect.misses j' hj' with hj' | hmissed
    · exact h.ne j' hj'
    · rintro heq
      rw [← heq, h.there] at hmissed
      cases hmissed

theorem Present.run (apart : i.Apart) (hj : j ∈ i.jobs) (sound : i.Sound x)
    (h : i.Present j.executable x) (r : Relation.ReflTransGen (i.Onward n) x y) :
    i.Present j.executable y := by
  induction r with
  | refl => exact h
  | tail r hs ih => exact ih.onward apart hj (sound.run r) hs

/-- **What is installed stays.** Where the installations of a catalog keep apart, a program that a
call has reported is there after any number of later calls, whatever comes of them. -/
theorem installed_stays (apart : i.Apart) {language : String} {path : Path}
    (call : i.Call s language (.ok path) s') (later : i.Calls s' s'') :
    s''.files.pathExists (i.host.locate path) = true := by
  obtain ⟨n, call⟩ := call
  obtain ⟨hexists, j, hj, rfl⟩ := ((Sound.begin s language).run call).reported path rfl
  clear call
  induction later with
  | refl => exact hexists
  | tail _ hcall ih =>
    obtain ⟨language, r, n, hcall⟩ := hcall
    exact (Present.run apart hj (.begin _ language) ⟨ih, by rintro _ ⟨⟩⟩ hcall).there

example : { shop with catalog := .builtin : Installer }.Apart := by decide +kernel

/-! ### A program that is lost -/

/-- One call goes on by some stages. -/
def goOn (i : Installer) (env : InstallEnvironment) (n : Nat) :
    Nat → InstallState × InstallStage → Option (InstallState × InstallStage)
  | 0, x => some x
  | k + 1, x => (i.step env n x.2 x.1).bind fun y =>
    if y.2.1.archive?.all fun a => i.Spares a.place then goOn i env n k (y.1, y.2.1) else none

theorem run_of_goOn {k : Nat} (h : i.goOn env n k x = some y) :
    Relation.ReflTransGen (i.Onward n) x y := by
  induction k generalizing x with
  | zero =>
    cases h
    exact .refl
  | succ k ih =>
    obtain ⟨⟨s', st', log⟩, hs, h⟩ := Option.bind_eq_some_iff.mp h
    split at h
    · next hspares =>
      refine (ih h).head ⟨⟨env, log, hs⟩, ?_⟩
      rintro j a rfl
      exact of_decide_eq_true hspares
    · cases h

/-- An installer for two servers with one name and one version. -/
def twins : Installer := { shop with catalog := ⟨[
  ⟨"analyzer", "1", ["rust"], true, "", [(⟨.linux, .x64⟩, ⟨"f.zip", "s"⟩)]⟩,
  ⟨"analyzer", "1", ["toml"], true, "", [(⟨.linux, .x64⟩, ⟨"g.zip", "t"⟩)]⟩]⟩ }

/-- An archive with one program. -/
def packed (program : String) : InstallEnvironment where
  fetch _ := .answer 200 "" [] none
  unpack _ _ := ⟨[.file (.ofString program) [] true], none⟩

/-- **Installing one server may take the program of another one away.** -/
theorem exists_installed_lost : ∃ (i : Installer) (files : FileTree) (s s' : InstallState)
    (language language' : String) (path path' : Path),
    i.Call (.start files) language (.ok path) s ∧ i.Call s language' (.ok path') s' ∧
      s'.files.pathExists (i.host.locate path) = false := by
  have hplay : (twins.goOn (packed "s") 0 13 (.start ⟨[]⟩, .begin "rust")).any (fun x =>
      reports (.ofString "/analyzer/1/linux-x64/s") x.2 &&
      (twins.goOn (packed "t") 1 13 (x.1, .begin "toml")).any fun y =>
        reports (.ofString "/analyzer/1/linux-x64/t") y.2 &&
        !y.1.files.pathExists (twins.host.locate (.ofString "/analyzer/1/linux-x64/s"))) = true := by
    decide +kernel
  obtain ⟨⟨s, st⟩, hs, hplay⟩ := (Option.any_eq_true _ _).mp hplay
  simp only [Bool.and_eq_true] at hplay
  obtain ⟨hreports, hplay⟩ := hplay
  obtain ⟨⟨s', st'⟩, hs', hplay⟩ := (Option.any_eq_true _ _).mp hplay
  simp only [Bool.and_eq_true, Bool.not_eq_true'] at hplay
  obtain ⟨hreports', hgone⟩ := hplay
  obtain rfl := eq_of_reports hreports
  obtain rfl := eq_of_reports hreports'
  exact ⟨twins, ⟨[]⟩, s, s', "rust", "toml", _, _, ⟨0, run_of_goOn hs⟩, ⟨1, run_of_goOn hs'⟩, hgone⟩

end Installer

end LanguageHub
