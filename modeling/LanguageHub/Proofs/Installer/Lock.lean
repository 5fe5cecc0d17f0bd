import LanguageHub.Installer.Install
import Mathlib.Logic.Basic
import Mathlib.Logic.Relation

/-!
# Installations of one version take turns

An `Installer.Scene` is what installations share, with the installations themselves, known by their
numbers. In a `Installer.Step` somebody asks for a server, or one of the installations goes on by
one stage. Nothing decides between them, and nothing is assumed of what is downloaded or unpacked
in a stage, so a run is **any interleaving of any number of installations with any outcomes**.

An installation stands in the queue of the lock of its version directory from its first look for
the program to its end, and the first one in the queue has the lock (`Installer.InLine`). So at
most one installation of a version is at any stage from its second look on
(`Installer.InLine.holder_unique`): downloads, extractions and what is taken away after a failure
do not overlap.

The first look is taken **without the lock**. An installation that finds the program then has
nobody's word that the program is all there: `Installer.exists_reported_unfinished` is a run in
which the program is reported while it is still being unpacked, and taken away afterwards. Whoever
has had the lock reports the program only when nobody writes the directory
(`Installer.reported_finished`).
-/

namespace LanguageHub

/-- The job of an installation that has the lock of its directory. -/
def InstallStage.holds? : InstallStage → Option InstallJob
  | .lookingAgain j | .preparing j | .requesting j _ | .receiving j _ _ | .clearing j _
  | .opening j _ | .extracting j _ _ | .verifying j _ | .removing j _ _ | .marking j _ => some j
  | _ => none

/-- The lock that an installation has or waits for. -/
def InstallStage.lock? : InstallStage → Option (List Path.Component)
  | .queued j => some j.lock
  | st => st.holds?.map (·.lock)

namespace InstallState

variable {s s' : InstallState} {l l' : List Path.Component} {n : Nat}

theorem queueOf_congr (h : s'.locks = s.locks) (l : List Path.Component) :
    s'.queueOf l = s.queueOf l := by
  rw [queueOf, h, queueOf]

theorem queueOf_setQueue (s : InstallState) (l l' : List Path.Component) (queue : List Nat) :
    (s.setQueue l queue).queueOf l' = if l' = l then queue else s.queueOf l' := by
  rw [queueOf, setQueue]
  split
  · next h =>
    subst h
    rw [List.find?_cons_of_pos (by simp)]
    rfl
  · next h =>
    rw [List.find?_cons_of_neg (by simpa using Ne.symm h), queueOf, List.find?_filter]
    congr 3
    funext x
    by_cases hx : x.1 = l'
    · simp [hx, h]
    · simp [hx]

end InstallState

namespace Installer

/-- What installations share, and the installations. -/
structure Scene where
  state : InstallState
  /-- How far each installation has come. -/
  stages : List InstallStage

/-- No installation has been asked for yet. -/
def Scene.start (files : FileTree) : Scene := ⟨.start files, []⟩

/-- What is seen of a step. -/
inductive Event where
  | called (language : String)
  /-- An installation has gone on by one stage. -/
  | advanced (n : Nat) (before after : InstallStage)

/-- **What can happen next.** -/
inductive Step (i : Installer) (sc : Scene) : Event → Scene → Prop
  | call (language : String) :
      Step i sc (.called language) { sc with stages := sc.stages ++ [.begin language] }
  | advance (env : InstallEnvironment) (n : Nat) {st st' : InstallStage} {s' : InstallState}
      {log : List LogEntry} : sc.stages[n]? = some st →
      i.step env n st sc.state = some (s', st', log) →
      Step i sc (.advanced n st st') ⟨s', sc.stages.set n st'⟩

/-- **A run**: a chain of steps. -/
abbrev Run (i : Installer) : Scene → Scene → Prop :=
  Relation.ReflTransGen fun sc sc' => ∃ e, Step i sc e sc'

variable {i : Installer} {env : InstallEnvironment} {sc sc' : Scene} {e : Event}
  {s s' : InstallState} {st st' : InstallStage} {j : InstallJob} {n : Nat} {log : List LogEntry}

/-! ### What a stage does to the locks -/

/-- **What a stage of an installation does to the locks**, which is known as `n`. -/
inductive Moves (n : Nat) (s s' : InstallState) : InstallStage → InstallStage → Prop
  | outside {st st' : InstallStage} : st.lock? = none → st'.lock? = none → s'.locks = s.locks →
      Moves n s s' st st'
  | enter (j : InstallJob) : s'.locks = (s.enter j.lock n).locks →
      Moves n s s' (.looking j) (.queued j)
  | take (j : InstallJob) : (s.queueOf j.lock).head? = some n → s'.locks = s.locks →
      Moves n s s' (.queued j) (.lookingAgain j)
  | keep (j : InstallJob) {st st' : InstallStage} : st.holds? = some j → st'.holds? = some j →
      s'.locks = s.locks → Moves n s s' st st'
  | leave (j : InstallJob) {st : InstallStage} (r : Except InstallError Path) :
      st.holds? = some j → s'.locks = (s.leave j.lock).locks → Moves n s s' st (.returned r)

theorem Moves.of_discard (hst : st.holds? = some j) {files : FileTree} {archive : Path}
    {r : Except InstallError Path} :
    Moves n s (discard { s with files := files } j archive r).1 st
      (discard { s with files := files } j archive r).2 := .leave j r hst rfl

theorem Moves.of_prepare (i : Installer) (s : InstallState) (j : InstallJob) :
    Moves n s (i.prepare s j).1 (.preparing j) (i.prepare s j).2 := by
  unfold prepare
  split
  · exact .leave j _ rfl rfl
  · dsimp only
    split
    · exact .leave j _ rfl rfl
    · exact .keep j rfl rfl rfl

theorem Moves.of_receive (s : InstallState) (j : InstallJob) (archive : Path) (reply : HttpReply) :
    Moves n s (receive s j archive reply).1 (.receiving j archive reply)
      (receive s j archive reply).2.1 := by
  unfold receive
  split
  · exact .of_discard rfl
  · split
    · exact .of_discard rfl
    · split
      · exact .of_discard rfl
      · split
        · exact .of_discard rfl
        · exact .keep j rfl rfl rfl

theorem Moves.of_extracting {archive : Path} {left : Unpacking}
    (h : i.step env n (.extracting j archive left) s = some (s', st', log)) :
    Moves n s s' (.extracting j archive left) st' := by
  obtain ⟨_ | ⟨x, rest⟩, fault⟩ := left
  · cases fault <;> cases h <;> exact .keep j rfl rfl rfl
  · simp only [step] at h
    split at h <;> cases h <;> exact .keep j rfl rfl rfl

theorem Moves.of_step (h : i.step env n st s = some (s', st', log)) : Moves n s s' st st' := by
  cases st with
  | begin language =>
    simp only [step] at h
    split at h <;> cases h <;> exact .outside rfl rfl rfl
  | looking j =>
    simp only [step] at h
    split at h <;> cases h
    · exact .outside rfl rfl rfl
    · exact .enter j rfl
  | queued j =>
    simp only [step] at h
    split at h
    · next hhead =>
      cases h
      exact .take j (by simpa using hhead) rfl
    · cases h
  | lookingAgain j =>
    simp only [step] at h
    split at h
    · cases h
      exact .leave j _ rfl rfl
    · split at h <;> cases h
      · exact .leave j _ rfl rfl
      · exact .keep j rfl rfl rfl
  | preparing j =>
    cases h
    exact .of_prepare i s j
  | requesting j archive =>
    cases h
    exact .keep j rfl rfl rfl
  | receiving j archive reply =>
    have hreceive : receive s j archive reply = (s', st', log) := Option.some.inj h
    have hmoves := Moves.of_receive (n := n) s j archive reply
    rwa [hreceive] at hmoves
  | clearing j archive =>
    simp only [step] at h
    split at h
    · split at h <;> cases h
      · exact .keep j rfl rfl rfl
      · exact .of_discard rfl
    · cases h
      exact .keep j rfl rfl rfl
  | opening j archive =>
    simp only [step] at h
    split at h
    · cases h
      exact .of_discard rfl
    · split at h <;> cases h <;> exact .keep j rfl rfl rfl
  | extracting j archive left => exact .of_extracting h
  | verifying j archive =>
    simp only [step] at h
    split at h <;> cases h <;> exact .keep j rfl rfl rfl
  | removing j archive e =>
    simp only [step] at h
    split at h <;> cases h <;> exact .of_discard rfl
  | marking j archive =>
    cases h
    exact .of_discard rfl
  | returned r => cases h

/-! ### The queue of a lock -/

theorem lock?_of_holds? (h : st.holds? = some j) : st.lock? = some j.lock := by
  cases st <;> cases h <;> rfl

/-- **Who stands in the queue of a lock**: whoever has the lock or waits for it, and no one else;
the first one has the lock or gets it next. -/
structure InLine (sc : Scene) : Prop where
  nodup : ∀ l, (sc.state.queueOf l).Nodup
  mem_iff : ∀ l n, n ∈ sc.state.queueOf l ↔ (sc.stages[n]?).bind (·.lock?) = some l
  first : ∀ (n : Nat) (st : InstallStage) (j : InstallJob), sc.stages[n]? = some st →
    st.holds? = some j → (sc.state.queueOf j.lock).head? = some n

namespace InLine

/-- **At most one installation has the lock of a version directory.** -/
theorem holder_unique (h : InLine sc) {n n' : Nat} {st st' : InstallStage} {j j' : InstallJob}
    (hn : sc.stages[n]? = some st) (hst : st.holds? = some j) (hn' : sc.stages[n']? = some st')
    (hst' : st'.holds? = some j') (hlock : j.lock = j'.lock) : n = n' := by
  have hfirst := h.first n st j hn hst
  rw [hlock, h.first n' st' j' hn' hst'] at hfirst
  exact (Option.some.inj hfirst).symm

theorem start (files : FileTree) : InLine (.start files) where
  nodup := fun _ => List.nodup_nil
  mem_iff := fun _ _ => by simp [Scene.start, InstallState.start, InstallState.queueOf]
  first := fun _ _ _ hn => by cases hn

/-- Whoever comes stands in no queue yet. -/
theorem call (h : InLine sc) (language : String) :
    InLine { sc with stages := sc.stages ++ [.begin language] } where
  nodup := h.nodup
  mem_iff := by
    intro l n
    rw [h.mem_iff]
    rcases Nat.lt_trichotomy n sc.stages.length with hlt | rfl | hgt
    · rw [List.getElem?_append_left hlt]
    · simp [InstallStage.lock?, InstallStage.holds?]
    · have hlen : (sc.stages ++ [InstallStage.begin language]).length ≤ n := by simp; omega
      rw [List.getElem?_eq_none hlen, List.getElem?_eq_none (Nat.le_of_lt hgt)]
  first := by
    intro n st j hn hst
    rw [List.getElem?_append] at hn
    split at hn
    · exact h.first n st j hn hst
    · rw [List.mem_singleton.mp (List.mem_of_getElem? hn)] at hst
      cases hst

/-- The lock of each installation after one has gone on. -/
theorem lock?_set (hn : sc.stages[n]? = some st) (k : Nat) :
    ((sc.stages.set n st')[k]?).bind (·.lock?) =
      if k = n then st'.lock? else (sc.stages[k]?).bind (·.lock?) := by
  obtain ⟨hlt, -⟩ := List.getElem?_eq_some_iff.mp hn
  rcases eq_or_ne k n with rfl | hne
  · rw [List.getElem?_set_self hlt, if_pos rfl, Option.bind_some]
  · rw [List.getElem?_set_ne hne.symm, if_neg hne]

/-- The queue of each lock stays as it is. -/
theorem stay (h : InLine sc) (hn : sc.stages[n]? = some st) (hlocks : s'.locks = sc.state.locks)
    (hlock : st'.lock? = st.lock?)
    (hfirst : ∀ j, st'.holds? = some j → (sc.state.queueOf j.lock).head? = some n) :
    InLine ⟨s', sc.stages.set n st'⟩ where
  nodup := fun l => by
    rw [InstallState.queueOf_congr hlocks]
    exact h.nodup l
  mem_iff := by
    intro l k
    rw [InstallState.queueOf_congr hlocks, h.mem_iff, lock?_set hn]
    split
    · next hk => rw [hk, hn, Option.bind_some, hlock]
    · rfl
  first := by
    intro k x j hk hx
    rw [InstallState.queueOf_congr hlocks]
    rw [List.getElem?_set] at hk
    split at hk
    · next hkn =>
      subst hkn
      split at hk <;> cases hk
      exact hfirst j hx
    · exact h.first k x j hk hx

/-- An installation goes to the end of the queue of its lock. -/
theorem enter (h : InLine sc) (hn : sc.stages[n]? = some (.looking j))
    (hlocks : s'.locks = (sc.state.enter j.lock n).locks) :
    InLine ⟨s', sc.stages.set n (.queued j)⟩ := by
  have hqueue : ∀ l, s'.queueOf l =
      if l = j.lock then sc.state.queueOf j.lock ++ [n] else sc.state.queueOf l := fun l => by
    rw [InstallState.queueOf_congr hlocks, InstallState.enter, InstallState.queueOf_setQueue]
  have hout : ∀ l, n ∉ sc.state.queueOf l := by
    intro l hmem
    rw [h.mem_iff, hn] at hmem
    cases hmem
  refine ⟨fun l => ?_, fun l k => ?_, fun k x j' hk hx => ?_⟩
  · rw [hqueue]
    split
    · refine List.nodup_append.mpr ⟨h.nodup _, by simp, ?_⟩
      rintro k hk _ hn' rfl
      rw [List.mem_singleton.mp hn'] at hk
      exact hout _ hk
    · exact h.nodup l
  · rw [hqueue, lock?_set hn]
    rcases eq_or_ne k n with rfl | hne
    · rw [if_pos rfl]
      split
      · next hl => simp [hl, InstallStage.lock?]
      · next hl => simpa [InstallStage.lock?, Ne.symm hl] using hout l
    · rw [if_neg hne, ← h.mem_iff]
      split
      · next hl => simp [hl, hne]
      · rfl
  · rw [hqueue]
    rw [List.getElem?_set] at hk
    split at hk
    · split at hk <;> cases hk
      cases hx
    · have hfirst := h.first k x j' hk hx
      split
      · next hl => rw [← hl, List.head?_append, hfirst, Option.some_or]
      · exact hfirst

/-- Whoever has a lock leaves it to the next one. -/
theorem leave (h : InLine sc) (hn : sc.stages[n]? = some st) (hst : st.holds? = some j)
    (hlocks : s'.locks = (sc.state.leave j.lock).locks) (r : Except InstallError Path) :
    InLine ⟨s', sc.stages.set n (.returned r)⟩ := by
  have hqueue : ∀ l, s'.queueOf l =
      if l = j.lock then (sc.state.queueOf j.lock).drop 1 else sc.state.queueOf l := fun l => by
    rw [InstallState.queueOf_congr hlocks, InstallState.leave, InstallState.queueOf_setQueue]
  obtain ⟨rest, hrest⟩ : ∃ rest, sc.state.queueOf j.lock = n :: rest := by
    have hfirst := h.first n st j hn hst
    rcases hq : sc.state.queueOf j.lock with _ | ⟨m, rest⟩ <;> rw [hq] at hfirst
    · cases hfirst
    · cases hfirst
      exact ⟨rest, rfl⟩
  have hnodup := h.nodup j.lock
  rw [hrest, List.nodup_cons] at hnodup
  rw [hrest] at hqueue
  have hlock : st.lock? = some j.lock := lock?_of_holds? hst
  refine ⟨fun l => ?_, fun l k => ?_, fun k x j' hk hx => ?_⟩
  · rw [hqueue]
    split
    · exact hnodup.2
    · exact h.nodup l
  · rw [hqueue, lock?_set hn]
    have hmem := h.mem_iff l k
    rcases eq_or_ne k n with rfl | hne
    -- whoever has left stands nowhere
    · rw [hn, Option.bind_some, hlock] at hmem
      rw [if_pos rfl]
      split
      · simpa [InstallStage.lock?, InstallStage.holds?] using hnodup.1
      · next hl => simpa [InstallStage.lock?, InstallStage.holds?, Ne.symm hl] using hmem
    · rw [if_neg hne, ← hmem]
      split
      · next hl => simp [hl, hrest, hne]
      · rfl
  · rw [List.getElem?_set] at hk
    split at hk
    · split at hk <;> cases hk
      cases hx
    · next hne =>
      have hfirst := h.first k x j' hk hx
      rw [hqueue, if_neg fun hl => ?_]
      · exact hfirst
      -- nobody else has the lock
      · rw [hl, hrest] at hfirst
        exact hne (Option.some.inj hfirst)

/-- **Every step keeps the queues.** -/
theorem step (h : InLine sc) (hs : Step i sc e sc') : InLine sc' := by
  cases hs with
  | call language => exact h.call language
  | advance env n hn hstep =>
    cases Moves.of_step hstep with
    | outside hst hst' hlocks =>
      refine h.stay hn hlocks (hst'.trans hst.symm) fun j hj => ?_
      rw [lock?_of_holds? hj] at hst'
      cases hst'
    | enter j hlocks => exact h.enter hn hlocks
    | take j hhead hlocks =>
      refine h.stay hn hlocks rfl ?_
      rintro _ ⟨⟩
      exact hhead
    | keep j hst hst' hlocks =>
      refine h.stay hn hlocks ((lock?_of_holds? hst').trans (lock?_of_holds? hst).symm) ?_
      intro j' hj'
      rw [hst'] at hj'
      cases hj'
      exact h.first n _ j hn hst
    | leave j r hst hlocks => exact h.leave hn hst hlocks r

end InLine

/-- **In every run the installations of a version take turns.** -/
theorem Run.inLine {files : FileTree} (r : Run i (.start files) sc) : InLine sc := by
  induction r with
  | refl => exact .start files
  | tail _ hs ih =>
    obtain ⟨e, hs⟩ := hs
    exact ih.step hs

/-! ### What is reported -/

/-- **Whoever has had the lock reports when nobody writes the directory.** When an installation that
has the lock ends, however it ends, no other installation of the version is between its second look
and its own end. -/
theorem reported_finished {files : FileTree} {r : Except InstallError Path}
    (run : Run i (.start files) sc) (ends : Step i sc (.advanced n st (.returned r)) sc')
    (hst : st.holds? = some j) {k : Nat} {st' : InstallStage} {j' : InstallJob}
    (hk : sc'.stages[k]? = some st') (hst' : st'.holds? = some j') : j'.lock ≠ j.lock := by
  intro hlock
  cases ends with
  | advance env _ hn hstep =>
    rcases eq_or_ne k n with rfl | hne
    · obtain ⟨hlt, -⟩ := List.getElem?_eq_some_iff.mp hn
      rw [List.getElem?_set_self hlt] at hk
      cases hk
      cases hst'
    · rw [List.getElem?_set_ne hne.symm] at hk
      exact hne (run.inLine.holder_unique hk hst' hn hst hlock)

/-- Some installations go on by one stage, one after the other, if all of them can. -/
def Scene.play (i : Installer) (env : InstallEnvironment) : List Nat → Scene → Option Scene
  | [], sc => some sc
  | n :: rest, sc => (sc.stages[n]?).bind fun st => (i.step env n st sc.state).bind fun x =>
    play i env rest ⟨x.1, sc.stages.set n x.2.1⟩

theorem Run.of_play {moves : List Nat} (h : sc.play i env moves = some sc') : Run i sc sc' := by
  induction moves generalizing sc with
  | nil =>
    cases h
    exact .refl
  | cons n rest ih =>
    obtain ⟨st, hn, h⟩ := Option.bind_eq_some_iff.mp h
    obtain ⟨⟨s', st', log⟩, hs, h⟩ := Option.bind_eq_some_iff.mp h
    exact (ih h).head ⟨_, .advance env n hn hs⟩

/-- An installer for one server. -/
def shop : Installer where
  catalog := ⟨[⟨"analyzer", "1", ["rust"], true, "", [(⟨.linux, .x64⟩, ⟨"f.zip", "s"⟩)]⟩]⟩
  baseDir := ⟨[0x2F]⟩
  platform := some ⟨.linux, .x64⟩
  host := { (default : Host) with directory := ⟨[0x2F]⟩, tempDirectory := ⟨[0x2F]⟩ }

/-- An archive with the program, which is broken after it. -/
def broken : InstallEnvironment where
  fetch _ := .answer 200 "" [] none
  unpack _ _ := ⟨[.file (.ofString "s") [] true], some (.step "" "")⟩

/-- Whether an installation unpacks the archive of a program. -/
def unpacks (path : Path) : InstallStage → Bool
  | .extracting j _ _ => j.executable == path
  | _ => false

theorem exists_of_unpacks {path : Path} (h : unpacks path st = true) :
    ∃ j archive left, st = .extracting j archive left ∧ j.executable = path := by
  unfold unpacks at h
  split at h
  · exact ⟨_, _, _, rfl, by simpa using h⟩
  · cases h

/-- Whether an installation has reported a program. -/
def reports (path : Path) : InstallStage → Bool
  | .returned (.ok p) => p == path
  | _ => false

theorem eq_of_reports {path : Path} (h : reports path st = true) : st = .returned (.ok path) := by
  unfold reports at h
  split at h
  · rw [eq_of_beq h]
  · cases h

/-- Whether an installation has failed. -/
def hasFailed : InstallStage → Bool
  | .returned (.error _) => true
  | _ => false

theorem exists_of_hasFailed (h : hasFailed st = true) : ∃ e, st = .returned (.error e) := by
  unfold hasFailed at h
  split at h
  · exact ⟨_, rfl⟩
  · cases h

/-- **A program is reported while it is still being unpacked**, and is taken away afterwards. -/
theorem exists_reported_unfinished : ∃ (i : Installer) (files : FileTree) (sc sc' sc'' : Scene)
    (st : InstallStage) (path : Path), Run i (.start files) sc ∧
      Step i sc (.advanced 1 st (.returned (.ok path))) sc' ∧
      (∃ j archive left, sc'.stages[0]? = some (.extracting j archive left) ∧
        j.executable = path) ∧
      Run i sc' sc'' ∧ (∃ e, sc''.stages[0]? = some (.returned (.error e))) ∧
      sc''.state.files.pathExists (i.host.locate path) = false := by
  obtain ⟨sc₀, hsc₀⟩ : ∃ sc₀ : Scene, sc₀ = ⟨.start ⟨[]⟩, [.begin "rust", .begin "rust"]⟩ :=
    ⟨_, rfl⟩
  obtain ⟨path, hpath⟩ : ∃ p, p = Path.ofString "/analyzer/1/linux-x64/s" := ⟨_, rfl⟩
  -- the second looks for the program when the first has unpacked it, and nothing after it
  have hplay : (sc₀.play shop broken (List.replicate 10 0 ++ [1])).any (fun sc =>
      (sc.stages[1]?).any fun st => (shop.step broken 1 st sc.state).any fun x =>
        reports path x.2.1 && ((sc.stages.set 1 x.2.1)[0]?).any (unpacks path) &&
        (Scene.play shop broken [0, 0] ⟨x.1, sc.stages.set 1 x.2.1⟩).any fun sc =>
          (sc.stages[0]?).any hasFailed &&
          !sc.state.files.pathExists (shop.host.locate path)) = true := by
    rw [hsc₀, hpath]
    decide +kernel
  obtain ⟨sc, hsc, hplay⟩ := (Option.any_eq_true _ _).mp hplay
  obtain ⟨st, hn, hplay⟩ := (Option.any_eq_true _ _).mp hplay
  obtain ⟨⟨s', st', log⟩, hend, hplay⟩ := (Option.any_eq_true _ _).mp hplay
  simp only [Bool.and_eq_true] at hplay
  obtain ⟨⟨hreports, hfirst⟩, hplay⟩ := hplay
  obtain rfl := eq_of_reports hreports
  obtain ⟨x, hx, hunpacks⟩ := (Option.any_eq_true _ _).mp hfirst
  obtain ⟨sc'', hsc'', hplay⟩ := (Option.any_eq_true _ _).mp hplay
  simp only [Bool.and_eq_true, Bool.not_eq_true'] at hplay
  obtain ⟨hlast, hgone⟩ := hplay
  obtain ⟨y, hy, hfailed⟩ := (Option.any_eq_true _ _).mp hlast
  obtain ⟨j, archive, left, rfl, hj⟩ := exists_of_unpacks hunpacks
  obtain ⟨e, rfl⟩ := exists_of_hasFailed hfailed
  have called : Run shop (.start ⟨[]⟩) sc₀ := by
    rw [hsc₀]
    exact (Relation.ReflTransGen.refl.tail ⟨_, .call "rust"⟩).tail ⟨_, .call "rust"⟩
  exact ⟨shop, ⟨[]⟩, sc, _, sc'', st, path, called.trans (Run.of_play hsc),
    .advance broken 1 hn hend, ⟨j, archive, left, hx, hj⟩, Run.of_play hsc'', ⟨e, hy⟩, hgone⟩

end Installer

end LanguageHub
