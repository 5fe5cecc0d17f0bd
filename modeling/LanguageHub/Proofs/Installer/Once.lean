import LanguageHub.Proofs.Installer.Course
import LanguageHub.Proofs.Installer.Effects

/-!
# What several callers ask for is downloaded once

Any number of calls for one language go on together, each in its own stage, and meet at the lock of
the version directory. The calls that find no program queue for the lock; the first of them looks
again, downloads and unpacks, and whoever has the lock after it finds the program. So there is **one
request**, and every call reports the same program (`Installer.installs_once`).

What carries the proof is a `Phase` of the calls, which holds as long as none of them has failed. At
first the program is missing, nothing has been asked for, and no call has reported anything. Then
there is one worker, and what has been asked for is what the worker has asked for
(`InstallStage.asked`); the others cannot have the lock, but they may find the program at their
first look as soon as it is unpacked. When the worker is done the program is there, and from then on
no call misses it. A call that fails may take the program away again, and the next one in the queue
starts again with a request of its own.

Calls are not given up on the way. Two servers with the same version directory have the same lock;
the path of the directory decides, and two paths that are spelt differently have two locks.
-/

namespace LanguageHub

namespace Installer

variable {i : Installer} {env : InstallEnvironment} {sc sc' sc₀ : Scene} {e : Event}
  {s s' : InstallState} {st st' st₁ : InstallStage} {j j' : InstallJob} {n k b : Nat}
  {log : List LogEntry} {language : String} {before : List String}

/-! ### Installations do not overlap -/

/-- **A call installs**: it is between the start of its download and its end. -/
def Scene.Installing (sc : Scene) (n : Nat) (directory : List Path.Component) : Prop :=
  ∃ st j, sc.stages[n]? = some st ∧ st.misses? = some j ∧ j.target.components = directory

instance (sc : Scene) (n : Nat) (directory : List Path.Component) :
    Decidable (sc.Installing n directory) :=
  decidable_of_iff (∃ j ∈ (sc.stages[n]?).bind (·.misses?), j.target.components = directory) (by
    simp only [Scene.Installing, Option.mem_def, Option.bind_eq_some_iff]
    exact ⟨fun ⟨j, ⟨st, hn, hst⟩, h⟩ => ⟨st, j, hn, hst, h⟩,
      fun ⟨st, j, hn, hst, h⟩ => ⟨j, ⟨st, hn, hst⟩, h⟩⟩)

theorem Step.stage (hs : Step i sc e sc') (hn : sc.stages[n]? = some st) :
    ∃ st', sc'.stages[n]? = some st' ∧
      (st' = st ∨ ∃ env log, i.step env n st sc.state = some (sc'.state, st', log)) := by
  obtain ⟨hlt, -⟩ := List.getElem?_eq_some_iff.mp hn
  cases hs with
  | call language => exact ⟨st, by rw [List.getElem?_append_left hlt, hn], .inl rfl⟩
  | advance env m hm hstep =>
    rcases eq_or_ne m n with rfl | hne
    · rw [hm] at hn
      cases hn
      exact ⟨_, List.getElem?_set_self hlt, .inr ⟨env, _, hstep⟩⟩
    · exact ⟨st, by rw [List.getElem?_set_ne hne, hn], .inl rfl⟩

/-- What has returned stays as it is. -/
theorem Run.returned {r : Except InstallError Path} (run : Run i sc sc')
    (hn : sc.stages[n]? = some (.returned r)) : sc'.stages[n]? = some (.returned r) := by
  induction run with
  | refl => exact hn
  | tail _ hs ih =>
    obtain ⟨e, hs⟩ := hs
    obtain ⟨st', hn', rfl | ⟨env, log, hstep⟩⟩ := hs.stage ih
    · exact hn'
    · cases hstep

/-- Whoever installs goes on installing until it returns. -/
theorem Run.installing (run : Run i sc sc') (hn : sc.stages[n]? = some st)
    (hst : st.misses? = some j) : ∃ st', sc'.stages[n]? = some st' ∧
      (st'.misses? = some j ∨ ∃ r, st' = .returned r) := by
  induction run with
  | refl => exact ⟨st, hn, .inl hst⟩
  | tail _ hs ih =>
    obtain ⟨e, hs⟩ := hs
    obtain ⟨x, hx, hcase⟩ := ih
    obtain ⟨x', hx', rfl | ⟨env, log, hstep⟩⟩ := hs.stage hx
    · exact ⟨x', hx', hcase⟩
    refine ⟨x', hx', ?_⟩
    rcases hcase with hmisses | ⟨r, rfl⟩
    · cases Course.of_step hstep with
      | begins | starts => cases hmisses
      | finds _ hnone | waits _ _ hnone =>
        rw [hnone] at hmisses
        cases hmisses
      | asks => exact .inl hmisses
      | works hst hst' =>
        rw [hst] at hmisses
        exact .inl (hst'.trans hmisses)
      | succeeds | fails => exact .inr ⟨_, rfl⟩
    · cases hstep

/-! ### One request -/

/-- **A step while only one language is asked for.** A temporary file gets a name that does not lead
to the program. -/
def Asking (i : Installer) (language : String) (program : Path) (sc sc' : Scene) : Prop :=
  ∃ e, Step i sc e sc' ∧ (∀ l, e = .called l → l = language) ∧
    ∀ n st j archive, e = .advanced n st (.requesting j archive) →
      (i.host.locate program).Avoids archive.place

theorem Asking.run {program : Path} (r : Relation.ReflTransGen (i.Asking language program) sc sc') :
    Run i sc sc' :=
  Relation.ReflTransGen.mono (fun _ _ ⟨e, hs, _⟩ => ⟨e, hs⟩) _ _ r

/-- **What is known of a call** for a language whose job is `j`. -/
structure Serves (i : Installer) (language : String) (j : InstallJob) (st : InstallStage) :
    Prop where
  asked : ∀ l, st = .begin l → l = language
  job : ∀ j', st.job? = some j' → j' = j
  archive : ∀ a, st.archive? = some a → (i.host.locate j.executable).Avoids a.place
  reported : ∀ p, st.reports? = some p → p = j.executable

theorem Serves.begin (i : Installer) (language : String) (j : InstallJob) :
    i.Serves language j (.begin language) where
  asked := by
    rintro _ ⟨⟩
    rfl
  job := by rintro _ ⟨⟩
  archive := by rintro _ ⟨⟩
  reported := by rintro _ ⟨⟩

theorem Serves.step (h : i.Serves language j st) (hjob : i.job language = .ok j)
    (hstep : i.step env n st s = some (s', st', log))
    (hfresh : ∀ j' a, st' = .requesting j' a → (i.host.locate j.executable).Avoids a.place) :
    i.Serves language j st' where
  asked := by
    rintro l rfl
    cases Course.of_step hstep with
    | waits _ hst' => cases hst'
    | works _ hst' => cases hst'
  job := by
    intro j' hj'
    cases Course.of_step hstep with
    | begins hjob' =>
      cases hj'
      rw [h.asked _ rfl, hjob] at hjob'
      exact (Except.ok.inj hjob').symm
    | finds => cases hj'
    | waits hst hst' =>
      rw [hst'] at hj'
      exact h.job j' (hst.trans hj')
    | starts | asks => exact h.job j' hj'
    | works hst hst' =>
      rw [InstallStage.job?_of_misses? hst'] at hj'
      exact h.job j' ((InstallStage.job?_of_misses? hst).trans hj')
    | succeeds => cases hj'
    | fails => cases hj'
  archive := by
    intro a ha
    rcases (Effect.of_step hstep).archive a ha with ha | ⟨j', hj'⟩
    · exact h.archive a ha
    · exact hfresh j' a hj'
  reported := by
    intro p hp
    obtain ⟨j', hj', rfl, -⟩ := (Effect.of_step hstep).reported p hp
    rw [h.job j' hj']

/-- **The calls since some others were over**, which were the first `b`. -/
structure Since (i : Installer) (language : String) (j : InstallJob) (b : Nat) (sc : Scene) :
    Prop where
  inLine : InLine sc
  le : b ≤ sc.stages.length
  old : ∀ n st, n < b → sc.stages[n]? = some st → ∃ r, st = .returned r
  new : ∀ n st, b ≤ n → sc.stages[n]? = some st → i.Serves language j st

/-- One of the calls has failed. -/
def Failed (b : Nat) (sc : Scene) : Prop :=
  ∃ n e, b ≤ n ∧ sc.stages[n]? = some (.returned (.error e))

/-- No call is between its second look and its end. -/
def Quiet (sc : Scene) : Prop :=
  ∀ (n : Nat) (st : InstallStage), sc.stages[n]? = some st → st.misses? = none

/-- **How far the calls have come**, if none has failed. -/
inductive Phase (i : Installer) (j : InstallJob) (b : Nat) (before : List String) (sc : Scene) :
    Prop
  /-- Nobody has downloaded. -/
  | missing : sc.state.files.pathExists (i.host.locate j.executable) = false →
      sc.state.requests = before → Quiet sc →
      (∀ n st, b ≤ n → sc.stages[n]? = some st → st.reports? = none) → Phase i j b before sc
  /-- One call downloads. -/
  | working (n : Nat) (st : InstallStage) : sc.stages[n]? = some st → st.misses? = some j →
      sc.state.requests = before ++ st.asked →
      (st.marks? = some j → sc.state.files.pathExists (i.host.locate j.executable) = true) →
      Phase i j b before sc
  /-- The program is there. -/
  | there : sc.state.files.pathExists (i.host.locate j.executable) = true →
      sc.state.requests = before ++ [j.build.downloadUrl] → Quiet sc → Phase i j b before sc

theorem Quiet.set (h : Quiet sc) (hst' : st'.misses? = none) :
    Quiet ⟨s', sc.stages.set n st'⟩ := by
  intro k x hx
  rcases getElem?_set_cases hx with ⟨-, rfl⟩ | ⟨-, hx⟩
  · exact hst'
  · exact h k x hx

theorem Quiet.append (h : Quiet sc) (language : String) :
    Quiet { sc with stages := sc.stages ++ [.begin language] } := by
  intro k x hx
  rcases getElem?_concat_cases hx with rfl | hx
  · rfl
  · exact h k x hx

namespace Since

theorem step (h : i.Since language j b sc) (hjob : i.job language = .ok j)
    (hs : i.Asking language j.executable sc sc') : i.Since language j b sc' := by
  obtain ⟨e, hs, hcalled, hfresh⟩ := hs
  have hinLine := h.inLine.step hs
  cases hs with
  | call l =>
    refine ⟨hinLine, ?_, fun n x hn hx => ?_, fun n x hn hx => ?_⟩
    · rw [List.length_append]
      exact Nat.le_add_right_of_le h.le
    · rw [List.getElem?_append_left (Nat.lt_of_lt_of_le hn h.le)] at hx
      exact h.old n x hn hx
    · rcases getElem?_concat_cases hx with rfl | hx
      · rw [hcalled l rfl]
        exact .begin i language j
      · exact h.new n x hn hx
  | advance env m hm hstep =>
    refine ⟨hinLine, ?_, fun n x hn hx => ?_, fun n x hn hx => ?_⟩
    · rw [List.length_set]
      exact h.le
    · rcases getElem?_set_cases hx with ⟨rfl, rfl⟩ | ⟨-, hx⟩
      · obtain ⟨r, rfl⟩ := h.old n _ hn hm
        cases hstep
      · exact h.old n x hn hx
    · rcases getElem?_set_cases hx with ⟨rfl, rfl⟩ | ⟨-, hx⟩
      · refine (h.new n _ hn hm).step hjob hstep ?_
        rintro j' a rfl
        exact hfresh _ _ j' a rfl
      · exact h.new n x hn hx

/-- Nobody else has the lock while a call downloads. -/
theorem holds?_eq_none (h : i.Since language j b sc) (hn : sc.stages[n]? = some st)
    (hst : st.misses? = some j) (hk : sc.stages[k]? = some st') (hne : k ≠ n) :
    st'.holds? = none := by
  by_contra hholds
  obtain ⟨j', hj'⟩ := Option.ne_none_iff_exists'.mp hholds
  rcases Nat.lt_or_ge k b with hlt | hge
  · obtain ⟨r, rfl⟩ := h.old k st' hlt hk
    cases hj'
  · obtain rfl := (h.new k st' hge hk).job j' (InstallStage.job?_of_holds? hj')
    exact hne (h.inLine.holder_unique hk hj' hn (InstallStage.holds?_of_misses? hst) rfl)

/-- What goes on has been asked for since then. -/
theorem le_of_step (h : i.Since language j b sc) (hn : sc.stages[n]? = some st)
    (hstep : i.step env n st s = some (s', st', log)) : b ≤ n := by
  by_contra hlt
  obtain ⟨r, rfl⟩ := h.old n st (Nat.lt_of_not_le hlt) hn
  cases hstep

end Since

namespace Phase

theorem call (h : i.Phase j b before sc) (language : String) :
    i.Phase j b before { sc with stages := sc.stages ++ [.begin language] } := by
  cases h with
  | missing hgone hrequests hquiet hnone =>
    refine .missing hgone hrequests (hquiet.append language) fun n x hn hx => ?_
    rcases getElem?_concat_cases hx with rfl | hx
    · rfl
    · exact hnone n x hn hx
  | working n st hn hst hrequests hmarks =>
    refine .working n st ?_ hst hrequests hmarks
    rw [List.getElem?_append_left (List.getElem?_eq_some_iff.mp hn).1]
    exact hn
  | there hthere hrequests hquiet => exact .there hthere hrequests (hquiet.append language)

/-- A stage while the program is missing and nobody downloads. -/
theorem of_missing (since : i.Since language j b sc) (hn : sc.stages[n]? = some st)
    (hstep : i.step env n st sc.state = some (s', st', log))
    (hgone : sc.state.files.pathExists (i.host.locate j.executable) = false)
    (hrequests : sc.state.requests = before) (hquiet : Quiet sc)
    (hnone : ∀ n st, b ≤ n → sc.stages[n]? = some st → st.reports? = none) :
    Failed b ⟨s', sc.stages.set n st'⟩ ∨ i.Phase j b before ⟨s', sc.stages.set n st'⟩ := by
  have hle := since.le_of_step hn hstep
  have hserves := since.new n st hle hn
  rcases (Course.of_step hstep).of_quiet (hquiet n st hn) with
    ⟨e, rfl⟩ | ⟨j', rfl, rfl, -, hreq⟩ | stays
  · exact .inl ⟨n, e, hle, getElem?_set_of_getElem? hn _⟩
  · obtain rfl := hserves.job j' rfl
    refine .inr (.working n _ (getElem?_set_of_getElem? hn _) rfl ?_ (by rintro ⟨⟩))
    exact (hreq.trans hrequests).trans (List.append_nil _).symm
  · refine .inr (.missing (by rw [stays.files, hgone]) (stays.requests.trans hrequests)
      (hquiet.set stays.misses) fun k x hk hx => ?_)
    rcases getElem?_set_cases hx with ⟨-, rfl⟩ | ⟨-, hx⟩
    · by_contra hreports
      obtain ⟨p, hp⟩ := Option.ne_none_iff_exists'.mp hreports
      obtain ⟨j', hj', hfound⟩ := stays.reported p hp
      rw [hserves.job j' hj', hgone] at hfound
      cases hfound
    · exact hnone k x hk hx

/-- A stage when the program is there and nobody downloads. -/
theorem of_there (since : i.Since language j b sc) (hn : sc.stages[n]? = some st)
    (hstep : i.step env n st sc.state = some (s', st', log))
    (hthere : sc.state.files.pathExists (i.host.locate j.executable) = true)
    (hrequests : sc.state.requests = before ++ [j.build.downloadUrl]) (hquiet : Quiet sc) :
    Failed b ⟨s', sc.stages.set n st'⟩ ∨ i.Phase j b before ⟨s', sc.stages.set n st'⟩ := by
  have hle := since.le_of_step hn hstep
  rcases (Course.of_step hstep).of_quiet (hquiet n st hn) with
    ⟨e, rfl⟩ | ⟨j', rfl, rfl, hgone, -⟩ | stays
  · exact .inl ⟨n, e, hle, getElem?_set_of_getElem? hn _⟩
  · rw [(since.new n _ hle hn).job j' rfl, hthere] at hgone
    cases hgone
  · exact .inr (.there (by rw [stays.files, hthere]) (stays.requests.trans hrequests)
      (hquiet.set stays.misses))

/-- A stage of another call while one downloads. -/
theorem of_other (since : i.Since language j b sc) (hn : sc.stages[n]? = some st)
    (hstep : i.step env n st sc.state = some (s', st', log)) (hk : sc.stages[k]? = some st₁)
    (hst₁ : st₁.misses? = some j) (hne : n ≠ k)
    (hrequests : sc.state.requests = before ++ st₁.asked)
    (hmarks : st₁.marks? = some j →
      sc.state.files.pathExists (i.host.locate j.executable) = true) :
    Failed b ⟨s', sc.stages.set n st'⟩ ∨ i.Phase j b before ⟨s', sc.stages.set n st'⟩ := by
  have hholds := since.holds?_eq_none hk hst₁ hn hne
  rcases (Course.of_step hstep).of_quiet (InstallStage.misses?_eq_none hholds) with
    ⟨e, rfl⟩ | ⟨j', rfl, -, -, -⟩ | stays
  · exact .inl ⟨n, e, since.le_of_step hn hstep, getElem?_set_of_getElem? hn _⟩
  · cases hholds
  · refine .inr (.working k st₁ ?_ hst₁ (stays.requests.trans hrequests)
      (by rw [stays.files]; exact hmarks))
    rw [List.getElem?_set_ne hne]
    exact hk

/-- A stage of the call that downloads. -/
theorem of_worker (since : i.Since language j b sc) (hn : sc.stages[n]? = some st)
    (hstep : i.step env n st sc.state = some (s', st', log)) (hst : st.misses? = some j)
    (hrequests : sc.state.requests = before ++ st.asked)
    (hmarks : st.marks? = some j →
      sc.state.files.pathExists (i.host.locate j.executable) = true) :
    Failed b ⟨s', sc.stages.set n st'⟩ ∨ i.Phase j b before ⟨s', sc.stages.set n st'⟩ := by
  have hle := since.le_of_step hn hstep
  have hserves := since.new n st hle hn
  have effect := Effect.of_step hstep
  have goes_on : st'.misses? = some j → s'.requests = before ++ st'.asked →
      i.Phase j b before ⟨s', sc.stages.set n st'⟩ := fun hst' hreq =>
    .working n st' (getElem?_set_of_getElem? hn _) hst' hreq (effect.found j)
  cases Course.of_step hstep with
  | begins | starts => cases hst
  | finds _ hnone | waits _ _ hnone =>
    rw [hnone] at hst
    cases hst
  | asks j' archive reply hreq =>
    cases hst
    refine .inr (goes_on rfl ?_)
    rw [hreq, hrequests, List.append_assoc]
    rfl
  | works hst₁ hst' hasked hreq =>
    rw [hst₁] at hst
    cases hst
    exact .inr (goes_on hst' (by rw [hreq, hrequests, hasked]))
  | succeeds j' archive hreq =>
    cases hst
    refine .inr (.there ?_ (hreq.trans hrequests) ?_)
    -- only the temporary file goes away at the end
    · refine effect.keeps.pathExists (hmarks rfl) fun g hg => ?_
      obtain ⟨a, ha, rfl⟩ := InstallStage.mem_clears_of_marks? rfl hg
      exact hserves.archive a ha
    · intro k x hx
      rcases getElem?_set_cases hx with ⟨-, rfl⟩ | ⟨hne, hx⟩
      · rfl
      · exact InstallStage.misses?_eq_none (since.holds?_eq_none hn rfl hx hne)
  | fails e => exact .inl ⟨n, e, hle, getElem?_set_of_getElem? hn _⟩

end Phase

theorem Failed.run (h : Failed b sc) (r : Run i sc sc') : Failed b sc' := by
  obtain ⟨n, e, hn, hfailed⟩ := h
  exact ⟨n, e, hn, r.returned hfailed⟩

/-- **Every step carries the calls from phase to phase**, unless one of them fails. -/
theorem Phase.step (since : i.Since language j b sc) (h : i.Phase j b before sc)
    (hs : i.Asking language j.executable sc sc') : Failed b sc' ∨ i.Phase j b before sc' := by
  obtain ⟨e, hs, -⟩ := hs
  cases hs with
  | call l => exact .inr (h.call l)
  | advance env n hn hstep =>
    cases h with
    | missing hgone hrequests hquiet hnone =>
      exact of_missing since hn hstep hgone hrequests hquiet hnone
    | there hthere hrequests hquiet => exact of_there since hn hstep hthere hrequests hquiet
    | working k st hk hst hrequests hmarks =>
      rcases eq_or_ne n k with rfl | hne
      · rw [hk] at hn
        cases hn
        exact of_worker since hk hstep hst hrequests hmarks
      · exact of_other since hn hstep hk hst hne hrequests hmarks

theorem Phase.run (hjob : i.job language = .ok j) (since : i.Since language j b sc)
    (h : i.Phase j b before sc)
    (r : Relation.ReflTransGen (i.Asking language j.executable) sc sc') :
    i.Since language j b sc' ∧ (Failed b sc' ∨ i.Phase j b before sc') := by
  induction r with
  | refl => exact ⟨since, .inr h⟩
  | tail _ hs ih =>
    obtain ⟨hsince, hphase⟩ := ih
    refine ⟨hsince.step hjob hs, ?_⟩
    rcases hphase with hfailed | hphase
    · exact .inl (hfailed.run (Asking.run (.single hs)))
    · exact hphase.step hsince hs

theorem Since.start (inLine : InLine sc) (hover : sc.Over) (language : String) (j : InstallJob) :
    i.Since language j sc.stages.length sc where
  inLine := inLine
  le := Nat.le_refl _
  old := fun _ st _ hn => hover st (List.mem_of_getElem? hn)
  new := fun _ _ hn hst => absurd (List.getElem?_eq_some_iff.mp hst).1 (Nat.not_lt.mpr hn)

theorem Phase.start (hover : sc.Over)
    (hgone : sc.state.files.pathExists (i.host.locate j.executable) = false) :
    i.Phase j sc.stages.length sc.state.requests sc := by
  refine .missing hgone rfl (fun _ st hn => ?_) fun _ _ hn hst => ?_
  · obtain ⟨r, rfl⟩ := hover st (List.mem_of_getElem? hn)
    rfl
  · exact absurd (List.getElem?_eq_some_iff.mp hst).1 (Nat.not_lt.mpr hn)

/-- What the calls come to if none of them fails. -/
theorem Phase.ended (since : i.Since language j b sc) (h : i.Phase j b before sc)
    (hfailed : ¬ Failed b sc) (hb : b < sc.stages.length) (hover : sc.Over) :
    sc.state.requests = before ++ [j.build.downloadUrl] ∧
      ∀ n st, b ≤ n → sc.stages[n]? = some st → st = .returned (.ok j.executable) := by
  have reported : ∀ n st, b ≤ n → sc.stages[n]? = some st → st = .returned (.ok j.executable) := by
    intro n st hn hst
    obtain ⟨e | p, rfl⟩ := hover st (List.mem_of_getElem? hst)
    · exact absurd ⟨n, e, hn, hst⟩ hfailed
    · rw [(since.new n _ hn hst).reported p rfl]
  refine ⟨?_, reported⟩
  cases h with
  | missing _ _ _ hnone =>
    have hfirst := List.getElem?_eq_getElem hb
    have hnone := hnone b _ (Nat.le_refl _) hfirst
    rw [reported b _ (Nat.le_refl _) hfirst] at hnone
    cases hnone
  | working n st hn hst =>
    obtain ⟨r, rfl⟩ := hover st (List.mem_of_getElem? hn)
    cases hst
  | there _ hrequests => exact hrequests

/-- **What several callers ask for is downloaded once.** From the start of a download to the end of
its extraction and of what is taken away after it, no other call for the same version directory
downloads or extracts. And if a program is missing and no call is on its way, then after any number
of calls for its language, in any interleaving, there is a call that can go on as long as they have
not all returned, they cannot go on for ever, and if none of them has failed in the end, there has
been one request and all of them report the program. -/
theorem installs_once {files : FileTree} (run₀ : Run i (.start files) sc₀) :
    (∀ sc₁ sc₂ n k directory, Run i sc₀ sc₁ → Run i sc₁ sc₂ → sc₀.Installing n directory →
      sc₁.Installing k directory → sc₂.Installing n directory → k = n) ∧
    ∀ language j, i.job language = .ok j → sc₀.Over →
      sc₀.state.files.pathExists (i.host.locate j.executable) = false →
      ∀ sc, Relation.ReflTransGen (i.Asking language j.executable) sc₀ sc →
        (∀ env, ¬ sc.Over → ∃ n st x, sc.stages[n]? = some st ∧
          i.step env n st sc.state = some x) ∧
        Acc (fun y x => i.Advances x y) sc ∧
        (sc₀.stages.length < sc.stages.length → sc.Over → ¬ Failed sc₀.stages.length sc →
          sc.state.requests = sc₀.state.requests ++ [j.build.downloadUrl] ∧
          ∀ n st, sc₀.stages.length ≤ n → sc.stages[n]? = some st →
            st = .returned (.ok j.executable)) := by
  refine ⟨?_, fun language j hjob hover hgone sc r => ?_⟩
  · rintro sc₁ sc₂ n k directory run₁ run₂ ⟨st, j, hn, hst, hdirectory⟩ ⟨st₁, j₁, hk, hst₁, rfl⟩
      ⟨st₂, j₂, hn₂, hst₂, -⟩
    have run : Run i (.start files) sc₁ := run₀.trans run₁
    obtain ⟨x, hx, hmisses | ⟨r, rfl⟩⟩ := run₁.installing hn hst
    · exact run.inLine.holder_unique hk (InstallStage.holds?_of_misses? hst₁) hx
        (InstallStage.holds?_of_misses? hmisses) hdirectory.symm
    · rw [run₂.returned hx] at hn₂
      cases hn₂
      cases hst₂
  · have run : Run i (.start files) sc := run₀.trans (Asking.run r)
    refine ⟨fun env => run.inLine.exists_step i env, (wellFounded_advances i).apply sc, ?_⟩
    intro hlater hover' hfailed
    obtain ⟨since, hphase⟩ :=
      Phase.run hjob (.start run₀.inLine hover language j) (.start hover hgone) r
    exact (hphase.resolve_left hfailed).ended since hfailed hlater hover'

/-- Some calls go on by one stage, one after the other, if all of them can, and if the temporary
files keep out of the way of a program. -/
def Scene.ask (i : Installer) (env : InstallEnvironment) (program : Path) :
    List Nat → Scene → Option Scene
  | [], sc => some sc
  | n :: rest, sc => (sc.stages[n]?).bind fun st => (i.step env n st sc.state).bind fun x =>
    if x.2.1.archive?.all fun a => (i.host.locate program).Avoids a.place then
      ask i env program rest ⟨x.1, sc.stages.set n x.2.1⟩
    else none

theorem Asking.of_ask {program : Path} {moves : List Nat}
    (h : sc.ask i env program moves = some sc') :
    Relation.ReflTransGen (i.Asking language program) sc sc' := by
  induction moves generalizing sc with
  | nil =>
    cases h
    exact .refl
  | cons n rest ih =>
    obtain ⟨st, hn, h⟩ := Option.bind_eq_some_iff.mp h
    obtain ⟨⟨s', st', log⟩, hs, h⟩ := Option.bind_eq_some_iff.mp h
    split at h
    · next havoids =>
      refine (ih h).head ⟨_, .advance env n hn hs, by rintro _ ⟨⟩, ?_⟩
      rintro _ _ j archive ⟨⟩
      exact of_decide_eq_true havoids
    · cases h

/-- Two calls ask for one program together: one of them installs it, and there is one request. -/
theorem installs_once_together :
    (∃ sc₀ sc₁ sc₂ : Scene, Run shop (.start ⟨[]⟩) sc₀ ∧ Run shop sc₀ sc₁ ∧ Run shop sc₁ sc₂ ∧
      sc₀.Installing 0 shopJob.lock ∧ sc₁.stages.length = 2 ∧ sc₂.Installing 0 shopJob.lock ∧
      ∀ k, sc₁.Installing k shopJob.lock → k = 0) ∧
    ∃ sc : Scene, Run shop (.start ⟨[]⟩) sc ∧ sc.stages.length = 2 ∧
      sc.state.requests = ["f.zip"] ∧
      ∀ (n : Nat) (st : InstallStage), sc.stages[n]? = some st →
        st = .returned (.ok shopJob.executable) := by
  obtain ⟨sc, hsc⟩ : ∃ sc : Scene, sc = ⟨.start ⟨[]⟩, [.begin "rust", .begin "rust"]⟩ := ⟨_, rfl⟩
  have called : Relation.ReflTransGen (shop.Asking "rust" shopJob.executable) (.start ⟨[]⟩) sc := by
    have step : ∀ sc : Scene, shop.Asking "rust" shopJob.executable sc
        { sc with stages := sc.stages ++ [.begin "rust"] } := fun sc =>
      ⟨_, .call "rust", by rintro _ ⟨⟩; rfl, by rintro _ _ _ _ ⟨⟩⟩
    rw [hsc]
    exact (Relation.ReflTransGen.single (step _)).tail (step _)
  constructor
  · have hplay : (sc.play shop (packed "s") [0, 0, 1, 1, 0, 0]).any (fun sc₀ =>
        sc₀.Installing 0 shopJob.lock && (sc₀.play shop (packed "s") [0]).any fun sc₁ =>
          sc₁.stages.length == 2 && (sc₁.play shop (packed "s") [0]).any fun sc₂ =>
            sc₂.Installing 0 shopJob.lock) = true := by
      rw [hsc]
      decide +kernel
    obtain ⟨sc₀, hsc₀, hplay⟩ := (Option.any_eq_true _ _).mp hplay
    obtain ⟨hfirst, hplay⟩ := Bool.and_eq_true_iff.mp hplay
    obtain ⟨sc₁, hsc₁, hplay⟩ := (Option.any_eq_true _ _).mp hplay
    obtain ⟨hlength, hplay⟩ := Bool.and_eq_true_iff.mp hplay
    obtain ⟨sc₂, hsc₂, hlast⟩ := (Option.any_eq_true _ _).mp hplay
    have run₀ : Run shop (.start ⟨[]⟩) sc₀ := (Asking.run called).trans (Run.of_play hsc₀)
    have run₁ : Run shop sc₀ sc₁ := Run.of_play hsc₁
    have run₂ : Run shop sc₁ sc₂ := Run.of_play hsc₂
    exact ⟨sc₀, sc₁, sc₂, run₀, run₁, run₂, of_decide_eq_true hfirst, eq_of_beq hlength,
      of_decide_eq_true hlast, fun k hk => (installs_once run₀).1 sc₁ sc₂ 0 k _ run₁ run₂
        (of_decide_eq_true hfirst) hk (of_decide_eq_true hlast)⟩
  · have hplay : (sc.ask shop (packed "s") shopJob.executable
        ([0, 0, 1, 1] ++ List.replicate 11 0 ++ [1, 1])).any (fun sc' =>
          sc'.stages.length == 2 && sc'.stages.all (·.reports?.isSome)) = true := by
      rw [hsc]
      decide +kernel
    obtain ⟨sc', hsc', hplay⟩ := (Option.any_eq_true _ _).mp hplay
    obtain ⟨hlength, hreports⟩ := Bool.and_eq_true_iff.mp hplay
    have hlength : sc'.stages.length = 2 := eq_of_beq hlength
    have hok : ∀ st ∈ sc'.stages, ∃ p, st = .returned (.ok p) := by
      intro st hst
      obtain ⟨p, hp⟩ := Option.isSome_iff_exists.mp (List.all_eq_true.mp hreports st hst)
      refine ⟨p, ?_⟩
      unfold InstallStage.reports? at hp
      split at hp <;> cases hp
      rfl
    have asked := called.trans (Asking.of_ask hsc')
    have start : Run shop (.start ⟨[]⟩) (.start ⟨[]⟩) := .refl
    obtain ⟨-, -, hend⟩ := (installs_once start).2 "rust" shopJob rfl (by rintro _ ⟨⟩)
      (by decide +kernel) sc' asked
    obtain ⟨hrequests, hall⟩ := hend (by rw [hlength]; decide)
      (fun st hst => let ⟨p, hp⟩ := hok st hst; ⟨.ok p, hp⟩) (by
        rintro ⟨n, e, -, hn⟩
        obtain ⟨p, hp⟩ := hok _ (List.mem_of_getElem? hn)
        cases hp)
    exact ⟨sc', Asking.run asked, hlength, hrequests, fun n st => hall n st (Nat.zero_le _)⟩

end Installer

end LanguageHub
