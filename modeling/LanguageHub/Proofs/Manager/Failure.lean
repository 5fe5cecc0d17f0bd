import LanguageHub.Proofs.Manager.Solo
import LanguageHub.Proofs.Manager.Processes
import LanguageHub.Proofs.Session.Atomicity

/-!
# Creations that fail

An assurance that creates a session has bound its key before it knows whether it will succeed. It
may fail at any stage, without a server for the language, in the installation, in the launch or in
the handshake, and then it undoes what it has done: the slot of the key leaves the table, and a
process that was launched is told to die.

`Manager.Attempt` says where a call has come to that has found no session, beside what it has left
alone. From the moment when its slot is in the table and empty it stays so until the call fails and
takes it out, since nobody else moves. A call that has found a session may fail as well, but not as
a creation does (`Manager.Opened`).

Nothing of a failure is kept. Whoever asks for the key later finds no slot, and begins to create a
session of its own (`Manager.exists_creation`).
-/

namespace LanguageHub

/-- Whether an error says that no session could be created. -/
def LspError.isCreationFailure : LspError → Bool
  | .notConfigured _ | .installFailed _ | .launchFailed .. | .handshakeFailed .. => true
  | _ => false

/-- Whether a call has returned, and reports that no session could be created. -/
def Task.reportsCreationFailure : Task → Bool
  | .returned (.error err) => err.isCreationFailure
  | _ => false

namespace Session

variable {s s' : Session}

/-- **A handshake that fails has told the process to die.** -/
inductive Starts (s : Session) : Operation → Prop
  | under (st : HandshakeStage) : Starts s (.handshake st)
  | greeted (o : Outcome) : Starts s (.returned (.ok o))
  | killed (e : LspError) : s.killRequested = true → Starts s (.returned (.error e))

theorem Starts.told {op : Operation} (h : Starts s op)
    (ht : s.killRequested = true → s'.killRequested = true) : Starts s' op := by
  cases h with
  | under st => exact .under st
  | greeted o => exact .greeted o
  | killed e hk => exact .killed e (ht hk)

theorem Starts.step {h : Host} {now n : Nat} {op op' : Operation} (hst : Starts s op)
    (hs : OperationStep h now n s op s' op') : Starts s' op' := by
  cases hst with
  | under st =>
    cases hs with
    | handshake hs =>
      cases hs with
      | complete => exact .greeted .done
      | fail => exact .killed _ rfl
      | _ => exact .under _
  | _ => cases hs

end Session

namespace Manager

variable {env : ManagerEnvironment} {sc sc' sc₁ sc₂ : Scene} {e : Event} {m m₀ m' : Manager}
  {κ : Nat → SessionKey} {still : List Nat} {key : SessionKey} {slot n i now : Nat} {t t' : Task}
  {language text : String} {stage : EnsureStage} {path : Path} {uri : Uri} {op : Operation}

/-! ### Where a call has come to -/

/-- The slot of a key has no session. -/
structure Vacant (m : Manager) (key : SessionKey) (slot : Nat) : Prop where
  bound : m.slotOf key = some slot
  empty : m.sessionIn slot = none

theorem Vacant.congr (h : Vacant m key slot) (ht : m'.table = m.table)
    (hslots : ∀ slot, m'.sessionIn slot = m.sessionIn slot) : Vacant m' key slot :=
  ⟨by rw [slotOf, ht]; exact h.bound, (hslots slot).trans h.empty⟩

/-- **Where the call for a key has come to**, as long as it has found no session. -/
inductive Place (m₀ : Manager) (key : SessionKey) (m : Manager) : Task → Prop
  | rooted {language text : String} {uri : Uri} : m.table = m₀.table → m.slots = m₀.slots →
      Place m₀ key m (.ensure language text (.rooted uri key))
  | replacing {language text : String} {uri : Uri} {slot old : Nat} {op : Operation} :
      Vacant m key slot → (∀ s, ¬ m₀.Other key old s) →
      Place m₀ key m (.ensure language text (.replacing uri key slot old op))
  | entering {language text : String} {uri : Uri} {slot : Nat} : m.slotOf key = some slot →
      Place m₀ key m (.ensure language text (.entering uri key slot))
  | queued {language text : String} {uri : Uri} {slot : Nat} : m.slotOf key = some slot →
      Place m₀ key m (.ensure language text (.queued uri key slot))
  | installing {language text : String} {uri : Uri} {slot : Nat} {server : Server}
      {stage : InstallStage} : Vacant m key slot →
      Place m₀ key m (.ensure language text (.installing uri key slot server stage))
  | launching {language text : String} {uri : Uri} {slot : Nat} {server : Server}
      {executable : Path} : Vacant m key slot →
      Place m₀ key m (.ensure language text (.launching uri key slot server executable))
  | handshaking {language text : String} {uri : Uri} {slot i : Nat} {op : Operation}
      {s : Session} : Vacant m key slot → m₀.sessions.length ≤ i → m.sessions[i]? = some s →
      s.Starts op → Place m₀ key m (.ensure language text (.handshaking uri key slot i op))
  | failing {language text : String} {slot : Nat} {e : LspError} : Vacant m key slot →
      Place m₀ key m (.ensure language text (.failing key slot e))
  | failed {e : LspError} : m.table = m₀.otherEntries key → Place m₀ key m (.fail e)

/-- **A call for a key that has found no session** since the manager was `m₀`: what it has left
alone, and where it has come to. A process that it has launched is told to die, unless the call
still shakes hands with it. -/
structure Attempt (m₀ : Manager) (still : List Nat) (key : SessionKey) (m : Manager) (t : Task) :
    Prop where
  spared : Spared m₀ still key m
  told : ∀ (i : Nat) (s : Session), m₀.sessions.length ≤ i → m.sessions[i]? = some s →
    t.greets? = some i ∨ s.killRequested = true
  place : Place m₀ key m t

/-- **A call that has found a session** opens its document there, which may fail, but not as a
creation does. -/
inductive Opened : Task → Prop
  | opening {language text : String} {i : Nat} {op : Operation} {a : DocumentAction} {s : Session} :
      (∀ uri, a ≠ .query uri) → Session.Pursues a s op →
      Opened (.ensure language text (.opening i op))
  | returned (r : Except LspError Answer) : (∀ e, r = .error e → e.isCreationFailure = false) →
      Opened (.returned r)

theorem opened_openIn : Opened (.ensure language text (openIn uri language text i)) :=
  .opening (s := default) (fun _ h => by cases h) (.underway .begin)

theorem Opened.step {id : Nat} (h : Opened t) (hs : TaskStep env now id m t m' t') :
    Opened t' := by
  cases h with
  | returned => cases hs
  | opening ha hp =>
    have hensure := hs.ensureStep
    cases hensure with
    | openDocument i hop =>
      obtain ⟨hi, ho⟩ := hop
      cases hp with
      | underway st => exact .opening ha ((Session.Pursues.underway st).step ha ho)
      | done | failed => cases ho
    | done i r =>
      cases hp with
      | done => exact .returned _ fun e he => by cases he
      | failed =>
        refine .returned _ fun e he => ?_
        cases he
        rfl

namespace Attempt

/-- What was launched by a call that does not shake hands is told to die. -/
theorem killRequested (h : Attempt m₀ still key m t) (hgreets : t.greets? = none) {s : Session}
    (hle : m₀.sessions.length ≤ i) (hi : m.sessions[i]? = some s) : s.killRequested = true := by
  rcases h.told i s hle hi with hg | hk
  · rw [hgreets] at hg
    cases hg
  · exact hk

/-- A stage that keeps all sessions, in which the call does not come to a handshake or from one. -/
theorem keep (h : Attempt m₀ still key m t) (hentries : m'.otherEntries key = m.otherEntries key)
    (hslots : ∀ slot, m'.sessionIn slot = m.sessionIn slot) (hs : m'.sessions = m.sessions)
    (hgreets : t.greets? = none) (hplace : Place m₀ key m' t') : Attempt m₀ still key m' t' where
  spared := h.spared.keep hentries hslots (by rw [hs, List.append_nil])
  told := fun i s hle hi => .inr (h.killRequested hgreets hle (hs ▸ hi))
  place := hplace

/-- A stage of an operation on a session that is none of another key. -/
theorem operate {id : Nat} {op' : Operation} (h : Attempt m₀ still key m t)
    (hs : SessionStep env now id m i op m' op') (hi : ∀ s, ¬ m₀.Other key i s)
    (hgreets : t'.greets? = t.greets?) (hplace : Place m₀ key m' t') :
    Attempt m₀ still key m' t' where
  spared := h.spared.operate hs hi
  told := by
    intro j s hle hj
    rw [hgreets]
    obtain ⟨hx, ho⟩ := hs
    rcases getElem?_set_cases hj with ⟨rfl, rfl⟩ | ⟨-, hj⟩
    · exact (h.told _ _ hle hx).imp_right ho.tends.told
    · exact h.told j s hle hj
  place := hplace

/-- The session of a handshake goes on, and is none of another key. -/
theorem greet {id slot : Nat} {op' : Operation}
    (h : Attempt m₀ still key m (.ensure language text (.handshaking uri key slot i op)))
    (hs : SessionStep env now id m i op m' op') :
    Attempt m₀ still key m' (.ensure language text (.handshaking uri key slot i op')) := by
  cases h.place with
  | handshaking hv hle hi hst =>
    refine h.operate hs (fun s ho => Nat.not_lt.mpr hle ho.lt) rfl ?_
    have hv' := hv.congr hs.stirs.table hs.stirs.sessionIn
    obtain ⟨hx, ho⟩ := hs
    rw [hi] at hx
    obtain rfl := Option.some.inj hx
    obtain ⟨hlt, -⟩ := List.getElem?_eq_some_iff.mp hi
    exact .handshaking hv' hle (List.getElem?_set_self hlt) (hst.step ho)

/-- A launch adds a session, with which the call shakes hands. -/
theorem launch {server : String} {killFault : Option String} {l : List LaunchSpec} {k : Nat}
    (h : Attempt m₀ still key m t) (hv : Vacant m key slot) (hgreets : t.greets? = none) :
    Attempt m₀ still key { m with
        attempts := k
        sessions := m.sessions ++ [.launched key server env.timeouts killFault]
        launches := l }
      (.ensure language text (.handshaking uri key slot m.sessions.length .startHandshake)) where
  spared := h.spared.keep (otherEntries_congr rfl) (fun _ => rfl) rfl
  told := by
    intro i s hle hi
    rcases Nat.lt_trichotomy i m.sessions.length with hlt | rfl | hgt
    · rw [List.getElem?_append_left hlt] at hi
      exact .inr (h.killRequested hgreets hle hi)
    · exact .inl rfl
    · rw [List.getElem?_eq_none (by simp; omega)] at hi
      cases hi
  place := .handshaking ⟨hv.bound, hv.empty⟩ h.spared.length
    List.getElem?_concat_length (.under .begin)

/-- A handshake has failed, and its process is told to die. -/
theorem ungreeted {err : LspError} (h : Attempt m₀ still key m
      (.ensure language text (.handshaking uri key slot i (.returned (.error err))))) :
    Attempt m₀ still key m (.ensure language text (.failing key slot err)) := by
  cases h.place with
  | handshaking hv hle hi hst =>
    refine ⟨h.spared, fun j s hle hj => ?_, .failing hv⟩
    rcases h.told j s hle hj with hg | hk
    · cases hg
      rw [hi] at hj
      obtain rfl := Option.some.inj hj
      cases hst with
      | killed _ hk => exact .inr hk
    · exact .inr hk

/-- **A stage of a call for a key**: it goes on without a session, or it has found one. -/
theorem step (htidy : Tidy κ sc)
    (h : Attempt m₀ still key sc.manager (.ensure language text stage))
    (hs : EnsureStep env now n language text sc.manager stage m' t') :
    Attempt m₀ still key m' t' ∨ Opened t' := by
  have hplace := h.place
  -- most stages leave the manager as it is, for the call
  have quiet : Place m₀ key sc.manager t' → Task.greets? (.ensure language text stage) = none →
      Attempt m₀ still key sc.manager t' := fun hp hg =>
    h.keep (otherEntries_congr rfl) (fun _ => rfl) rfl hg hp
  have hbind : (sc.manager.newSlot.1.bind key sc.manager.slots.length).otherEntries key =
      sc.manager.otherEntries key := otherEntries_bind.trans (otherEntries_congr rfl)
  have hbound : (sc.manager.newSlot.1.bind key sc.manager.slots.length).slotOf key =
      some sc.manager.slots.length := by
    rw [slotOf_bind_newSlot, if_pos (SessionKey.same_refl key)]
  have hempty : sc.manager.sessionIn sc.manager.slots.length = none := by simp [sessionIn]
  have hmem : ∀ {slot i}, sc.manager.slotOf key = some slot →
      sc.manager.sessionIn slot = some i → ∀ s, ¬ m₀.Other key i s :=
    fun hslot hi => htidy.not_other h.spared hslot hi
  cases hs with
  | nameless | root | openDocument | done => cases hplace
  | fresh uri k hnone =>
    cases hplace
    exact .inl (h.keep hbind (fun _ => sessionIn_bind_newSlot) (by simp [newSlot]) rfl
      (.entering hbound))
  | replace uri k slot old hslot hold =>
    cases hplace
    exact .inl (h.keep hbind (fun _ => sessionIn_bind_newSlot) (by simp [newSlot]) rfl
      (.replacing ⟨hbound, sessionIn_bind_newSlot.trans hempty⟩ (hmem hslot hold)))
  | share uri k slot hslot =>
    cases hplace
    exact .inl (quiet (.entering hslot) rfl)
  | dispose uri k slot old hs =>
    cases hplace with
    | replacing hv hother =>
      have hm := hs.stirs
      exact .inl (h.operate hs hother rfl
        (.replacing (hv.congr hm.table hm.sessionIn) hother))
  | disposed uri k slot old r =>
    cases hplace with
    | replacing hv => exact .inl (quiet (.entering hv.bound) rfl)
  | meet | served => exact .inr opened_openIn
  | queue uri k slot hnone =>
    cases hplace with
    | entering hslot =>
      refine .inl (h.keep (otherEntries_congr enterSlot_table) (fun _ => sessionIn_enterSlot)
        enterSlot_sessions rfl (.queued ?_))
      simpa only [slotOf, enterSlot_table] using hslot
  | create uri k slot server hnone =>
    cases hplace with
    | queued hslot => exact .inl (quiet (.installing ⟨hslot, hnone⟩) rfl)
  | unknown uri k slot hnone =>
    cases hplace with
    | queued hslot => exact .inl (quiet (.failing ⟨hslot, hnone⟩) rfl)
  | install uri k slot server hi =>
    cases hplace with
    | installing hv =>
      exact .inl (h.keep (otherEntries_congr rfl) (fun _ => rfl) rfl rfl
        (.installing ⟨hv.bound, hv.empty⟩))
  | installed =>
    cases hplace with
    | installing hv => exact .inl (quiet (.launching hv) rfl)
  | uninstalled =>
    cases hplace with
    | installing hv => exact .inl (quiet (.failing hv) rfl)
  | malformed =>
    cases hplace with
    | launching hv => exact .inl (quiet (.failing hv) rfl)
  | unlaunched =>
    cases hplace with
    | launching hv =>
      exact .inl (h.keep (otherEntries_congr rfl) (fun _ => rfl) rfl rfl
        (.failing ⟨hv.bound, hv.empty⟩))
  | launch =>
    cases hplace with
    | launching hv => exact .inl (h.launch hv rfl)
  | greet uri k slot session hs =>
    cases hplace with
    | handshaking => exact .inl (h.greet hs)
  | fill => exact .inr opened_openIn
  | ungreeted =>
    cases hplace with
    | handshaking => exact .inl h.ungreeted
  | abandon k slot err hslot hnone =>
    cases hplace with
    | failing hv =>
      refine .inl (h.keep ?_ (fun _ => sessionIn_leaveSlot) (by simp [unbind]) rfl (.failed ?_))
      · exact otherEntries_unbind.trans (otherEntries_congr leaveSlot_table)
      · exact (otherEntries_congr leaveSlot_table).trans h.spared.entries
  | leave k slot err hnot =>
    cases hplace with
    | failing hv => exact absurd hv.empty (hnot hv.bound)

end Attempt

/-! ### Runs of a call -/

/-- When no task goes on, a call is where it was. -/
theorem Place.silent (h : Place m₀ key sc.manager t) (hs : Step env sc .silent sc') :
    Place m₀ key sc'.manager t := by
  have hm := hs.of_silent.1
  have vacant : ∀ {slot}, Vacant sc.manager key slot → Vacant sc'.manager key slot :=
    fun hv => hv.congr hm.table hm.sessionIn
  cases h with
  | rooted ht hslots => exact .rooted (hm.table.trans ht) (hm.slots.trans hslots)
  | replacing hv hother => exact .replacing (vacant hv) hother
  | entering hslot => exact .entering ((hm.slotOf key).trans hslot)
  | queued hslot => exact .queued ((hm.slotOf key).trans hslot)
  | installing hv => exact .installing (vacant hv)
  | launching hv => exact .launching (vacant hv)
  | handshaking hv hle hi hst =>
    obtain ⟨s', hi', htold, -⟩ := hs.session_of_silent hi
    exact .handshaking (vacant hv) hle hi' (hst.told htold)
  | failing hv => exact .failing (vacant hv)
  | failed ht => exact .failed (hm.table.trans ht)

theorem Attempt.silent (h : Attempt m₀ still key sc.manager t)
    (hs : Solo env n still sc .silent sc') : Attempt m₀ still key sc'.manager t where
  spared := h.spared.silent hs
  told := by
    intro i s' hle hi'
    obtain ⟨s, hi, -⟩ := hs.step.of_silent.1.exists_before hi'
    obtain ⟨x, hx, htold, -⟩ := hs.step.session_of_silent hi
    obtain rfl := Option.some.inj (hi'.symm.trans hx)
    exact (h.told i s hle hi).imp_right htold
  place := h.place.silent hs.step

/-- **A step of a call for a key.** -/
theorem Solo.attempt (hs : Solo env n still sc e sc') (htidy : Tidy κ sc)
    (hn : sc.tasks[n]? = some t) (h : Attempt m₀ still key sc.manager t ∨ Opened t) :
    ∃ t', sc'.tasks[n]? = some t' ∧ (Attempt m₀ still key sc'.manager t' ∨ Opened t') := by
  rcases hs.cases hn with ⟨m', t', ht, rfl⟩ | ⟨rfl, hn'⟩
  · refine ⟨t', getElem?_set_of_getElem? hn t', ?_⟩
    rcases h with h | h
    · cases h.place with
      | failed => cases ht
      | _ => exact h.step htidy ht.ensureStep
    · exact .inr (h.step ht)
  · exact ⟨t, hn', h.imp_left fun h => h.silent hs⟩

/-- **A call for a key**, from where its key is known. -/
theorem Run.attempt (r : Run (Solo env n still) sc sc') (htidy : ∃ κ, Tidy κ sc)
    (hn : sc.tasks[n]? = some t) (h : Attempt m₀ still key sc.manager t) :
    ∃ t', sc'.tasks[n]? = some t' ∧ (Attempt m₀ still key sc'.manager t' ∨ Opened t') := by
  have hall : (∃ κ, Tidy κ sc') ∧ ∃ t', sc'.tasks[n]? = some t' ∧
      (Attempt m₀ still key sc'.manager t' ∨ Opened t') := by
    refine r.invariant (I := fun sc => (∃ κ, Tidy κ sc) ∧ ∃ t', sc.tasks[n]? = some t' ∧
      (Attempt m₀ still key sc.manager t' ∨ Opened t')) ?_ ⟨htidy, t, hn, .inl h⟩
    rintro sc e sc' ⟨⟨κ, htidy⟩, t, hn, h⟩ hs
    exact ⟨htidy.step hs.step, hs.attempt htidy hn h⟩
  exact hall.2

/-- **The course of a call** from its beginning: until it knows its key it has left alone
everything. -/
inductive Course (m₀ : Manager) (still : List Nat) (m : Manager) : Task → Prop
  | unkeyed (language text : String) (path : Path) : m.table = m₀.table → m.slots = m₀.slots →
      m.sessions.length = m₀.sessions.length → (∀ key, Spared m₀ still key m) →
      Course m₀ still m (.ensure language text (.begin path))
  | keyed {t : Task} (key : SessionKey) : Attempt m₀ still key m t ∨ Opened t → Course m₀ still m t
  | nameless (e : LspError) : e.isCreationFailure = false → Course m₀ still m (.fail e)

/-- A call that knows its key has found nothing yet. -/
theorem Course.of_rooted (h : Course m₀ still m (.ensure language text (.rooted uri key))) :
    Attempt m₀ still key m (.ensure language text (.rooted uri key)) ∧ m.table = m₀.table := by
  cases h with
  | keyed k h =>
    rcases h with ⟨hspared, htold, hplace⟩ | h
    · cases hplace with
      | rooted ht hslots => exact ⟨⟨hspared, htold, .rooted ht hslots⟩, ht⟩
    · cases h

/-- **A step of a call.** -/
theorem Solo.course (hs : Solo env n still sc e sc') (htidy : Tidy κ sc)
    (hn : sc.tasks[n]? = some t) (h : Course m₀ still sc.manager t) :
    ∃ t', sc'.tasks[n]? = some t' ∧ Course m₀ still sc'.manager t' := by
  cases h with
  | keyed key h =>
    obtain ⟨t', hn', h'⟩ := hs.attempt htidy hn h
    exact ⟨t', hn', .keyed key h'⟩
  | nameless err he =>
    rcases hs.cases hn with ⟨m', t', ht, rfl⟩ | ⟨rfl, hn'⟩
    · cases ht
    · exact ⟨_, hn', .nameless err he⟩
  | unkeyed language text path ht hslots hlength hspared =>
    rcases hs.cases hn with ⟨m', t', hstage, rfl⟩ | ⟨rfl, hn'⟩
    · refine ⟨t', getElem?_set_of_getElem? hn t', ?_⟩
      cases hstage.ensureStep with
      | nameless => exact .nameless _ rfl
      | root =>
        refine .keyed _ (.inl ⟨hspared _, fun i s hle hi => ?_, .rooted ht hslots⟩)
        have hnone : sc.manager.sessions[i]? = none := List.getElem?_eq_none (hlength ▸ hle)
        cases hnone.symm.trans hi
    · have hm := hs.step.of_silent.1
      exact ⟨_, hn', .unkeyed language text path (hm.table.trans ht) (hm.slots.trans hslots)
        (hm.length.trans hlength) fun key => (hspared key).silent hs⟩

theorem Run.course (r : Run (Solo env n still) sc sc') (htidy : ∃ κ, Tidy κ sc)
    (hn : sc.tasks[n]? = some (.ensure language text (.begin path))) :
    (∃ κ, Tidy κ sc') ∧ ∃ t, sc'.tasks[n]? = some t ∧ Course sc.manager still sc'.manager t := by
  refine r.invariant (I := fun sc' => (∃ κ, Tidy κ sc') ∧ ∃ t, sc'.tasks[n]? = some t ∧
    Course sc.manager still sc'.manager t) ?_
    ⟨htidy, _, hn, .unkeyed language text path rfl rfl rfl fun key => .refl _ still key⟩
  rintro sc₁ e sc₂ ⟨⟨κ, htidy⟩, t, hn, h⟩ hs
  exact ⟨htidy.step hs.step, hs.course htidy hn h⟩

/-- **The key of a call**: the one that it looks up once it has found the root of its document. -/
def LooksUp (env : ManagerEnvironment) (n : Nat) (still : List Nat) (sc sc' : Scene)
    (key : SessionKey) : Prop :=
  ∃ (sc₁ : Scene) (language text : String) (uri : Uri), Run (Solo env n still) sc sc₁ ∧
    sc₁.tasks[n]? = some (.ensure language text (.rooted uri key)) ∧ Run (Solo env n still) sc₁ sc'

/-- A call whose creation fails has looked up a key. -/
theorem Run.exists_looksUp (r : Run (Solo env n still) sc sc')
    (hn : sc.tasks[n]? = some (.ensure language text (.begin path))) :
    (∃ key, LooksUp env n still sc sc' key) ∨
      sc'.tasks[n]? = some (.ensure language text (.begin path)) ∨
      ∃ err : LspError, sc'.tasks[n]? = some (.fail err) ∧ err.isCreationFailure = false := by
  induction r with
  | refl => exact .inr (.inl hn)
  | tail r hs ih =>
    obtain ⟨e, hs⟩ := hs
    rcases ih with ⟨key, sc₁, l, x, uri, r₁, hroot, r₂⟩ | hbegin | ⟨err, herr, he⟩
    · exact .inl ⟨key, sc₁, l, x, uri, r₁, hroot, r₂.tail ⟨e, hs⟩⟩
    · rcases hs.cases hbegin with ⟨m', t', hstage, rfl⟩ | ⟨rfl, hn'⟩
      · have hn' := getElem?_set_of_getElem? hbegin t'
        cases hstage.ensureStep with
        | nameless => exact .inr (.inr ⟨_, hn', rfl⟩)
        | root => exact .inl ⟨_, _, _, _, _, r.tail ⟨e, hs⟩, hn', .refl⟩
      · exact .inr (.inl hn')
    · rcases hs.cases herr with ⟨m', t', hstage, rfl⟩ | ⟨rfl, hn'⟩
      · cases hstage
      · exact .inr (.inr ⟨err, hn', he⟩)

/-! ### A fresh creation -/

/-- **A key without a slot gets a new one**, at which whoever asks for it is the first, and begins
to create a session without waiting for anybody. -/
theorem exists_creation (hn : sc.tasks[n]? = some (.ensure language text (.rooted uri key)))
    (hnone : sc.manager.slotOf key = none) : ∃ sc', Run (Solo env n still) sc sc' ∧
      sc'.tasks[n]? = some (.ensure language text
        (beginCreation env uri key sc.manager.slots.length)) := by
  obtain ⟨slot, hslot⟩ : ∃ slot, slot = sc.manager.slots.length := ⟨_, rfl⟩
  obtain ⟨m₁, hm₁⟩ : ∃ m₁, m₁ = sc.manager.newSlot.1.bind key slot := ⟨_, rfl⟩
  have hfresh : m₁.slots[slot]? = some ⟨none, []⟩ := by simp [hm₁, hslot, newSlot]
  have hrooted : sc.manager.step env sc.now n 0 (.ensure language text (.rooted uri key)) =
      some (m₁, .ensure language text (.entering uri key slot), []) := by
    simp [Manager.step, stepEnsure, slotFor, hnone, hm₁, hslot, newSlot]
  have hentering : m₁.step env sc.now n 0 (.ensure language text (.entering uri key slot)) =
      some (m₁.enterSlot slot n, .ensure language text (.queued uri key slot), []) := by
    simp [Manager.step, stepEnsure, sessionIn, hfresh]
  have hqueued : (m₁.enterSlot slot n).step env sc.now n 0
      (.ensure language text (.queued uri key slot)) = some (m₁.enterSlot slot n,
        .ensure language text (beginCreation env uri key slot), []) := by
    obtain ⟨hlt, hget⟩ := List.getElem?_eq_some_iff.mp hfresh
    simp [Manager.step, stepEnsure, enterSlot, sessionIn, isCreator, setSlot, hlt, hget]
  have entering := getElem?_set_of_getElem? hn (.ensure language text (.entering uri key slot))
  have queued := getElem?_set_of_getElem? entering (.ensure language text (.queued uri key slot))
  have creating := getElem?_set_of_getElem? queued
    (.ensure language text (beginCreation env uri key slot))
  have r₁ : Run (Solo env n still) sc _ := .tail .refl ⟨_, .advance hn hrooted⟩
  have r₂ := r₁.tail ⟨_, .advance entering hentering⟩
  exact ⟨_, r₂.tail ⟨_, .advance queued hqueued⟩, hslot ▸ creating⟩

/-! ### The main result -/

/-- **A creation that fails leaves no trace.** Take any scene that a run has come to, and a call for
a session that begins there and has the manager alone until it returns that no session could be
created, because of the catalog, of the installation, of the launch or of the handshake. Then it has
looked up a key, and

* the table has no entry for this key, and all other entries as they were before the call;
* the slot of every other entry has the session that it had, nobody has worked on that session, so
  that its documents are the same and so is its state unless its server has exited, and if nothing
  has happened to it on its own it is the same altogether;
* every process that was launched since is told to die;
* a later call that has the manager alone and looks up an equal key begins a creation of its own, at
  a new slot. -/
theorem failed_creation_leaves_no_trace {files : FileTree} {err : LspError}
    (run : Run (Step env) (.start files now) sc)
    (call : Run (Solo env sc.tasks.length still)
      { sc with tasks := sc.tasks ++ [.ensure language text (.begin path)] } sc')
    (hr : sc'.tasks[sc.tasks.length]? = some (.fail err)) (he : err.isCreationFailure = true) :
    (∃ key, LooksUp env sc.tasks.length still
      { sc with tasks := sc.tasks ++ [.ensure language text (.begin path)] } sc' key) ∧
    ∀ key, LooksUp env sc.tasks.length still
        { sc with tasks := sc.tasks ++ [.ensure language text (.begin path)] } sc' key →
      (sc'.manager.table = sc.manager.table.filter (fun x => !x.1.same key) ∧
        sc'.manager.slotOf key = none) ∧
      (∀ x ∈ sc.manager.table, x.1.same key = false →
        sc'.manager.sessionIn x.2 = sc.manager.sessionIn x.2 ∧
        ∀ i s, sc.manager.sessionIn x.2 = some i → sc.manager.sessions[i]? = some s →
          ∃ s', sc'.manager.sessions[i]? = some s' ∧ s.Undisturbed s' ∧ (i ∈ still → s' = s)) ∧
      (∀ i s, sc.manager.sessions.length ≤ i → sc'.manager.sessions[i]? = some s →
        s.killRequested = true) ∧
      ∀ still' language' text' path' sc₁ uri' key', Run (Solo env sc'.tasks.length still')
          { sc' with tasks := sc'.tasks ++ [.ensure language' text' (.begin path')] } sc₁ →
        sc₁.tasks[sc'.tasks.length]? = some (.ensure language' text' (.rooted uri' key')) →
        key.same key' = true →
        ∃ sc₂, Run (Solo env sc'.tasks.length still') sc₁ sc₂ ∧
          sc₂.tasks[sc'.tasks.length]? = some (.ensure language' text'
            (beginCreation env uri' key' sc₁.manager.slots.length)) := by
  have begins : ∀ (sc : Scene) (t : Task), (sc.tasks ++ [t])[sc.tasks.length]? = some t :=
    fun _ _ => List.getElem?_concat_length
  have tidy : ∀ {sc : Scene} {t : Task}, t.isFresh = true → Run (Step env) (.start files now) sc →
      ∃ κ, Tidy κ { sc with tasks := sc.tasks ++ [t] } := fun ht r =>
    Run.tidy (fun hs => hs) (r.tail ⟨_, .call _ ht⟩)
  refine ⟨?_, ?_⟩
  · rcases call.exists_looksUp (begins _ _) with hkey | hbegin | ⟨err', hr', he'⟩
    · exact hkey
    · rw [hr] at hbegin
      cases hbegin
    · rw [hr] at hr'
      cases hr'
      rw [he] at he'
      cases he'
  · rintro key ⟨sc₁, l, x, uri, r₁, hroot, r₂⟩
    obtain ⟨htidy, t, hn, hcourse⟩ := r₁.course (tidy rfl run) (begins _ _)
    obtain rfl := Option.some.inj (hroot.symm.trans hn)
    obtain ⟨t', hn', hend⟩ := r₂.attempt htidy hroot hcourse.of_rooted.1
    obtain rfl := Option.some.inj (hr.symm.trans hn')
    have h : Attempt sc.manager still key sc'.manager (.fail err) := by
      rcases hend with h | h
      · exact h
      · cases h with
        | returned _ hharmless => cases he.symm.trans (hharmless err rfl)
    have htable : sc'.manager.table = sc.manager.otherEntries key := by
      cases h.place with
      | failed htable => exact htable
    have hnone : sc'.manager.slotOf key = none := by
      have hunbind := slotOf_unbind sc.manager key key
      rw [if_pos (SessionKey.same_refl key)] at hunbind
      rw [slotOf, htable]
      exact hunbind
    refine ⟨⟨htable, hnone⟩, ?_, ?_, ?_⟩
    · intro x hx hother
      have hx' := mem_otherEntries.mpr ⟨hx, hother⟩
      exact ⟨h.spared.slots x hx', fun i s hi hs => h.spared.sessions i s ⟨x, hx', hi, hs⟩⟩
    · exact fun i s hle hi => h.killRequested rfl hle hi
    · intro still' language' text' path' sc₁ uri' key' later hroot' hsame
      have run' : Run (Step env) (.start files now) sc' :=
        (run.tail ⟨_, .call _ rfl⟩).trans (call.mono fun hs => hs.step)
      obtain ⟨-, t, hn, hcourse'⟩ := later.course (tidy rfl run') (begins _ _)
      obtain rfl := Option.some.inj (hroot'.symm.trans hn)
      refine exists_creation hroot' ?_
      rw [slotOf, hcourse'.of_rooted.2]
      exact (slotOf_congr _ hsame).symm.trans hnone

/-- The output of a server that refuses the handshake. -/
def refusal : List UInt8 :=
  [67, 111, 110, 116, 101, 110, 116, 45, 76, 101, 110, 103, 116, 104, 58, 32, 49, 56, 13, 10, 13,
    10, 123, 34, 105, 100, 34, 58, 49, 44, 34, 101, 114, 114, 111, 114, 34, 58, 48, 125]

/-- A server refuses the handshake while the session of another key has a document open. -/
theorem failed_creation_leaves_no_trace_refused : ∃ (sc sc' : Scene) (key : SessionKey),
    Run (Step (staffed 0)) (.start shelf 0) sc ∧ sc.manager.table = [(⟨⟨[0x2F]⟩, "rust"⟩, 0)] ∧
    LooksUp (staffed 0) 1 []
      { sc with tasks := sc.tasks ++ [.ensure "rust" "" (.begin ⟨[0x2F, 0x77, 0x2F, 0x61]⟩)] }
      sc' key ∧
    sc'.manager.slotOf key = none ∧ sc'.manager.sessions.length = 2 ∧
    ∀ s, sc'.manager.sessions[1]? = some s → s.killRequested = true := by
  obtain ⟨t, ht⟩ : ∃ t : Task, t = .ensure "rust" "" (.begin ⟨[0x2F, 0x77, 0x2F, 0x61]⟩) := ⟨_, rfl⟩
  have hplay : ((Scene.start shelf 0).play (staffed 0) (fun _ _ _ => true) assurance).any
      (fun sc => sc.tasks.length == 1 && sc.manager.table == [(⟨⟨[0x2F]⟩, "rust"⟩, 0)] &&
        sc.manager.sessions.length == 1 &&
        (({ sc with tasks := sc.tasks ++ [t] } : Scene).play (staffed 0)
          (fun sc e sc' => sc'.tasks.length == sc.tasks.length && e.isOwn 1)
          (List.replicate 12 (.advance 1 0) ++ [.output 1 refusal, .background 1 .reader] ++
            List.replicate 5 (.advance 1 0))).any fun sc' =>
          sc'.manager.sessions.length == 2 &&
            (sc'.tasks[1]?).any Task.reportsCreationFailure) = true := by
    rw [ht]
    decide +kernel
  obtain ⟨sc, hsc, hplay⟩ := (Option.any_eq_true _ _).mp hplay
  simp only [Bool.and_eq_true, beq_iff_eq] at hplay
  obtain ⟨⟨⟨hlength, htable⟩, hsessions⟩, hplay⟩ := hplay
  obtain ⟨sc', hsc', hplay⟩ := (Option.any_eq_true _ _).mp hplay
  simp only [Bool.and_eq_true, beq_iff_eq] at hplay
  obtain ⟨hsessions', hplay⟩ := hplay
  obtain ⟨t', hn, hfails⟩ := (Option.any_eq_true _ _).mp hplay
  obtain ⟨err, rfl, he⟩ : ∃ err, t' = .fail err ∧ err.isCreationFailure = true := by
    unfold Task.reportsCreationFailure at hfails
    split at hfails
    · exact ⟨_, rfl, hfails⟩
    · cases hfails
  have run : Run (Step (staffed 0)) (.start shelf 0) sc := .of_play (fun hs _ => hs) hsc
  have call : Run (Solo (staffed 0) 1 []) { sc with tasks := sc.tasks ++ [t] } sc' :=
    .of_play Solo.of_step hsc'
  subst ht
  rw [← hlength] at call hn
  obtain ⟨⟨key, hkey⟩, hall⟩ := failed_creation_leaves_no_trace run call hn he
  obtain ⟨⟨-, hnone⟩, -, htold, -⟩ := hall key hkey
  rw [hlength] at hkey
  exact ⟨sc, sc', key, run, htable, hkey, hnone, hsessions', fun s hs =>
    htold 1 s (Nat.le_of_eq hsessions) hs⟩

end Manager

end LanguageHub
