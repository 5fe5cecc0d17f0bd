import LanguageHub.Proofs.Manager.Routing
import Mathlib.Data.Finset.Card
import Mathlib.Data.Finset.Dedup

/-!
# What is booked of a call

A call for a session passes a few turning points: it looks up its slot, and may replace the session
that it finds there; it creates the session of its slot, and launches the server; it receives a
session. A `Manager.Trace` is a run with the list of its events, and the **ledger** of a key is
what the events say of these turning points (`Manager.booked`).

How far a call has come between them is its `Standing`. A step moves the standing of one call at
most, and with it the slots, in one of nine ways (`Manager.Books`); this is shown once, for steps in
which no creation fails and nobody shuts down (`Manager.Serving.books`), and everything that is said
about the ledger is an invariant of these nine ways.
-/

namespace LanguageHub

/-- How far a call has come on its way to a session. -/
inductive Standing where
  /-- It has not looked up its slot. -/
  | before
  /-- It is on its way to its slot, or waits there. -/
  | waiting (key : SessionKey) (slot : Nat)
  /-- It creates the session of its slot: it has not launched the server, -/
  | building (key : SessionKey) (slot : Nat)
  /-- or it has. -/
  | greeting (key : SessionKey) (slot session : Nat)
  /-- It has a session or has ended, or it is not a call for one. -/
  | past

/-- The key and the slot of a call that has looked up its slot and has no session yet. -/
def Standing.place? : Standing → Option (SessionKey × Nat)
  | .waiting key slot | .building key slot | .greeting key slot _ => some (key, slot)
  | _ => none

/-- Whether a call creates the session of a slot. -/
def Standing.CreatesAt (slot : Nat) : Standing → Prop
  | .building _ s | .greeting _ s _ => s = slot
  | _ => False

/-- How far a task has come on its way to a session. -/
def Task.standing : Task → Standing
  | .ensure _ _ (.begin _) | .ensure _ _ (.rooted _ _) => .before
  | .ensure _ _ (.replacing _ key slot _ _) | .ensure _ _ (.entering _ key slot)
  | .ensure _ _ (.queued _ key slot) => .waiting key slot
  | .ensure _ _ (.installing _ key slot _ _) | .ensure _ _ (.launching _ key slot _ _) =>
    .building key slot
  | .ensure _ _ (.handshaking _ key slot session _) => .greeting key slot session
  | _ => .past

/-- Whether a task neither has failed to create a session nor shuts the manager down. -/
def Task.serves : Task → Bool
  | .ensure _ _ (.failing ..) | .shutdown _ => false
  | _ => true

namespace Manager

variable {env : ManagerEnvironment} {R : Scene → Event → Scene → Prop} {sc sc' sc'' : Scene}
  {e : Event} {es es' : List Event} {m m' : Manager} {κ : Nat → SessionKey}
  {key k : SessionKey} {slot n i now : Nat} {t t' : Task} {st st' : Standing}

/-! ### Events and what is booked of them -/

/-- **What is booked of a call**, with its key. -/
inductive Entry where
  /-- It has looked up its slot, -/
  | lookup (key : SessionKey) (slot : Nat)
  /-- or has found a session that has ended, which it replaces at a new slot. -/
  | replacement (key : SessionKey) (slot old : Nat)
  /-- It begins to create the session of its slot. -/
  | creation (key : SessionKey) (slot : Nat)
  /-- It has launched the server. -/
  | launch (key : SessionKey) (slot : Nat)
  /-- It has received a session. -/
  | delivery (key : SessionKey) (session : Nat)

namespace Entry

/-- The slot that was looked up. -/
def lookup? : Entry → Option (SessionKey × Nat)
  | .lookup key slot | .replacement key slot _ => some (key, slot)
  | _ => none

/-- The session that is replaced. -/
def replacement? : Entry → Option (SessionKey × Nat)
  | .replacement key _ old => some (key, old)
  | _ => none

/-- The slot at which a session is created. -/
def creation? : Entry → Option (SessionKey × Nat)
  | .creation key slot => some (key, slot)
  | _ => none

/-- The slot for which a server was launched. -/
def launch? : Entry → Option (SessionKey × Nat)
  | .launch key slot => some (key, slot)
  | _ => none

/-- The session that was received. -/
def delivery? : Entry → Option (SessionKey × Nat)
  | .delivery key session => some (key, session)
  | _ => none

end Entry

/-- What is booked of a stage of an assurance. -/
def entryOf : EnsureStage → EnsureStage → Option Entry
  | .rooted _ key, .entering _ _ slot => some (.lookup key slot)
  | .rooted _ key, .replacing _ _ slot old _ => some (.replacement key slot old)
  | .queued _ key slot, .installing .. => some (.creation key slot)
  | .launching _ key slot _ _, .handshaking .. => some (.launch key slot)
  | .entering _ key _, .opening i _ | .queued _ key _, .opening i _
  | .handshaking _ key _ _ _, .opening i _ => some (.delivery key i)
  | _, _ => none

/-- What is booked of an event, with the number of the task. -/
def Event.booking? : Event → Option (Nat × Entry)
  | .advanced n (.ensure _ _ stage) (.ensure _ _ stage') => (entryOf stage stage').map (n, ·)
  | _ => none

/-- **The ledger of a key**: what was booked of one kind, with the numbers of the tasks. -/
def booked (what : Entry → Option (SessionKey × Nat)) (key : SessionKey) (es : List Event) :
    List (Nat × Nat) :=
  es.filterMap fun e => e.booking?.bind fun x => (what x.2).bind fun y =>
    if y.1.same key then some (x.1, y.2) else none

variable {what : Entry → Option (SessionKey × Nat)} {x : Nat × Nat} {entry : Entry}

theorem booked_append : booked what key (es ++ es') = booked what key es ++ booked what key es' :=
  List.filterMap_append

/-- An event of which nothing of the kind is booked. -/
theorem booked_concat_of_none {entry : Option Entry} (he : e.booking? = entry.map (n, ·))
    (h : ∀ x, entry = some x → what x = none) :
    booked what key (es ++ [e]) = booked what key es := by
  rw [booked_append]
  rcases entry with _ | x
  · simp [booked, he]
  · simp [booked, he, h x rfl]

/-- An event of which something of the kind is booked. -/
theorem booked_concat (he : e.booking? = some (n, entry)) (hw : what entry = some (k, i)) :
    booked what key (es ++ [e]) =
      if k.same key then booked what key es ++ [(n, i)] else booked what key es := by
  rw [booked_append]
  split <;> simp_all [booked]

theorem mem_booked_concat : x ∈ booked what key (es ++ [e]) ↔ x ∈ booked what key es ∨
    ∃ entry k, e.booking? = some (x.1, entry) ∧ what entry = some (k, x.2) ∧ k.same key = true := by
  rw [booked_append, List.mem_append]
  refine or_congr_right ?_
  simp only [booked, List.mem_filterMap, List.mem_singleton, exists_eq_left,
    Option.bind_eq_some_iff]
  constructor
  · rintro ⟨⟨n, entry⟩, he, ⟨k, i⟩, hw, hx⟩
    split at hx
    · next hk =>
      cases hx
      exact ⟨entry, k, he, hw, hk⟩
    · cases hx
  · rintro ⟨entry, k, he, hw, hk⟩
    exact ⟨_, he, _, hw, by rw [if_pos hk]⟩

theorem mem_booked_concat_of_some (he : e.booking? = some (n, entry))
    (hw : what entry = some (k, i)) :
    x ∈ booked what key (es ++ [e]) ↔
      x ∈ booked what key es ∨ (x = (n, i) ∧ k.same key = true) := by
  rw [booked_concat he hw]
  split <;> simp_all

/-- What was booked stays in the ledger. -/
theorem mem_booked_append (h : x ∈ booked what key es) : x ∈ booked what key (es ++ es') := by
  rw [booked_append]
  exact List.mem_append_left _ h

theorem booked_congr (h : key.same k = true) : booked what key es = booked what k es := by
  unfold booked
  simp only [SessionKey.same_congr h]

/-! ### Runs and their events -/

/-- **A run with its events.** -/
inductive Trace (R : Scene → Event → Scene → Prop) (sc : Scene) : List Event → Scene → Prop
  | nil : Trace R sc [] sc
  | concat {es : List Event} {e : Event} {sc' sc'' : Scene} :
      Trace R sc es sc' → R sc' e sc'' → Trace R sc (es ++ [e]) sc''

theorem Trace.run (h : Trace R sc es sc') : Run R sc sc' := by
  induction h with
  | nil => exact .refl
  | concat _ hs ih => exact ih.tail ⟨_, hs⟩

/-- **What holds at first and survives every step holds throughout.** -/
theorem Trace.invariant {I : List Event → Scene → Prop}
    (hstep : ∀ {es sc e sc'}, I es sc → R sc e sc' → I (es ++ [e]) sc') (h₀ : I [] sc)
    (h : Trace R sc es sc') : I es sc' := by
  induction h with
  | nil => exact h₀
  | concat _ hs ih => exact hstep ih hs

/-- A scene in which no creation has failed and nobody shuts the manager down. -/
def Scene.Serves (sc : Scene) : Prop := ∀ t ∈ sc.tasks, t.serves = true

/-- **A step in which no creation fails and nobody shuts the manager down.** -/
def Serving (env : ManagerEnvironment) (sc : Scene) (e : Event) (sc' : Scene) : Prop :=
  Step env sc e sc' ∧ sc.Serves ∧ sc'.Serves

/-- The standings of all tasks; a task that has not come yet stands before. -/
def Scene.standing (sc : Scene) (n : Nat) : Standing :=
  ((sc.tasks[n]?).map Task.standing).getD .before

theorem standing_eq (h : sc.tasks[n]? = some t) : sc.standing n = t.standing := by
  rw [Scene.standing, h, Option.map_some, Option.getD_some]

/-! ### The ways of a step -/

/-- The slots are as they were. -/
structure SameSlots (m m' : Manager) : Prop where
  slotOf : ∀ k, m'.slotOf k = m.slotOf k
  sessionIn : ∀ s, m'.sessionIn s = m.sessionIn s
  length : m'.slots.length = m.slots.length

/-- A key has a new slot. -/
structure NewSlot (m : Manager) (key : SessionKey) (m' : Manager) : Prop where
  slotOf : ∀ k, m'.slotOf k = if key.same k then some m.slots.length else m.slotOf k
  sessionIn : ∀ s, m'.sessionIn s = m.sessionIn s
  length : m'.slots.length = m.slots.length + 1

/-- **How a call gets on**, and what is booked of it. -/
inductive Books (n : Nat) (m : Manager) : Standing → Option Entry → Manager → Standing → Prop
  | rest (st : Standing) {m' : Manager} : SameSlots m m' → Books n m st none m' st
  | leave {m' : Manager} : SameSlots m m' → Books n m .before none m' .past
  | share (key : SessionKey) (slot : Nat) {m' : Manager} : m.slotOf key = some slot →
      SameSlots m m' → Books n m .before (some (.lookup key slot)) m' (.waiting key slot)
  | fresh (key : SessionKey) {m' : Manager} : m.slotOf key = none → NewSlot m key m' →
      Books n m .before (some (.lookup key m.slots.length)) m' (.waiting key m.slots.length)
  | replace (key : SessionKey) (slot old : Nat) {m' : Manager} : m.slotOf key = some slot →
      m.sessionIn slot = some old → NewSlot m key m' →
      Books n m .before (some (.replacement key m.slots.length old)) m'
        (.waiting key m.slots.length)
  | create (key : SessionKey) (slot : Nat) {m' : Manager} : m.sessionIn slot = none →
      m.creatorAt slot = some n → SameSlots m m' →
      Books n m (.waiting key slot) (some (.creation key slot)) m' (.building key slot)
  | launch (key : SessionKey) (slot : Nat) {m' : Manager} : SameSlots m m' →
      Books n m (.building key slot) (some (.launch key slot)) m'
        (.greeting key slot m.sessions.length)
  | receive (key : SessionKey) (slot i : Nat) {m' : Manager} : m.sessionIn slot = some i →
      SameSlots m m' → Books n m (.waiting key slot) (some (.delivery key i)) m' .past
  | fill (key : SessionKey) (slot i : Nat) {m' : Manager} : (∀ k, m'.slotOf k = m.slotOf k) →
      (∀ s, m'.sessionIn s = if s = slot then some i else m.sessionIn s) →
      m'.slots.length = m.slots.length →
      Books n m (.greeting key slot i) (some (.delivery key i)) m' .past

theorem SameSlots.refl (m : Manager) : SameSlots m m := ⟨fun _ => rfl, fun _ => rfl, rfl⟩

theorem Stirs.sameSlots (h : Stirs m m') : SameSlots m m' :=
  ⟨h.slotOf, h.sessionIn, by rw [h.slots]⟩

theorem newSlot_bind (m : Manager) (key : SessionKey) :
    NewSlot m key (m.newSlot.1.bind key m.slots.length) :=
  ⟨slotOf_bind_newSlot, fun _ => sessionIn_bind_newSlot, length_bind_newSlot⟩

/-- **A stage of an assurance**, if no creation fails. -/
theorem EnsureStep.books {language text : String} {stage : EnsureStage} (h : Tidy κ sc)
    (hn : sc.tasks[n]? = some (.ensure language text stage))
    (hs : EnsureStep env sc.now n language text sc.manager stage m' t)
    (hserves : (Task.ensure language text stage).serves = true) (hserves' : t.serves = true) :
    ∃ entry, (Event.advanced n (.ensure language text stage) t).booking? = entry.map (n, ·) ∧
      Books n sc.manager (Task.ensure language text stage).standing entry m' t.standing := by
  cases hs with
  | nameless => exact ⟨none, rfl, .leave (.refl _)⟩
  | root => exact ⟨none, rfl, .rest _ (.refl _)⟩
  | fresh uri key hnone => exact ⟨_, rfl, .fresh key hnone (newSlot_bind _ _)⟩
  | replace uri key slot old hslot hold =>
    exact ⟨_, rfl, .replace key slot old hslot hold (newSlot_bind _ _)⟩
  | share uri key slot hslot => exact ⟨_, rfl, .share key slot hslot (.refl _)⟩
  | dispose _ _ _ _ hs => exact ⟨none, rfl, .rest _ hs.stirs.sameSlots⟩
  | disposed => exact ⟨none, rfl, .rest _ (.refl _)⟩
  | meet uri key slot i hi => exact ⟨_, rfl, .receive key slot i hi (.refl _)⟩
  | queue uri key slot =>
    exact ⟨none, rfl, .rest _ ⟨fun _ => by simp only [slotOf, enterSlot_table],
      fun _ => sessionIn_enterSlot, enterSlot_length⟩⟩
  | served uri key slot i hi => exact ⟨_, rfl, .receive key slot i hi (.refl _)⟩
  | create uri key slot server hnone hc => exact ⟨_, rfl, .create key slot hnone hc (.refl _)⟩
  | unknown | uninstalled | malformed | unlaunched | ungreeted => cases hserves'
  | abandon | leave => cases hserves
  | install | installed => exact ⟨none, rfl, .rest _ ⟨fun _ => rfl, fun _ => rfl, rfl⟩⟩
  | launch uri key slot => exact ⟨_, rfl, .launch key slot ⟨fun _ => rfl, fun _ => rfl, rfl⟩⟩
  | greet _ _ _ _ hs => exact ⟨none, rfl, .rest _ hs.stirs.sameSlots⟩
  | fill uri key slot i =>
    obtain ⟨ha, -⟩ := h.seated n _ hn
    exact ⟨_, rfl, .fill key slot i (fun _ => rfl) (fun s => sessionIn_setSlot ha.bound _)
      (by simp [setSlot])⟩
  | openDocument _ hs => exact ⟨none, rfl, .rest _ hs.stirs.sameSlots⟩
  | done => exact ⟨none, rfl, .rest _ (.refl _)⟩

/-- A task that is no assurance has no standing, before and after. -/
theorem TaskStep.standing_eq_past (h : TaskStep env now n m t m' t')
    (ht : ∀ language text stage, t ≠ .ensure language text stage) :
    t.standing = .past ∧ t'.standing = .past := by
  rcases h with _ | hr
  · exact absurd rfl (ht _ _ _)
  · cases hr <;> exact ⟨rfl, rfl⟩
  all_goals exact ⟨rfl, rfl⟩

/-- **A step moves the standing of one task at most**, in one of the nine ways. -/
theorem Serving.books (hs : Serving env sc e sc') (h : Tidy κ sc) :
    ∃ n entry st, e.booking? = entry.map (n, ·) ∧
      Books n sc.manager (sc.standing n) entry sc'.manager st ∧
      sc'.standing = Function.update sc.standing n st := by
  obtain ⟨hs, hserves, hserves'⟩ := hs
  rcases e with ⟨n, t, t'⟩ | _
  · obtain ⟨m', hn, ht, rfl⟩ := hs.of_advanced
    have hst : (sc.after n t m' t').standing = Function.update sc.standing n t'.standing := by
      funext k
      rcases eq_or_ne k n with rfl | hne
      · rw [Function.update_self]
        exact standing_eq (getElem?_set_of_getElem? hn t')
      · rw [Function.update_of_ne hne, Scene.standing, Scene.standing, Scene.after,
          List.getElem?_set_ne hne.symm]
    by_cases hensure : ∃ language text stage, t = .ensure language text stage
    · obtain ⟨language, text, stage, rfl⟩ := hensure
      obtain ⟨entry, he, hb⟩ := ht.ensureStep.books h hn (hserves _ (List.mem_of_getElem? hn))
        (hserves' _ (List.mem_of_getElem? (getElem?_set_of_getElem? hn t')))
      rw [← standing_eq hn] at hb
      exact ⟨n, entry, _, he, hb, hst⟩
    · have hensure : ∀ language text stage, t ≠ .ensure language text stage :=
        fun l x s hc => hensure ⟨l, x, s, hc⟩
      obtain ⟨hbefore, hafter⟩ := ht.standing_eq_past hensure
      refine ⟨n, none, .past, ?_, ?_, by rw [hst, hafter]⟩
      · cases t with
        | ensure => exact absurd rfl (hensure _ _ _)
        | _ => rfl
      · rw [standing_eq hn, hbefore]
        rcases ht.stirs_or_drains hensure with hm | ⟨rfl, -⟩
        · exact .rest _ hm.sameSlots
        · exact absurd (hserves _ (List.mem_of_getElem? hn)) (by decide)
  · obtain ⟨hm, -, -, heq | ⟨t, ht, heq⟩⟩ := hs.of_silent
    · refine ⟨0, none, sc.standing 0, rfl, .rest _ hm.sameSlots, ?_⟩
      rw [Function.update_eq_self]
      funext k
      rw [Scene.standing, Scene.standing, heq]
    · -- a task has come
      refine ⟨sc.tasks.length, none, t.standing, rfl, ?_, ?_⟩
      · have hbefore : sc.standing sc.tasks.length = .before := by
          simp [Scene.standing]
        rw [hbefore]
        unfold Task.isFresh at ht
        split at ht
        · exact .rest _ hm.sameSlots
        · exact .leave hm.sameSlots
        · exact .leave hm.sameSlots
        · exact .leave hm.sameSlots
        · cases ht
      · funext k
        rw [Scene.standing, heq]
        rcases Nat.lt_trichotomy k sc.tasks.length with hlt | rfl | hgt
        · rw [List.getElem?_append_left hlt, Function.update_of_ne (Nat.ne_of_lt hlt),
            Scene.standing]
        · rw [List.getElem?_concat_length, Function.update_self]
          rfl
        · have hnone : sc.tasks[k]? = none := List.getElem?_eq_none (Nat.le_of_lt hgt)
          have hnone' : (sc.tasks ++ [t])[k]? = none := by
            rw [List.getElem?_eq_none_iff, List.length_append, List.length_singleton]
            omega
          rw [hnone', Function.update_of_ne (Nat.ne_of_gt hgt), Scene.standing, hnone]

/-! ### Slots that were looked up -/

/-- **What a step has to do with looking up slots**: nothing, or one call looks up the slot of its
key, which is the one in the table from then on. -/
inductive Looks (m : Manager) (st : Standing) (entry : Option Entry) (m' : Manager)
    (st' : Standing) : Prop
  | rest : (∀ x, entry = some x → x.lookup? = none) → (∀ k, m'.slotOf k = m.slotOf k) →
      m'.slots.length = m.slots.length → (st'.place? = none ∨ st'.place? = st.place?) →
      (st' = .before → st = .before) → Looks m st entry m' st'
  | look (key : SessionKey) (slot : Nat) (x : Entry) : entry = some x →
      x.lookup? = some (key, slot) → st = .before → st' = .waiting key slot →
      (∀ k, m'.slotOf k = if key.same k then some slot else m.slotOf k) →
      slot < m'.slots.length → m.slots.length ≤ m'.slots.length →
      (slot < m.slots.length → m.slotOf key = some slot) → Looks m st entry m' st'

theorem Books.looks {entry : Option Entry} (h : Books n m st entry m' st')
    (hbound : ∀ key slot, m.slotOf key = some slot → slot < m.slots.length) :
    Looks m st entry m' st' := by
  cases h with
  | rest _ hm => exact .rest (by simp) hm.slotOf hm.length (.inr rfl) id
  | leave hm => exact .rest (by simp) hm.slotOf hm.length (.inl rfl) (by simp)
  | share key slot hslot hm =>
    refine .look key slot _ rfl rfl rfl rfl (fun k => ?_) ?_ (Nat.le_of_eq hm.length.symm)
      fun _ => hslot
    · rw [hm.slotOf]
      split
      · next hk => rw [← slotOf_congr m hk, hslot]
      · rfl
    · rw [hm.length]
      exact hbound key slot hslot
  | fresh key _ hm | replace key _ _ _ _ hm =>
    refine .look key _ _ rfl rfl rfl rfl hm.slotOf ?_ ?_ fun hlt => absurd hlt (Nat.lt_irrefl _)
    · rw [hm.length]
      exact Nat.lt_succ_self _
    · rw [hm.length]
      exact Nat.le_succ _
  | create _ _ _ _ hm | launch _ _ hm =>
    exact .rest (by simp [Entry.lookup?]) hm.slotOf hm.length (.inr rfl) (by simp)
  | receive _ _ _ _ hm =>
    exact .rest (by simp [Entry.lookup?]) hm.slotOf hm.length (.inl rfl) (by simp)
  | fill _ _ _ hof _ hlen =>
    exact .rest (by simp [Entry.lookup?]) hof hlen (.inl rfl) (by simp)

/-- **The slots of the ledger.** The slot of a key is one that a call has looked up, a slot belongs
to one key, and a call keeps to the slot that it has looked up. -/
structure Looked (es : List Event) (m : Manager) (f : Nat → Standing) : Prop where
  current : ∀ {key slot}, m.slotOf key = some slot → ∃ n, (n, slot) ∈ booked Entry.lookup? key es
  bound : ∀ {key n slot}, (n, slot) ∈ booked Entry.lookup? key es → slot < m.slots.length
  known : ∀ {key x}, x ∈ booked Entry.lookup? key es → ∃ slot, m.slotOf key = some slot
  agree : ∀ {k k' n n' slot}, (n, slot) ∈ booked Entry.lookup? k es →
    (n', slot) ∈ booked Entry.lookup? k' es → k.same k' = true
  seated : ∀ {n k slot}, (f n).place? = some (k, slot) → (n, slot) ∈ booked Entry.lookup? k es
  once : ∀ {key n slot}, (n, slot) ∈ booked Entry.lookup? key es → f n ≠ .before
  unique : ∀ {k k' n slot slot'}, (n, slot) ∈ booked Entry.lookup? k es →
    (n, slot') ∈ booked Entry.lookup? k' es → slot = slot'

/-- **A stage that looks up nothing** leaves the slots of the ledger. -/
theorem Looked.rest {f : Nat → Standing} (h : Looked es m f)
    (hsame : ∀ key, booked Entry.lookup? key (es ++ [e]) = booked Entry.lookup? key es)
    (hof : ∀ key, m'.slotOf key = m.slotOf key) (hlen : m'.slots.length = m.slots.length)
    (hplace : st.place? = none ∨ st.place? = (f n).place?)
    (hbefore : st = .before → f n = .before) :
    Looked (es ++ [e]) m' (Function.update f n st) where
  current := by
    intro key slot hs
    rw [hsame]
    exact h.current (hof key ▸ hs)
  bound := by
    intro key k slot hk
    rw [hlen]
    exact h.bound (hsame key ▸ hk)
  known := by
    intro key x hx
    obtain ⟨slot, hslot⟩ := h.known (hsame key ▸ hx)
    exact ⟨slot, by rw [hof, hslot]⟩
  agree := fun hi hj => h.agree (hsame _ ▸ hi) (hsame _ ▸ hj)
  seated := by
    intro j k slot hj
    rw [hsame]
    rcases eq_or_ne j n with rfl | hne
    · rw [Function.update_self] at hj
      rcases hplace with hp | hp
      · rw [hp] at hj
        cases hj
      · exact h.seated (hp ▸ hj)
    · rw [Function.update_of_ne hne] at hj
      exact h.seated hj
  once := by
    intro key j slot hj
    rcases eq_or_ne j n with rfl | hne
    · rw [Function.update_self]
      exact fun hc => h.once (hsame key ▸ hj) (hbefore hc)
    · rw [Function.update_of_ne hne]
      exact h.once (hsame key ▸ hj)
  unique := fun hs hs' => h.unique (hsame _ ▸ hs) (hsame _ ▸ hs')

/-- **A call looks up its slot**, which from now on is the one of its key. -/
theorem Looked.look {f : Nat → Standing} {key : SessionKey} {slot : Nat} (h : Looked es m f)
    (hmem : ∀ k (y : Nat × Nat), y ∈ booked Entry.lookup? k (es ++ [e]) ↔
      y ∈ booked Entry.lookup? k es ∨ (y = (n, slot) ∧ key.same k = true))
    (hst : f n = .before)
    (hof : ∀ k, m'.slotOf k = if key.same k then some slot else m.slotOf k)
    (hlt : slot < m'.slots.length) (hle : m.slots.length ≤ m'.slots.length)
    (hcur : slot < m.slots.length → m.slotOf key = some slot) :
    Looked (es ++ [e]) m' (Function.update f n (.waiting key slot)) where
  current := by
    intro k s hs
    rw [hof] at hs
    split at hs
    · next hk =>
      cases hs
      exact ⟨n, (hmem _ _).mpr (.inr ⟨rfl, hk⟩)⟩
    · obtain ⟨j, hj⟩ := h.current hs
      exact ⟨j, (hmem _ _).mpr (.inl hj)⟩
  bound := by
    intro k j s hj
    rcases (hmem _ _).mp hj with hj | ⟨hj, -⟩
    · exact Nat.lt_of_lt_of_le (h.bound hj) hle
    · cases hj
      exact hlt
  known := by
    intro k y hy
    rcases (hmem _ _).mp hy with hy | ⟨-, hk⟩
    · rw [hof]
      split
      · exact ⟨_, rfl⟩
      · exact h.known hy
    · exact ⟨slot, by rw [hof, if_pos hk]⟩
  agree := by
    -- a slot that was there before is the one of the key
    have hold : ∀ {k j}, (j, slot) ∈ booked Entry.lookup? k es → k.same key = true := by
      intro k j hj
      obtain ⟨j', hj'⟩ := h.current (hcur (h.bound hj))
      exact h.agree hj hj'
    intro k k' i j s hi hj
    rcases (hmem _ _).mp hi with hi | ⟨hi, hk⟩
    · rcases (hmem _ _).mp hj with hj | ⟨hj, hk'⟩
      · exact h.agree hi hj
      · cases hj
        exact SessionKey.same_trans (hold hi) hk'
    · cases hi
      rcases (hmem _ _).mp hj with hj | ⟨-, hk'⟩
      · exact SessionKey.same_symm (SessionKey.same_trans (hold hj) hk)
      · exact SessionKey.same_trans (SessionKey.same_symm hk) hk'
  seated := by
    intro j k s hj
    rcases eq_or_ne j n with rfl | hne
    · rw [Function.update_self] at hj
      cases hj
      exact (hmem _ _).mpr (.inr ⟨rfl, SessionKey.same_refl _⟩)
    · rw [Function.update_of_ne hne] at hj
      exact (hmem _ _).mpr (.inl (h.seated hj))
  once := by
    intro k j s hj
    rcases eq_or_ne j n with rfl | hne
    · rw [Function.update_self]
      simp
    · rw [Function.update_of_ne hne]
      rcases (hmem _ _).mp hj with hj | ⟨hj, -⟩
      · exact h.once hj
      · cases hj
        exact absurd rfl hne
  unique := by
    have hnew : ∀ {k s}, (n, s) ∈ booked Entry.lookup? k es → False := fun hs => h.once hs hst
    intro k k' j s s' hs hs'
    rcases (hmem _ _).mp hs with hs | ⟨hs, -⟩
    · rcases (hmem _ _).mp hs' with hs' | ⟨hs', -⟩
      · exact h.unique hs hs'
      · cases hs'
        exact (hnew hs).elim
    · cases hs
      rcases (hmem _ _).mp hs' with hs' | ⟨hs', -⟩
      · exact (hnew hs').elim
      · cases hs'
        rfl

theorem Looked.step {f : Nat → Standing} {entry : Option Entry} (h : Looked es m f)
    (he : e.booking? = entry.map (n, ·)) (hb : Books n m (f n) entry m' st) :
    Looked (es ++ [e]) m' (Function.update f n st) := by
  have hbound : ∀ key slot, m.slotOf key = some slot → slot < m.slots.length := fun key slot hs =>
    h.bound (h.current hs).choose_spec
  rcases hb.looks hbound with ⟨hnone, hof, hlen, hplace, hbefore⟩ |
    ⟨key, slot, x, rfl, hx, hst, rfl, hof, hlt, hle, hcur⟩
  · exact h.rest (fun _ => booked_concat_of_none he hnone) hof hlen hplace hbefore
  · exact h.look (fun _ _ => mem_booked_concat_of_some he hx) hst hof hlt hle hcur

/-! ### How many slots a key has -/

/-- The slots that were looked up for a key. -/
def slotsOf (key : SessionKey) (es : List Event) : Finset Nat :=
  ((booked Entry.lookup? key es).map (·.2)).toFinset

theorem mem_slotsOf : slot ∈ slotsOf key es ↔ ∃ n, (n, slot) ∈ booked Entry.lookup? key es := by
  simp [slotsOf]

theorem slotsOf_concat (he : e.booking? = some (n, entry))
    (hw : entry.lookup? = some (k, slot)) : slotsOf key (es ++ [e]) =
      if k.same key then insert slot (slotsOf key es) else slotsOf key es := by
  rw [slotsOf, booked_concat he hw]
  split
  · ext s
    simp [slotsOf]
  · rfl

/-- **A key has a slot for its first call, and one for each replacement.** -/
def Counted (es : List Event) : Prop := ∀ key, (slotsOf key es).card =
  (if booked Entry.lookup? key es = [] then 0 else 1) +
    (booked Entry.replacement? key es).length

theorem Counted.step {f : Nat → Standing} {entry : Option Entry} (h : Counted es)
    (hl : Looked es m f) (he : e.booking? = entry.map (n, ·)) (hb : Books n m st entry m' st') :
    Counted (es ++ [e]) := by
  -- nothing is looked up
  have quiet : (∀ x, entry = some x → x.lookup? = none ∧ x.replacement? = none) →
      Counted (es ++ [e]) := by
    intro hnone key
    rw [slotsOf, booked_concat_of_none he fun x hx => (hnone x hx).1,
      booked_concat_of_none he fun x hx => (hnone x hx).2]
    exact h key
  -- a new slot is none of those that were looked up before
  have hnew : ∀ k, m.slots.length ∉ slotsOf k es := by
    intro k hmem
    obtain ⟨j, hj⟩ := mem_slotsOf.mp hmem
    exact absurd (hl.bound hj) (Nat.lt_irrefl _)
  intro k
  cases hb with
  | rest | leave => exact quiet (by simp) k
  | create | launch | receive | fill =>
    exact quiet (by simp [Entry.lookup?, Entry.replacement?]) k
  | share key slot hslot =>
    have hr : booked Entry.replacement? k (es ++ [e]) = booked Entry.replacement? k es :=
      booked_concat_of_none he (by simp [Entry.replacement?])
    rw [hr, slotsOf_concat he rfl, booked_concat he rfl]
    split
    · next hk =>
      -- the slot is one of those that were looked up
      obtain ⟨j, hj⟩ := hl.current (slotOf_congr m hk ▸ hslot)
      have hne : booked Entry.lookup? k es ≠ [] := List.ne_nil_of_mem hj
      rw [Finset.insert_eq_of_mem (mem_slotsOf.mpr ⟨j, hj⟩), h k, if_neg hne, if_neg (by simp)]
    · exact h k
  | fresh key hnone hm =>
    have hr : booked Entry.replacement? k (es ++ [e]) = booked Entry.replacement? k es :=
      booked_concat_of_none he (by simp [Entry.replacement?])
    rw [hr, slotsOf_concat he rfl, booked_concat he rfl]
    split
    · next hk =>
      -- it is the first slot of the key
      have hnil : booked Entry.lookup? k es = [] := by
        rw [List.eq_nil_iff_forall_not_mem]
        intro y hy
        obtain ⟨s, hs⟩ := hl.known hy
        rw [← slotOf_congr m hk, hnone] at hs
        cases hs
      rw [Finset.card_insert_of_notMem (hnew k), h k, hnil, if_pos rfl, if_neg (by simp)]
      omega
    · exact h k
  | replace key slot old hslot =>
    rw [slotsOf_concat he rfl, booked_concat he rfl, booked_concat he rfl]
    split
    · next hk =>
      obtain ⟨j, hj⟩ := hl.current (slotOf_congr m hk ▸ hslot)
      have hne : booked Entry.lookup? k es ≠ [] := List.ne_nil_of_mem hj
      rw [Finset.card_insert_of_notMem (hnew k), h k, if_neg hne, if_neg (by simp),
        List.length_append, List.length_singleton, Nat.add_assoc]
    · exact h k

end Manager

end LanguageHub
