import LanguageHub.Proofs.Manager.Owners
import LanguageHub.Proofs.Manager.SingleFlight
import LanguageHub.Proofs.Path.Keys
import Mathlib.Data.List.Pairwise

/-!
# Every document has one owner at most

Of the sessions of the table whose root contains a path, one has the document open while another
has not, or its root is deeper, or its language comes first. Here it is shown that **no two of them
are alike in all three** (`Manager.Owns.unique`): roots of one depth that contain one path have one
key for each language, and a table has no key twice. So the owner of a document is the session that
no other one outranks, and it does not matter in which order the table is gone through.

What a search finds is this owner (`Manager.lookup_maximal`). The sessions are asked one after the
other, while other tasks go on, and each of them answers with what is in its map of documents; if
no session opens or closes the document meanwhile, the candidates in the end are the sessions of
the table as they were in the beginning (`Manager.Ranks`).
-/

namespace LanguageHub

open LanguageHub.Path

/-- What a search ends with: the action goes on in the session that was found, or there is none. -/
def RoutedAction.onward (action : RoutedAction) (path : Path) (uri : Uri) : Option Nat → Task
  | some i => .routed action (.running i (Manager.RoutedAction.operation uri action))
  | none => .fail (.sessionNotFound path)

/-- **A question whether a document is open**, when nobody is before it at the map of documents: it
comes to the map, has it, and answers, and the session is as it was. -/
theorem Session.exists_stepDocument_query {s : Session} (n : Nat) (uri : Uri)
    (hq : s.documentQueue = []) :
    ∃ x : Session,
      s.stepDocument n (.query uri) .begin = some (x, .document (.query uri) .queued, []) ∧
      x.stepDocument n (.query uri) .queued = some (x, .document (.query uri) .locked, []) ∧
      x.stepDocument n (.query uri) .locked =
        some (s, .returned (.ok (.flag (s.documents.version? uri.text).isSome)), []) := by
  refine ⟨{ s with documentQueue := [n] }, ?_, ?_, ?_⟩
  · simp [Session.stepDocument, hq]
  · simp [Session.stepDocument]
  · have hback : ({ s with documentQueue := [n] } : Session).unlock = s := by
      obtain ⟨⟩ := s
      cases hq
      rfl
    simp [Session.stepDocument, Session.stepLocked, hback]

namespace Manager

variable {env : ManagerEnvironment} {sc sc' : Scene} {e : Event} {m m' : Manager}
  {n i j now : Nat} {t t' : Task} {path : Path} {uri : Uri} {action : RoutedAction}
  {stage : RoutedStage} {op op' : Operation} {r : Nat → Candidate} {all rest : List Nat}

/-! ### The owner of a document -/

/-- **A table that is in order**: its keys are different ones, their roots are absolute and normal,
and a session in it was made for its key. -/
structure Keyed (m : Manager) : Prop where
  distinct : m.table.Pairwise fun x y => x.1.same y.1 = false
  normal : ∀ x ∈ m.table, x.1.root.isAbsolute = true ∧ x.1.root.normalize = x.1.root
  own : ∀ x ∈ m.table, ∀ i, m.sessionIn x.2 = some i →
    ∃ s, m.sessions[i]? = some s ∧ s.key = x.1

/-- A session of the table whose root contains a path. -/
def Contains (m : Manager) (path : Path) (i : Nat) : Prop :=
  ∃ x ∈ m.table, path.within x.1.root = true ∧ m.sessionIn x.2 = some i

/-- **A session outranks another one** for a document: it has the document open and the other one
has not, or they do not differ in this and it has the deeper root, or roots of one depth and the
smaller language. -/
def Outranks (m : Manager) (uri : Uri) (i j : Nat) : Prop :=
  (m.HasOpen i uri ∧ ¬ m.HasOpen j uri) ∨ ((m.HasOpen i uri ↔ m.HasOpen j uri) ∧
    ((m.sessionAt j).key.depth < (m.sessionAt i).key.depth ∨
      ((m.sessionAt i).key.depth = (m.sessionAt j).key.depth ∧
        (m.sessionAt i).key.language < (m.sessionAt j).key.language)))

/-- **The owner of a document.** -/
structure Owns (m : Manager) (path : Path) (uri : Uri) (i : Nat) : Prop where
  contains : m.Contains path i
  first : ∀ j, m.Contains path j → ¬ m.Outranks uri j i

theorem mem_owners_iff : i ∈ m.owners path ↔ m.Contains path i := by
  simp only [owners, Contains, List.mem_filterMap]
  constructor
  · rintro ⟨x, hx, hi⟩
    split at hi
    · next hw => exact ⟨x, hx, hw, hi⟩
    · cases hi
  · rintro ⟨x, hx, hw, hi⟩
    exact ⟨x, hx, by rw [if_pos hw, hi]⟩

/-- The candidate that a session is. -/
def rated (m : Manager) (uri : Uri) (i : Nat) : Candidate :=
  m.candidate i ((m.sessionAt i).documents.version? uri.text).isSome

theorem rated_eq (m : Manager) (uri : Uri) (i : Nat) : m.rated uri i =
    ⟨i, ((m.sessionAt i).documents.version? uri.text).isSome, (m.sessionAt i).key.depth,
      (m.sessionAt i).key.language⟩ := by
  unfold rated candidate sessionAt
  cases m.sessions[i]? <;> rfl

/-- A session that is outranked is not preferred. -/
theorem outranks_iff : m.Outranks uri i j ↔ ¬ (m.rated uri j).before (m.rated uri i) = true := by
  rw [Candidate.before_iff, rated_eq, rated_eq, Outranks, HasOpen, HasOpen, ← String.not_le]
  dsimp only
  -- which of the two has the document open
  cases ((m.sessionAt i).documents.version? uri.text).isSome <;>
    cases ((m.sessionAt j).documents.version? uri.text).isSome <;>
    simp <;> grind

/-- Candidates that are preferred to each other are alike. -/
theorem Candidate.eq_of_before {a b : Candidate} (h : a.before b = true) (h' : b.before a = true) :
    a.isOpen = b.isOpen ∧ a.depth = b.depth ∧ a.language = b.language := by
  rw [before_iff] at h h'
  rcases h with ⟨ha, hb⟩ | ⟨ho, hd⟩
  · rcases h' with ⟨hb', -⟩ | ⟨ho', -⟩
    · rw [hb] at hb'
      cases hb'
    · rw [ha, hb] at ho'
      cases ho'
  · rcases h' with ⟨hb', ha'⟩ | ⟨-, hd'⟩
    · rw [ho, hb'] at ha'
      cases ha'
    · rcases hd with hlt | ⟨heq, hl⟩
      · rcases hd' with hlt' | ⟨heq', -⟩ <;> omega
      · rcases hd' with hlt' | ⟨-, hl'⟩
        · omega
        · exact ⟨ho, heq, String.le_antisymm hl hl'⟩

/-- **What is chosen is preferred to everything else**, and something is chosen if there is
anything. -/
theorem choose_eq_some {known : List Candidate} (h : choose known = some i) :
    ∃ c ∈ known, c.session = i ∧ ∀ d ∈ known, c.before d = true := by
  obtain ⟨c, hc, rfl⟩ := Option.map_eq_some_iff.mp h
  have hsorted := List.pairwise_mergeSort Candidate.before_trans Candidate.before_total known
  refine ⟨c, List.mem_mergeSort.mp (List.mem_of_head? hc), rfl, fun d hd => ?_⟩
  have hd : d ∈ known.mergeSort Candidate.before := List.mem_mergeSort.mpr hd
  obtain ⟨rest, hrest⟩ := List.head?_eq_some_iff.mp hc
  rw [hrest] at hd hsorted
  rcases List.mem_cons.mp hd with rfl | hd
  · simpa using Candidate.before_total d d
  · exact List.rel_of_pairwise_cons hsorted hd

theorem choose_eq_none_iff {known : List Candidate} : choose known = none ↔ known = [] := by
  rw [choose, Option.map_eq_none_iff, List.head?_eq_none_iff, ← List.length_eq_zero_iff,
    List.length_mergeSort, List.length_eq_zero_iff]

instance : Std.Symm fun x y : SessionKey × Nat => x.1.same y.1 = false :=
  ⟨fun x y hxy => by rwa [SessionKey.same_comm]⟩

namespace Keyed

/-- A session whose root contains a path has the key under which it is found. -/
theorem key_of_contains (h : m.Keyed) (hi : m.Contains path i) :
    ∃ x ∈ m.table, path.within x.1.root = true ∧ m.sessionIn x.2 = some i ∧
      (m.sessionAt i).key = x.1 := by
  obtain ⟨x, hx, hw, hi⟩ := hi
  obtain ⟨s, hs, hk⟩ := h.own x hx i hi
  exact ⟨x, hx, hw, hi, by rw [sessionAt_eq hs, hk]⟩

theorem names (h : m.Keyed) {x : SessionKey × Nat} (hx : x ∈ m.table) :
    ∃ names, (∀ b ∈ names, IsName b) ∧ x.1.root = ofNames names := by
  obtain ⟨habs, hnormal⟩ := h.normal x hx
  rw [← hnormal]
  exact exists_names_normalize habs

/-- **Two sessions whose roots contain a path differ** in depth or in language. -/
theorem eq_of_alike (h : m.Keyed) (hi : m.Contains path i) (hj : m.Contains path j)
    (hdepth : (m.sessionAt i).key.depth = (m.sessionAt j).key.depth)
    (hlanguage : (m.sessionAt i).key.language = (m.sessionAt j).key.language) : i = j := by
  obtain ⟨x, hx, hwx, hix, hkx⟩ := h.key_of_contains hi
  obtain ⟨y, hy, hwy, hjy, hky⟩ := h.key_of_contains hj
  obtain ⟨a, ha, hroot⟩ := h.names hx
  obtain ⟨b, hb, hroot'⟩ := h.names hy
  have hsame : x.1.same y.1 = true := by
    rw [hkx, hky, SessionKey.depth, SessionKey.depth, hroot, hroot'] at hdepth
    rw [hkx, hky] at hlanguage
    rw [hroot] at hwx
    rw [hroot'] at hwy
    have hsame : (SessionKey.mk (ofNames a) x.1.language).same ⟨ofNames b, x.1.language⟩ = true :=
      SessionKey.same_of_within ha hb hwx hwy hdepth
    have hkey : SessionKey.mk y.1.root x.1.language = y.1 := by rw [hlanguage]
    rw [← hroot, ← hroot', hkey] at hsame
    exact hsame
  -- the table has no key twice
  have hxy : x = y := by
    by_contra hne
    rw [h.distinct.forall hx hy hne] at hsame
    cases hsame
  rw [hxy, hjy] at hix
  exact (Option.some.inj hix).symm

/-- **A document has one owner at most.** -/
theorem owns_unique (h : m.Keyed) (hi : m.Owns path uri i) (hj : m.Owns path uri j) : i = j := by
  have hij := hi.first j hj.contains
  have hji := hj.first i hi.contains
  rw [outranks_iff, not_not] at hij hji
  obtain ⟨-, hdepth, hlanguage⟩ := Candidate.eq_of_before hij hji
  simp only [rated_eq] at hdepth hlanguage
  exact h.eq_of_alike hi.contains hj.contains hdepth hlanguage

/-- **The owner is chosen** among the sessions whose root contains the path. -/
theorem choose_owners_iff (h : m.Keyed) :
    choose ((m.owners path).map (m.rated uri)) = some i ↔ m.Owns path uri i := by
  have hchosen : ∀ i, choose ((m.owners path).map (m.rated uri)) = some i →
      m.Owns path uri i := by
    intro i hi
    obtain ⟨c, hc, rfl, hfirst⟩ := choose_eq_some hi
    obtain ⟨k, hk, rfl⟩ := List.mem_map.mp hc
    have hsession : (m.rated uri k).session = k := by rw [rated_eq]
    rw [hsession]
    refine ⟨mem_owners_iff.mp hk, fun j hj ho => ?_⟩
    exact outranks_iff.mp ho (hfirst _ (List.mem_map_of_mem (mem_owners_iff.mpr hj)))
  refine ⟨hchosen i, fun hi => ?_⟩
  rcases hc : choose ((m.owners path).map (m.rated uri)) with _ | j
  · have hmem := List.mem_map_of_mem (f := m.rated uri) (mem_owners_iff.mpr hi.contains)
    rw [choose_eq_none_iff.mp hc] at hmem
    cases hmem
  · rw [h.owns_unique (hchosen j hc) hi]

end Keyed

/-! ### What a search finds -/

/-- **A session is asked whether it has a document open**, and it says `b` if it has answered. -/
inductive Inquires (uri : Uri) (b : Bool) : Operation → Prop
  | under {st : DocumentStage} : (∀ frame after, st ≠ .sending frame after) →
      Inquires uri b (.document (.query uri) st)
  | told : Inquires uri b (.returned (.ok (.flag b)))

/-- **A search among the sessions `all`**, each of which is the candidate that `r` says: those that
have been asked are known, one is asked, and the others follow. -/
inductive Ranks (path : Path) (uri : Uri) (r : Nat → Candidate) (all : List Nat) :
    RoutedStage → Prop
  | asking {known rest : List Nat} {i : Nat} {op : Operation} : all = known ++ i :: rest →
      Inquires uri (r i).isOpen op → Ranks path uri r all (.asking path uri (known.map r) i op rest)
  | choosing : Ranks path uri r all (.choosing path uri (all.map r))

/-- **A step that neither opens nor closes a document** in any session. -/
def Steady (env : ManagerEnvironment) (uri : Uri) (sc : Scene) (e : Event) (sc' : Scene) : Prop :=
  Step env sc e sc' ∧ ∀ i, sc'.manager.HasOpen i uri ↔ sc.manager.HasOpen i uri

/-- The search begins, or it goes on. -/
theorem ranks_askNext (known : List Nat) (h : all = known ++ rest) :
    Ranks path uri r all (askNext path uri (known.map r) rest) := by
  rcases rest with _ | ⟨i, rest⟩
  · rw [List.append_nil] at h
    subst h
    exact .choosing
  · exact .asking h (.under fun _ _ hc => by cases hc)

theorem Ranks.seeks (h : Ranks path uri r all stage) : stage.seeks = true := by
  cases h <;> rfl

theorem Inquires.step {b : Bool} (h : Inquires uri b op) (hb : b = true ↔ m.HasOpen i uri)
    (hs : SessionStep env now n m i op m' op') : Inquires uri b op' := by
  cases h with
  | under hst =>
    rcases hs.asked hst with ⟨st', rfl, hst'⟩ | ⟨b', rfl, hb', -⟩
    · exact .under hst'
    · obtain rfl : b = b' := Bool.eq_iff_iff.mpr (hb.trans hb'.symm)
      exact .told
  | told => cases hs.result?_eq_none

/-- **A stage of the search keeps to it, or it ends with the choice.** -/
theorem Ranks.step (h : Ranks path uri r all stage) (hr : ∀ i ∈ all, m.rated uri i = r i)
    (hs : RoutedStep env now n action m stage m' t) :
    (∃ stage', t = .routed action stage' ∧ Ranks path uri r all stage') ∨
      t = action.onward path uri (choose (all.map r)) := by
  cases h with
  | @asking known rest i op hall hop =>
    have hri : m.rated uri i = r i := hr i (by simp [hall])
    have hopen : (r i).isOpen = true ↔ m.HasOpen i uri := by
      rw [← hri, rated_eq]
      exact Iff.rfl
    cases hs with
    | ask _ _ _ _ _ hs => exact .inl ⟨_, rfl, .asking hall (hop.step hopen hs)⟩
    | told =>
      cases hop with
      | told =>
        refine .inl ⟨_, rfl, ?_⟩
        have hcand : m.candidate i (foundOpen (.ok (.flag (r i).isOpen))) = r i := by
          rw [← hri]
          rfl
        rw [hcand, ← List.map_singleton, ← List.map_append]
        exact ranks_askNext _ (by rw [hall, List.append_assoc, List.singleton_append])
  | choosing =>
    cases hs with
    | choose _ _ _ j hj => exact .inr (by rw [hj]; rfl)
    | ownerless _ _ _ hnone => exact .inr (by rw [hnone]; rfl)

/-- **Where a search is**: it goes on, or it is over. -/
inductive Searching (path : Path) (uri : Uri) (r : Nat → Candidate) (all : List Nat)
    (action : RoutedAction) : Task → Prop
  | search {stage : RoutedStage} : Ranks path uri r all stage →
      Searching path uri r all action (.routed action stage)
  | running (j : Nat) (op : Operation) :
      Searching path uri r all action (.routed action (.running j op))
  | returned (x : Except LspError Answer) : Searching path uri r all action (.returned x)

theorem Searching.step (h : Searching path uri r all action t) (hn : sc.tasks[n]? = some t)
    (hr : ∀ i ∈ all, sc.manager.rated uri i = r i) (hs : Step env sc e sc') :
    ∃ t', sc'.tasks[n]? = some t' ∧ Searching path uri r all action t' := by
  obtain ⟨t', hn', rfl | ⟨-, ht⟩⟩ := hs.task hn
  · exact ⟨_, hn', h⟩
  · refine ⟨t', hn', ?_⟩
    generalize sc'.manager = m' at ht
    cases h with
    | search hsearch =>
      rcases hsearch.step hr ht.routedStep with ⟨stage', rfl, h'⟩ | rfl
      · exact .search h'
      · cases choose (all.map r) with
        | some j => exact .running j _
        | none => exact .returned _
    | running j op =>
      rcases ht.routedStep with _ | _ | _ | _ | _ | _ | _ | _
      · exact .running j _
      · exact .returned _
    | returned => cases ht

/-- **A session stays the candidate that it is** while nobody opens or closes the document. -/
theorem Steady.rated (hs : Steady env uri sc e sc') (hi : ∃ s, sc.manager.sessions[i]? = some s) :
    sc'.manager.rated uri i = sc.manager.rated uri i := by
  obtain ⟨s, hsi⟩ := hi
  obtain ⟨s', hsi', hl⟩ := hs.1.evolves i s hsi
  have hopen := hs.2 i
  rw [HasOpen, HasOpen, ← Bool.eq_iff_iff] at hopen
  rw [rated_eq, rated_eq, hopen, sessionAt_eq hsi, sessionAt_eq hsi', hl.key]

/-- A step of one task only. -/
def Alone (env : ManagerEnvironment) (n : Nat) (sc : Scene) (e : Event) (sc' : Scene) : Prop :=
  Step env sc e sc' ∧ ∃ t t', e = .advanced n t t'

/-- The task goes on by a stage. -/
theorem exists_alone (env : ManagerEnvironment) {log : List LogEntry}
    (hn : sc.tasks[n]? = some t) (h : sc.manager.step env sc.now n 0 t = some (m', t', log)) :
    ∃ sc', Run (Alone env n) sc sc' ∧ sc'.tasks[n]? = some t' ∧ sc'.manager = m' :=
  ⟨_, .single ⟨_, .advance n 0 t hn h, _, _, rfl⟩, getElem?_set_of_getElem? hn t', rfl⟩

/-- The session that is asked goes on by a stage. -/
theorem exists_asked (env : ManagerEnvironment) {s s' : Session} {known : List Candidate}
    {st : DocumentStage} {log : List LogEntry}
    (hn : sc.tasks[n]? = some (.routed action
      (.asking path uri known i (.document (.query uri) st) rest)))
    (hi : sc.manager.sessions[i]? = some s)
    (hs : s.stepDocument n (.query uri) st = some (s', op', log)) :
    ∃ sc', Run (Alone env n) sc sc' ∧
      sc'.tasks[n]? = some (.routed action (.asking path uri known i op' rest)) ∧
      sc'.manager = sc.manager.setSession i s' := by
  have hstep : sc.manager.step env sc.now n 0
      (.routed action (.asking path uri known i (.document (.query uri) st) rest)) =
      some (sc.manager.setSession i s',
        .routed action (.asking path uri known i op' rest), log) := by
    simp [Manager.step, stepRouted, stepSession, hi, Session.stepOperation, hs]
  exact exists_alone env hn hstep

theorem setSession_setSession (m : Manager) (i : Nat) (s s' : Session) :
    (m.setSession i s).setSession i s' = m.setSession i s' := by
  simp [setSession]

theorem setSession_self {s : Session} (hi : m.sessions[i]? = some s) : m.setSession i s = m := by
  obtain ⟨hlt, rfl⟩ := List.getElem?_eq_some_iff.mp hi
  simp [setSession]

/-- A session that nobody else asks for its documents answers, and is as it was. -/
theorem exists_told (env : ManagerEnvironment) {s : Session} {known : List Candidate}
    (hn : sc.tasks[n]? = some (.routed action
      (.asking path uri known i (.startDocument (.query uri)) rest)))
    (hi : sc.manager.sessions[i]? = some s) (hq : s.documentQueue = []) :
    ∃ sc', Run (Alone env n) sc sc' ∧ sc'.manager = sc.manager ∧ sc'.tasks[n]? =
      some (.routed action (askNext path uri (known ++ [sc.manager.rated uri i]) rest)) := by
  obtain ⟨hlt, -⟩ := List.getElem?_eq_some_iff.mp hi
  have hset : ∀ x : Session, (sc.manager.setSession i x).sessions[i]? = some x := fun x =>
    List.getElem?_set_self hlt
  obtain ⟨x, hcome, hlock, hanswer⟩ := Session.exists_stepDocument_query n uri hq
  obtain ⟨sc₁, r₁, hn₁, hm₁⟩ := exists_asked env hn hi hcome
  obtain ⟨sc₂, r₂, hn₂, hm₂⟩ := exists_asked env hn₁ (by rw [hm₁]; exact hset _) hlock
  rw [hm₁, setSession_setSession] at hm₂
  obtain ⟨sc₃, r₃, hn₃, hm₃⟩ := exists_asked env hn₂ (by rw [hm₂]; exact hset _) hanswer
  rw [hm₂, setSession_setSession, setSession_self hi] at hm₃
  -- the answer is heard
  obtain ⟨sc₄, r₄, hn₄, hm₄⟩ := exists_alone env hn₃ rfl
  refine ⟨sc₄, ((r₁.trans r₂).trans r₃).trans r₄, hm₄.trans hm₃, ?_⟩
  rw [hn₄, hm₃, rated, sessionAt_eq hi]

/-- **A search that goes on alone comes to its choice**, if nobody is before it at the documents of
the sessions that it asks. -/
theorem exists_choosing (env : ManagerEnvironment) (known : List Candidate)
    (hfree : ∀ i ∈ rest, ∃ s, sc.manager.sessions[i]? = some s ∧ s.documentQueue = [])
    (hn : sc.tasks[n]? = some (.routed action (askNext path uri known rest))) :
    ∃ sc', Run (Alone env n) sc sc' ∧ sc'.tasks[n]? =
      some (.routed action (.choosing path uri (known ++ rest.map (sc.manager.rated uri)))) := by
  induction rest generalizing known sc with
  | nil => exact ⟨sc, .refl, by rw [List.map_nil, List.append_nil]; exact hn⟩
  | cons i rest ih =>
    obtain ⟨s, hi, hq⟩ := hfree i List.mem_cons_self
    obtain ⟨sc₁, r₁, hm, hn₁⟩ := exists_told env hn hi hq
    have hfree₁ : ∀ k ∈ rest, ∃ s, sc₁.manager.sessions[k]? = some s ∧ s.documentQueue = [] :=
      fun k hk => hm ▸ hfree k (List.mem_cons_of_mem _ hk)
    obtain ⟨sc', r', hn'⟩ := ih _ hfree₁ hn₁
    refine ⟨sc', r₁.trans r', ?_⟩
    rw [hn', hm, List.map_cons, List.append_assoc, List.singleton_append]

/-- The choice is the end of a search. -/
theorem exists_onward {known : List Candidate}
    (hn : sc.tasks[n]? = some (.routed action (.choosing path uri known))) :
    ∃ sc', Run (Alone env n) sc sc' ∧
      sc'.tasks[n]? = some (action.onward path uri (choose known)) := by
  have hstep : sc.manager.step env sc.now n 0 (.routed action (.choosing path uri known)) =
      some (sc.manager, action.onward path uri (choose known), []) := by
    simp only [Manager.step, stepRouted]
    cases choose known <;> rfl
  obtain ⟨sc', r, hn', -⟩ := exists_alone env hn hstep
  exact ⟨sc', r, hn'⟩

/-- The same manager with its table in another order. -/
structure Reordered (m m' : Manager) : Prop where
  table : m'.table.Perm m.table
  slots : m'.slots = m.slots
  sessions : m'.sessions = m.sessions

/-- **What a lookup finds**, as task `n` that is about to begin. It does nothing but look until it
ends with `found`, whatever else happens meanwhile that does not open or close the document; and
it does end, if nobody else is at the documents of the sessions that it asks. -/
structure Finds (env : ManagerEnvironment) (sc : Scene) (n : Nat) (action : RoutedAction)
    (path : Path) (uri : Uri) (found : Option Nat) : Prop where
  only : ∀ t sc₁, Step env sc (.advanced n (.routed action (.begin path)) t) sc₁ →
    (∃ stage, t = .routed action stage ∧ stage.seeks = true) ∧
      ∀ (sc₂ : Scene) (stage : RoutedStage), Run (Steady env uri) sc₁ sc₂ →
        sc₂.tasks[n]? = some (.routed action stage) → stage.seeks = true →
        ∀ t' sc₃, Step env sc₂ (.advanced n (.routed action stage) t') sc₃ →
          (∃ stage', t' = .routed action stage' ∧ stage'.seeks = true) ∨
            t' = action.onward (path.absolute env.host.directory) uri found
  ends : (∀ i, sc.manager.Contains (path.absolute env.host.directory) i →
      (sc.manager.sessionAt i).documentQueue = []) →
    ∃ sc', Run (Alone env n) sc sc' ∧ sc'.tasks[n]? =
      some (action.onward (path.absolute env.host.directory) uri found)

/-- **What a search knows stays true** as long as nobody opens or closes the document. -/
theorem Run.ranks (run : Run (Steady env uri) sc sc')
    (hex : ∀ i ∈ all, ∃ s, sc.manager.sessions[i]? = some s)
    (hr : ∀ i ∈ all, sc.manager.rated uri i = r i)
    (hn : ∃ t, sc.tasks[n]? = some t ∧ Searching path uri r all action t)
    (hlast : sc'.tasks[n]? = some (.routed action stage)) (hseeks : stage.seeks = true) :
    (∀ i ∈ all, sc'.manager.rated uri i = r i) ∧ Ranks path uri r all stage := by
  have hall : (∀ i ∈ all, ∃ s, sc'.manager.sessions[i]? = some s) ∧
      (∀ i ∈ all, sc'.manager.rated uri i = r i) ∧
      ∃ t, sc'.tasks[n]? = some t ∧ Searching path uri r all action t := by
    refine run.invariant (I := fun sc => (∀ i ∈ all, ∃ s, sc.manager.sessions[i]? = some s) ∧
      (∀ i ∈ all, sc.manager.rated uri i = r i) ∧
      ∃ t, sc.tasks[n]? = some t ∧ Searching path uri r all action t) ?_ ⟨hex, hr, hn⟩
    rintro sc e sc' ⟨hex, hr, t, hn, ht⟩ hs
    exact ⟨fun i hi => hs.1.evolves.exists_session (hex i hi),
      fun i hi => (hs.rated (hex i hi)).trans (hr i hi), ht.step hn hr hs.1⟩
  obtain ⟨-, hr', t, hn', ht⟩ := hall
  rw [hlast] at hn'
  obtain rfl := Option.some.inj hn'
  refine ⟨hr', ?_⟩
  cases ht with
  | search hsearch => exact hsearch
  | running => cases hseeks

/-- **A search finds the choice** among the sessions whose root contains the path. -/
theorem Keyed.finds (h : sc.manager.Keyed)
    (huri : (path.absolute env.host.directory).toUri? env.host.directory = some uri)
    (hn : sc.tasks[n]? = some (.routed action (.begin path))) :
    Finds env sc n action path uri (choose ((sc.manager.owners
      (path.absolute env.host.directory)).map (sc.manager.rated uri))) := by
  have hex : ∀ i ∈ sc.manager.owners (path.absolute env.host.directory),
      ∃ s, sc.manager.sessions[i]? = some s := by
    intro i hi
    obtain ⟨x, hx, -, hin⟩ := mem_owners_iff.mp hi
    obtain ⟨s, hs, -⟩ := h.own x hx i hin
    exact ⟨s, hs⟩
  constructor
  · intro t sc₁ hs
    obtain ⟨m', -, ht, rfl⟩ := hs.of_advanced
    cases ht.routedStep with
    | nameless _ hnone =>
      rw [huri] at hnone
      cases hnone
    | begin _ u hu =>
      obtain rfl := Option.some.inj (huri.symm.trans hu)
      have hranks : Ranks (path.absolute env.host.directory) uri (sc.manager.rated uri)
          (sc.manager.owners (path.absolute env.host.directory))
          (askNext (path.absolute env.host.directory) uri []
            (sc.manager.owners (path.absolute env.host.directory))) := ranks_askNext [] rfl
      refine ⟨⟨_, rfl, hranks.seeks⟩, fun sc₂ stage run hlast hseeks t' sc₃ hs₃ => ?_⟩
      obtain ⟨hr, hstage⟩ := Run.ranks run hex (fun _ _ => rfl)
        ⟨_, getElem?_set_of_getElem? hn _, .search hranks⟩ hlast hseeks
      obtain ⟨m₃, -, ht₃, rfl⟩ := hs₃.of_advanced
      rcases hstage.step hr ht₃.routedStep with ⟨stage', rfl, h'⟩ | hend
      · exact .inl ⟨stage', rfl, h'.seeks⟩
      · exact .inr hend
  · intro hfree
    obtain ⟨sc₁, r₁, hn₁, hm₁⟩ := exists_alone env hn (by
      simp only [Manager.step, stepRouted, huri]
      rfl)
    obtain ⟨sc₂, r₂, hn₂⟩ := exists_choosing env [] (fun i hi => by
      rw [hm₁]
      obtain ⟨s, hs⟩ := hex i hi
      have hq := hfree i (mem_owners_iff.mp hi)
      rw [sessionAt_eq hs] at hq
      exact ⟨s, hs, hq⟩) hn₁
    rw [List.nil_append, hm₁] at hn₂
    obtain ⟨sc₃, r₃, hn₃⟩ := exists_onward hn₂
    exact ⟨sc₃, (r₁.trans r₂).trans r₃, hn₃⟩

namespace Reordered

variable (hm : m.Reordered m')
include hm

theorem keyed (h : m.Keyed) : m'.Keyed where
  distinct := hm.table.symm.pairwise h.distinct fun hxy => by rwa [SessionKey.same_comm]
  normal := fun x hx => h.normal x (hm.table.mem_iff.mp hx)
  own := by
    intro x hx i hi
    rw [Manager.sessionIn, hm.slots] at hi
    rw [hm.sessions]
    exact h.own x (hm.table.mem_iff.mp hx) i hi

theorem contains_iff : m'.Contains path i ↔ m.Contains path i := by
  simp only [Contains, hm.table.mem_iff, Manager.sessionIn, hm.slots]

theorem owns_iff : m'.Owns path uri i ↔ m.Owns path uri i := by
  have hat : m'.sessionAt = m.sessionAt := by
    funext i
    rw [sessionAt, sessionAt, hm.sessions]
  have hout : ∀ j, m'.Outranks uri j i ↔ m.Outranks uri j i := fun j => by
    simp only [Outranks, HasOpen, hat]
  constructor
  · rintro ⟨hc, hfirst⟩
    exact ⟨hm.contains_iff.mp hc, fun j hj ho =>
      hfirst j (hm.contains_iff.mpr hj) ((hout j).mpr ho)⟩
  · rintro ⟨hc, hfirst⟩
    exact ⟨hm.contains_iff.mpr hc, fun j hj ho =>
      hfirst j (hm.contains_iff.mp hj) ((hout j).mp ho)⟩

end Reordered

/-- **A lookup finds the owner of the document**, and there is only one. In a table whose keys are
different ones with absolute and normal roots, and whose sessions were made for their keys, at most
one of the sessions whose root contains a path is outranked by none of the others. This one is
found, in whatever order the table is gone through and whichever documents the sessions have open,
and none is found if and only if no root contains the path. -/
theorem lookup_maximal (h : m.Keyed)
    (huri : (path.absolute env.host.directory).toUri? env.host.directory = some uri) :
    ∃ found : Option Nat,
      (∀ i, found = some i ↔ m.Owns (path.absolute env.host.directory) uri i) ∧
      (found = none ↔ ∀ i, ¬ m.Contains (path.absolute env.host.directory) i) ∧
      ∀ (sc : Scene) (n : Nat) (action : RoutedAction), m.Reordered sc.manager →
        sc.tasks[n]? = some (.routed action (.begin path)) →
        Finds env sc n action path uri found := by
  refine ⟨choose ((m.owners (path.absolute env.host.directory)).map (m.rated uri)),
    fun i => h.choose_owners_iff, ?_, fun sc n action hm hn => ?_⟩
  · rw [choose_eq_none_iff, List.map_eq_nil_iff, List.eq_nil_iff_forall_not_mem]
    simp only [mem_owners_iff]
  · have hfinds := (hm.keyed h).finds huri hn
    -- whatever the order, the owner is the same one
    have hsame : choose ((sc.manager.owners (path.absolute env.host.directory)).map
        (sc.manager.rated uri)) =
        choose ((m.owners (path.absolute env.host.directory)).map (m.rated uri)) :=
      Option.ext fun i => by
        rw [(hm.keyed h).choose_owners_iff, h.choose_owners_iff, hm.owns_iff]
    rwa [hsame] at hfinds

/-- A manager with a session for the root `/w`, and one for the root `/w/a` in it. -/
def nested : Manager :=
  { Manager.start .empty with
    sessions := [.launched ⟨⟨[0x2F, 0x77]⟩, "rust"⟩ "analyzer" .standard none,
      .launched ⟨⟨[0x2F, 0x77, 0x2F, 0x61]⟩, "rust"⟩ "analyzer" .standard none]
    slots := [⟨some 0, []⟩, ⟨some 1, []⟩]
    table := [(⟨⟨[0x2F, 0x77]⟩, "rust"⟩, 0), (⟨⟨[0x2F, 0x77, 0x2F, 0x61]⟩, "rust"⟩, 1)] }

theorem nested_keyed : nested.Keyed where
  distinct := by decide +kernel
  normal := by decide +kernel
  own := by
    have hall : ∀ x ∈ nested.table, ((nested.sessionIn x.2).all fun i =>
        (nested.sessions[i]?).any (·.key == x.1)) = true := by decide +kernel
    intro x hx i hi
    have hkey := hall x hx
    rw [hi, Option.all_some] at hkey
    obtain ⟨s, hs, hk⟩ := (Option.any_eq_true _ _).mp hkey
    exact ⟨s, hs, beq_iff_eq.mp hk⟩

/-- A document `/w/a/b`. -/
def inner : Path := ⟨[0x2F, 0x77, 0x2F, 0x61, 0x2F, 0x62]⟩

/-- The document lies below both roots, and the session of the inner one is its owner. -/
theorem lookup_maximal_nested : ∃ uri,
    (inner.absolute barren.host.directory).toUri? barren.host.directory = some uri ∧
    nested.Contains (inner.absolute barren.host.directory) 0 ∧
    ∀ (sc : Scene) (n : Nat) (action : RoutedAction), nested.Reordered sc.manager →
      sc.tasks[n]? = some (.routed action (.begin inner)) →
      Finds barren sc n action inner uri (some 1) := by
  have huri : ((inner.absolute barren.host.directory).toUri?
      barren.host.directory).isSome = true := by decide +kernel
  obtain ⟨uri, huri⟩ := Option.isSome_iff_exists.mp huri
  obtain ⟨found, howns, -, hfinds⟩ := lookup_maximal nested_keyed huri
  have hchoose : choose ((nested.owners (inner.absolute barren.host.directory)).map
      (nested.rated uri)) = some 1 := by
    have howners : nested.owners (inner.absolute barren.host.directory) = [0, 1] := by
      decide +kernel
    have hdepth : (Path.mk [0x2F, 0x77]).depth = 2 ∧
        (Path.mk [0x2F, 0x77, 0x2F, 0x61]).depth = 3 := by decide +kernel
    have hrated : [0, 1].map (nested.rated uri) =
        [⟨0, false, 2, "rust"⟩, ⟨1, false, 3, "rust"⟩] := by
      rw [← hdepth.1, ← hdepth.2]
      rfl
    rw [howners, hrated]
    simp [choose, List.mergeSort, List.MergeSort.Internal.splitInTwo, Candidate.before]
  have hfound : found = some 1 := (howns 1).mpr (nested_keyed.choose_owners_iff.mp hchoose)
  rw [hfound] at hfinds
  exact ⟨uri, huri, mem_owners_iff.mp (by decide +kernel), hfinds⟩

end Manager

end LanguageHub
