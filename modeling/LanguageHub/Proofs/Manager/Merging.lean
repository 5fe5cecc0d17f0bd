import LanguageHub.Proofs.Manager.Operations
import LanguageHub.Proofs.Manager.Search
import Mathlib.Data.List.Nodup

/-!
# Symbols of all sessions

A search for symbols asks every session that is ready when it begins, each once, for the sessions of
the table are different ones (`Manager.Run.nodup_listed`). What passes between the search and the
sessions is kept beside a run (`Manager.Exchanged`), and throughout the search each of its queries
has come as far as what has passed says (`Manager.Merges`). So the search yields **the symbols in
what it has heard**, session by session, whatever else goes on and in whatever order the answers
come (`Manager.search_merges`). It can always come to its end: a query that waits for a place in the
outbox gets one by the writer when the server reads, and one that waits for its answer gives up in
time.

A session that is ready when its query starts, and whose writer has not ended, is not always asked
(`Manager.exists_unasked`). The writer may end before the request comes to the outbox.
-/

namespace LanguageHub

/-- The operation that a task has on a session. -/
def Task.operationOn (i : Nat) (t : Task) : Option Operation :=
  (t.operations.find? (·.1 == i)).map (·.2)

namespace Manager

variable {env : ManagerEnvironment} {sc sc' sc₀ : Scene} {e : Event} {m m' : Manager}
  {key : SessionKey} {n i p slot now id : Nat} {t t' : Task} {s s' : Session}
  {op op' : Operation} {query : String} {cancelAt : Option Nat} {asked : List Nat}
  {x : Nat → Exchange} {log : List LogEntry}

/-! ### The sessions of the table are different ones -/

/-- **No key is twice in the table.** -/
def Distinct (m : Manager) : Prop := m.table.Pairwise fun a b => a.1.same b.1 = false

theorem Distinct.bind (h : Distinct m) (key : SessionKey) (slot : Nat) :
    Distinct (m.bind key slot) := by
  unfold Manager.bind
  split
  · -- the entries keep their keys
    refine List.pairwise_map.mpr (h.imp fun {a b} hab => ?_)
    split <;> split <;> exact hab
  · next hnew =>
    refine List.pairwise_append.mpr ⟨h, List.pairwise_singleton _ _, fun a ha b hb => ?_⟩
    obtain rfl := List.mem_singleton.mp hb
    rw [Bool.eq_false_iff]
    exact fun hk => hnew (List.any_eq_true.mpr ⟨a, ha, hk⟩)

/-- Only its table decides which keys a manager has. -/
theorem Distinct.of_table_eq (h : Distinct m) (ht : m'.table = m.table) : Distinct m' := by
  rw [Distinct, ht]
  exact h

theorem EnsureStep.distinct {language text : String} {stage : EnsureStage}
    (hs : EnsureStep env now id language text m stage m' t') (h : Distinct m) : Distinct m' := by
  cases hs with
  | fresh | replace =>
    have hnew : Distinct m.newSlot.1 := h.of_table_eq rfl
    exact hnew.bind _ _
  | dispose _ _ _ _ hs | greet _ _ _ _ hs | openDocument _ hs =>
    exact h.of_table_eq hs.stirs.table
  | queue => exact h.of_table_eq enterSlot_table
  | leave => exact h.of_table_eq leaveSlot_table
  | abandon => exact List.Pairwise.filter _ (h.of_table_eq leaveSlot_table)
  | _ => exact h.of_table_eq rfl

theorem Step.distinct (hs : Step env sc e sc') (h : Distinct sc.manager) :
    Distinct sc'.manager := by
  rcases e with ⟨n, t, t'⟩ | _
  · obtain ⟨m', -, ht, rfl⟩ := hs.of_advanced
    by_cases hensure : ∃ language text stage, t = .ensure language text stage
    · obtain ⟨language, text, stage, rfl⟩ := hensure
      exact ht.ensureStep.distinct h
    · rcases ht.stirs_or_drains fun l x s hc => hensure ⟨l, x, s, hc⟩ with hm | ⟨-, rfl⟩
      · exact h.of_table_eq hm.table
      · exact List.Pairwise.nil
  · exact h.of_table_eq hs.of_silent.1.table

/-- **No session is twice in the table.** -/
theorem Run.nodup_listed {files : FileTree} (run : Run (Step env) (.start files now) sc) :
    sc.manager.listed.Nodup := by
  have distinct : Distinct sc.manager :=
    run.invariant (I := fun sc => Distinct sc.manager) (fun h hs => hs.distinct h)
      (show Distinct (.start files) from List.Pairwise.nil)
  obtain ⟨κ, tidy⟩ := run.tidy id
  refine List.pairwise_filterMap.mpr (distinct.imp_of_mem fun {a b} ha hb hab i hi j hj hij => ?_)
  subst hij
  -- a session that two slots had in common would have the key of both
  obtain ⟨s, hs, hsa, -⟩ := tidy.filled a.2 i hi
  obtain ⟨s', hs', hsb, -⟩ := tidy.filled b.2 i hj
  obtain rfl := Option.some.inj (hs.symm.trans hs')
  have hsame : a.1.same b.1 = true :=
    SessionKey.same_trans (SessionKey.same_trans (tidy.entry a ha).2 (SessionKey.same_symm hsa))
      (SessionKey.same_trans hsb (SessionKey.same_symm (tidy.entry b hb).2))
  rw [hsame] at hab
  cases hab

/-- The sessions of the table that are ready. -/
def ready (m : Manager) : List Nat := m.listed.filter fun i => m.stateOf i == .ready

/-! ### What passes in a run -/

/-- What passes between a task and a session in a step. -/
def passes (n i : Nat) (sc : Scene) (e : Event) (sc' : Scene) : Exchange :=
  match e with
  | .advanced k t t' =>
    if k = n then
      .ofStage (sc.manager.sessionAt i) (sc'.manager.sessionAt i) (t.operationOn i)
        (t'.operationOn i)
    else .nothing
  | .silent => .nothing

/-- **A run, with what has passed** between a task and every session. -/
inductive Exchanged (env : ManagerEnvironment) (n : Nat) (sc : Scene) :
    (Nat → Exchange) → Scene → Prop
  | refl : Exchanged env n sc (fun _ => .nothing) sc
  | tail {x : Nat → Exchange} {e : Event} {sc' sc'' : Scene} : Exchanged env n sc x sc' →
      Step env sc' e sc'' →
      Exchanged env n sc (fun i => (x i).append (passes n i sc' e sc'')) sc''

/-! ### The queries of a search -/

/-- A search with an operation on each of some sessions. -/
def gathering (query : String) (cancelAt : Option Nat) (asked : List Nat)
    (ops : Nat → Operation) : Task :=
  .symbols query cancelAt (some (asked.map fun i => (i, ops i)))

theorem operationOn_gathering (ops : Nat → Operation) (i : Nat) :
    (gathering query cancelAt asked ops).operationOn i =
      if i ∈ asked then some (ops i) else none := by
  have hfind : ((asked.map fun j => (j, ops j)).find? (·.1 == i)).map (·.2) =
      if i ∈ asked then some (ops i) else none := by
    induction asked with
    | nil => rfl
    | cons j rest ih =>
      rcases eq_or_ne j i with rfl | hne
      · simp
      · simpa [hne, hne.symm] using ih
  exact hfind

/-- What stands for a session is its entry, when no session is asked twice. -/
theorem map_update_of_nodup {β : Type} (hnodup : asked.Nodup) (hp : asked[p]? = some i)
    (f : Nat → β) (y : β) : asked.map (Function.update f i y) = (asked.map f).set p y := by
  obtain ⟨hlt, rfl⟩ := List.getElem?_eq_some_iff.mp hp
  rw [hnodup.map_update, if_pos (List.getElem_mem hlt), hnodup.idxOf_getElem]

/-- **One of the queries goes on**, and the others stay as they are. -/
theorem set_gathering (hnodup : asked.Nodup) (hp : asked[p]? = some i) (ops : Nat → Operation)
    (op : Operation) :
    (asked.map fun j => (j, ops j)).set p (i, op) =
      asked.map fun j => (j, Function.update ops i op j) := by
  rw [← map_update_of_nodup hnodup hp]
  refine List.map_congr_left fun j _ => ?_
  rcases eq_or_ne j i with rfl | hne
  · rw [Function.update_self, Function.update_self]
  · rw [Function.update_of_ne hne, Function.update_of_ne hne]

/-- **How far a search has come**, and what has passed between it and the sessions. -/
inductive Gathers (query : String) (cancelAt : Option Nat) (asked : List Nat)
    (x : Nat → Exchange) : Task → Prop
  | asking (ops : Nat → Operation) :
      (∀ i ∈ asked, (x i).Follows query cancelAt (ops i)) →
      Gathers query cancelAt asked x (gathering query cancelAt asked ops)
  | merged : (∀ i ∈ asked, (x i).Settled query) → Gathers query cancelAt asked x
      (.returned (.ok (.symbols (asked.flatMap fun i => (x i).symbols))))

/-- **What a search and the sessions have to do with each other** at a moment. -/
structure Merges (query : String) (cancelAt : Option Nat) (asked : List Nat) (n : Nat)
    (x : Nat → Exchange) (sc : Scene) : Prop where
  stage : ∃ t, sc.tasks[n]? = some t ∧ Gathers query cancelAt asked x t
  /-- Nothing has passed between the search and other sessions. -/
  others : ∀ i ∉ asked, x i = .nothing
  present : ∀ i ∈ asked, ∃ s, sc.manager.sessions[i]? = some s

theorem Merges.follows (h : Merges query cancelAt asked n x sc) {ops : Nat → Operation}
    (hn : sc.tasks[n]? = some (gathering query cancelAt asked ops)) :
    ∀ i ∈ asked, (x i).Follows query cancelAt (ops i) := by
  obtain ⟨t, ht, hx⟩ := h.stage
  cases hx with
  | asking ops' hops =>
    intro i hi
    have heq := congrArg (Task.operationOn i) (Option.some.inj (hn.symm.trans ht))
    rw [operationOn_gathering, operationOn_gathering, if_pos hi, if_pos hi] at heq
    rw [Option.some.inj heq]
    exact hops i hi
  | merged => cases hn.symm.trans ht

/-- A session gets one request at most. -/
theorem Merges.queued (h : Merges query cancelAt asked n x sc) (hi : i ∈ asked) :
    (x i).queued = [] ∨ ∃ id, (x i).queued = [searchFrame id query] := by
  obtain ⟨t, -, hx⟩ := h.stage
  cases hx with
  | asking _ hops => exact (hops i hi).queued
  | merged hsettled => exact (hsettled i hi).queued

/-- A stage of a search: its result, or a stage of one of its queries. -/
theorem step_gathering (hnodup : asked.Nodup) {ops : Nat → Operation} {branch : Nat}
    (h : m.step env now id branch (gathering query cancelAt asked ops) = some (m', t', log)) :
    ((∀ i ∈ asked, (ops i).result?.isSome = true) ∧ m' = m ∧
      t' = .returned (.ok (.symbols (asked.flatMap fun i => foundBy (i, ops i))))) ∨
    ∃ i s s' op log', i ∈ asked ∧ m.sessions[i]? = some s ∧
      s.stepOperation env.host now id (ops i) = some (s', op, log') ∧
      m' = m.setSession i s' ∧
      t' = gathering query cancelAt asked (Function.update ops i op) := by
  simp only [gathering, step, stepSymbols] at h
  split at h
  · next hall =>
    cases h
    refine .inl ⟨fun i hi => ?_, rfl, by rw [List.flatMap_map]⟩
    exact List.all_eq_true.mp hall (i, ops i) (List.mem_map_of_mem hi)
  · obtain ⟨⟨m₁, branches, log₁⟩, hbranch, heq⟩ := Option.map_eq_some_iff.mp h
    cases heq
    unfold stepBranch at hbranch
    split at hbranch
    · next i op hb =>
      obtain ⟨⟨m₂, op', log₂⟩, hs, heq⟩ := Option.map_eq_some_iff.mp hbranch
      cases heq
      rw [List.getElem?_map] at hb
      obtain ⟨j, hj, heq⟩ := Option.map_eq_some_iff.mp hb
      cases heq
      unfold stepSession at hs
      split at hs
      · next s hi =>
        obtain ⟨⟨s', op₁, log₃⟩, hop, heq⟩ := Option.map_eq_some_iff.mp hs
        cases heq
        rw [set_gathering hnodup hj]
        exact .inr ⟨i, s, s', op', _, List.mem_of_getElem? hj, hi, hop, rfl, rfl⟩
      · cases hs
    · cases hbranch

/-- Nothing passes when all queries have ended and the search yields its result. -/
theorem ofStage_returned {ops : Nat → Operation}
    (hall : ∀ i ∈ asked, (ops i).result?.isSome = true) (r : Except LspError Answer) (s : Session)
    (i : Nat) :
    Exchange.ofStage s s ((gathering query cancelAt asked ops).operationOn i)
      ((Task.returned r).operationOn i) = .nothing := by
  rw [operationOn_gathering]
  split
  · next hi => exact Exchange.ofStage_none (hall i hi)
  · exact Exchange.ofStage_self _ _

/-- Nothing passes between the search and the other sessions when one query goes on. -/
theorem ofStage_update {ops : Nat → Operation} {j : Nat} (hne : j ≠ i) :
    Exchange.ofStage (m.sessionAt j) ((m.setSession i s').sessionAt j)
      ((gathering query cancelAt asked ops).operationOn j)
      ((gathering query cancelAt asked (Function.update ops i op)).operationOn j) =
        .nothing := by
  have hsame : (m.setSession i s').sessionAt j = m.sessionAt j := by
    unfold sessionAt setSession
    rw [List.getElem?_set_ne hne.symm]
  rw [hsame, operationOn_gathering, operationOn_gathering, Function.update_of_ne hne]
  exact Exchange.ofStage_self _ _

/-- **One stage of a search**: what passes in it is what its queries need, nothing passes between
the search and other sessions, and no session's state or documents change. -/
theorem Gathers.step (hx : Gathers query cancelAt asked x t) (hnodup : asked.Nodup)
    {branch : Nat} (hs : m.step env now id branch t = some (m', t', log)) :
    Gathers query cancelAt asked (fun i => (x i).append (.ofStage (m.sessionAt i)
      (m'.sessionAt i) (t.operationOn i) (t'.operationOn i))) t' ∧
    (∀ i ∉ asked, Exchange.ofStage (m.sessionAt i) (m'.sessionAt i) (t.operationOn i)
      (t'.operationOn i) = .nothing) ∧ ∃ i, Isolates true (some i) m m' := by
  cases hx with
  | merged => cases hs
  | asking ops hops =>
    rcases step_gathering hnodup hs with ⟨hall, rfl, rfl⟩ |
      ⟨i, s, s', op, log', hmem, hi, hop, rfl, rfl⟩
    · refine ⟨?_, fun i _ => ofStage_returned hall _ _ i, 0, .refl _ _ _⟩
      have hfound : asked.flatMap (fun i => foundBy (i, ops i)) =
          asked.flatMap fun i => (x i).symbols :=
        List.flatMap_congr fun i hi => ((hops i hi).settled (hall i hi)).2 i
      simp only [ofStage_returned hall, Exchange.append_nothing, hfound]
      exact .merged fun i hi => ((hops i hi).settled (hall i hi)).1
    · refine ⟨.asking _ fun j hj => ?_,
        fun j hj => ofStage_update (ne_of_mem_of_not_mem hmem hj).symm, i, ?_⟩
      · rcases eq_or_ne j i with rfl | hne
        · have hself : m.sessionAt j = s := sessionAt_eq hi
          have hself' : (m.setSession j s').sessionAt j = s' :=
            sessionAt_eq (getElem?_set_of_getElem? hi s')
          rw [operationOn_gathering, operationOn_gathering, if_pos hj, if_pos hj, hself, hself',
            Function.update_self]
          exact (hops j hj).step hop
        · rw [ofStage_update hne, Exchange.append_nothing, Function.update_of_ne hne]
          exact hops j hj
      · obtain ⟨hengaged, hdocuments⟩ := (hops i hmem).engaged hop
        exact .of_setSession hi hengaged (fun hne => absurd rfl hne) fun _ => hdocuments

/-! ### The whole search -/

/-- A stage of a search that has come so far. -/
theorem Merges.advance (h : Merges query cancelAt asked n x sc) (hnodup : asked.Nodup)
    (hs : Step env sc (.advanced n t t') sc') :
    Merges query cancelAt asked n (fun i => (x i).append (passes n i sc (.advanced n t t') sc'))
      sc' ∧ ∃ i, Isolates true (some i) sc.manager sc'.manager := by
  obtain ⟨u, hu, hx⟩ := h.stage
  cases hs with
  | advance _ branch _ hn hstep =>
    obtain rfl := Option.some.inj (hu.symm.trans hn)
    obtain ⟨hx', hothers, i, hisolates⟩ := hx.step hnodup hstep
    simp only [passes, if_pos]
    refine ⟨⟨⟨t', getElem?_set_of_getElem? hn t', hx'⟩, fun j hj => ?_, fun j hj => ?_⟩, i,
      hisolates⟩
    · rw [h.others j hj]
      exact (congrArg _ (hothers j hj)).trans (Exchange.append_nothing _)
    · obtain ⟨s, hs⟩ := h.present j hj
      obtain ⟨hlt, -⟩ := List.getElem?_eq_some_iff.mp hs
      rw [← hisolates.length] at hlt
      exact ⟨_, List.getElem?_eq_getElem hlt⟩

/-- **A search goes on as one**, whatever else happens. -/
theorem Merges.step (h : Merges query cancelAt asked n x sc) (hnodup : asked.Nodup)
    (hs : Step env sc e sc') :
    Merges query cancelAt asked n (fun i => (x i).append (passes n i sc e sc')) sc' := by
  by_cases hown : ∃ t t', e = .advanced n t t'
  · obtain ⟨t, t', rfl⟩ := hown
    exact (h.advance hnodup hs).1
  · have hpass : ∀ i, passes n i sc e sc' = .nothing := by
      intro i
      cases e with
      | advanced k t t' =>
        refine if_neg fun hk => hown ⟨t, t', ?_⟩
        rw [hk]
      | silent => rfl
    simp only [hpass, Exchange.append_nothing]
    obtain ⟨t, hn, hx⟩ := h.stage
    obtain ⟨t', hn', rfl | ⟨he, -⟩⟩ := hs.task hn
    · refine ⟨⟨t', hn', hx⟩, h.others, fun i hi => ?_⟩
      obtain ⟨s, hs'⟩ := h.present i hi
      obtain ⟨s', hs', -⟩ := hs.evolves i s hs'
      exact ⟨s', hs'⟩
    · exact absurd ⟨t, t', he⟩ hown

/-- **What has passed is what the queries needed.** -/
theorem Exchanged.merges (hx : Exchanged env n sc x sc')
    (h : Merges query cancelAt asked n (fun _ => .nothing) sc) (hnodup : asked.Nodup) :
    Merges query cancelAt asked n x sc' := by
  induction hx with
  | refl => exact h
  | tail _ hs ih => exact ih.step hnodup hs

/-- **A search begins** with a query for every session that is ready. -/
theorem Step.merges (hs : Step env sc (.advanced n (.symbols query cancelAt none) t) sc') :
    sc'.manager = sc.manager ∧
      Merges query cancelAt sc.manager.ready n (fun _ => .nothing) sc' := by
  obtain ⟨m', hn, ht, rfl⟩ := hs.of_advanced
  cases ht with
  | search =>
    refine ⟨rfl, ⟨_, getElem?_set_of_getElem? hn _, .asking _ fun _ _ => .fresh⟩,
      fun _ _ => rfl, fun i hi => ?_⟩
    -- there is no state `ready` without a session
    have hready : sc.manager.stateOf i = .ready := by
      simpa using (List.mem_filter.mp hi).2
    cases hs : sc.manager.sessions[i]? with
    | some s => exact ⟨s, hs⟩
    | none =>
      rw [stateOf, hs] at hready
      cases hready

/-! ### A search comes to its end -/

/-- **The writer makes room**: it takes the commands that are in the outbox, as far as the server
reads, or it ends. -/
theorem exists_room (hi : sc.manager.sessions[i]? = some s) (o : WriterOrder) :
    ∃ sc' s', Run (Step env) sc sc' ∧ sc'.tasks = sc.tasks ∧
      sc'.manager.sessions[i]? = some s' ∧ s'.enqueue o ≠ .full := by
  induction hk : s.stepsToWrite using Nat.strong_induction_on generalizing sc s with
  | _ k ih =>
    subst hk
    by_cases hfull : s.enqueue o = .full
    · obtain ⟨sc₁, s₁, hs, hi₁, htasks₁, hlt⟩ : ∃ sc₁ s₁, Step env sc .silent sc₁ ∧
          sc₁.manager.sessions[i]? = some s₁ ∧ sc₁.tasks = sc.tasks ∧
            s₁.stepsToWrite < s.stepsToWrite := by
        rcases Session.stepWriter_or_stuck_of_full hfull with ⟨b, hb⟩ | hstuck
        · exact ⟨_, _, .background i .writer hi hb, getElem?_set_of_getElem? hi _, rfl,
            Session.stepsToWrite_lt_of_stepWriter hb⟩
        · have hreads : s.link.Serves s.relieve.link := ⟨rfl, rfl, rfl, rfl, List.prefix_refl _⟩
          exact ⟨_, _, .serve i hi hreads, getElem?_set_of_getElem? hi s.relieve, rfl,
            Session.stepsToWrite_relieve_lt hstuck.full⟩
      obtain ⟨sc', s', run, htasks, hi', hroom⟩ := ih _ hlt hi₁ rfl
      exact ⟨sc', s', run.head ⟨_, hs⟩, htasks.trans htasks₁, hi', hroom⟩
    · exact ⟨sc, s, .refl, rfl, hi, hfull⟩

/-- **A query that has to wait can go on some time**: when the writer has made room, or at its
deadline. -/
theorem exists_stepQuery (env : ManagerEnvironment) (hi : sc.manager.sessions[i]? = some s)
    (q : Lsp.Query) (cancelAt : Option Nat) (stage : Option (Call × CallStage)) :
    ∃ sc' s', Run (Step env) sc sc' ∧ sc'.tasks = sc.tasks ∧
      sc'.manager.sessions[i]? = some s' ∧ s'.stepQuery sc'.now q cancelAt stage ≠ none := by
  by_cases hnone : s.stepQuery sc.now q cancelAt stage = none
  · rcases Session.stepQuery_eq_none hnone with
      ⟨c, id, rfl, -⟩ | ⟨c, id, deadline, rfl, hlt⟩
    · obtain ⟨sc', s', run, htasks, hi', hroom⟩ :=
        exists_room hi (.send (Lsp.request id c.method c.params))
      refine ⟨sc', s', run, htasks, hi', fun hnone' => ?_⟩
      rcases Session.stepQuery_eq_none hnone' with ⟨_, _, heq, hfull⟩ | ⟨_, _, _, heq, -⟩
      · cases heq
        exact hroom hfull
      · cases heq
    · refine ⟨{ sc with now := deadline }, s, .single ⟨_, .elapse (Nat.le_of_lt hlt)⟩, rfl, hi,
        fun hnone' => ?_⟩
      rcases Session.stepQuery_eq_none hnone' with ⟨_, _, heq, -⟩ | ⟨_, _, _, heq, hlt'⟩
      · cases heq
      · cases heq
        exact Nat.lt_irrefl _ hlt'
  · exact ⟨sc, s, .refl, rfl, hi, hnone⟩

/-- A query of a search that can go on does so. -/
theorem step_gathering_eq (hnodup : asked.Nodup) {ops : Nat → Operation}
    (hall : allReturned (asked.map fun i => (i, ops i)) ≠ true) (hp : asked[p]? = some i)
    (hi : m.sessions[i]? = some s)
    (hop : s.stepOperation env.host now id (ops i) = some (s', op, log)) :
    m.step env now id p (gathering query cancelAt asked ops) = some
      (m.setSession i s', gathering query cancelAt asked (Function.update ops i op), log) := by
  have hbranch : (asked.map fun j => (j, ops j))[p]? = some (i, ops i) := by
    rw [List.getElem?_map, hp, Option.map_some]
  simp only [Manager.step, gathering, stepSymbols, hall, stepBranch, hbranch, stepSession, hi,
    hop, Option.map_some, set_gathering hnodup hp, if_false, Bool.false_eq_true]

/-- **A search that has not ended goes on some time**: it ends, or it has fewer stages left. -/
theorem Merges.exists_stage (env : ManagerEnvironment)
    (h : Merges query cancelAt asked n x sc) (hnodup : asked.Nodup) {ops : Nat → Operation}
    (hn : sc.tasks[n]? = some (gathering query cancelAt asked ops)) :
    ∃ sc' t, Run (Step env) sc sc' ∧ sc'.tasks[n]? = some t ∧ ((∃ r, t = .returned r) ∨
      ∃ ops', t = gathering query cancelAt asked ops' ∧
        Session.stagesLeft (asked.map ops') < Session.stagesLeft (asked.map ops)) := by
  by_cases hall : allReturned (asked.map fun i => (i, ops i)) = true
  · have hstep : sc.manager.step env sc.now n 0 (gathering query cancelAt asked ops) =
        some (sc.manager, .returned (.ok (.symbols
          ((asked.map fun i => (i, ops i)).flatMap foundBy))),
          (asked.map fun i => (i, ops i)).flatMap failureOf) := by
      simp only [Manager.step, gathering, stepSymbols, hall, if_true]
    exact ⟨_, _, .single ⟨_, .advance n 0 _ hn hstep⟩, getElem?_set_of_getElem? hn _,
      .inl ⟨_, rfl⟩⟩
  · obtain ⟨i, hi, hnone⟩ : ∃ i ∈ asked, (ops i).result? = none := by
      simpa [allReturned] using hall
    obtain ⟨p, hp⟩ := List.mem_iff_getElem?.mp hi
    obtain ⟨stage, hquery⟩ := (h.follows hn i hi).eq_query hnone
    obtain ⟨s, hs⟩ := h.present i hi
    obtain ⟨sc₁, s₁, run, htasks, hs₁, hsome⟩ :=
      exists_stepQuery env hs (.workspaceSymbols query) cancelAt stage
    obtain ⟨⟨s₂, op, log⟩, hop⟩ := Option.ne_none_iff_exists'.mp hsome
    have hop : s₁.stepOperation env.host sc₁.now n (ops i) = some (s₂, op, log) := by
      rw [hquery]
      exact hop
    have hn₁ : sc₁.tasks[n]? = some (gathering query cancelAt asked ops) := by rw [htasks, hn]
    have hstep : sc₁.manager.step env sc₁.now n p (gathering query cancelAt asked ops) = _ :=
      step_gathering_eq hnodup hall hp hs₁ hop
    refine ⟨_, _, run.tail ⟨_, .advance n p _ hn₁ hstep⟩, getElem?_set_of_getElem? hn₁ _,
      .inr ⟨_, rfl, ?_⟩⟩
    rw [map_update_of_nodup hnodup hp]
    exact Session.stagesLeft_set_lt (by rw [List.getElem?_map, hp, Option.map_some])
      (Session.OperationStep.of_stepOperation hop).left_lt

/-- A search goes on as one throughout a run. -/
theorem Merges.run (h : Merges query cancelAt asked n x sc) (hnodup : asked.Nodup)
    (run : Run (Step env) sc sc') : ∃ x', Merges query cancelAt asked n x' sc' := by
  refine run.invariant (I := fun sc' => ∃ x', Merges query cancelAt asked n x' sc') ?_ ⟨x, h⟩
  rintro sc e sc' ⟨x', h⟩ hs
  exact ⟨_, h.step hnodup hs⟩

/-- **A search can always come to its end.** -/
theorem Merges.exists_returned (h : Merges query cancelAt asked n x sc) (hnodup : asked.Nodup) :
    ∃ sc' r, Run (Step env) sc sc' ∧ sc'.tasks[n]? = some (.returned r) := by
  obtain ⟨t, hn, hx⟩ := h.stage
  cases hx with
  | merged => exact ⟨sc, _, .refl, hn⟩
  | asking ops hops =>
    induction hk : Session.stagesLeft (asked.map ops) using Nat.strong_induction_on
      generalizing sc x ops with
    | _ k ih =>
      subst hk
      obtain ⟨sc₁, t, run, hn₁, ⟨r, rfl⟩ | ⟨ops', rfl, hlt⟩⟩ :=
        h.exists_stage env hnodup hn
      · exact ⟨sc₁, r, run, hn₁⟩
      · obtain ⟨x', h'⟩ := h.run hnodup run
        obtain ⟨sc', r, run', hr⟩ := ih _ hlt h' ops' (h'.follows hn₁) hn₁ rfl
        exact ⟨sc', r, run.trans run', hr⟩

/-! ### What a search yields -/

/-- **A search loses nothing and invents nothing.** No stage of it changes anything but sessions,
nor the state or the documents of any. A session gets one request at most, and only one that was
ready when the search began; it gets none only if its query started when it was not ready any
longer, or the request came to the outbox when the writer had ended. And what the search yields are
the symbols in the answers, session by session. -/
theorem search_merges {files : FileTree} {start : Nat}
    (run : Run (Step env) (.start files start) sc)
    (begins : Step env sc (.advanced n (.symbols query cancelAt none) t) sc₀)
    (meanwhile : Exchanged env n sc₀ x sc') :
    sc₀.manager = sc.manager ∧ sc.manager.ready.Nodup ∧
    (∀ t t' sc'', Step env sc' (.advanced n t t') sc'' →
      ∃ i, Isolates true (some i) sc'.manager sc''.manager) ∧
    (∀ i, (x i).queued = [] ∨
      i ∈ sc.manager.ready ∧ ∃ id, (x i).queued = [searchFrame id query]) ∧
    (∀ r, sc'.tasks[n]? = some (.returned r) →
      r = .ok (.symbols (sc.manager.ready.flatMap fun i => (x i).symbols)) ∧
      (∀ i ∈ sc.manager.ready, (x i).Settled query) ∧
      ∀ i ∉ sc.manager.ready, x i = .nothing) ∧
    ∃ sc'' r, Run (Step env) sc' sc'' ∧ sc''.tasks[n]? = some (.returned r) := by
  have hnodup : sc.manager.ready.Nodup := run.nodup_listed.filter _
  obtain ⟨hmanager, h₀⟩ := begins.merges
  have h : Merges query cancelAt sc.manager.ready n x sc' := meanwhile.merges h₀ hnodup
  refine ⟨hmanager, hnodup, fun t t' sc'' hs => (h.advance hnodup hs).2, fun i => ?_,
    fun r hr => ?_, h.exists_returned hnodup⟩
  · by_cases hi : i ∈ sc.manager.ready
    · exact (h.queued hi).imp_right fun hq => ⟨hi, hq⟩
    · rw [h.others i hi]
      exact .inl rfl
  · obtain ⟨t, ht, hx⟩ := h.stage
    obtain rfl := Option.some.inj (ht.symm.trans hr)
    cases hx with
    | merged hsettled => exact ⟨rfl, hsettled, h.others⟩

/-! ### Searches that are computed -/

/-- What passes between a task and the sessions when choices are made one after the other. -/
def Scene.observe (env : ManagerEnvironment) (n : Nat) :
    List Move → (Nat → Exchange) → Scene → Option ((Nat → Exchange) × Scene)
  | [], x, sc => some (x, sc)
  | mv :: rest, x, sc => (mv.play env sc).bind fun z =>
    z.2.observe env n rest fun i => (x i).append (passes n i sc z.1 z.2)

theorem Exchanged.of_observe {moves : List Move} {x' : Nat → Exchange}
    (hx : Exchanged env n sc₀ x sc) (h : sc.observe env n moves x = some (x', sc')) :
    Exchanged env n sc₀ x' sc' := by
  induction moves generalizing sc x with
  | nil =>
    cases h
    exact hx
  | cons mv rest ih =>
    obtain ⟨⟨e, sc₁⟩, hmv, h⟩ := Option.bind_eq_some_iff.mp h
    exact ih (hx.tail (Step.of_play hmv)) h

theorem eq_returned_of_result? (h : t.result?.isSome = true) : ∃ r, t = .returned r := by
  cases t with
  | returned r => exact ⟨r, rfl⟩
  | _ => cases h

/-- A session is assured by a task, and nothing is written to it. -/
def assured (n i : Nat) (t : Task) : List Move :=
  [.call t] ++ List.replicate 12 (.advance n 0) ++
    [.output i greeting, .background i .reader] ++ List.replicate 9 (.advance n 0)

/-- Somebody wants a session for a document in another directory. -/
def neighbour : Task := .ensure "rust" "" (.begin ⟨[0x2F, 0x62, 0x2F, 0x63]⟩)

/-- A search for a widget. -/
def widgets : Task := .symbols "Widget" none none

/-- An answer to the second request of a session. -/
def found : List UInt8 :=
  Frame.write (.obj [("id", .ofNat 2), ("result", .arr [Lsp.SymbolResponse.oldWidget.toJson])])

/-- A failure of the second request of a session. -/
def lost : List UInt8 := Frame.write (.obj [("error", .null), ("id", .ofNat 2)])

/-- **A search in two sessions**, one of which fails, yields what the other one has found. -/
theorem search_merges_two : ∃ sc sc₀ sc' t x, Run (Step (staffed 0)) (.start shelf 0) sc ∧
    Step (staffed 0) sc (.advanced 2 widgets t) sc₀ ∧ Exchanged (staffed 0) 2 sc₀ x sc' ∧
    sc.manager.ready = [0, 1] ∧
    (∀ i ∈ [0, 1], (x i).Settled "Widget" ∧ ∃ id, (x i).queued = [searchFrame id "Widget"]) ∧
    (x 0).symbols = [] ∧ (x 1).symbols = [Lsp.SymbolResponse.oldWidget] ∧
    sc'.tasks[2]? = some (.returned (.ok (.symbols [Lsp.SymbolResponse.oldWidget]))) := by
  have hplay : ((Scene.start shelf 0).play (staffed 0) (fun _ _ _ => true)
      (assured 0 0 visitor ++ assured 1 1 neighbour)).any (fun sc =>
      sc.tasks.length == 2 && sc.manager.ready == [0, 1] &&
        (sc.manager.step (staffed 0) sc.now 2 0 widgets).any fun y =>
          ((Scene.after { sc with tasks := sc.tasks ++ [widgets] } 2 widgets y.1 y.2.1).observe
            (staffed 0) 2
            -- both are asked, the second one answers first
            (List.replicate 3 (.advance 2 0) ++ List.replicate 3 (.advance 2 1) ++
              [.output 1 found, .background 1 .reader, .output 0 lost, .background 0 .reader] ++
              List.replicate 2 (.advance 2 1) ++ List.replicate 3 (.advance 2 0))
            fun _ => .nothing).any fun z => ([0, 1].all fun i => (z.1 i).queued.length == 1) &&
              (z.1 0).symbols == [] && (z.1 1).symbols == [Lsp.SymbolResponse.oldWidget] &&
              (z.2.tasks[2]?).any (·.result?.isSome)) = true := by
    decide +kernel
  obtain ⟨sc, hsc, hplay⟩ := (Option.any_eq_true _ _).mp hplay
  simp only [Bool.and_eq_true, beq_iff_eq] at hplay
  obtain ⟨⟨hlength, hready⟩, hplay⟩ := hplay
  obtain ⟨⟨m, t, log⟩, hbegin, hplay⟩ := (Option.any_eq_true _ _).mp hplay
  obtain ⟨⟨x, sc'⟩, hobserve, hcheck⟩ := (Option.any_eq_true _ _).mp hplay
  simp only [Bool.and_eq_true, beq_iff_eq, List.all_eq_true] at hcheck
  obtain ⟨⟨⟨hqueued, hnone⟩, hsome⟩, hend⟩ := hcheck
  obtain ⟨u, hu, hend⟩ := (Option.any_eq_true _ _).mp hend
  obtain ⟨r, rfl⟩ := eq_returned_of_result? hend
  have played : Run (Step (staffed 0)) (.start shelf 0) sc := .of_play (fun hs _ => hs) hsc
  have run := played.tail ⟨_, .call widgets rfl⟩
  have hn : (sc.tasks ++ [widgets])[2]? = some widgets := by
    rw [← hlength]
    exact List.getElem?_concat_length
  have begins : Step (staffed 0) { sc with tasks := sc.tasks ++ [widgets] }
      (.advanced 2 widgets t) _ := .advance 2 0 widgets hn hbegin
  have meanwhile := Exchanged.of_observe .refl hobserve
  obtain ⟨-, -, -, hone, hmerged, -⟩ := search_merges run begins meanwhile
  obtain ⟨rfl, hsettled, -⟩ := hmerged r hu
  refine ⟨_, _, _, t, x, run, begins, meanwhile, hready, fun i hi => ⟨hsettled i ?_, ?_⟩, hnone,
    hsome, ?_⟩
  · rw [hready]
    exact hi
  · rcases hone i with hempty | ⟨-, hid⟩
    · have hlen := hqueued i hi
      rw [hempty] at hlen
      cases hlen
    · exact hid
  · rw [hu, hready, List.flatMap_cons, List.flatMap_singleton, hnone, hsome]
    rfl

/-- A session whose server has closed its input. -/
def deaf (s : Session) : Session := { s with link := { s.link with input := .closed } }

/-- **A session that is ready, with a live writer, need not be asked**: its writer may end before
the request comes to the outbox. -/
theorem exists_unasked : ¬ ∀ (env : ManagerEnvironment) (files : FileTree) (start n : Nat)
    (sc sc₀ sc' : Scene) (query : String) (cancelAt : Option Nat) (t : Task)
    (x : Nat → Exchange) (r : Except LspError Answer),
    Run (Step env) (.start files start) sc →
    Step env sc (.advanced n (.symbols query cancelAt none) t) sc₀ →
    Exchanged env n sc₀ x sc' → sc'.tasks[n]? = some (.returned r) →
    ∀ i ∈ sc.manager.ready, ∀ s ∈ (x i).starts, s.state = .ready → s.writerEnded = false →
      ∃ id, (x i).queued = [searchFrame id query] := by
  have hplay : ((Scene.start shelf 0).play (staffed 0) (fun _ _ _ => true)
      (assured 0 0 visitor)).any (fun sc =>
      (sc.manager.sessions[0]?).any fun s => sc.tasks.length == 1 &&
        (sc.manager.setSession 0 (deaf s)).ready == [0] &&
        ((sc.manager.setSession 0 (deaf s)).step (staffed 0) sc.now 1 0 widgets).any fun y =>
          ((Scene.after { sc with
              manager := sc.manager.setSession 0 (deaf s)
              tasks := sc.tasks ++ [widgets] } 1 widgets y.1 y.2.1).observe (staffed 0) 1
            -- the writer takes a frame and fails when the query has started
            ([.advance 1 0, .background 0 .writer, .background 0 .writer] ++
              List.replicate 5 (.advance 1 0))
            fun _ => .nothing).any fun z => (z.1 0).queued.isEmpty &&
              (z.1 0).starts.any (fun s => s.state == .ready && !s.writerEnded) &&
              (z.2.tasks[1]?).any (·.result?.isSome)) = true := by
    decide +kernel
  obtain ⟨sc, hsc, hplay⟩ := (Option.any_eq_true _ _).mp hplay
  obtain ⟨s, hs, hplay⟩ := (Option.any_eq_true _ _).mp hplay
  simp only [Bool.and_eq_true, beq_iff_eq] at hplay
  obtain ⟨⟨hlength, hready⟩, hplay⟩ := hplay
  obtain ⟨⟨m, t, log⟩, hbegin, hplay⟩ := (Option.any_eq_true _ _).mp hplay
  obtain ⟨⟨x, sc'⟩, hobserve, hcheck⟩ := (Option.any_eq_true _ _).mp hplay
  simp only [Bool.and_eq_true, List.isEmpty_iff] at hcheck
  obtain ⟨⟨hqueued, hstarts⟩, hend⟩ := hcheck
  obtain ⟨u, hu, hend⟩ := (Option.any_eq_true _ _).mp hend
  obtain ⟨r, rfl⟩ := eq_returned_of_result? hend
  obtain ⟨s', hs', hlive⟩ := List.any_eq_true.mp hstarts
  simp only [Bool.and_eq_true, beq_iff_eq, Bool.not_eq_true'] at hlive
  have played : Run (Step (staffed 0)) (.start shelf 0) sc := .of_play (fun hs _ => hs) hsc
  have deafened : Step (staffed 0) sc .silent
      { sc with manager := sc.manager.setSession 0 (deaf s) } :=
    .serve 0 hs ⟨rfl, rfl, rfl, rfl, List.prefix_refl _⟩
  have called := (played.tail ⟨_, deafened⟩).tail ⟨_, .call widgets rfl⟩
  have hn : (sc.tasks ++ [widgets])[1]? = some widgets := by
    rw [← hlength]
    exact List.getElem?_concat_length
  have meanwhile := Exchanged.of_observe .refl hobserve
  intro h
  obtain ⟨id, hid⟩ := h _ _ _ 1 _ _ _ _ _ _ x r called (.advance 1 0 widgets hn hbegin) meanwhile
    hu 0 (by rw [hready]; exact List.mem_singleton_self 0) s' hs' hlive.1 hlive.2
  rw [hqueued] at hid
  cases hid

end Manager

end LanguageHub
