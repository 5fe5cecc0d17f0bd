import LanguageHub.Proofs.Manager.Run
import LanguageHub.Proofs.Session.Lock

/-!
# The documents of many sessions

The tasks of a manager work on the documents of all of its sessions at once. Each task
works on **one session at a time** (`Task.handles?`), and seen from that session it is one
of the operations that share its map of documents. So the order that a single session
keeps, `Session.InOrder`, holds for every session of a manager, with the tasks as the
callers (`Manager.Ordered`).

What is gained from it is the frame condition of a document that is open in a session:
**it stays open**, whatever any task does to this document or to others, until a closing
of it gets the map (`Manager.HasOpen.step`). Without the order a task could put back a map
that it has seen before the document was opened.
-/

namespace LanguageHub

namespace Task

/-- The operation by which a task works on documents, with its session. -/
def handles? : Task → Option (Nat × Operation)
  | .ensure _ _ (.opening i op) | .routed _ (.asking _ _ _ i op _)
  | .routed _ (.running i op) => some (i, op)
  | _ => none

/-- What a task does to the documents of a session. -/
def document? (t : Task) (i : Nat) : Option (DocumentAction × DocumentStage) :=
  t.handles?.bind fun b => if b.1 = i then b.2.document? else none

/-- The operations by which a task does anything else are none on documents. -/
def Plain : Task → Prop
  | .ensure _ _ (.replacing _ _ _ _ op) | .ensure _ _ (.handshaking _ _ _ _ op)
  | .direct _ op => op.document? = none
  | .symbols _ _ (some branches) | .shutdown (some branches) =>
    ∀ b ∈ branches, b.2.document? = none
  | _ => True

theorem document?_eq_none {t : Task} (h : t.handles? = none) (i : Nat) : t.document? i = none := by
  rw [document?, h, Option.bind_none]

theorem handles?_of_isFresh {t : Task} (h : t.isFresh = true) : t.handles? = none := by
  unfold isFresh at h
  split at h <;> trivial

theorem plain_of_isFresh {t : Task} (h : t.isFresh = true) : t.Plain := by
  unfold isFresh at h
  split at h <;> trivial

end Task

theorem Operation.eq_of_document? {op : Operation} {a : DocumentAction} {st : DocumentStage}
    (h : op.document? = some (a, st)) : op = .document a st := by
  unfold document? at h
  split at h
  · cases h
    rfl
  · cases h

/-! ### One session -/

namespace Session

variable {s s' : Session} {ops : DocumentOps} {n : Nat}
  {o o' : Option (DocumentAction × DocumentStage)}

/-- **What a caller, known as `n`, does to the documents of a session** from one place to
the next. -/
inductive Handles (n : Nat) (s s' : Session) : Option (DocumentAction × DocumentStage) →
    Option (DocumentAction × DocumentStage) → Prop
  | rest (o : Option (DocumentAction × DocumentStage)) : s'.documents = s.documents →
      s'.documentQueue = s.documentQueue → Handles n s s' o o
  | start (a : DocumentAction) : s'.documents = s.documents →
      s'.documentQueue = s.documentQueue → Handles n s s' none (some (a, .begin))
  | step {a : DocumentAction} {st : DocumentStage} {op : Operation} :
      DocumentStep n a s st s' op → Handles n s s' (some (a, st)) op.document?

theorem InOrder.handles (h : InOrder s ops) (hn : ops n = o) (hs : Handles n s s' o o') :
    InOrder s' (Function.update ops n o') := by
  rcases hs with ⟨_, hd, hq⟩ | ⟨a, hd, hq⟩ | hs
  · -- nobody moves, so the places are the same function as before
    rw [← hn, Function.update_eq_self]
    exact h.congr hd hq
  · exact (h.start hn a).congr hd hq
  · exact h.step hn hs

/-- The map that comes with a frame has the documents of the map that the frame was made for. -/
theorem Prepared.isSome {d after : Documents} {a : DocumentAction} {frame : Json}
    (h : Prepared d a frame after) {uri : String} (hv : (d.version? uri).isSome = true) :
    (after.version? uri).isSome = true := by
  have hset : ∀ (u : String) (v : Int), ((d.set u v).version? uri).isSome = true := by
    intro u v
    rw [Documents.version?_set]
    split
    · rfl
    · exact hv
  rcases h with ⟨u, _, _, -, -⟩ | ⟨u, _, v, -, -⟩ | ⟨u, -⟩
  · exact hset _ _
  · exact hset _ _
  · exact hv

/-- **An open document stays open** unless a closing of it has the map. -/
theorem InOrder.isSome_of_handles (h : InOrder s ops) (hn : ops n = o)
    (hs : Handles n s s' o o') {uri : String}
    (hc : ∀ u : Uri, o = some (.close u, .locked) → u.text ≠ uri)
    (hv : (s.documents.version? uri).isSome = true) :
    (s'.documents.version? uri).isSome = true := by
  rcases hs with ⟨_, hd, -⟩ | ⟨a, hd, -⟩ | hs
  · rw [hd]
    exact hv
  · rw [hd]
    exact hv
  · cases hs with
    | begin | lock | unsent => exact hv
    -- the map that comes with a frame fits the map as it is now, so it loses nothing
    | send frame after => exact (h.prepared hn).isSome hv
    | locked hl =>
      cases hl with
      | ask | ended | openNew | change | absent => exact hv
      | close u _ _ ha =>
        subst ha
        have hne := hc u rfl
        rw [Documents.version?_erase, if_neg fun he => hne he.symm]
        exact hv

end Session

namespace Manager

variable {env : ManagerEnvironment} {sc sc' : Scene} {e : Event} {m m' : Manager}
  {now n i : Nat} {op op' : Operation} {t t' : Task} {uri : Uri}

/-! ### All sessions -/

/-- The session of a number: one that is not there yet counts as one without documents. -/
def sessionAt (m : Manager) (i : Nat) : Session := (m.sessions[i]?).getD default

/-- **A session has a document open.** -/
def HasOpen (m : Manager) (i : Nat) (uri : Uri) : Prop :=
  ((m.sessionAt i).documents.version? uri.text).isSome = true

theorem sessionAt_eq {s : Session} (h : m.sessions[i]? = some s) : m.sessionAt i = s := by
  rw [sessionAt, h, Option.getD_some]

/-- **No session's documents change.** -/
def Calm (m m' : Manager) : Prop := ∀ i, (m'.sessionAt i).documents = (m.sessionAt i).documents ∧
  (m'.sessionAt i).documentQueue = (m.sessionAt i).documentQueue

theorem Calm.of_sessions_eq (h : m'.sessions = m.sessions) : Calm m m' := by
  intro i
  rw [sessionAt, h]
  exact ⟨rfl, rfl⟩

/-- One session moves and leaves its documents alone. -/
theorem Calm.of_set {s s' : Session} (hi : m.sessions[i]? = some s)
    (hs : m'.sessions = m.sessions.set i s')
    (hd : s'.documents = s.documents ∧ s'.documentQueue = s.documentQueue) : Calm m m' := by
  intro j
  obtain ⟨hlt, -⟩ := List.getElem?_eq_some_iff.mp hi
  rcases eq_or_ne j i with rfl | hne
  · have hj : m'.sessions[j]? = some s' := by rw [hs, List.getElem?_set_self hlt]
    rw [sessionAt_eq hi, sessionAt_eq hj]
    exact hd
  · rw [sessionAt, hs, List.getElem?_set_ne hne.symm]
    exact ⟨rfl, rfl⟩

/-- A session that has just been launched has no documents. -/
theorem Calm.of_launch {key : SessionKey} {server : String} {timeouts : Timeouts}
    {fault : Option String}
    (hs : m'.sessions = m.sessions ++ [.launched key server timeouts fault]) : Calm m m' := by
  intro j
  -- only the number of the new session has another one, which is as empty as none
  rcases Nat.lt_trichotomy j m.sessions.length with hlt | rfl | hgt
  · rw [sessionAt, hs, List.getElem?_append_left hlt]
    exact ⟨rfl, rfl⟩
  · have hnone : m.sessions[m.sessions.length]? = none := List.getElem?_eq_none (Nat.le_refl _)
    rw [sessionAt, sessionAt, hs, List.getElem?_concat_length, hnone]
    exact ⟨rfl, rfl⟩
  · have hnone : m.sessions[j]? = none := List.getElem?_eq_none (Nat.le_of_lt hgt)
    have hnone' : m'.sessions[j]? = none := by
      rw [hs, List.getElem?_eq_none_iff, List.length_append, List.length_singleton]
      omega
    rw [sessionAt, sessionAt, hnone, hnone']
    exact ⟨rfl, rfl⟩

theorem SessionStep.calm (h : SessionStep env now n m i op m' op') (hop : op.document? = none) :
    Calm m m' ∧ op'.document? = none := by
  obtain ⟨hi, ho⟩ := h
  obtain ⟨hd, hq, hop'⟩ := ho.documents hop
  exact ⟨.of_set hi rfl ⟨hd, hq⟩, hop'⟩

/-- **A step that is no stage of a task leaves all documents alone.** -/
theorem Step.calm (h : Step env sc .silent sc') : Calm sc.manager sc'.manager := by
  cases h with
  | call | rewrite | elapse => exact .of_sessions_eq rfl
  | background i p hi hb => exact .of_set hi rfl (Session.Turn.of_stepPart hb).documents
  | serve i hi => exact .of_set hi rfl ⟨rfl, rfl⟩
  | release =>
    intro i
    simp only [sessionAt, releaseUnused, List.getElem?_mapIdx]
    rcases sc.manager.sessions[i]? with _ | s
    · exact ⟨rfl, rfl⟩
    · rw [Option.map_some, Option.getD_some, Option.getD_some]
      split <;> exact ⟨rfl, rfl⟩

/-! ### Stages of tasks -/

/-- A stage of an operation on one session is one for that session, and none for the others. -/
theorem SessionStep.handles (h : SessionStep env now n m i op m' op') (j : Nat) :
    Session.Handles n (m.sessionAt j) (m'.sessionAt j) (if i = j then op.document? else none)
      (if i = j then op'.document? else none) := by
  rcases hdoc : op.document? with _ | ⟨a, st⟩
  · obtain ⟨hcalm, hop'⟩ := h.calm hdoc
    rw [hop']
    exact .rest _ (hcalm j).1 (hcalm j).2
  · obtain rfl := Operation.eq_of_document? hdoc
    obtain @⟨s, s', op', hi, ho⟩ := h
    obtain ⟨hlt, -⟩ := List.getElem?_eq_some_iff.mp hi
    rcases eq_or_ne i j with rfl | hne
    · have hi' : (m.setSession i s').sessions[i]? = some s' := List.getElem?_set_self hlt
      rw [if_pos rfl, if_pos rfl, sessionAt_eq hi, sessionAt_eq hi']
      cases ho with
      | document hs => exact .step hs
    · rw [if_neg hne, if_neg hne, sessionAt, sessionAt, setSession, List.getElem?_set_ne hne]
      exact .rest _ rfl rfl

/-- A task begins to work on the documents of a session, or it does something else there. -/
theorem handles_begin (n j : Nat) {a : DocumentAction} (hcalm : Calm m m') :
    Session.Handles n (m.sessionAt j) (m'.sessionAt j) none
      (if i = j then (Operation.startDocument a).document? else none) := by
  split
  · exact .start a (hcalm j).1 (hcalm j).2
  · exact .rest _ (hcalm j).1 (hcalm j).2

theorem EnsureStep.handles {language text : String} {stage : EnsureStage}
    (h : EnsureStep env now n language text m stage m' t)
    (hp : (Task.ensure language text stage).Plain) (j : Nat) :
    Session.Handles n (m.sessionAt j) (m'.sessionAt j)
      ((Task.ensure language text stage).document? j) (t.document? j) := by
  -- most stages have nothing to do with documents, before and after
  have calm : ∀ {o : Option (DocumentAction × DocumentStage)}, Calm m m' →
      Session.Handles n (m.sessionAt j) (m'.sessionAt j) o o := fun hc =>
    .rest _ (hc j).1 (hc j).2
  have same : m'.sessions = m.sessions → Calm m m' := .of_sessions_eq
  cases h with
  | dispose _ _ _ _ hs | greet _ _ _ _ hs => exact calm (hs.calm hp).1
  | openDocument session hs => exact hs.handles j
  | meet | served => exact handles_begin n j (same rfl)
  | fill => exact handles_begin n j (same rfl)
  | launch => exact calm (.of_launch rfl)
  | fresh | replace => exact calm (same (by simp [newSlot]))
  | queue | leave => exact calm (same (by simp))
  | abandon => exact calm (same (by simp [unbind]))
  | done session r =>
    have hnone : (Task.ensure language text (.opening session (.returned r))).document? j =
        none := by simp [Task.document?, Task.handles?, Operation.document?]
    rw [hnone]
    exact calm (same rfl)
  | _ => exact calm (same rfl)

theorem RoutedStep.handles {action : RoutedAction} {stage : RoutedStage}
    (h : RoutedStep env now n action m stage m' t) (j : Nat) :
    Session.Handles n (m.sessionAt j) (m'.sessionAt j)
      ((Task.routed action stage).document? j) (t.document? j) := by
  have stay : ∀ o, Session.Handles n (m.sessionAt j) (m.sessionAt j) o o := fun o => .rest o rfl rfl
  -- an operation that has ended does nothing to documents any more
  have ended : ∀ {stage session r}, (Task.routed action stage).handles? =
      some (session, .returned r) → (Task.routed action stage).document? j = none := by
    intro stage session r hh
    simp [Task.document?, hh, Operation.document?]
  have next : ∀ {path uri known rest}, Session.Handles n (m.sessionAt j) (m.sessionAt j) none
      ((Task.routed action (askNext path uri known rest)).document? j) := by
    intro path uri known rest
    rcases rest with _ | ⟨i, rest⟩
    · exact stay _
    · exact handles_begin n j (.of_sessions_eq rfl)
  cases h with
  | ask path uri known session rest hs => exact hs.handles j
  | run session hs => exact hs.handles j
  | nameless | ownerless => exact stay _
  | begin => exact next
  | told =>
    rw [ended rfl]
    exact next
  | choose path uri known session =>
    rcases action with text | _ | ⟨query, cancelAt⟩
    · exact handles_begin n j (.of_sessions_eq rfl)
    · exact handles_begin n j (.of_sessions_eq rfl)
    · have hnone : (Task.routed (.ask query cancelAt) (.running session
          (RoutedAction.operation uri (.ask query cancelAt)))).document? j = none := by
        simp [Task.document?, Task.handles?, RoutedAction.operation, Operation.startQuery,
          Operation.document?]
      rw [hnone]
      exact stay _
  | done session r =>
    rw [ended rfl]
    exact stay _

/-- **A stage of a task is one operation on documents at most**, and leaves the other
sessions alone. -/
theorem TaskStep.handles (h : TaskStep env now n m t m' t') (hp : t.Plain) (j : Nat) :
    Session.Handles n (m.sessionAt j) (m'.sessionAt j) (t.document? j) (t'.document? j) := by
  cases h with
  | ensure he => exact he.handles hp j
  | routed hr => exact hr.handles j
  | searchBranch _ _ _ _ hb hs | drainBranch _ _ hb hs =>
    obtain ⟨hc, -⟩ := hs.calm (hp _ (List.mem_of_getElem? hb))
    exact .rest _ (hc j).1 (hc j).2
  | direct _ hs =>
    obtain ⟨hc, -⟩ := hs.calm hp
    exact .rest _ (hc j).1 (hc j).2
  | _ => exact .rest _ rfl rfl

theorem TaskStep.plain (h : TaskStep env now n m t m' t') (hp : t.Plain) : t'.Plain := by
  cases h with
  | ensure he =>
    cases he with
    | dispose _ _ _ _ hs | greet _ _ _ _ hs => exact (hs.calm hp).2
    | _ => trivial
  | routed hr =>
    cases hr <;> trivial
  | search =>
    intro b hb
    obtain ⟨i, -, rfl⟩ := List.mem_map.mp hb
    rfl
  | drain =>
    intro b hb
    obtain ⟨i, -, rfl⟩ := List.mem_map.mp hb
    rfl
  | searchBranch _ _ _ _ hb hs | drainBranch _ _ hb hs =>
    obtain ⟨-, hop⟩ := hs.calm (hp _ (List.mem_of_getElem? hb))
    intro b hmem
    rcases List.mem_or_eq_of_mem_set hmem with hmem | rfl
    · exact hp b hmem
    · exact hop
  | direct _ hs => exact (hs.calm hp).2
  | _ => trivial

/-! ### The invariant -/

/-- The operations of all tasks on the documents of a session. -/
def Scene.documentOps (sc : Scene) (i : Nat) : Session.DocumentOps := fun n =>
  (sc.tasks[n]?).bind (·.document? i)

theorem documentOps_after (hn : sc.tasks[n]? = some t) (i : Nat) :
    (sc.after n t m' t').documentOps i =
      Function.update (sc.documentOps i) n (t'.document? i) := by
  funext k
  rcases eq_or_ne k n with rfl | hne
  · rw [Function.update_self, Scene.documentOps, Scene.after, getElem?_set_of_getElem? hn,
      Option.bind_some]
  · rw [Function.update_of_ne hne, Scene.documentOps, Scene.after, List.getElem?_set_ne hne.symm]
    rfl

/-- **The documents of every session are in order.** -/
structure Ordered (sc : Scene) : Prop where
  plain : ∀ (n : Nat) (t : Task), sc.tasks[n]? = some t → t.Plain
  order : ∀ i, Session.InOrder (sc.manager.sessionAt i) (sc.documentOps i)

theorem ordered_start (files : FileTree) (now : Nat) : Ordered (.start files now) where
  plain := fun n t hn => by cases hn
  order := fun i => ⟨List.nodup_nil, fun n => .idle List.not_mem_nil⟩

theorem Ordered.step (h : Ordered sc) (hs : Step env sc e sc') : Ordered sc' := by
  rcases e with ⟨n, t, t'⟩ | _
  · obtain ⟨m', hn, ht, rfl⟩ := hs.of_advanced
    have hp := h.plain n t hn
    refine ⟨fun k x hk => ?_, fun i => ?_⟩
    · rcases getElem?_set_cases hk with ⟨-, rfl⟩ | ⟨-, hk⟩
      · exact ht.plain hp
      · exact h.plain k x hk
    · rw [documentOps_after hn]
      refine (h.order i).handles ?_ (ht.handles hp i)
      rw [Scene.documentOps, hn, Option.bind_some]
  · have hcalm := hs.calm
    obtain ⟨-, -, -, htasks⟩ := hs.of_silent
    -- whoever comes has not begun to work on documents
    have hops : ∀ i, sc'.documentOps i = sc.documentOps i := by
      intro i
      funext k
      rcases htasks with heq | ⟨x, hx, heq⟩
      · rw [Scene.documentOps, heq]
        rfl
      · rw [Scene.documentOps, Scene.documentOps, heq]
        rcases Nat.lt_trichotomy k sc.tasks.length with hlt | rfl | hgt
        · rw [List.getElem?_append_left hlt]
        · have hnone := Task.document?_eq_none (Task.handles?_of_isFresh hx) i
          simp [hnone]
        · have hlen : (sc.tasks ++ [x]).length ≤ k := by simp; omega
          rw [List.getElem?_eq_none hlen, List.getElem?_eq_none (Nat.le_of_lt hgt)]
    refine ⟨fun k x hk => ?_, fun i => ?_⟩
    · rcases htasks with heq | ⟨y, hy, heq⟩
      · exact h.plain k x (heq ▸ hk)
      · rw [heq] at hk
        rcases getElem?_concat_cases hk with rfl | hk
        · exact Task.plain_of_isFresh hy
        · exact h.plain k x hk
    · rw [hops]
      exact (h.order i).congr (hcalm i).1 (hcalm i).2

theorem Run.ordered {R : Scene → Event → Scene → Prop} {files : FileTree}
    (hR : ∀ {sc e sc'}, R sc e sc' → Step env sc e sc')
    (r : Run R (.start files now) sc) : Ordered sc :=
  r.invariant (fun h hs => h.step (hR hs)) (ordered_start files now)

/-! ### Open documents -/

/-- Whether a step is the one in which a closing of a document has the map. -/
def Event.closes (uri : Uri) : Event → Bool
  | .advanced _ t _ =>
    match t.handles? with
    | some (_, .document (.close u) .locked) => u.text == uri.text
    | _ => false
  | .silent => false

/-- **A step without a closing of a document.** -/
def Unclosed (env : ManagerEnvironment) (uri : Uri) (sc : Scene) (e : Event) (sc' : Scene) :
    Prop :=
  Step env sc e sc' ∧ e.closes uri = false

/-- **An open document stays open** until it is closed. -/
theorem HasOpen.step (h : HasOpen sc.manager i uri) (ho : Ordered sc)
    (hs : Unclosed env uri sc e sc') : HasOpen sc'.manager i uri := by
  obtain ⟨hs, hclose⟩ := hs
  rcases e with ⟨n, t, t'⟩ | _
  · obtain ⟨m', hn, ht, rfl⟩ := hs.of_advanced
    have hops : sc.documentOps i n = t.document? i := by
      rw [Scene.documentOps, hn, Option.bind_some]
    refine (ho.order i).isSome_of_handles hops (ht.handles (ho.plain n t hn) i) ?_ h
    intro u hu htext
    obtain ⟨⟨j, op⟩, hj, hop⟩ := Option.bind_eq_some_iff.mp hu
    split at hop
    · obtain rfl : op = _ := Operation.eq_of_document? hop
      simp [Event.closes, hj, htext] at hclose
    · cases hop
  · rw [HasOpen, (hs.calm i).1]
    exact h

end Manager

end LanguageHub
