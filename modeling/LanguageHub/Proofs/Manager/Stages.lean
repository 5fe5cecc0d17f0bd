import LanguageHub.Proofs.Manager.Table
import LanguageHub.Proofs.Session.Stages

/-!
# What a stage of a task does

`Manager.step` is one stage of one task of a manager. As `Session.OperationStep` does for
the operations of one session, this file turns the function into **relations**, one for
each kind of task, with one constructor for each way in which a stage can end.

Most stages of most tasks only hand on one stage of an operation to one session
(`Manager.SessionStep`). What is particular to the manager is an assurance of a session
(`Manager.EnsureStep`): only it binds keys, fills slots and launches servers.
-/

namespace LanguageHub

namespace Manager

variable {env : ManagerEnvironment} {now id branch : Nat} {m m' : Manager} {op op' : Operation}
  {log : List LogEntry} {t : Task}

/-- **One stage of an operation on one of the sessions**, and nothing else. -/
inductive SessionStep (env : ManagerEnvironment) (now id : Nat) (m : Manager) (i : Nat)
    (op : Operation) : Manager → Operation → Prop
  | mk {s s' : Session} {op' : Operation} : m.sessions[i]? = some s →
      Session.OperationStep env.host now id s op s' op' →
      SessionStep env now id m i op (m.setSession i s') op'

theorem SessionStep.of_stepSession {i : Nat}
    (h : m.stepSession env now id i op = some (m', op', log)) :
    SessionStep env now id m i op m' op' := by
  unfold stepSession at h
  split at h
  · next s hs =>
    obtain ⟨⟨s', o, l⟩, ho, heq⟩ := Option.map_eq_some_iff.mp h
    cases heq
    exact .mk hs (.of_stepOperation ho)
  · cases h

/-- An operation that has ended has no stage left. -/
theorem SessionStep.result?_eq_none {i : Nat} (h : SessionStep env now id m i op m' op') :
    op.result? = none := by
  cases h with
  | mk _ ho => cases ho <;> rfl

/-! ### Assuring a session -/

/-- **One stage of an assurance**, which is known as `id`. -/
inductive EnsureStep (env : ManagerEnvironment) (now id : Nat) (language text : String)
    (m : Manager) : EnsureStage → Manager → Task → Prop
  | nameless (path : Path) :
      (path.absolute env.host.directory).toUri? env.host.directory = none →
      EnsureStep env now id language text m (.begin path) m
        (.fail (.invalidPath (path.absolute env.host.directory)))
  | root (path : Path) (uri : Uri) :
      (path.absolute env.host.directory).toUri? env.host.directory = some uri →
      EnsureStep env now id language text m (.begin path) m (.ensure language text (.rooted uri
        ⟨Workspace.findRoot env.markers m.install.files env.host.directory
          (path.absolute env.host.directory), language⟩))
  /-- The key is new. -/
  | fresh (uri : Uri) (key : SessionKey) : m.slotOf key = none →
      EnsureStep env now id language text m (.rooted uri key)
        (m.newSlot.1.bind key m.slots.length)
        (.ensure language text (.entering uri key m.slots.length))
  /-- The session of the key has ended. -/
  | replace (uri : Uri) (key : SessionKey) (slot old : Nat) : m.slotOf key = some slot →
      m.sessionIn slot = some old → (m.stateOf old).isTerminal = true →
      EnsureStep env now id language text m (.rooted uri key)
        (m.newSlot.1.bind key m.slots.length)
        (.ensure language text (.replacing uri key m.slots.length old .startDispose))
  /-- The key has a slot, and no session of it has ended. -/
  | share (uri : Uri) (key : SessionKey) (slot : Nat) : m.slotOf key = some slot →
      (∀ i, m.sessionIn slot = some i → (m.stateOf i).isTerminal = false) →
      EnsureStep env now id language text m (.rooted uri key) m
        (.ensure language text (.entering uri key slot))
  | dispose (uri : Uri) (key : SessionKey) (slot old : Nat) {op op' : Operation}
      {m' : Manager} : SessionStep env now id m old op m' op' →
      EnsureStep env now id language text m (.replacing uri key slot old op) m'
        (.ensure language text (.replacing uri key slot old op'))
  | disposed (uri : Uri) (key : SessionKey) (slot old : Nat)
      (r : Except LspError Outcome) :
      EnsureStep env now id language text m (.replacing uri key slot old (.returned r)) m
        (.ensure language text (.entering uri key slot))
  | meet (uri : Uri) (key : SessionKey) (slot session : Nat) :
      m.sessionIn slot = some session →
      EnsureStep env now id language text m (.entering uri key slot) m
        (.ensure language text (openIn uri language text session))
  | queue (uri : Uri) (key : SessionKey) (slot : Nat) : m.sessionIn slot = none →
      EnsureStep env now id language text m (.entering uri key slot) (m.enterSlot slot id)
        (.ensure language text (.queued uri key slot))
  | served (uri : Uri) (key : SessionKey) (slot session : Nat) :
      m.sessionIn slot = some session →
      EnsureStep env now id language text m (.queued uri key slot) m
        (.ensure language text (openIn uri language text session))
  /-- The creation begins. -/
  | create (uri : Uri) (key : SessionKey) (slot : Nat) (server : Server) :
      m.sessionIn slot = none → m.creatorAt slot = some id →
      env.installer.catalog.resolve key.language = some server →
      EnsureStep env now id language text m (.queued uri key slot) m
        (.ensure language text (.installing uri key slot server (.begin key.language)))
  | unknown (uri : Uri) (key : SessionKey) (slot : Nat) :
      m.sessionIn slot = none → m.creatorAt slot = some id →
      env.installer.catalog.resolve key.language = none →
      EnsureStep env now id language text m (.queued uri key slot) m
        (.ensure language text (.failing key slot (.notConfigured key.language)))
  | install (uri : Uri) (key : SessionKey) (slot : Nat) (server : Server)
      {stage stage' : InstallStage} {state : InstallState} {log : List LogEntry} :
      env.installer.step env.web id stage m.install = some (state, stage', log) →
      EnsureStep env now id language text m (.installing uri key slot server stage)
        { m with install := state }
        (.ensure language text (.installing uri key slot server stage'))
  | installed (uri : Uri) (key : SessionKey) (slot : Nat) (server : Server)
      (executable : Path) :
      EnsureStep env now id language text m
        (.installing uri key slot server (.returned (.ok executable))) m
        (.ensure language text (.launching uri key slot server executable))
  | uninstalled (uri : Uri) (key : SessionKey) (slot : Nat) (server : Server)
      (e : InstallError) :
      EnsureStep env now id language text m
        (.installing uri key slot server (.returned (.error e))) m
        (.ensure language text (.failing key slot (.ofInstall e)))
  | malformed (uri : Uri) (key : SessionKey) (slot : Nat) (server : Server)
      (executable : Path) (e : LspError) :
      EnsureStep env now id language text m (.launching uri key slot server executable) m
        (.ensure language text (.failing key slot e))
  | unlaunched (uri : Uri) (key : SessionKey) (slot : Nat) (server : Server)
      (executable : Path) (e : LspError) :
      EnsureStep env now id language text m (.launching uri key slot server executable)
        { m with attempts := m.attempts + 1 } (.ensure language text (.failing key slot e))
  | launch (uri : Uri) (key : SessionKey) (slot : Nat) (server : Server)
      (executable : Path) (spec : LaunchSpec) (killFault : Option String) :
      EnsureStep env now id language text m (.launching uri key slot server executable)
        { m with
          attempts := m.attempts + 1
          sessions := m.sessions ++ [.launched key server.name env.timeouts killFault]
          launches := m.launches ++ [spec] }
        (.ensure language text (.handshaking uri key slot m.sessions.length .startHandshake))
  | greet (uri : Uri) (key : SessionKey) (slot session : Nat) {op op' : Operation}
      {m' : Manager} : SessionStep env now id m session op m' op' →
      EnsureStep env now id language text m (.handshaking uri key slot session op) m'
        (.ensure language text (.handshaking uri key slot session op'))
  /-- The creation has succeeded, and everybody at the slot has the session. -/
  | fill (uri : Uri) (key : SessionKey) (slot session : Nat) (o : Outcome) :
      EnsureStep env now id language text m
        (.handshaking uri key slot session (.returned (.ok o)))
        (m.setSlot slot ⟨some session, []⟩)
        (.ensure language text (openIn uri language text session))
  | ungreeted (uri : Uri) (key : SessionKey) (slot session : Nat) (e : LspError) :
      EnsureStep env now id language text m
        (.handshaking uri key slot session (.returned (.error e))) m
        (.ensure language text (.failing key slot e))
  /-- The creation has failed, and its slot leaves the table. -/
  | abandon (key : SessionKey) (slot : Nat) (e : LspError) : m.slotOf key = some slot →
      m.sessionIn slot = none →
      EnsureStep env now id language text m (.failing key slot e)
        ((m.leaveSlot slot).unbind key) (.fail e)
  /-- The creation has failed, and its slot is not the one in the table. -/
  | leave (key : SessionKey) (slot : Nat) (e : LspError) :
      (m.slotOf key = some slot → m.sessionIn slot ≠ none) →
      EnsureStep env now id language text m (.failing key slot e) (m.leaveSlot slot) (.fail e)
  | openDocument (session : Nat) {op op' : Operation} {m' : Manager} :
      SessionStep env now id m session op m' op' →
      EnsureStep env now id language text m (.opening session op) m'
        (.ensure language text (.opening session op'))
  | done (session : Nat) (r : Except LspError Outcome) :
      EnsureStep env now id language text m (.opening session (.returned r)) m
        (.returned (r.map .outcome))

variable {language text : String}

theorem EnsureStep.of_begin {path : Path}
    (h : m.stepEnsure env now id language text (.begin path) = some (m', t, log)) :
    EnsureStep env now id language text m (.begin path) m' t := by
  simp only [stepEnsure] at h
  split at h
  · next hnone =>
    cases h
    exact .nameless path hnone
  · next uri huri =>
    cases h
    exact .root path uri huri

theorem EnsureStep.of_rooted {uri : Uri} {key : SessionKey}
    (h : m.stepEnsure env now id language text (.rooted uri key) = some (m', t, log)) :
    EnsureStep env now id language text m (.rooted uri key) m' t := by
  simp only [stepEnsure, slotFor] at h
  cases hslot : m.slotOf key with
  | none =>
    rw [hslot] at h
    cases h
    exact .fresh uri key hslot
  | some slot =>
    simp only [hslot] at h
    cases hold : m.sessionIn slot with
    | none =>
      simp only [hold] at h
      cases h
      exact .share uri key slot hslot fun i hi => by simp [hold] at hi
    | some old =>
      simp only [hold] at h
      by_cases hend : (m.stateOf old).isTerminal = true
      · rw [if_pos hend] at h
        cases h
        exact .replace uri key slot old hslot hold hend
      · rw [if_neg hend] at h
        cases h
        refine .share uri key slot hslot fun i hi => ?_
        rw [hold] at hi
        cases hi
        simpa using hend

theorem EnsureStep.of_launching {uri : Uri} {key : SessionKey} {slot : Nat} {server : Server}
    {executable : Path}
    (h : m.stepEnsure env now id language text (.launching uri key slot server executable) =
      some (m', t, log)) :
    EnsureStep env now id language text m (.launching uri key slot server executable) m' t := by
  simp only [stepEnsure, launchServer] at h
  cases harg : Template.arguments server.arguments key.root env.host.processId with
  | error e =>
    simp only [harg] at h
    cases h
    exact .malformed uri key slot server executable _
  | ok arguments =>
    simp only [harg, Nat.add_sub_cancel] at h
    cases hl : env.launch m.attempts ⟨server.name, executable, arguments, key.root⟩ with
    | error reason =>
      simp only [hl] at h
      cases h
      exact .unlaunched uri key slot server executable _
    | ok killFault =>
      simp only [hl] at h
      cases h
      exact .launch uri key slot server executable _ killFault

theorem EnsureStep.of_failing {key : SessionKey} {slot : Nat} {e : LspError}
    (h : m.stepEnsure env now id language text (.failing key slot e) = some (m', t, log)) :
    EnsureStep env now id language text m (.failing key slot e) m' t := by
  have hslot : (m.leaveSlot slot).slotOf key = m.slotOf key := by
    unfold slotOf
    rw [leaveSlot_table]
  simp only [stepEnsure, hslot, sessionIn_leaveSlot] at h
  cases h
  split
  · next hc =>
    rw [Bool.and_eq_true, beq_iff_eq, Option.isNone_iff_eq_none] at hc
    exact .abandon key slot e hc.1 hc.2
  · next hc =>
    refine .leave key slot e fun hs hn => hc ?_
    rw [Bool.and_eq_true, beq_iff_eq, Option.isNone_iff_eq_none]
    exact ⟨hs, hn⟩

/-- A stage that hands on a stage of an operation. -/
theorem SessionStep.of_bind {i : Nat} {f : Operation → EnsureStage}
    (h : ((m.stepSession env now id i op).bind fun x =>
      some (x.1, Task.ensure language text (f x.2.1), x.2.2)) = some (m', t, log)) :
    ∃ op', SessionStep env now id m i op m' op' ∧ t = .ensure language text (f op') := by
  obtain ⟨⟨m₁, op', l⟩, hs, heq⟩ := Option.bind_eq_some_iff.mp h
  cases heq
  exact ⟨op', .of_stepSession hs, rfl⟩

theorem EnsureStep.of_stepEnsure {stage : EnsureStage}
    (h : m.stepEnsure env now id language text stage = some (m', t, log)) :
    EnsureStep env now id language text m stage m' t := by
  cases stage with
  | begin path => exact .of_begin h
  | rooted uri key => exact .of_rooted h
  | replacing uri key slot old op =>
    cases op with
    | returned r =>
      cases h
      exact .disposed uri key slot old r
    | _ =>
      obtain ⟨op', hs, rfl⟩ := SessionStep.of_bind h
      exact .dispose uri key slot old hs
  | entering uri key slot =>
    simp only [stepEnsure] at h
    split at h
    · next i hi =>
      cases h
      exact .meet uri key slot i hi
    · next hn =>
      cases h
      exact .queue uri key slot hn
  | queued uri key slot =>
    simp only [stepEnsure] at h
    split at h
    · next i hi =>
      cases h
      exact .served uri key slot i hi
    · next hn =>
      split at h
      · next hc =>
        cases h
        unfold beginCreation
        split
        · next server hr => exact .create uri key slot server hn (isCreator_iff.mp hc) hr
        · next hr => exact .unknown uri key slot hn (isCreator_iff.mp hc) hr
      · cases h
  | installing uri key slot server stage =>
    by_cases hr : ∃ r, stage = .returned r
    · obtain ⟨r, rfl⟩ := hr
      cases r with
      | ok executable =>
        cases h
        exact .installed uri key slot server executable
      | error e =>
        cases h
        exact .uninstalled uri key slot server e
    · have hi : ((env.installer.step env.web id stage m.install).bind fun x =>
          some (({ m with install := x.1 } : Manager),
            Task.ensure language text (.installing uri key slot server x.2.1), x.2.2)) =
          some (m', t, log) := by
        cases stage with
        | returned r => exact absurd ⟨r, rfl⟩ hr
        | _ => exact h
      obtain ⟨⟨state, stage', l⟩, hs, heq⟩ := Option.bind_eq_some_iff.mp hi
      cases heq
      exact .install uri key slot server hs
  | launching uri key slot server executable => exact .of_launching h
  | handshaking uri key slot session op =>
    cases op with
    | returned r =>
      cases r with
      | ok o =>
        cases h
        exact .fill uri key slot session o
      | error e =>
        cases h
        exact .ungreeted uri key slot session e
    | _ =>
      obtain ⟨op', hs, rfl⟩ := SessionStep.of_bind h
      exact .greet uri key slot session hs
  | failing key slot e => exact .of_failing h
  | opening session op =>
    cases op with
    | returned r =>
      cases r with
      | ok o =>
        cases h
        exact .done session (.ok o)
      | error e =>
        cases h
        exact .done session (.error e)
    | _ =>
      obtain ⟨op', hs, rfl⟩ := SessionStep.of_bind h
      exact .openDocument session hs

/-! ### Routed actions -/

/-- Whether an operation has found a document open. -/
def foundOpen : Except LspError Outcome → Bool
  | .ok (.flag b) => b
  | _ => false

/-- **One stage of a routed action.** -/
inductive RoutedStep (env : ManagerEnvironment) (now id : Nat) (action : RoutedAction)
    (m : Manager) : RoutedStage → Manager → Task → Prop
  | nameless (path : Path) :
      (path.absolute env.host.directory).toUri? env.host.directory = none →
      RoutedStep env now id action m (.begin path) m
        (.fail (.invalidPath (path.absolute env.host.directory)))
  | begin (path : Path) (uri : Uri) :
      (path.absolute env.host.directory).toUri? env.host.directory = some uri →
      RoutedStep env now id action m (.begin path) m (.routed action
        (askNext (path.absolute env.host.directory) uri []
          (m.owners (path.absolute env.host.directory))))
  | ask (path : Path) (uri : Uri) (known : List Candidate) (session : Nat) (rest : List Nat)
      {op op' : Operation} {m' : Manager} : SessionStep env now id m session op m' op' →
      RoutedStep env now id action m (.asking path uri known session op rest) m'
        (.routed action (.asking path uri known session op' rest))
  | told (path : Path) (uri : Uri) (known : List Candidate) (session : Nat) (rest : List Nat)
      (r : Except LspError Outcome) :
      RoutedStep env now id action m (.asking path uri known session (.returned r) rest) m
        (.routed action (askNext path uri
          (known ++ [m.candidate session (foundOpen r)]) rest))
  | choose (path : Path) (uri : Uri) (known : List Candidate) (session : Nat) :
      Manager.choose known = some session →
      RoutedStep env now id action m (.choosing path uri known) m
        (.routed action (.running session (RoutedAction.operation uri action)))
  | ownerless (path : Path) (uri : Uri) (known : List Candidate) :
      Manager.choose known = none →
      RoutedStep env now id action m (.choosing path uri known) m (.fail (.sessionNotFound path))
  | run (session : Nat) {op op' : Operation} {m' : Manager} :
      SessionStep env now id m session op m' op' →
      RoutedStep env now id action m (.running session op) m'
        (.routed action (.running session op'))
  | done (session : Nat) (r : Except LspError Outcome) :
      RoutedStep env now id action m (.running session (.returned r)) m
        (.returned (r.map .outcome))

theorem RoutedStep.of_stepRouted {action : RoutedAction} {stage : RoutedStage}
    (h : m.stepRouted env now id action stage = some (m', t, log)) :
    RoutedStep env now id action m stage m' t := by
  cases stage with
  | begin path =>
    simp only [stepRouted] at h
    split at h
    · next hnone =>
      cases h
      exact .nameless path hnone
    · next uri huri =>
      cases h
      exact .begin path uri huri
  | asking path uri known session op rest =>
    cases op with
    | returned r =>
      cases h
      exact .told path uri known session rest r
    | _ =>
      obtain ⟨⟨m₁, op', l⟩, hs, heq⟩ := Option.bind_eq_some_iff.mp h
      cases heq
      exact .ask path uri known session rest (.of_stepSession hs)
  | choosing path uri known =>
    simp only [stepRouted] at h
    split at h
    · next session hc =>
      cases h
      exact .choose path uri known session hc
    · next hc =>
      cases h
      exact .ownerless path uri known hc
  | running session op =>
    cases op with
    | returned r =>
      cases r with
      | ok o =>
        cases h
        exact .done session (.ok o)
      | error e =>
        cases h
        exact .done session (.error e)
    | _ =>
      obtain ⟨⟨m₁, op', l⟩, hs, heq⟩ := Option.bind_eq_some_iff.mp h
      cases heq
      exact .run session (.of_stepSession hs)

/-! ### Any task -/

/-- **One stage of a task**, which is known as `id`. -/
inductive TaskStep (env : ManagerEnvironment) (now id : Nat) (m : Manager) :
    Task → Manager → Task → Prop
  | ensure {language text : String} {stage : EnsureStage} {m' : Manager} {t : Task} :
      EnsureStep env now id language text m stage m' t →
      TaskStep env now id m (.ensure language text stage) m' t
  | routed {action : RoutedAction} {stage : RoutedStage} {m' : Manager} {t : Task} :
      RoutedStep env now id action m stage m' t →
      TaskStep env now id m (.routed action stage) m' t
  | search (query : String) (cancelAt : Option Nat) :
      TaskStep env now id m (.symbols query cancelAt none) m (.symbols query cancelAt
        (some ((m.listed.filter fun i => m.stateOf i == .ready).map fun i =>
          (i, .startQuery (.workspaceSymbols query) cancelAt))))
  | searchBranch (query : String) (cancelAt : Option Nat) (branch i : Nat)
      {branches : List (Nat × Operation)} {op op' : Operation} {m' : Manager} :
      branches[branch]? = some (i, op) → SessionStep env now id m i op m' op' →
      TaskStep env now id m (.symbols query cancelAt (some branches)) m'
        (.symbols query cancelAt (some (branches.set branch (i, op'))))
  | searched (query : String) (cancelAt : Option Nat) (branches : List (Nat × Operation)) :
      allReturned branches = true →
      TaskStep env now id m (.symbols query cancelAt (some branches)) m
        (.returned (.ok (.symbols (branches.flatMap foundBy))))
  /-- The table is emptied, and there was no session in it. -/
  | drainNone : m.listed = [] →
      TaskStep env now id m (.shutdown none) { m with table := [] } .finish
  /-- The table is emptied, and its sessions are to be disposed of. -/
  | drain : m.listed ≠ [] → TaskStep env now id m (.shutdown none) { m with table := [] }
      (.shutdown (some (m.listed.map fun i => (i, .startDispose))))
  | drainBranch (branch i : Nat) {branches : List (Nat × Operation)} {op op' : Operation}
      {m' : Manager} : branches[branch]? = some (i, op) →
      SessionStep env now id m i op m' op' →
      TaskStep env now id m (.shutdown (some branches)) m'
        (.shutdown (some (branches.set branch (i, op'))))
  | drained (branches : List (Nat × Operation)) : allReturned branches = true →
      TaskStep env now id m (.shutdown (some branches)) m .finish
  | direct (i : Nat) {op op' : Operation} {m' : Manager} :
      SessionStep env now id m i op m' op' →
      TaskStep env now id m (.direct i op) m' (.direct i op')
  | directed (i : Nat) (r : Except LspError Outcome) :
      TaskStep env now id m (.direct i (.returned r)) m (.returned (r.map .outcome))
  | wait (until_ : Nat) : until_ ≤ now → TaskStep env now id m (.pause until_) m .finish

theorem TaskStep.ensureStep {language text : String} {stage : EnsureStage}
    (h : TaskStep env now id m (.ensure language text stage) m' t) :
    EnsureStep env now id language text m stage m' t := by
  cases h with
  | ensure he => exact he

theorem TaskStep.routedStep {action : RoutedAction} {stage : RoutedStage}
    (h : TaskStep env now id m (.routed action stage) m' t) :
    RoutedStep env now id action m stage m' t := by
  cases h with
  | routed hr => exact hr

/-- A stage of a branch. -/
theorem SessionStep.of_stepBranch {branches branches' : List (Nat × Operation)}
    (h : m.stepBranch env now id branch branches = some (m', branches', log)) :
    ∃ i op op', branches[branch]? = some (i, op) ∧ SessionStep env now id m i op m' op' ∧
      branches' = branches.set branch (i, op') := by
  unfold stepBranch at h
  split at h
  · next i op hb =>
    obtain ⟨⟨m₁, op', l⟩, hs, heq⟩ := Option.map_eq_some_iff.mp h
    cases heq
    exact ⟨i, op, op', hb, .of_stepSession hs, rfl⟩
  · cases h

theorem TaskStep.of_stepSymbols {query : String} {cancelAt : Option Nat}
    {branches : Option (List (Nat × Operation))}
    (h : m.stepSymbols env now id branch query cancelAt branches = some (m', t, log)) :
    TaskStep env now id m (.symbols query cancelAt branches) m' t := by
  cases branches with
  | none =>
    cases h
    exact .search query cancelAt
  | some branches =>
    simp only [stepSymbols] at h
    split at h
    · next hall =>
      cases h
      exact .searched query cancelAt branches hall
    · obtain ⟨⟨m₁, branches', l⟩, hb, heq⟩ := Option.map_eq_some_iff.mp h
      cases heq
      obtain ⟨i, op, op', hi, hs, rfl⟩ := SessionStep.of_stepBranch hb
      exact .searchBranch query cancelAt branch i hi hs

theorem TaskStep.of_stepShutdown {branches : Option (List (Nat × Operation))}
    (h : m.stepShutdown env now id branch branches = some (m', t, log)) :
    TaskStep env now id m (.shutdown branches) m' t := by
  cases branches with
  | none =>
    simp only [stepShutdown] at h
    split at h
    · next hnone =>
      cases h
      exact .drainNone (by simpa using hnone)
    · next hsome =>
      cases h
      exact .drain fun hnone => hsome (by simp [hnone])
  | some branches =>
    simp only [stepShutdown] at h
    split at h
    · next hall =>
      cases h
      exact .drained branches hall
    · obtain ⟨⟨m₁, branches', l⟩, hb, heq⟩ := Option.map_eq_some_iff.mp h
      cases heq
      obtain ⟨i, op, op', hi, hs, rfl⟩ := SessionStep.of_stepBranch hb
      exact .drainBranch branch i hi hs

theorem TaskStep.of_step {t t' : Task} (h : m.step env now id branch t = some (m', t', log)) :
    TaskStep env now id m t m' t' := by
  cases t with
  | ensure language text stage => exact .ensure (.of_stepEnsure h)
  | routed action stage => exact .routed (.of_stepRouted h)
  | symbols query cancelAt branches => exact .of_stepSymbols h
  | shutdown branches => exact .of_stepShutdown h
  | direct i op =>
    cases op with
    | returned r =>
      cases h
      exact .directed i r
    | _ =>
      obtain ⟨⟨m₁, op', l⟩, hs, heq⟩ := Option.map_eq_some_iff.mp h
      cases heq
      exact .direct i (.of_stepSession hs)
  | pause until_ =>
    simp only [step] at h
    split at h
    · next ht =>
      cases h
      exact .wait until_ ht
    · cases h
  | returned r => cases h

end Manager

end LanguageHub
