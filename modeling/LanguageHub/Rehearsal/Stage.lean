import LanguageHub.Manager.Task
import LanguageHub.Rehearsal.Server

/-!
# The stage

A `Stage` is a manager with its callers and with rehearsed servers, under a clock of its
own. It plays **one** of the runs that the steps of sessions and managers allow:

* the background goes on as long as it can before any caller does;
* callers go on in the order in which they came, each as far as it can;
* a caller that looks at the file system lets the others go on in the meantime: it spends
  one turn on every directory that it searches for a root, and one on looking for a program;
* time passes only when nothing else happens, and at one instant callers go first.

Time is counted in milliseconds.
-/

namespace LanguageHub.Rehearsal

/-- A manager, its callers and its servers. -/
structure Stage where
  manager : Manager
  now : Nat
  tasks : List Task
  /-- For every caller how many turns it still spends on looking at the file system. -/
  looking : List Nat
  /-- The servers of the sessions, in the order of the sessions. -/
  servers : List RehearsedServer
  /-- The scripts of the launches to come; the last one is used again and again. -/
  scripts : List Script
  log : List LogEntry
deriving Inhabited

namespace Stage

/-- The script of a launch. -/
def scriptOf (scripts : List Script) (attempt : Nat) : Script :=
  (scripts[attempt]?).getD (scripts.getLast?.getD .plain)

/-- What becomes of a launch. -/
def launch (scripts : List Script) (attempt : Nat) : Except String (Option String) :=
  let s := scriptOf scripts attempt
  match s.launchFault with
  | some reason => .error reason
  | none => .ok (if s.killFault then some "scripted kill error" else none)

/-- A stage before its first step. -/
def open_ (files : FileTree) (scripts : List Script) : Stage :=
  ⟨.start files, 0, [], [], [], scripts, []⟩

/-- The stage with servers for the sessions that have none yet. -/
def enlist (st : Stage) : Stage :=
  if st.servers.length < st.manager.sessions.length then
    { st with servers := st.servers ++ [.start (scriptOf st.scripts (st.manager.attempts - 1))] }
  else st

/-! ### The background -/

/-- One step of a server. -/
def stepServer (st : Stage) (i : Nat) : Option Stage :=
  match st.servers[i]?, st.manager.sessions[i]? with
  | some server, some session =>
    (server.step st.now session.link).map fun (server, link) =>
      { st with
        servers := st.servers.set i server
        manager := st.manager.setSession i { session with link := link } }
  | _, _ => none

/-- One step of the background of a session. -/
def stepSession (st : Stage) (i : Nat) : Option Stage :=
  (st.manager.stepBackground i).map fun (m, log) =>
    { st with manager := m, log := st.log ++ log }

/-- The first step that some of the numbers below `n` can take. -/
def firstStep (step : Nat → Option Stage) (n : Nat) : Option Stage :=
  (List.range n).findSome? step

/-- One step of the background: sessions come before servers. -/
def stepBackground (st : Stage) : Option Stage :=
  firstStep st.stepSession st.manager.sessions.length <|>
    firstStep st.stepServer st.servers.length

/-- The background goes on as long as it can, for at most `fuel` steps. -/
def settleBackground : Nat → Stage → Stage
  | 0, st => st
  | fuel + 1, st =>
    match st.stepBackground with
    | some st => settleBackground fuel st
    | none => st

/-! ### The callers -/

/-- How many turns a caller spends on looking at the file system before its next stage. -/
def turnsOf (env : ManagerEnvironment) (m : Manager) : Task → Nat
  | .ensure _ _ (.begin path) =>
    let path := path.absolute env.host.directory
    if (path.toUri? env.host.directory).isSome then
      Workspace.searched env.markers m.install.files env.host.directory path
    else 0
  | .ensure _ _ (.installing _ _ _ _ (.looking _)) => 1
  | .ensure _ _ (.installing _ _ _ _ (.lookingAgain _)) => 1
  | _ => 0

/-- The stage with some callers, none of which has begun. -/
def seat (env : ManagerEnvironment) (tasks : List Task) (st : Stage) : Stage :=
  { st with tasks := tasks, looking := tasks.map (turnsOf env st.manager) }

/-- The stage without callers. -/
def dismiss (st : Stage) : Stage := { st with tasks := [], looking := [] }

/-- How many turns a caller still spends on looking at the file system. -/
def turnsLeft (st : Stage) (i : Nat) : Nat := (st.looking[i]?).getD 0

/-- One stage of a branch of a task. -/
def stepTask (env : ManagerEnvironment) (i branch : Nat) (st : Stage) : Option Stage :=
  match st.tasks[i]? with
  | some t =>
    (st.manager.step env st.now i branch t).map fun (m, t, log) =>
      enlist { st with
        manager := m
        tasks := st.tasks.set i t
        looking := st.looking.set i (turnsOf env m t)
        log := st.log ++ log }
  | none => none

/-- The number of branches of a task. -/
def branchCount (t : Task) : Nat :=
  match t with
  | .symbols _ _ (some branches) => max 1 branches.length
  | .shutdown (some branches) => max 1 branches.length
  | _ => 1

/-- A branch goes on as far as it can, for at most `fuel` stages. -/
def runBranch (env : ManagerEnvironment) (i branch : Nat) : Nat → Stage → Stage
  | 0, st => st
  | fuel + 1, st =>
    if 0 < st.turnsLeft i then st
    else match st.stepTask env i branch with
      | some st => runBranch env i branch fuel st
      | none => st

/-- How many stages a task takes at most before it waits. -/
def stageFuel : Nat := 100000

/-- A task goes on as far as it can, branch by branch, and once more when all branches
have ended. One that looks at the file system spends a turn on that instead. -/
def runTask (env : ManagerEnvironment) (i : Nat) (st : Stage) : Stage :=
  let run (st : Stage) : Stage :=
    match st.tasks[i]? with
    | some t => (List.range (branchCount t)).foldl
        (fun st branch => runBranch env i branch stageFuel st) st
    | none => st
  match st.turnsLeft i with
  | 0 => run (run st)
  | turns + 1 => { st with looking := st.looking.set i turns }

/-- All callers go on as far as they can, in their order. -/
def runTasks (env : ManagerEnvironment) (st : Stage) : Stage :=
  (List.range st.tasks.length).foldl (fun st i => runTask env i st) st

/-- The stage without sessions that nothing leads to. -/
def tidy (st : Stage) : Stage :=
  { st with manager := st.manager.releaseUnused st.tasks }

/-! ### Time -/

/-- Whether a caller can go on. -/
def canRun (env : ManagerEnvironment) (st : Stage) : Bool :=
  (List.range st.tasks.length).any fun i =>
    match st.tasks[i]? with
    | some t => 0 < st.turnsLeft i ||
        (List.range (branchCount t)).any fun b => (st.stepTask env i b).isSome
    | none => false

/-- The next instant at which something happens by itself. -/
def nextInstant (st : Stage) : Option Nat :=
  let instants := st.tasks.flatMap Task.wakeTimes ++
    st.servers.filterMap fun s => if s.gone then none else s.resumeAt
  (instants.filter (st.now < ·)).min?

/-- Everything goes on until nothing can without time passing. -/
def settle (env : ManagerEnvironment) : Nat → Stage → Stage
  | 0, st => st
  | fuel + 1, st =>
    let st := (settleBackground stageFuel st).tidy
    if st.canRun env then settle env fuel (runTasks env st).tidy
    else match st.stepBackground with
      | some st => settle env fuel st
      | none => st

/-- Lets time pass up to an instant, or as long as `goOn` says so. -/
def passUntil (env : ManagerEnvironment) (goOn : Stage → Bool) (limit : Option Nat) :
    Nat → Stage → Stage
  | 0, st => st
  | fuel + 1, st =>
    let st := settle env stageFuel st
    if !goOn st then st
    else
      let target := match st.nextInstant, limit with
        | some t, some l => some (min t l)
        | some t, none => some t
        | none, limit => limit
      match target with
      | some t =>
        if st.now < t then
          passUntil env goOn limit fuel (runTasks env { st with now := t }).tidy
        else st
      | none => st

/-- Whether a caller has not got its answer yet. -/
def isBusy (st : Stage) : Bool := st.tasks.any fun t => t.result?.isNone

/-- Starts some tasks, each as far as it can go, and lets time pass until all have their
answers; then everything settles while one more millisecond passes. -/
def play (env : ManagerEnvironment) (tasks : List Task) (st : Stage) :
    List (Except LspError Answer) × Stage :=
  let st := runTasks env (seat env tasks st)
  let st := passUntil env isBusy none stageFuel st
  let results := st.tasks.map fun t => t.result?.getD (.ok (.outcome .done))
  let st := st.dismiss
  (results, passUntil env (fun _ => true) (some (st.now + 1)) stageFuel st)

/-- Launches a server for a key and shakes hands with it; the error if that fails. The
session stays in the table until it is dropped. -/
def startSession (env : ManagerEnvironment) (key : SessionKey) (server : String)
    (killFault : Option String) (st : Stage) : Stage × Option LspError :=
  let (m, session) := st.manager.newSession (.launched key server env.timeouts killFault)
  let (m, slot) := m.newSlot
  let m := (m.setSlot slot ⟨some session, []⟩).bind key slot
  let st := enlist { st with manager := { m with attempts := m.attempts + 1 } }
  let (results, st) := play env [.direct session .startHandshake] st
  match results with
  | [.error e] => ({ st with manager := { st.manager with table := [] } }, some e)
  | _ => (st, none)

/-- Lets some time pass, and one more millisecond. -/
def wait (env : ManagerEnvironment) (ms : Nat) (st : Stage) : Stage :=
  passUntil env (fun _ => true) (some (st.now + ms + 1)) stageFuel st

/-- Gives up every session without disposing of it. -/
def dropSessions (env : ManagerEnvironment) (st : Stage) : Stage :=
  wait env 0 { st with manager := { st.manager with table := [] } }

end Stage

end LanguageHub.Rehearsal
