import LanguageHub.CommandLine.Run
import LanguageHub.Installer.Run
import LanguageHub.Rehearsal.Stage

/-!
# The stage as a desk

Commands can be run on a stage, one task at a time. A desk does not let the background
go on after a task has ended: what a command does next it does at once.

`Rehearsal.runWords` runs a whole command line against scripted servers. A launch of
one needs a program that the tree of files lets start.
-/

namespace LanguageHub.Rehearsal

namespace Stage

/-- Goes on until every caller has its answer, for at most `fuel` rounds; time passes only
when nothing else happens. -/
def finishFor (env : ManagerEnvironment) : Nat → Stage → Stage
  | 0, st => st
  | fuel + 1, st =>
    let st := (runTasks env st).tidy
    if !st.isBusy then st
    else
      let st := (settleBackground stageFuel st).tidy
      if st.canRun env then finishFor env fuel st
      else match st.nextInstant with
        | some t => finishFor env fuel { st with now := t }
        | none => st

/-- Carries out one task to its end. -/
def perform (env : ManagerEnvironment) (task : Task) (st : Stage) :
    Except LspError Answer × Stage :=
  let st := finishFor env stageFuel (seat env [task] st)
  let result := (st.tasks.head? >>= Task.result?).getD (.ok (.outcome .done))
  (result, st.dismiss)

/-- Has the server for a language installed. -/
def install (env : ManagerEnvironment) (language : String) (st : Stage) :
    Except InstallError Path × Stage :=
  let (results, state, log) := env.installer.run env.web [language] st.manager.install
  (results.headD (.error (.notConfigured language)),
    { st with manager := { st.manager with install := state }, log := st.log ++ log })

/-- Whether the first subscriber has got diagnostics of a document. -/
def hasPublication (st : Stage) (uri : Uri) : Bool :=
  (st.manager.hub.subscribers.head?).any fun s => s.events.any (·.uri == uri)

/-- Waits for diagnostics of a document until an instant, for at most `fuel` rounds. -/
def awaitPublicationFor (uri : Uri) (deadline : Nat) : Nat → Stage → Stage
  | 0, st => st
  | fuel + 1, st =>
    if st.hasPublication uri || deadline ≤ st.now then st
    else
      let st := settleBackground stageFuel st
      if st.hasPublication uri then st
      else
        let next := (st.nextInstant.getD deadline)
        awaitPublicationFor uri deadline fuel { st with now := min next deadline }

/-- Waits for diagnostics of a document, but not longer than some milliseconds. -/
def awaitPublication (uri : Uri) (ms : Nat) (st : Stage) : Stage :=
  awaitPublicationFor uri (st.now + ms) stageFuel st

/-- The desk that a stage is. -/
def desk (env : ManagerEnvironment) : Desk Stage :=
  ⟨(·.manager), perform env, install env, awaitPublication⟩

end Stage

/-- What becomes of a launch of a program among some files. -/
def launchAmong (h : Host) (files : FileTree) (scripts : List Script) (attempt : Nat)
    (spec : LaunchSpec) : Except String (Option String) :=
  match files.startFault? (h.locate spec.workingDir) spec.executable with
  | some e => .error e.message
  | none => Stage.launch scripts attempt

/-- Runs a command line against scripted servers: how it ends, and the stage then. -/
def runWords (h : Host) (web : InstallEnvironment) (scripts : List Script)
    (words : List String) (files : FileTree) : Ending × Stage :=
  match Invocation.ofWords? words with
  | none => (.misuse, .open_ files scripts)
  | some i =>
    match i.openLog h files with
    | .error f => (.failure f, .open_ files scripts)
    | .ok files =>
      match i.workplace h files with
      | .error f => (.failure f, .open_ files scripts)
      | .ok w =>
        let env := w.environment h web (launchAmong h files scripts)
        let st := Stage.open_ files scripts
        let st := { st with manager := { st.manager with hub := st.manager.hub.subscribe } }
        let (result, st) := i.command.run (Stage.desk env) h w st
        (.ofResult result, st)

end LanguageHub.Rehearsal
