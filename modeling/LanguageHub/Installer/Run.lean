import LanguageHub.Installer.Install

/-!
# Running installations

`Installer.run` plays **one** of the runs that the stages of some installations allow:
again and again the first one that can go on takes a stage, until none can. They are known
by their places in the list.
-/

namespace LanguageHub

namespace Installer

/-- The first of some installations that can go on, after its stage, and what is shared
then. -/
def stepFirst (i : Installer) (env : InstallEnvironment) (stages : List InstallStage)
    (s : InstallState) : Option (List InstallStage × InstallState × List LogEntry) :=
  (List.range stages.length).findSome? fun n =>
    (stages[n]?).bind fun stage => (i.step env n stage s).map fun (s, stage, log) =>
      (stages.set n stage, s, log)

/-- Runs installations for at most `fuel` stages. -/
def runFor (i : Installer) (env : InstallEnvironment) :
    Nat → List InstallStage → InstallState → List InstallStage × InstallState × List LogEntry
  | 0, stages, s => (stages, s, [])
  | fuel + 1, stages, s =>
    match i.stepFirst env stages s with
    | some (stages, s, log) =>
      let (stages, s, more) := i.runFor env fuel stages s
      (stages, s, log ++ more)
    | none => (stages, s, [])

/-- How many stages are taken at most. -/
def runFuel : Nat := 100000

/-- What an installation has come to; one that has not ended has not found its program. -/
def resultOf (i : Installer) (language : String) : InstallStage → Except InstallError Path
  | .returned result => result
  | _ => (i.location language).bind fun path => .error (.executableMissing path)

/-- Has the servers for some languages installed at the same time. -/
def run (i : Installer) (env : InstallEnvironment) (languages : List String)
    (s : InstallState) : List (Except InstallError Path) × InstallState × List LogEntry :=
  let (stages, s, log) := i.runFor env runFuel (languages.map .begin) s
  (List.zipWith i.resultOf languages stages, s, log)

end Installer

end LanguageHub
