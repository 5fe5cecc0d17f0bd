import LanguageHub.Installer.Basic

/-!
# Installing

`Installer.step` is one stage of an installation. Any number of installations may run in
any interleaving of their stages; those of one version directory take turns at its
**lock**, and each looks again for the program when it has the lock, so that only the
first one downloads.

An installation that fails before it extracts leaves the version directory as it was.
One that fails later takes the directory away. The downloaded archive is a temporary
file, and no stage after the last one leaves it behind.
-/

namespace LanguageHub

/-- What installations share. -/
structure InstallState where
  files : FileTree
  /-- For each version directory those that hold or wait for its lock, holder first. -/
  locks : List (List Path.Component × List Nat)
  /-- The number of temporary files so far. -/
  serial : Nat
  /-- The URLs that have been asked for, in their order. -/
  requests : List String
deriving Repr, Inhabited

/-- How far an installation has come. -/
inductive InstallStage where
  | begin (language : String)
  /-- It looks for the program. -/
  | looking (job : InstallJob)
  /-- It waits for the lock of the directory. -/
  | queued (job : InstallJob)
  /-- It looks again, with the lock. -/
  | lookingAgain (job : InstallJob)
  /-- It makes the directory for servers and the temporary file. -/
  | preparing (job : InstallJob)
  /-- It sends the request. -/
  | requesting (job : InstallJob) (archive : Path)
  /-- It writes the answer to the temporary file. -/
  | receiving (job : InstallJob) (archive : Path) (reply : HttpReply)
  /-- It takes an incomplete installation away. -/
  | clearing (job : InstallJob) (archive : Path)
  /-- It makes the version directory and opens the archive. -/
  | opening (job : InstallJob) (archive : Path)
  /-- It writes the entries that are left, one at a time. -/
  | extracting (job : InstallJob) (archive : Path) (left : Unpacking)
  /-- It looks for the program among what it has extracted. -/
  | verifying (job : InstallJob) (archive : Path)
  /-- It takes the version directory away because of an error. -/
  | removing (job : InstallJob) (archive : Path) (e : InstallError)
  /-- It lets the program be run. -/
  | marking (job : InstallJob) (archive : Path)
  | returned (result : Except InstallError Path)
deriving Repr, Inhabited

/-- What installations depend on besides files: the web, and what archives hold. -/
structure InstallEnvironment where
  fetch : String → HttpReply
  unpack : ArchiveKind → List UInt8 → Unpacking

namespace InstallState

/-- The state before any installation. -/
def start (files : FileTree) : InstallState := ⟨files, [], 0, []⟩

/-- Those that hold or wait for a lock. -/
def queueOf (s : InstallState) (lock : List Path.Component) : List Nat :=
  ((s.locks.find? (·.1 == lock)).map (·.2)).getD []

/-- The state with another queue for a lock. -/
def setQueue (s : InstallState) (lock : List Path.Component) (queue : List Nat) : InstallState :=
  { s with locks := (lock, queue) :: s.locks.filter (·.1 != lock) }

/-- The state with one more waiting for a lock. -/
def enter (s : InstallState) (lock : List Path.Component) (id : Nat) : InstallState :=
  s.setQueue lock (s.queueOf lock ++ [id])

/-- The state with a lock left to the next. -/
def leave (s : InstallState) (lock : List Path.Component) : InstallState :=
  s.setQueue lock ((s.queueOf lock).drop 1)

end InstallState

namespace InstallJob

/-- The lock of a job. -/
def lock (j : InstallJob) : List Path.Component := j.target.components

/-- The error of an extraction at one of its steps. -/
def stepFailed (j : InstallJob) (step detail : String) : InstallError :=
  .extractionFailed j.target (.step step detail)

/-- The error of a download. -/
def downloadFailed (j : InstallJob) (fault : DownloadFault) : InstallError :=
  .downloadFailed j.build.downloadUrl fault

/-- The name of the temporary file of a job. -/
def archiveName (j : InstallJob) (serial : Nat) : String :=
  j.server.name ++ "-" ++ j.server.version ++ "-" ++ j.platform.text ++ "-download" ++
    String.ofList ((toString (1000000 + serial)).toList.drop 1)

end InstallJob

namespace Installer

/-- What a stage of an installation makes of the state. -/
abbrev Progress := Option (InstallState × InstallStage × List LogEntry)

/-- Ends an installation that holds the lock. -/
def conclude (s : InstallState) (j : InstallJob) (result : Except InstallError Path) :
    InstallState × InstallStage :=
  (s.leave j.lock, .returned result)

/-- Ends an installation that holds the lock and has a temporary file. -/
def discard (s : InstallState) (j : InstallJob) (archive : Path)
    (result : Except InstallError Path) : InstallState × InstallStage :=
  let files := match s.files.stat archive with
    | .ok (place, .file ..) => s.files.prune place
    | _ => s.files
  conclude { s with files := files } j result

/-- Makes the directory for servers and the temporary file of a job. -/
def prepare (i : Installer) (s : InstallState) (j : InstallJob) : InstallState × InstallStage :=
  match s.files.makeDirectories (i.host.locate i.baseDir) with
  | .error e => conclude s j (.error (j.stepFailed "creating install directory" e.message))
  | .ok files =>
    let s := { s with files := files, serial := s.serial + 1 }
    let archive := i.host.tempDirectory.join (.ofString (j.archiveName s.serial))
    match s.files.write archive [] with
    | .error e =>
      conclude s j (.error (j.downloadFailed (.step "creating temporary file" e.message)))
    | .ok files => ({ s with files := files }, .requesting j archive)

/-- Writes the answer of a web server to the temporary file of a job. -/
def receive (s : InstallState) (j : InstallJob) (archive : Path) :
    HttpReply → InstallState × InstallStage × List LogEntry
  | .unreachable detail =>
    let (s, stage) := discard s j archive (.error (j.downloadFailed (.transport detail)))
    (s, stage, [])
  | .answer status phrase body fault =>
    if status < 200 ∨ 300 ≤ status then
      let (s, stage) := discard s j archive (.error (j.downloadFailed (.status status phrase)))
      (s, stage, [])
    else match s.files.write archive body with
      | .error e =>
        let (s, stage) := discard s j archive
          (.error (j.downloadFailed (.step "opening temporary file" e.message)))
        (s, stage, [])
      | .ok files =>
        match fault with
        | some detail =>
          let (s, stage) := discard { s with files := files } j archive
            (.error (j.downloadFailed (.step "response stream error" detail)))
          (s, stage, [])
        | none =>
          ({ s with files := files }, .clearing j archive, [.debug "Download complete"])

/-- One stage of an installation, known by a number of its own; nothing while it has to
wait or has ended. -/
def step (i : Installer) (env : InstallEnvironment) (id : Nat) (stage : InstallStage)
    (s : InstallState) : Progress :=
  match stage with
  | .begin language =>
    match i.job language with
    | .ok j => some (s, .looking j, [])
    | .error e => some (s, .returned (.error e), [])
  | .looking j =>
    if s.files.pathExists (i.host.locate j.executable) then
      some (s, .returned (.ok j.executable), [.debug "Language server already installed"])
    else some (s.enter j.lock id, .queued j, [])
  | .queued j =>
    if (s.queueOf j.lock).head? == some id then some (s, .lookingAgain j, []) else none
  | .lookingAgain j =>
    if s.files.pathExists (i.host.locate j.executable) then
      let (s, stage) := conclude s j (.ok j.executable)
      some (s, stage, [.debug "Language server installed by a concurrent caller"])
    else match ArchiveKind.ofUrl? j.build.downloadUrl with
      | none =>
        let (s, stage) := conclude s j
          (.error (.extractionFailed j.target (.unsupported j.build.downloadUrl)))
        some (s, stage, [])
      | some _ => some (s, .preparing j, [.info "Downloading language server"])
  | .preparing j =>
    let (s, stage) := i.prepare s j
    some (s, stage, [])
  | .requesting j archive =>
    let url := j.build.downloadUrl
    some ({ s with requests := s.requests ++ [url] }, .receiving j archive (env.fetch url), [])
  | .receiving j archive reply => some (receive s j archive reply)
  | .clearing j archive =>
    let target := i.host.locate j.target
    if s.files.pathExists target then
      match s.files.removeDirectory target with
      | .ok files =>
        some ({ s with files := files }, .opening j archive, [.debug "Clearing incomplete install"])
      | .error e =>
        let (s, stage) := discard s j archive
          (.error (j.stepFailed "clearing previous install" e.message))
        some (s, stage, [.debug "Clearing incomplete install"])
    else some (s, .opening j archive, [])
  | .opening j archive =>
    match s.files.makeDirectories (i.host.locate j.target) with
    | .error e =>
      let (s, stage) := discard s j archive
        (.error (j.stepFailed "creating version directory" e.message))
      some (s, stage, [])
    | .ok files =>
      let s := { s with files := files }
      match s.files.read archive, ArchiveKind.ofUrl? j.build.downloadUrl with
      | .ok bytes, some kind => some (s, .extracting j archive (env.unpack kind bytes), [])
      | .error e, _ =>
        some (s, .removing j archive (j.stepFailed "opening downloaded archive" e.message), [])
      | .ok _, none => some (s, .extracting j archive ⟨[], none⟩, [])
  | .extracting j archive ⟨e :: rest, fault⟩ =>
    match s.files.unpack (i.host.locate j.target) e with
    | .ok files => some ({ s with files := files }, .extracting j archive ⟨rest, fault⟩, [])
    | .error e => some (s, .removing j archive (j.stepFailed "extracting archive" e.message), [])
  | .extracting j archive ⟨[], some fault⟩ =>
    some (s, .removing j archive (.extractionFailed j.target fault), [])
  | .extracting j archive ⟨[], none⟩ => some (s, .verifying j archive, [])
  | .verifying j archive =>
    if s.files.pathExists (i.host.locate j.executable) then some (s, .marking j archive, [])
    else some (s, .removing j archive (.executableMissing j.executable), [])
  | .removing j archive e =>
    match s.files.removeDirectory (i.host.locate j.target) with
    | .ok files =>
      let (s, stage) := discard { s with files := files } j archive (.error e)
      some (s, stage, [])
    | .error fault =>
      let (s, stage) := discard s j archive (.error e)
      some (s, stage, [.debug ("Failed to remove partial install: " ++ fault.message)])
  | .marking j archive =>
    let files := if j.platform.isWindows then s.files
      else s.files.allowRunning (i.host.locate j.executable)
    let (s, stage) := discard { s with files := files } j archive (.ok j.executable)
    some (s, stage, [.info "Language server installed"])
  | .returned _ => none

end Installer

end LanguageHub
