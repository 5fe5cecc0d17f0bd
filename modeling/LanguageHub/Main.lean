import LanguageHub.Rehearsal.Desk

/-!
# The program

`main` reads the files that a command line is about, runs it on them, and writes what it
leaves behind. The program has no way to reach the web or to start a process: of the
commands about documents it carries out what comes before a server is launched.
-/

namespace LanguageHub.Program

/-- What is written when the words are no command line. -/
def usage : String :=
  "usage: languagehub [--config FILE] [--log-file FILE] COMMAND ...\n\n" ++
  "  servers\n  platform\n  install LANGUAGE\n" ++
  "  hover | completion | definition | signature-help FILE --line N --character N\n" ++
  "  references FILE --line N --character N [--include-declaration]\n" ++
  "  symbols FILE\n" ++
  "  code-actions FILE --line N --character N [--end-line N] [--end-character N]\n" ++
  "  rename FILE NEW_NAME --line N --character N\n" ++
  "  workspace-symbols FILE QUERY\n" ++
  "  diagnostics FILE [--wait SECONDS]\n\n" ++
  "A command about a FILE takes --language LANGUAGE.\n"

/-- The lines for the reasons behind a failure; they are numbered if there are several. -/
def reasonLines (reasons : List String) : List String :=
  match reasons with
  | [reason] => ["    " ++ reason]
  | reasons => reasons.mapIdx fun i reason => "    " ++ toString i ++ ": " ++ reason

/-- What is written about a failure. -/
def report (f : Failure) : String :=
  match f.chain with
  | [] => "Error\n"
  | [message] => "Error: " ++ message ++ "\n"
  | message :: reasons =>
    "Error: " ++ message ++ "\n\nCaused by:\n" ++ "\n".intercalate (reasonLines reasons) ++ "\n"

/-- No request reaches a web server. -/
def noWeb : InstallEnvironment :=
  ⟨fun _ => .unreachable "the web cannot be reached", fun _ _ => ⟨[], none⟩⟩

/-- No process can be started. -/
def noProcesses : Rehearsal.Script :=
  { Rehearsal.Script.plain with launchFault := some "Operation not supported (os error 95)" }

/-- The tree with something at an absolute path, and directories above it. -/
def place (p : Path) (content : Option (List UInt8)) (files : FileTree) : FileTree :=
  let above := (p.parent?.bind fun d => (files.makeDirectories d).toOption).getD files
  let result := match content with
    | some bytes => above.write p bytes
    | none => above.makeDirectories p
  result.toOption.getD above

/-- The paths that a command needs, once it is known with which settings. -/
def pathsOf (h : Host) (w : Workplace) (c : Command) : List Path :=
  let documents := match c with
    | .onDocument file _ _ => [h.locate file]
    | _ => []
  documents ++ w.config.catalog.servers.filterMap fun s => (s.buildFor h.platform).map fun b =>
    h.locate (((w.installer h).versionDir s h.platform).join (.ofString b.executable))

/-! ### Effects -/

/-- The tree with what is at a path. What is there and cannot be read counts as a
directory. -/
def observe (files : FileTree) (p : Path) : IO FileTree := do
  try
    let bytes ← IO.FS.readBinFile p.display
    return place p (some bytes.toList) files
  catch
    | .noFileOrDirectory .. => return files
    | _ => return place p none files

/-- Makes the log file, if it can be made. -/
def touch (p : Path) : IO Unit := do
  try
    IO.FS.withFile p.display .append fun _ => pure ()
  catch _ => pure ()

/-- The host as the environment describes it. -/
def host : IO Host := do
  let here ← IO.currentDir
  let home := (← IO.getEnv "HOME").getD "/"
  let data := (← IO.getEnv "XDG_DATA_HOME").getD (home ++ "/.local/share")
  let temp := (← IO.getEnv "TMPDIR").getD "/tmp"
  return {
    directory := .ofString here.toString
    home := .ofString home
    dataDirectory := .ofString data
    tempDirectory := .ofString temp
    platform := ⟨.linux, .x64⟩
    processId := 0 }

/-- Runs an invocation on the files of the host. -/
def runOnHost (h : Host) (i : Invocation) (words : List String) : IO Ending := do
  let log := i.logFile.toList.map h.locate
  log.forM touch
  let settings := h.locate (i.config.getD (Config.userFile h))
  let files ← (settings :: log).foldlM observe .empty
  let files ← match i.workplace h files with
    | .ok w => (pathsOf h w i.command).foldlM observe files
    | .error _ => pure files
  return (Rehearsal.runWords h noWeb [noProcesses] words files).1

end LanguageHub.Program

/-- Runs a command line. -/
def main (words : List String) : IO UInt32 := do
  let ending ← match LanguageHub.Invocation.ofWords? words with
    | some i => LanguageHub.Program.runOnHost (← LanguageHub.Program.host) i words
    | none => pure .misuse
  match ending with
  | .success output => IO.print output
  | .failure f => IO.eprint (LanguageHub.Program.report f)
  | .misuse => IO.eprint LanguageHub.Program.usage
  return ending.exitCode.toUInt32
