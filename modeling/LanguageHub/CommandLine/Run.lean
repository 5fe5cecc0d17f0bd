import LanguageHub.CommandLine.Command
import LanguageHub.CommandLine.Language
import LanguageHub.Manager.Task

/-!
# Running a command

A command is run in three steps. First it is **prepared**: the log file is opened, the
settings are loaded and the root markers are read. Then it is **carried out** by a
manager, and whatever comes of that, the manager disposes of all sessions at the end.

Who carries out a task, and under which clock, is left open: a `Desk` is a place for
tasks, and `Command.run` talks to a manager through its desk alone. A command that is
about a document first has it opened in its session, and only then asks its question.

A `Failure` says at which step a command has failed; `Failure.chain` are the words for
it, the outermost first.
-/

namespace LanguageHub

/-- Why a command fails. -/
inductive Failure where
  | logFile (path : Path) (e : FileError)
  | settings (e : Config.Error)
  | markers (e : Glob.Error)
  /-- The language of a file cannot be inferred. -/
  | languageUnknown (file : Path)
  | unreadable (file : Path) (e : FileError)
  /-- The document cannot be opened in a session. -/
  | unopened (language : String) (file : Path) (e : LspError)
  | request (e : LspError)
  | install (e : InstallError)
deriving Repr

namespace Failure

/-- The words for what was tried. -/
def context : Failure → List String
  | .logFile path _ => ["opening log file " ++ path.display]
  | .settings _ => ["loading configuration"]
  | .markers _ => ["invalid root_markers"]
  | .languageUnknown file =>
    ["cannot infer a language for " ++ file.display ++ "; pass --language"]
  | .unreadable file _ => ["reading " ++ file.display]
  | .unopened language file _ =>
    ["starting a " ++ language ++ " session for " ++ file.display]
  | .request _ | .install _ => []

/-- The words for what has gone wrong. -/
def causes : Failure → List String
  | .logFile _ e | .unreadable _ e => [e.message]
  | .settings e => [e.message]
  | .markers e => [e.message]
  | .languageUnknown _ => []
  | .unopened _ _ e | .request e => e.message :: e.causes
  | .install e => [e.message]

/-- The words for a failure, the outermost first. -/
def chain (f : Failure) : List String := f.context ++ f.causes

end Failure

/-! ### Preparing a command -/

/-- What a command works with. -/
structure Workplace where
  config : Config
  markers : RootMarkers

namespace Invocation

/-- The files after the log file of an invocation is opened. -/
def openLog (i : Invocation) (h : Host) (files : FileTree) : Except Failure FileTree :=
  match i.logFile with
  | none => .ok files
  | some path =>
    match files.openAtEnd (h.locate path) with
    | .ok files => .ok files
    | .error e => .error (.logFile path e)

/-- The settings of an invocation. -/
def loadConfig (i : Invocation) (h : Host) (files : FileTree) : Except Failure Config :=
  let loaded := match i.config with
    | some path => Config.loadFrom h files path
    | none => Config.load h files
  match loaded with
  | .ok c => .ok (c.getD .standard)
  | .error e => .error (.settings e)

/-- What an invocation works with. -/
def workplace (i : Invocation) (h : Host) (files : FileTree) : Except Failure Workplace := do
  let config ← i.loadConfig h files
  match RootMarkers.ofPatterns config.rootMarkers with
  | .ok markers => .ok ⟨config, markers⟩
  | .error e => .error (.markers e)

end Invocation

namespace Workplace

/-- The installer for a host. -/
def installer (w : Workplace) (h : Host) : Installer :=
  ⟨w.config.catalog, w.config.resolvedInstallDir h, some h.platform, h⟩

/-- How long a manager waits. -/
def timeouts (w : Workplace) : Timeouts :=
  ⟨w.config.handshakeTimeoutSecs * 1000, w.config.requestTimeoutSecs * 1000⟩

/-- What a manager works with, once it is known what becomes of its requests and its
launches. -/
def environment (w : Workplace) (h : Host) (web : InstallEnvironment)
    (launch : Nat → LaunchSpec → Except String (Option String)) : ManagerEnvironment :=
  ⟨h, w.installer h, web, w.markers, w.timeouts, launch⟩

end Workplace

/-! ### Carrying out a command -/

/-- A place where tasks are carried out. -/
structure Desk (σ : Type) where
  /-- The manager as it is. -/
  manager : σ → Manager
  /-- Carries out a task to its end. -/
  perform : Task → σ → Except LspError Answer × σ
  /-- Has the server for a language installed. -/
  install : String → σ → Except InstallError Path × σ
  /-- Waits until the first subscriber has got diagnostics of a document, but not longer
  than some milliseconds. -/
  awaitPublication : Uri → Nat → σ → σ

/-- Whether a diagnostic and a range have a line in common. -/
def Lsp.Diagnostic.onLinesOf (d : Lsp.Diagnostic) (r : Lsp.Range) : Bool :=
  d.range.start.line ≤ r.stop.line && r.start.line ≤ d.range.stop.line

/-- The diagnostics of a document on the lines of a range. -/
def Snapshot.onLinesOf (s : Snapshot) (uri : Uri) (r : Lsp.Range) : List Lsp.Diagnostic :=
  (s.documents.filter (·.1 == uri)).flatMap fun d => d.2.filter (·.onLinesOf r)

/-- The context of a question for code actions. -/
def Lsp.codeActionContext (diagnostics : List Lsp.Diagnostic) : Json :=
  .obj [("diagnostics", .arr (diagnostics.map Lsp.Diagnostic.toJson))]

/-- The question that a request puts to the session of its document; nothing if it puts
none. -/
def DocumentRequest.query? (m : Manager) (uri : Uri) : DocumentRequest → Option Lsp.Query
  | .hover p => some (.hover uri p)
  | .completion p => some (.completion uri p)
  | .definition p => some (.definition uri p)
  | .signatureHelp p => some (.signatureHelp uri p)
  | .references p include_ => some (.references uri p include_)
  | .symbols => some (.documentSymbols uri)
  | .codeActions r =>
    some (.codeActions uri r (Lsp.codeActionContext (m.hub.snapshot.onLinesOf uri r)))
  | .rename p newName => some (.rename uri p newName)
  | .workspaceSymbols _ | .diagnostics _ => none

/-- A value as the program shows it. -/
def shown (j : Json) : String := j.pretty ++ "\n"

namespace Server

/-- A server as the program lists it: whether it is installed is left open if it has no
build for the platform. -/
def listing (i : Installer) (p : Platform) (files : FileTree) (s : Server) : Json :=
  let installed := (s.buildFor p).map fun b =>
    files.isFile (i.host.locate ((i.versionDir s p).join (.ofString b.executable)))
  .object [("name", .str s.name), ("version", .str s.version),
    ("languages", .arr (s.languages.map .str)), ("enabled", .bool s.enabled),
    ("platforms", .arr (s.builds.map fun e => .str e.1.text)),
    ("installed", (installed.map .bool).getD .null)]

end Server

namespace CommandLine

variable {σ : Type}

/-- Opens a document in its session. -/
def openDocument (desk : Desk σ) (h : Host) (file : Path) (language : Option String) (s : σ) :
    Except Failure Unit × σ :=
  match language <|> languageOf? file with
  | none => (.error (.languageUnknown file), s)
  | some language =>
    match (desk.manager s).install.files.readText (h.locate file) with
    | .error e => (.error (.unreadable file e), s)
    | .ok text =>
      match desk.perform (.ensure language text (.begin file)) s with
      | (.ok _, s) => (.ok (), s)
      | (.error e, s) => (.error (.unopened language file e), s)

/-- Puts a request about a document that is open. -/
def askAbout (desk : Desk σ) (h : Host) (file : Path) (request : DocumentRequest) (s : σ) :
    Except Failure Json × σ :=
  match file.toUri? h.directory with
  | none => (.error (.request (.invalidPath (file.absolute h.directory))), s)
  | some uri =>
    match request with
    | .diagnostics waitSecs =>
      let s := desk.awaitPublication uri (waitSecs * 1000) s
      let found := (desk.manager s).hub.store.get uri
      (.ok (.object [("uri", .str uri.text),
        ("diagnostics", .arr (found.map Lsp.Diagnostic.toJson))]), s)
    | request =>
      let task : Task := match request.query? (desk.manager s) uri, request with
        | some q, _ => .routed (.ask (fun _ => q) none) (.begin file)
        | none, .workspaceSymbols query => .symbols query none none
        | none, _ => .finish
      match desk.perform task s with
      | (.ok a, s) => (.ok a.toJson, s)
      | (.error e, s) => (.error (.request e), s)

end CommandLine

namespace Command

variable {σ : Type}

/-- What a command shows. -/
def respond (desk : Desk σ) (h : Host) (w : Workplace) (c : Command) (s : σ) :
    Except Failure String × σ :=
  match c with
  | .servers =>
    let list := w.config.catalog.servers.map fun server =>
      server.listing (w.installer h) h.platform (desk.manager s).install.files
    (.ok (shown (.arr list)), s)
  | .platform => (.ok (h.platform.text ++ "\n"), s)
  | .install language =>
    match desk.install language s with
    | (.ok path, s) => (.ok (path.display ++ "\n"), s)
    | (.error e, s) => (.error (.install e), s)
  | .onDocument file language request =>
    match CommandLine.openDocument desk h file language s with
    | (.error f, s) => (.error f, s)
    | (.ok (), s) =>
      match CommandLine.askAbout desk h file request s with
      | (.ok j, s) => (.ok (shown j), s)
      | (.error f, s) => (.error f, s)

/-- Runs a command: what it shows, and the desk after all sessions are disposed of. -/
def run (desk : Desk σ) (h : Host) (w : Workplace) (c : Command) (s : σ) :
    Except Failure String × σ :=
  let (result, s) := c.respond desk h w s
  (result, (desk.perform (.shutdown none) s).2)

end Command

/-! ### How a program ends -/

/-- What a program leaves behind: what it shows, and why it has failed if it has. -/
inductive Ending where
  | success (output : String)
  | failure (f : Failure)
  /-- The words were none of its command lines. -/
  | misuse
deriving Repr

namespace Ending

/-- The ending that a result makes. -/
def ofResult : Except Failure String → Ending
  | .ok output => .success output
  | .error f => .failure f

/-- The exit code. -/
def exitCode : Ending → Nat
  | .success _ => 0
  | .failure _ => 1
  | .misuse => 2

/-- What is shown. -/
def output : Ending → String
  | .success output => output
  | _ => ""

end Ending

end LanguageHub
