import LanguageHub.Catalog
import LanguageHub.FileTree
import LanguageHub.Toml.Parser

/-!
# Settings

The settings are the table `lsp` of a TOML file. Every setting has a default; a file
that does not exist leaves all of them, and one that cannot be read or understood is an
error that names the file.
-/

namespace LanguageHub

/-- What the program knows of the machine that it runs on. -/
structure Host where
  /-- The current directory. -/
  directory : Path
  home : Path
  /-- The directory for the data of programs. -/
  dataDirectory : Path
  /-- The directory for temporary files. -/
  tempDirectory : Path
  platform : Platform
  processId : Nat
deriving Repr, Inhabited

/-- An absolute path as seen from the current directory. -/
def Host.locate (h : Host) (p : Path) : Path :=
  if p.bytes.isEmpty then p else h.directory.join p

/-- The settings. -/
structure Config where
  installDir : Option Path
  requestTimeoutSecs : Nat
  handshakeTimeoutSecs : Nat
  /-- Patterns for the names that mark a workspace root. -/
  rootMarkers : List String
  builtinServers : Bool
  servers : List Server
deriving Repr

namespace Config

/-- The settings without a file. -/
def standard : Config where
  installDir := none
  requestTimeoutSecs := 30
  handshakeTimeoutSecs := 30
  rootMarkers := [".git", "*.sln"]
  builtinServers := true
  servers := []

instance : Inhabited Config := ⟨standard⟩

/-- The settings that a value writes. -/
def of? (j : Json) : Option Config := do
  let r ← Json.Record.of? ["install_dir", "request_timeout_secs", "handshake_timeout_secs",
    "root_markers", "builtin_servers", "servers"] j
  some {
    installDir := (← r.optional "install_dir" Json.str?).map Path.ofString
    requestTimeoutSecs := ← r.defaulted "request_timeout_secs" Json.u64? 30
    handshakeTimeoutSecs := ← r.defaulted "handshake_timeout_secs" Json.u64? 30
    rootMarkers := ← r.defaulted "root_markers" (Json.list? Json.str?) standard.rootMarkers
    builtinServers := ← r.defaulted "builtin_servers" Json.bool? true
    servers := ← r.defaulted "servers" (Json.list? Server.of?) [] }

/-- The settings of a whole document. -/
def ofDocument? (j : Json) : Option Config := do
  let r ← Json.Record.of? ["lsp"] j
  r.defaulted "lsp" of? standard

/-- Where servers are installed. -/
def resolvedInstallDir (c : Config) (h : Host) : Path :=
  c.installDir.getD ((h.dataDirectory.join (.ofString "Swarm")).join (.ofString "LspServers"))

/-- The servers of the settings, and those that come with the library behind them. -/
def catalog (c : Config) : Catalog :=
  ⟨c.servers ++ if c.builtinServers then Catalog.builtin.servers else []⟩

/-- What is wrong with a file of settings. -/
inductive ErrorKind where
  | read (reason : FileError)
  | parse
deriving DecidableEq, Repr

/-- A file of settings that cannot be used. -/
structure Error where
  path : Path
  kind : ErrorKind
deriving DecidableEq, Repr

/-- The wording of an error. -/
def Error.message (e : Error) : String :=
  match e.kind with
  | .read _ => "failed to read config at " ++ e.path.display
  | .parse => "failed to parse config at " ++ e.path.display

/-- The settings in a file, if there is one. -/
def loadFrom (h : Host) (files : FileTree) (path : Path) : Except Error (Option Config) :=
  let place := h.locate path
  if !files.pathExists place then .ok none
  else match files.readText place with
    | .error e => .error ⟨path, .read e⟩
    | .ok text =>
      match Toml.parse? text >>= ofDocument? with
      | some c => .ok (some c)
      | none => .error ⟨path, .parse⟩

/-- Where the settings of a user are. -/
def userFile (h : Host) : Path :=
  (h.home.join (.ofString ".swarm")).join (.ofString "config.toml")

/-- The settings of the user, if there is a file for them. -/
def load (h : Host) (files : FileTree) : Except Error (Option Config) :=
  loadFrom h files (userFile h)

end Config

end LanguageHub
