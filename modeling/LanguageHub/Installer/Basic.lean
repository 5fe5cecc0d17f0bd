import LanguageHub.Config
import LanguageHub.Error
import LanguageHub.Log

/-!
# Where servers are installed

A server is installed in a directory of its own for each version and platform. That its
program exists there is the only record of the installation: nothing else is kept, and
nothing else is checked.

`Installer.location` says where the program for a language is, or would be. The rest of
this module names what an installation meets on its way: the answer of a web server, and
the entries of an archive.
-/

namespace LanguageHub

/-- What an installer works with. -/
structure Installer where
  catalog : Catalog
  baseDir : Path
  platform : Option Platform
  host : Host
deriving Repr, Inhabited

/-- An archive format. -/
inductive ArchiveKind where
  | zip
  | tarGz
deriving DecidableEq, Repr

namespace ArchiveKind

/-- Whether a text ends with another one. -/
def endsWith (s ending : List Char) : Bool := ending.reverse.isPrefixOf s.reverse

/-- The format of the archive at a URL, by the ending of its path in any case. -/
def ofUrl? (url : String) : Option ArchiveKind :=
  let path := (url.toList.takeWhile fun c => c != '?' && c != '#').map Char.toLower
  if endsWith path ".zip".toList then some .zip
  else if endsWith path ".tar.gz".toList || endsWith path ".tgz".toList then some .tarGz
  else none

end ArchiveKind

/-- What an installation needs to know of a server. -/
structure InstallJob where
  server : Server
  platform : Platform
  build : Build
  /-- The directory of the version and platform. -/
  target : Path
  /-- The program in it. -/
  executable : Path
deriving Repr, Inhabited

namespace Installer

/-- The directory of the version of a server for a platform. -/
def versionDir (i : Installer) (s : Server) (p : Platform) : Path :=
  ((i.baseDir.join (.ofString s.name)).join (.ofString s.version)).join (.ofString p.text)

/-- The name of the machine for errors, if no platform describes it. -/
def unknownPlatform : String := "unknown"

/-- The job of installing the server for a language. -/
def job (i : Installer) (language : String) : Except InstallError InstallJob :=
  match i.catalog.resolve language with
  | none => .error (.notConfigured language)
  | some s =>
    match i.platform with
    | none => .error (.unsupportedPlatform s.name unknownPlatform)
    | some p =>
      match s.buildFor p with
      | none => .error (.unsupportedPlatform s.name p.text)
      | some b =>
        let target := i.versionDir s p
        .ok ⟨s, p, b, target, target.join (.ofString b.executable)⟩

/-- Where the program for a language is, or would be. -/
def location (i : Installer) (language : String) : Except InstallError Path :=
  (i.job language).map (·.executable)

end Installer

/-- What comes back from a web server. -/
inductive HttpReply where
  /-- The request cannot be sent. -/
  | unreachable (detail : String)
  /-- A status with its phrase, and a body, which may break off with a fault. -/
  | answer (status : Nat) (phrase : String) (body : List UInt8) (fault : Option String)
deriving Repr, Inhabited

/-- An entry of an archive, under a path in the archive. -/
inductive ArchiveEntry where
  | directory (path : Path)
  | file (path : Path) (content : List UInt8) (executable : Bool)
deriving DecidableEq, Repr

/-- The entries of an archive in their order, and the fault after them if there is one. -/
structure Unpacking where
  entries : List ArchiveEntry
  fault : Option ExtractionFault
deriving Repr, Inhabited

/-- The files with one entry of an archive unpacked below a directory. -/
def FileTree.unpack (files : FileTree) (directory : Path) (e : ArchiveEntry) :
    Except FileError FileTree :=
  match e with
  | .directory p => files.makeDirectories (directory.join p)
  | .file p content executable => do
    let place := directory.join p
    let files ← match place.parent? with
      | some above => files.makeDirectories above
      | none => .ok files
    let files ← files.write place content
    return if executable then files.allowRunning place else files

end LanguageHub
