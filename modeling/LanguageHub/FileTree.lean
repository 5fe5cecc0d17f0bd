import LanguageHub.Path.Normal

/-!
# Files and directories

A `FileTree` says what is at each place: a directory, or a file with its content and
whether its owner may run it. A place is the list of names that leads to it from the
root, and the root is always a directory.

A path is followed **step by step**, as an operating system does: what is passed through
must be a directory, also where a later double dot takes the step back.
-/

namespace LanguageHub

/-- What can be at a place. -/
inductive FileNode where
  | directory
  | file (content : List UInt8) (executable : Bool)
deriving DecidableEq, Repr, Inhabited

/-- A name in a directory. -/
abbrev FileName := List UInt8

/-- The names that lead to a place. -/
abbrev Place := List FileName

/-- Everything that is at some place below the root. -/
structure FileTree where
  entries : List (Place × FileNode)
deriving DecidableEq, Repr, Inhabited

/-- Why an operation on files fails. -/
inductive FileError where
  | notFound
  | notDirectory
  | isDirectory
  | alreadyExists
  | notEmpty
  | nameTooLong
  | permissionDenied
  | nulByte
  | notText
deriving DecidableEq, Repr

/-- The wording of an error. -/
def FileError.message : FileError → String
  | .notFound => "No such file or directory (os error 2)"
  | .notDirectory => "Not a directory (os error 20)"
  | .isDirectory => "Is a directory (os error 21)"
  | .alreadyExists => "File exists (os error 17)"
  | .notEmpty => "Directory not empty (os error 39)"
  | .nameTooLong => "File name too long (os error 36)"
  | .permissionDenied => "Permission denied (os error 13)"
  | .nulByte => "file name contained an unexpected NUL byte"
  | .notText => "stream did not contain valid UTF-8"

namespace FileTree

/-- The tree with the root alone. -/
def empty : FileTree := ⟨[]⟩

/-- What is at a place. -/
def at? (t : FileTree) (p : Place) : Option FileNode :=
  if p.isEmpty then some .directory else (t.entries.find? (·.1 == p)).map (·.2)

/-- Whether there is a directory at a place. -/
def isDirectoryAt (t : FileTree) (p : Place) : Bool := t.at? p == some .directory

/-- The names in the directory at a place. -/
def names (t : FileTree) (p : Place) : List FileName :=
  t.entries.filterMap fun e =>
    match e.1.getLast? with
    | some n => if e.1.dropLast = p then some n else none
    | none => none

/-- The tree with something put at a place. -/
def put (t : FileTree) (p : Place) (n : FileNode) : FileTree :=
  if (t.at? p).isSome then ⟨t.entries.map fun e => if e.1 == p then (p, n) else e⟩
  else ⟨t.entries ++ [(p, n)]⟩

/-- The tree without a place and everything below it. -/
def prune (t : FileTree) (p : Place) : FileTree :=
  ⟨t.entries.filter fun e => !p.isPrefixOf e.1⟩

/-! ### Following paths -/

/-- The greatest length of a name. -/
def greatestName : Nat := 255

/-- The greatest length of a path. -/
def greatestPath : Nat := 4095

/-- One step from a place. -/
def follow (t : FileTree) (p : Place) (c : Path.Component) : Except FileError Place :=
  match t.at? p with
  | none => .error .notFound
  | some (.file ..) => .error .notDirectory
  | some .directory =>
    match c with
    | .root => .ok []
    | .current => .ok p
    | .parent => .ok p.dropLast
    | .name n => if greatestName < n.length then .error .nameTooLong else .ok (p ++ [n])

/-- A path that can only name a directory. -/
def asksForDirectory (p : Path) : Bool :=
  p.bytes.getLast? == some Path.slash || [Path.dot, Path.slash].isPrefixOf p.bytes.reverse

/-- The place that an absolute path leads to; nothing need be there. -/
def locate (t : FileTree) (p : Path) : Except FileError Place :=
  if p.bytes.contains 0 then .error .nulByte
  else if greatestPath < p.bytes.length then .error .nameTooLong
  else p.components.foldlM (t.follow) []

/-- What an absolute path leads to. -/
def stat (t : FileTree) (p : Path) : Except FileError (Place × FileNode) := do
  if p.bytes.isEmpty then throw .notFound
  let place ← t.locate p
  match t.at? place with
  | none => throw .notFound
  | some (.file content executable) =>
    if asksForDirectory p then throw .notDirectory
    return (place, .file content executable)
  | some .directory => return (place, .directory)

/-- Whether an absolute path leads anywhere. -/
def pathExists (t : FileTree) (p : Path) : Bool := (t.stat p).isOk

/-- Whether an absolute path leads to a file. -/
def isFile (t : FileTree) (p : Path) : Bool :=
  match t.stat p with
  | .ok (_, .file ..) => true
  | _ => false

/-- Whether an absolute path leads to a directory. -/
def isDirectory (t : FileTree) (p : Path) : Bool :=
  match t.stat p with
  | .ok (_, .directory) => true
  | _ => false

/-- The names in the directory that an absolute path leads to. -/
def list (t : FileTree) (p : Path) : Except FileError (List FileName) := do
  match ← t.stat p with
  | (place, .directory) => return t.names place
  | _ => throw .notDirectory

/-- The content of the file that an absolute path leads to. -/
def read (t : FileTree) (p : Path) : Except FileError (List UInt8) := do
  match ← t.stat p with
  | (_, .file content _) => return content
  | _ => throw .isDirectory

/-- The content of a file as a text. -/
def readText (t : FileTree) (p : Path) : Except FileError String := do
  match Text.Utf8.decodeString? (← t.read p) with
  | some s => return s
  | none => throw .notText

/-- What prevents a program from starting in a directory; a relative path to the program
is seen from there. -/
def startFault? (t : FileTree) (directory program : Path) : Option FileError :=
  match t.stat directory with
  | .error e => some e
  | .ok (_, .file ..) => some .notDirectory
  | .ok (_, .directory) =>
    if program.bytes.isEmpty then some .notFound
    else match t.stat (directory.join program) with
      | .error e => some e
      | .ok (_, .file _ true) => none
      | .ok _ => some .permissionDenied

/-! ### Changing a tree -/

/-- Makes one directory. -/
def makeDirectory (t : FileTree) (p : Path) : Except FileError FileTree := do
  if p.bytes.isEmpty then throw .notFound
  let place ← t.locate p
  if (t.at? place).isSome then throw .alreadyExists
  return t.put place .directory

/-- Makes a directory and those above it that are missing; `fuel` bounds how many. -/
def makeDirectoriesFrom : Nat → FileTree → Path → Except FileError FileTree
  | 0, t, _ => .ok t
  | fuel + 1, t, p =>
    if p.bytes.isEmpty then .ok t
    else match t.makeDirectory p with
      | .ok t => .ok t
      | .error .notFound =>
        match p.parent? with
        | some above => do
          let t ← makeDirectoriesFrom fuel t above
          match t.makeDirectory p with
          | .ok t => .ok t
          | .error e => if t.isDirectory p then .ok t else .error e
        | none => .error .notFound
      | .error e => if t.isDirectory p then .ok t else .error e

/-- Makes a directory and those above it that are missing. -/
def makeDirectories (t : FileTree) (p : Path) : Except FileError FileTree :=
  makeDirectoriesFrom (p.components.length + 1) t p

/-- Writes a file; one that is there keeps whether it may be run. -/
def write (t : FileTree) (p : Path) (content : List UInt8) : Except FileError FileTree := do
  if p.bytes.isEmpty then throw .notFound
  let place ← t.locate p
  match t.at? place with
  | some .directory => throw .isDirectory
  | some (.file _ executable) =>
    if asksForDirectory p then throw .notDirectory
    return t.put place (.file content executable)
  | none =>
    if asksForDirectory p then throw .isDirectory
    return t.put place (.file content false)

/-- Opens a file to write at its end; one that is missing is made. -/
def openAtEnd (t : FileTree) (p : Path) : Except FileError FileTree :=
  match t.read p with
  | .ok content => t.write p content
  | .error .notFound => t.write p []
  | .error e => .error e

/-- Lets the owner run a file. -/
def allowRunning (t : FileTree) (p : Path) : FileTree :=
  match t.stat p with
  | .ok (place, .file content _) => t.put place (.file content true)
  | _ => t

/-- Removes a directory and everything in it. -/
def removeDirectory (t : FileTree) (p : Path) : Except FileError FileTree := do
  match ← t.stat p with
  | (place, .directory) => return t.prune place
  | _ => throw .notDirectory

end FileTree

end LanguageHub
