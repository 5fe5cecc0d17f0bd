import LanguageHub.Path.Normal
import LanguageHub.Uri.Basic
import LanguageHub.Uri.Percent

/-!
# Files and their URIs

`Path.toUri?` writes a path as a URI of the scheme `file`, and `Uri.toPath?` reads one
back. Writing makes the path absolute and normal first. Not every file has a URI: some
bytes are neither encoded nor allowed to stand for themselves.

Reading is more generous, and follows the rules by which browsers read URLs. Any scheme
will do if the path is hierarchical and the host is missing or this machine; dots are
resolved, also encoded ones; a scheme of the web takes any number of slashes in front of
its host; and **drive letters** have rules of their own, on every system: a double dot
does not take one back, and one at the end of a path gets a slash.
-/

namespace LanguageHub

/-! ### From paths to URIs -/

/-- A byte of a file name that a URI writes encoded. -/
def Path.isEncodedInUri (b : UInt8) : Bool :=
  b ≤ 0x20 || 0x7F ≤ b || "\"#<>?`\x7b\x7d/%\\".toList.any fun c => c.toNat == b.toNat

/-- The path part of the URI of an absolute path. -/
def Path.uriPath (p : Path) : List Char :=
  match p.components.drop 1 with
  | [] => ['/']
  | cs => cs.flatMap fun c => '/' :: Uri.Percent.encode isEncodedInUri c.bytes

/-- The URI of a file, as seen from a directory. -/
def Path.toUri? (p directory : Path) : Option Uri :=
  if p.bytes.isEmpty then none
  else Uri.ofString? (String.ofList ("file://".toList ++ (p.absolute directory).uriPath))

namespace Uri

/-! ### From URIs to paths -/

/-- What a host says about the machine that a path is on. -/
inductive HostPart where
  /-- No host is named. -/
  | missing
  | localhost
  | other
deriving DecidableEq, Repr

/-- The kinds of schemes: files, the web, and all others. -/
inductive SchemeKind where
  | file
  | web
  | other
deriving DecidableEq, Repr

/-- The kind of a scheme. -/
def SchemeKind.of (scheme : List Char) : SchemeKind :=
  let s := String.ofList (scheme.map Char.toLower)
  if s = "file" then .file
  else if s = "http" || s = "https" || s = "ws" || s = "wss" || s = "ftp" then .web
  else .other

/-- A letter and a colon. -/
def isDriveLetter : List Char → Bool
  | [c, ':'] => c.isAlpha
  | _ => false

/-- A text with its encoded dots decoded. -/
def plainDots : List Char → List Char
  | '%' :: '2' :: 'e' :: s => '.' :: plainDots s
  | '%' :: '2' :: 'E' :: s => '.' :: plainDots s
  | c :: s => c :: plainDots s
  | [] => []

/-- The segments of a path with the dots resolved; `done` holds those so far, last one
first. Dots at the end leave an empty segment. -/
def resolveSegments : List (List Char) → List (List Char) → List (List Char)
  | done, [] => done.reverse
  | done, s :: rest =>
    let last := rest.isEmpty
    if plainDots s = ['.', '.'] then
      let done := match done with
        | d :: more => if isDriveLetter d then done else more
        | [] => []
      resolveSegments (if last then [] :: done else done) rest
    else if plainDots s = ['.'] then resolveSegments (if last then [] :: done else done) rest
    else resolveSegments (s :: done) rest

/-- The bytes of a path that ends in a drive letter get a slash. -/
def closeDrive (bytes : List UInt8) : List UInt8 :=
  match bytes.reverse with
  | c :: letter :: _ :: _ =>
    if (Char.ofNat letter.toNat).isAlpha && (c == 0x3A || c == 0x7C) then bytes ++ [0x2F]
    else bytes
  | _ => bytes

/-- The path that segments stand for. -/
def pathOfSegments (segments : List (List Char)) : Path :=
  ⟨closeDrive (segments.flatMap fun s => 0x2F :: Percent.decode s)⟩

/-- The text of a host name: it may be encoded, and case does not count. -/
def foldHost (name : List Char) : List Char :=
  (Text.Utf8.decodeLossy (Percent.decode name)).map Char.toLower

/-- The host that a name denotes; `folded` says that case and encoding do not count. -/
def hostPart (folded : Bool) (name : List Char) : HostPart :=
  let plain := if folded then foldHost name else name
  if name.isEmpty then .missing
  else if plain = "localhost".toList then .localhost
  else .other

/-- An authority without the name of its user, which ends at the last sign for "at". -/
def dropUser (authority : List Char) : List Char :=
  (authority.reverse.takeWhile (· != '@')).reverse

/-- The host of an authority with a user and a port, unless it is malformed: a port is a
number of 16 bits, and neither a user nor a port stands alone. -/
def hostOfAuthority? (folded : Bool) (authority : List Char) : Option HostPart :=
  let rest := dropUser authority
  let (name, port) := match cutAt (· == ':') rest with
    | (name, _ :: port) => (name, some port)
    | (name, []) => (name, none)
  let digits := port.getD []
  if rest.head? == some '[' then some .other
  else if !digits.all Char.isDigit then none
  else if digits.foldl (fun n c => n * 10 + (c.toNat - 48)) 0 > 65535 then none
  else if name.isEmpty && (rest.length < authority.length || port.isSome) then none
  else some (hostPart folded name)

/-- A character that the name of a host cannot have, even encoded. -/
def isForbiddenInHost (c : Char) : Bool :=
  c.toNat ≤ 0x20 || c.toNat = 0x7F || "#/:<>?@[\\]^|%".toList.contains c

/-- The host of an authority that is a host alone. -/
def hostAlone? (authority : List Char) : Option HostPart :=
  match authority with
  | '[' :: address => if address.getLast? == some ']' then some .other else none
  | name => if (foldHost name).any isForbiddenInHost then none else some (hostPart true name)

/-- The path of a hierarchical part on this machine. -/
def localPath? (host : HostPart) (path : List Char) : Option Path :=
  match host, path with
  | .other, _ => none
  | _, '/' :: s => some (pathOfSegments (resolveSegments [] (splitOn '/' s)))
  | _, _ => none

/-- The path of what follows the scheme `file`. A drive letter in the path makes the host
count for nothing. -/
def filePath? (s : List Char) : Option Path :=
  let (authority, path) := match s with
    | '/' :: '/' :: rest =>
      let (authority, path) := cutAt (· == '/') rest
      if isDriveLetter authority then ([], rest) else (authority, path)
    | s => ([], s)
  let segments := match (resolveSegments [] (splitOn '/' path)).dropWhile List.isEmpty with
    | [] => [[]]
    | segments => segments
  match hostAlone? authority with
  | none => none
  | some .other => if segments.any isDriveLetter then some (pathOfSegments segments) else none
  | some _ => some (pathOfSegments segments)

/-- The file that a URI names, if it is on this machine. -/
def toPath? (u : Uri) : Option Path :=
  let hierarchy := (cutAt (fun c => c == '?' || c == '#') u.text.toList).1
  match splitScheme hierarchy with
  | (none, _) => none
  | (some scheme, s) =>
    match SchemeKind.of scheme with
    | .file => filePath? s
    | .web =>
      let (authority, path) := cutAt (· == '/') (s.dropWhile (· == '/'))
      match hostOfAuthority? true authority with
      | some .missing | none => none
      | some host => localPath? host (if path.isEmpty then ['/'] else path)
    | .other =>
      match s with
      | '/' :: '/' :: rest =>
        let (authority, path) := cutAt (· == '/') rest
        (hostOfAuthority? false authority).bind fun host => localPath? host path
      | s => localPath? .missing s

end Uri

end LanguageHub
