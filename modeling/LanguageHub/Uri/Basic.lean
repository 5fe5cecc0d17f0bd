/-!
# URIs

A `Uri` is a text of the grammar of **URI references**: a scheme, an authority, a path, a
query and a fragment, of which each but the path may be missing. `Uri.ofString?` checks
a text against the grammar and keeps it as it is; two URIs are the same when their texts
are.
-/

namespace LanguageHub

/-- A text that is a URI reference. -/
structure Uri where
  text : String
deriving DecidableEq, Repr, Inhabited

namespace Uri

/-! ### Characters -/

/-- A digit in base sixteen. -/
def isHexDigit (c : Char) : Bool :=
  c.isDigit || ('a' ≤ c && c ≤ 'f') || ('A' ≤ c && c ≤ 'F')

/-- A character that never needs an encoding. -/
def isUnreserved (c : Char) : Bool :=
  c.isAlphanum || c == '-' || c == '.' || c == '_' || c == '~'

/-- A character that separates parts of a component. -/
def isSubDelimiter (c : Char) : Bool := "!$&'()*+,;=".toList.contains c

/-- A character of a path. -/
def isPathChar (c : Char) : Bool :=
  isUnreserved c || isSubDelimiter c || c == ':' || c == '@' || c == '/'

/-- A character of a query or a fragment. -/
def isQueryChar (c : Char) : Bool := isPathChar c || c == '?'

/-- A character of the name of a user. -/
def isUserChar (c : Char) : Bool := isUnreserved c || isSubDelimiter c || c == ':'

/-- A character of the name of a host. -/
def isHostChar (c : Char) : Bool := isUnreserved c || isSubDelimiter c

/-- A character of a scheme. -/
def isSchemeChar (c : Char) : Bool := c.isAlphanum || c == '+' || c == '-' || c == '.'

/-- Whether a text consists of some characters and of bytes encoded with a percent sign. -/
def isEncoded (allowed : Char → Bool) : List Char → Bool
  | [] => true
  | '%' :: a :: b :: s => isHexDigit a && isHexDigit b && isEncoded allowed s
  | c :: s => allowed c && isEncoded allowed s

/-! ### Splitting -/

/-- The text before the first of some characters, and the text from there on. -/
def cutAt (stop : Char → Bool) (s : List Char) : List Char × List Char :=
  (s.takeWhile (!stop ·), s.dropWhile (!stop ·))

/-- The parts of a reference. -/
structure Parts where
  scheme : Option (List Char)
  authority : Option (List Char)
  path : List Char
  query : Option (List Char)
  fragment : Option (List Char)
deriving Repr

/-- The scheme of a text and what follows its colon. -/
def splitScheme (s : List Char) : Option (List Char) × List Char :=
  match cutAt (fun c => c == ':' || c == '/' || c == '?' || c == '#') s with
  | (scheme, ':' :: rest) => (some scheme, rest)
  | _ => (none, s)

/-- The parts that the delimiters of a text mark off. -/
def parts (s : List Char) : Parts :=
  let (s, fragment) := match cutAt (· == '#') s with
    | (s, _ :: fragment) => (s, some fragment)
    | (s, []) => (s, none)
  let (s, query) := match cutAt (· == '?') s with
    | (s, _ :: query) => (s, some query)
    | (s, []) => (s, none)
  let (scheme, s) := splitScheme s
  match s with
  | '/' :: '/' :: s =>
    let (authority, path) := cutAt (· == '/') s
    ⟨scheme, some authority, path, query, fragment⟩
  | s => ⟨scheme, none, s, query, fragment⟩

/-- The stretches between separators. -/
def splitOn (sep : Char) : List Char → List (List Char)
  | [] => [[]]
  | c :: rest =>
    if c = sep then [] :: splitOn sep rest
    else match splitOn sep rest with
      | [] => [[c]]
      | s :: more => (c :: s) :: more

/-! ### The grammar -/

/-- A number from 0 to 255 without a zero in front. -/
def isOctet (s : List Char) : Bool :=
  !s.isEmpty && s.length ≤ 3 && s.all Char.isDigit && (s.head? != some '0' || s.length == 1) &&
    s.foldl (fun n c => n * 10 + (c.toNat - 48)) 0 ≤ 255

/-- An address of four numbers. -/
def isIpv4 (s : List Char) : Bool :=
  let fields := splitOn '.' s
  fields.length == 4 && fields.all isOctet

/-- The number of 16-bit groups that some fields stand for, if they are groups; the last
field may be an address of four numbers. -/
def groupCount : List (List Char) → Option Nat
  | [] => some 0
  | [f] =>
    if f.length ≤ 4 && !f.isEmpty && f.all isHexDigit then some 1
    else if isIpv4 f then some 2 else none
  | f :: rest =>
    if f.length ≤ 4 && !f.isEmpty && f.all isHexDigit then (groupCount rest).map (· + 1) else none

/-- The groups of a stretch of an address; the empty stretch has none. -/
def stretchCount (s : List Char) : Option Nat :=
  if s.isEmpty then some 0 else groupCount (splitOn ':' s)

/-- The text before and after the first pair of colons. -/
def splitPair : List Char → Option (List Char × List Char)
  | ':' :: ':' :: s => some ([], s)
  | c :: s => (splitPair s).map fun (a, b) => (c :: a, b)
  | [] => none

/-- An address of eight groups, of which a pair of colons may leave some out. -/
def isIpv6 (s : List Char) : Bool :=
  match splitPair s with
  | some (a, b) =>
    match groupCount (splitOn ':' a), stretchCount a, stretchCount b with
    | some _, some m, some n => m + n ≤ 7 && !a.contains '.'
    | none, some 0, some n => n ≤ 7
    | _, _, _ => false
  | none => groupCount (splitOn ':' s) == some 8

/-- An address in brackets. -/
def isAddress (s : List Char) : Bool :=
  match s with
  | 'v' :: rest | 'V' :: rest =>
    let (version, rest) := cutAt (· == '.') rest
    !version.isEmpty && version.all isHexDigit && 1 < rest.length &&
      (rest.drop 1).all isUserChar
  | s => isIpv6 s

/-- A host and a port. -/
def isHostAndPort (s : List Char) : Bool :=
  match s with
  | '[' :: rest =>
    match cutAt (· == ']') rest with
    | (address, _ :: port) =>
      isAddress address &&
        (match port with
          | [] => true
          | ':' :: port => port.all Char.isDigit
          | _ => false)
    | _ => false
  | s =>
    match cutAt (· == ':') s with
    | (host, []) => isEncoded isHostChar host
    | (host, _ :: port) => isEncoded isHostChar host && port.all Char.isDigit

/-- An authority: a user, a host and a port. -/
def isAuthority (s : List Char) : Bool :=
  match cutAt (· == '@') s with
  | (user, _ :: rest) => isEncoded isUserChar user && isHostAndPort rest
  | _ => isHostAndPort s

/-- A scheme: a letter and more. -/
def isScheme (s : List Char) : Bool := (s.head?.map Char.isAlpha).getD false && s.all isSchemeChar

/-- Whether the parts of a text are those of a reference. -/
def Parts.isReference (p : Parts) : Bool :=
  (p.scheme.map isScheme).getD true && (p.authority.map isAuthority).getD true &&
    isEncoded isPathChar p.path && (p.query.map (isEncoded isQueryChar)).getD true &&
    (p.fragment.map (isEncoded isQueryChar)).getD true

/-- The URI that a text is. -/
def ofString? (s : String) : Option Uri :=
  if (parts s.toList).isReference then some ⟨s⟩ else none

end Uri

end LanguageHub
