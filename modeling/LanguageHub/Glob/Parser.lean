import LanguageHub.Glob.Basic

/-!
# Reading glob patterns

`Glob.parse` reads a pattern or says why it is none. A pair of stars stands for
directories only where it fills a stretch between slashes, commas and braces;
elsewhere it is two stars. A closing bracket that comes first in a class, and a dash
that comes first or last, stand for themselves.
-/

namespace LanguageHub.Glob

/-- Why a text is no pattern. -/
inductive ErrorKind where
  | unclosedClass
  | invalidRange (low high : Char)
  | unopenedAlternates
  | unclosedAlternates
  | danglingEscape
deriving DecidableEq, Repr

/-- A text that is no pattern. -/
structure Error where
  pattern : String
  kind : ErrorKind
deriving DecidableEq, Repr

/-- The wording of a reason. -/
def ErrorKind.message : ErrorKind → String
  | .unclosedClass => "unclosed character class; missing ']'"
  | .invalidRange a b =>
    "invalid range; '" ++ String.singleton a ++ "' > '" ++ String.singleton b ++ "'"
  | .unopenedAlternates =>
    "unopened alternate group; missing '\x7b' (maybe escape '\x7d' with '[\x7d]'?)"
  | .unclosedAlternates =>
    "unclosed alternate group; missing '\x7d' (maybe escape '\x7b' with '[\x7b]'?)"
  | .danglingEscape => "dangling '\\'"

/-- The wording of an error. -/
def Error.message (e : Error) : String :=
  "error parsing glob '" ++ e.pattern ++ "': " ++ e.kind.message

/-- What has been read so far. -/
structure Reader where
  /-- The tokens of the innermost branch, last one first. -/
  branch : List Token
  /-- For each open group, innermost first: its finished branches, last one first, and
  the branch that it stands in. -/
  groups : List (List (List Token) × List Token)
  /-- The character before the next one. -/
  previous : Option Char

namespace Reader

/-- The reader before the first character. -/
def start : Reader := ⟨[], [], none⟩

/-- A reader with one more token. -/
def push (r : Reader) (t : Token) : Reader := { r with branch := t :: r.branch }

end Reader

/-- The ranges of a class up to its closing bracket, and what follows it. `inRange` tells
that a dash has just asked for the end of a range. -/
def readClass (first inRange : Bool) (ranges : List (Char × Char)) :
    List Char → Except ErrorKind (List (Char × Char) × List Char)
  | [] => .error .unclosedClass
  | c :: s =>
    if c = ']' && !first then
      .ok ((if inRange then ('-', '-') :: ranges else ranges).reverse, s)
    else if c = '-' && !first && !inRange then readClass false true ranges s
    else if inRange then
      match ranges with
      | (low, _) :: more =>
        if c < low then .error (.invalidRange low c)
        else readClass false false ((low, c) :: more) s
      | [] => readClass false false [(c, c)] s
    else readClass false false ((c, c) :: ranges) s

/-- What the second of two stars makes of the tokens before it. The characters after
it come with the tokens, since a slash after it can belong to it. -/
def readPair (r : Reader) (s : List Char) : Reader × List Char :=
  let twoStars : Reader × List Char :=
    ({ (r.push .star).push .star with previous := some '*' }, s)
  if r.branch.isEmpty then
    match s with
    | [] => ({ r.push .leadingDirs with previous := some '*' }, [])
    | c :: rest =>
      if c = '/' then ({ r.push .leadingDirs with previous := some '/' }, rest) else twoStars
  else if r.previous != some '/' &&
      (r.groups.isEmpty || (r.previous != some ',' && r.previous != some '\x7b')) then twoStars
  else
    let settle (whenOther : Token) (rest : List Char) (last : Char) : Reader × List Char :=
      match r.branch with
      | .leadingDirs :: _ => ({ r with previous := some last }, rest)
      | .inside :: _ => ({ r with previous := some last }, rest)
      | _ :: more => ({ r with branch := whenOther :: more, previous := some last }, rest)
      | [] => ({ r with previous := some last }, rest)
    match s with
    | [] => settle .inside [] '*'
    | c :: rest =>
      if (c = ',' || c = '\x7d') && !r.groups.isEmpty then settle .inside s '*'
      else if c = '/' then settle .between rest '/'
      else twoStars

/-- Reads the rest of a pattern. -/
def readFrom : Nat → Reader → List Char → Except ErrorKind Reader
  | 0, r, _ => .ok r
  | _ + 1, r, [] => .ok r
  | fuel + 1, r, c :: s =>
    let next (r : Reader) := readFrom fuel { r with previous := some c } s
    match c with
    | '?' => next (r.push .any)
    | '*' =>
      match s with
      | '*' :: s => let (r, s) := readPair r s; readFrom fuel r s
      | _ => next (r.push .star)
    | '[' =>
      let (negated, body) := match s with
        | '!' :: s => (true, s)
        | '^' :: s => (true, s)
        | _ => (false, s)
      match readClass true false [] body with
      | .ok (ranges, s) => readFrom fuel { r.push (.oneOf negated ranges) with previous := some ']' } s
      | .error e => .error e
    | '\x7b' => next { r with branch := [], groups := ([], r.branch) :: r.groups }
    | '\x7d' =>
      match r.groups with
      | [] => .error .unopenedAlternates
      | (done, outer) :: groups =>
        next { r with
          branch := .alternates (r.branch.reverse :: done).reverse :: outer, groups := groups }
    | ',' =>
      match r.groups with
      | [] => next (r.push (.literal ','))
      | (done, outer) :: groups =>
        next { r with branch := [], groups := (r.branch.reverse :: done, outer) :: groups }
    | '\\' =>
      match s with
      | [] => .error .danglingEscape
      | d :: s => readFrom fuel { r.push (.literal d) with previous := some d } s
    | c => next (r.push (.literal c))

/-- The pattern that a text writes. -/
def parse (text : String) : Except Error Glob :=
  let s := text.toList
  match readFrom (s.length + 1) .start s with
  | .error kind => .error ⟨text, kind⟩
  | .ok r =>
    if r.groups.isEmpty then .ok ⟨r.branch.reverse⟩ else .error ⟨text, .unclosedAlternates⟩

end LanguageHub.Glob
