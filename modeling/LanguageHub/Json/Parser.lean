import LanguageHub.Json.Number
import LanguageHub.Text.Utf8

/-!
# Reading JSON texts

`Json.read?` reads a whole text as one value. Blanks are the space, the tabulator and
the two line ends; a string may hold any character but the controls below the space
and must write a character outside the basic plane as a pair of surrogates if it
escapes it; of two members of one name the later one counts.

The reader is a recursion on the **depth** of nesting that is still allowed: a text
whose values are nested deeper than `greatestDepth` is not read. Arrays and objects
hand the reader of the next depth to a loop over their items, which is bounded by
the length of the text.
-/

namespace LanguageHub.Json

/-- How deep values may be nested. -/
def greatestDepth : Nat := 127

/-- A blank between tokens. -/
def isSpace (c : Char) : Bool := c == ' ' || c == '\n' || c == '\t' || c == '\r'

/-- A text without the blanks in front. -/
def skipSpace (s : List Char) : List Char := s.dropWhile isSpace

/-- The value of a digit in base sixteen. -/
def hexValue? (c : Char) : Option Nat :=
  if '0' ≤ c && c ≤ '9' then some (c.toNat - '0'.toNat)
  else if 'a' ≤ c && c ≤ 'f' then some (c.toNat - 'a'.toNat + 10)
  else if 'A' ≤ c && c ≤ 'F' then some (c.toNat - 'A'.toNat + 10)
  else none

/-- Four digits in base sixteen. -/
def readHex4 : List Char → Option (Nat × List Char)
  | a :: b :: c :: d :: rest => do
    let a ← hexValue? a
    let b ← hexValue? b
    let c ← hexValue? c
    let d ← hexValue? d
    some (((a * 16 + b) * 16 + c) * 16 + d, rest)
  | _ => none

/-- What follows the letter of an escaped code unit: its digits, and the second
escape where they are the first half of a pair of surrogates. -/
def readUnicode (s : List Char) : Option (Char × List Char) := do
  let (n, s) ← readHex4 s
  if 0xD800 ≤ n ∧ n < 0xDC00 then
    match s with
    | '\\' :: 'u' :: s =>
      let (m, s) ← readHex4 s
      if 0xDC00 ≤ m ∧ m < 0xE000 then
        some (Char.ofNat (0x10000 + (n - 0xD800) * 0x400 + (m - 0xDC00)), s)
      else none
    | _ => none
  else if 0xDC00 ≤ n ∧ n < 0xE000 then none
  else some (Char.ofNat n, s)

/-- What follows the backslash of an escape. -/
def readEscape : List Char → Option (Char × List Char)
  | '"' :: s => some ('"', s)
  | '\\' :: s => some ('\\', s)
  | '/' :: s => some ('/', s)
  | 'b' :: s => some ('\x08', s)
  | 'f' :: s => some ('\x0c', s)
  | 'n' :: s => some ('\n', s)
  | 'r' :: s => some ('\r', s)
  | 't' :: s => some ('\t', s)
  | 'u' :: s => readUnicode s
  | _ => none

/-- The characters of a string up to its closing quote, which is consumed; `done`
holds those read so far, last one first. -/
def readChars : Nat → List Char → List Char → Option (List Char × List Char)
  | 0, _, _ => none
  | _ + 1, _, [] => none
  | fuel + 1, done, c :: s =>
    if c = '"' then some (done.reverse, s)
    else if c = '\\' then
      match readEscape s with
      | some (d, s) => readChars fuel (d :: done) s
      | none => none
    else if c.toNat < 0x20 then none
    else readChars fuel (c :: done) s

/-- A string after its opening quote. -/
def readString (s : List Char) : Option (String × List Char) :=
  (readChars (s.length + 1) [] s).map fun (cs, rest) => (String.ofList cs, rest)

/-- The name of a member and the colon after it. -/
def readName (s : List Char) : Option (String × List Char) := do
  match skipSpace s with
  | '"' :: s =>
    let (k, s) ← readString s
    match skipSpace s with
    | ':' :: s => some (k, s)
    | _ => none
  | _ => none

/-- The items of an array after the first one: a comma and an item as often as there
are some, then the bracket. `done` holds the items so far, last one first. -/
def readItems (item : List Char → Option (Json × List Char)) :
    Nat → List Json → List Char → Option (List Json × List Char)
  | 0, _, _ => none
  | fuel + 1, done, s =>
    match skipSpace s with
    | ']' :: s => some (done.reverse, s)
    | ',' :: s =>
      match item s with
      | some (j, s) => readItems item fuel (j :: done) s
      | none => none
    | _ => none

/-- The members of an object after the first one, then the brace. -/
def readMembers (item : List Char → Option (Json × List Char)) :
    Nat → List (String × Json) → List Char → Option (List (String × Json) × List Char)
  | 0, _, _ => none
  | fuel + 1, done, s =>
    match skipSpace s with
    | '\x7d' :: s => some (done.reverse, s)
    | ',' :: s =>
      match readName s with
      | some (k, s) =>
        match item s with
        | some (j, s) => readMembers item fuel ((k, j) :: done) s
        | none => none
      | none => none
    | _ => none

/-- A text without a word in front of it. -/
def dropWord : List Char → List Char → Option (List Char)
  | [], s => some s
  | c :: cs, d :: s => if c = d then dropWord cs s else none
  | _ :: _, [] => none

/-- A value off the front of a text, nested at most `depth` deep. -/
def readValue : Nat → List Char → Option (Json × List Char)
  | depth, s =>
    match skipSpace s with
    | '"' :: s => (readString s).map fun (t, rest) => (.str t, rest)
    | 'n' :: s => (dropWord ['u', 'l', 'l'] s).map (.null, ·)
    | 't' :: s => (dropWord ['r', 'u', 'e'] s).map (.bool true, ·)
    | 'f' :: s => (dropWord ['a', 'l', 's', 'e'] s).map (.bool false, ·)
    | '[' :: s =>
      match depth with
      | 0 => none
      | depth + 1 =>
        match skipSpace s with
        | ']' :: s => some (.arr [], s)
        | s =>
          match readValue depth s with
          | some (j, s) =>
            (readItems (readValue depth) (s.length + 1) [j] s).map fun (items, rest) =>
              (.arr items, rest)
          | none => none
    | '\x7b' :: s =>
      match depth with
      | 0 => none
      | depth + 1 =>
        match skipSpace s with
        | '\x7d' :: s => some (.obj [], s)
        | s =>
          match readName s with
          | some (k, s) =>
            match readValue depth s with
            | some (j, s) =>
              (readMembers (readValue depth) (s.length + 1) [(k, j)] s).map
                fun (members, rest) => (object members, rest)
            | none => none
          | none => none
    | s => (Number.read s).map fun (n, rest) => (.num n, rest)

/-- The value that a text denotes: nothing but blanks may follow it. -/
def read? (s : List Char) : Option Json :=
  match readValue greatestDepth s with
  | some (j, rest) => if (skipSpace rest).isEmpty then some j else none
  | none => none

/-- The value that some bytes denote. -/
def parse? (bytes : List UInt8) : Option Json := Text.Utf8.decode? bytes >>= read?

end LanguageHub.Json
