import LanguageHub.Json.Parser

/-!
# Keys and plain values of a TOML document

The words of the language: strings in their four forms, keys, numbers and dates. A
plain value is a stretch of word characters, and what it is follows from the whole of
it: `scalarOfWord` tries the kinds one after the other. A date keeps only its text,
since no setting of this library is one.
-/

namespace LanguageHub.Toml

open Json (hexValue?)

/-- A blank within a line. -/
def isBlank (c : Char) : Bool := c == ' ' || c == '\t'

/-- A character that a comment or a literal string may hold: no control but the
tabulator. -/
def isPlain (c : Char) : Bool := c == '\t' || (0x20 ≤ c.toNat && c.toNat != 0x7F)

/-- A character of a bare key. -/
def isBareKey (c : Char) : Bool := c.isAlphanum || c == '_' || c == '-'

/-- A text without the blanks in front. -/
def skipBlanks (s : List Char) : List Char := s.dropWhile isBlank

/-- A line end off the front. -/
def newline? : List Char → Option (List Char)
  | '\n' :: s => some s
  | '\r' :: '\n' :: s => some s
  | _ => none

/-- A text without the rest of a comment, if the comment is well formed. -/
def skipComment (s : List Char) : Option (List Char) :=
  match s.dropWhile isPlain with
  | [] => some []
  | '\r' :: '\n' :: rest => some ('\r' :: '\n' :: rest)
  | '\n' :: rest => some ('\n' :: rest)
  | _ => none

/-- What is left after blanks, line ends and comments. -/
def skipLines : Nat → List Char → Option (List Char)
  | 0, s => some s
  | fuel + 1, s =>
    match skipBlanks s with
    | '#' :: rest => (skipComment rest).bind (skipLines fuel)
    | rest =>
      match newline? rest with
      | some rest => skipLines fuel rest
      | none => some rest

/-! ### Strings -/

/-- A scalar value given by some digits in base sixteen. -/
def readCodePoint (count : Nat) (s : List Char) : Option (Char × List Char) := do
  let digits := s.take count
  let values ← digits.mapM hexValue?
  if values.length < count then none
  let n := values.foldl (fun n d => n * 16 + d) 0
  if n < 0xD800 ∨ (0xE000 ≤ n ∧ n < 0x110000) then some (Char.ofNat n, s.drop count) else none

/-- What follows the backslash of an escape. -/
def readEscape : List Char → Option (Char × List Char)
  | 'b' :: s => some ('\x08', s)
  | 't' :: s => some ('\t', s)
  | 'n' :: s => some ('\n', s)
  | 'f' :: s => some ('\x0c', s)
  | 'r' :: s => some ('\r', s)
  | 'e' :: s => some ('\x1b', s)
  | '"' :: s => some ('"', s)
  | '\\' :: s => some ('\\', s)
  | 'x' :: s => readCodePoint 2 s
  | 'u' :: s => readCodePoint 4 s
  | 'U' :: s => readCodePoint 8 s
  | _ => none

/-- The rest of a basic string on one line; `done` holds its characters, last one first. -/
def readBasic : Nat → List Char → List Char → Option (List Char × List Char)
  | 0, _, _ => none
  | fuel + 1, done, s =>
    match s with
    | '"' :: s => some (done.reverse, s)
    | '\\' :: s => (readEscape s).bind fun (c, s) => readBasic fuel (c :: done) s
    | c :: s => if isPlain c then readBasic fuel (c :: done) s else none
    | [] => none

/-- The rest of a literal string on one line. -/
def readLiteral (s : List Char) : Option (List Char × List Char) :=
  match s.dropWhile fun c => isPlain c && c != '\'' with
  | '\'' :: rest => some (s.takeWhile fun c => isPlain c && c != '\'', rest)
  | _ => none

/-- What is left after the blanks and line ends that follow a backslash at the end of a
line, if there is a line end. -/
def skipFold (s : List Char) : Option (List Char) :=
  match newline? (skipBlanks s) with
  | some rest =>
    some (rest.dropWhile fun c => isBlank c || c == '\n' || c == '\r')
  | none => none

/-- The end of a string over several lines: three quotes, after at most two that belong
to the string. -/
def closeLong (quote : Char) (done s : List Char) : Option (List Char × List Char) :=
  let run := s.takeWhile (· == quote)
  if run.length < 3 then none
  else
    let extra := min (run.length - 3) 2
    some (List.replicate extra quote ++ done, s.drop (extra + 3))

/-- The rest of a string over several lines; only a basic one has escapes. -/
def readLong (quote : Char) : Nat → List Char → List Char → Option (List Char × List Char)
  | 0, _, _ => none
  | _ + 1, _, [] => none
  | fuel + 1, done, c :: s =>
    if c = quote then
      match closeLong quote done (c :: s) with
      | some (done, rest) => some (done.reverse, rest)
      | none => readLong quote fuel (c :: done) s
    else if c = '\\' && quote == '"' then
      match skipFold s with
      | some rest => readLong quote fuel done rest
      | none => (readEscape s).bind fun (d, rest) => readLong quote fuel (d :: done) rest
    else match newline? (c :: s) with
      | some rest => readLong quote fuel ('\n' :: done) rest
      | none => if isPlain c then readLong quote fuel (c :: done) s else none

/-- A text without the line end in front of it, if there is one. -/
def dropNewline (s : List Char) : List Char := (newline? s).getD s

/-- A string after its first quote. -/
def readString (quote : Char) (s : List Char) : Option (List Char × List Char) :=
  match s with
  | a :: b :: rest =>
    if a = quote && b = quote then
      let rest := dropNewline rest
      readLong quote (rest.length + 1) [] rest
    else if quote == '"' then readBasic (s.length + 1) [] s else readLiteral s
  | _ => if quote == '"' then readBasic (s.length + 1) [] s else readLiteral s

/-! ### Keys -/

/-- One part of a key. -/
def readKeyPart (s : List Char) : Option (String × List Char) :=
  match s with
  | '"' :: s => (readBasic (s.length + 1) [] s).map fun (k, s) => (String.ofList k, s)
  | '\'' :: s => (readLiteral s).map fun (k, s) => (String.ofList k, s)
  | s =>
    let k := s.takeWhile isBareKey
    if k.isEmpty then none else some (String.ofList k, s.dropWhile isBareKey)

/-- A key: its parts are separated by dots, with blanks around them. -/
def readKey : Nat → List Char → Option (List String × List Char)
  | 0, _ => none
  | fuel + 1, s => do
    let (k, s) ← readKeyPart (skipBlanks s)
    match skipBlanks s with
    | '.' :: s =>
      let (ks, s) ← readKey fuel s
      some (k :: ks, s)
    | s => some ([k], s)

/-! ### Numbers -/

/-- Digits with single underscores between them, without the underscores. -/
def digitsOf (isDigit : Char → Bool) : List Char → Option (List Char)
  | [] => none
  | [c] => if isDigit c then some [c] else none
  | c :: '_' :: rest => if isDigit c then (digitsOf isDigit rest).map (c :: ·) else none
  | c :: rest => if isDigit c then (digitsOf isDigit rest).map (c :: ·) else none

/-- The value of digits in some base. -/
def valueOf (base : Nat) (ds : List Char) : Nat :=
  ds.foldl (fun n c => n * base + (hexValue? c).getD 0) 0

/-- A digit in base eight. -/
def isOctal (c : Char) : Bool := '0' ≤ c && c ≤ '7'

/-- A digit in base two. -/
def isBinary (c : Char) : Bool := c == '0' || c == '1'

/-- A digit in base sixteen. -/
def isHex (c : Char) : Bool := (hexValue? c).isSome

/-- The digits of a decimal number without a sign; a zero in front stands alone. -/
def decimalDigits (s : List Char) : Option (List Char) := do
  let ds ← digitsOf Char.isDigit s
  if ds.head? == some '0' && 1 < ds.length then none else some ds

/-- An integer. -/
def integerOfWord (w : List Char) : Option Int :=
  match w with
  | '0' :: 'x' :: s => (digitsOf isHex s).map fun ds => valueOf 16 ds
  | '0' :: 'o' :: s => (digitsOf isOctal s).map fun ds => valueOf 8 ds
  | '0' :: 'b' :: s => (digitsOf isBinary s).map fun ds => valueOf 2 ds
  | '-' :: s => (decimalDigits s).map fun ds => -(valueOf 10 ds : Int)
  | '+' :: s => (decimalDigits s).map fun ds => valueOf 10 ds
  | s => (decimalDigits s).map fun ds => valueOf 10 ds

/-- The least integer that can be written. -/
def leastInteger : Int := (BitVec.intMin 128).toInt

/-- The greatest integer that can be written. -/
def greatestInteger : Int := (BitVec.allOnes 128).toNat

/-- The bits of a float: a decimal number with a fraction or an exponent, or one of the
two special words. -/
def floatOfWord (w : List Char) : Option UInt64 := do
  let (negative, s) := match w with
    | '-' :: s => (true, s)
    | '+' :: s => (false, s)
    | s => (false, s)
  let sign : UInt64 := if negative then 0x8000000000000000 else 0
  if s = ['i', 'n', 'f'] then some (sign ||| 0x7FF0000000000000)
  else if s = ['n', 'a', 'n'] then some (sign ||| 0x7FF8000000000000)
  else
    let isMark (c : Char) : Bool := c == '.' || c == 'e' || c == 'E'
    let whole ← decimalDigits (s.takeWhile fun c => !isMark c)
    let (fraction, s) ← match s.dropWhile fun c => !isMark c with
      | '.' :: rest =>
        let ds ← digitsOf Char.isDigit (rest.takeWhile fun c => !isMark c)
        some ('.' :: ds, rest.dropWhile fun c => !isMark c)
      | rest => some ([], rest)
    let exponent ← match s with
      | [] => some []
      | _ :: '+' :: rest => (digitsOf Char.isDigit rest).map ('e' :: ·)
      | _ :: '-' :: rest => (digitsOf Char.isDigit rest).map fun ds => 'e' :: '-' :: ds
      | _ :: rest => (digitsOf Char.isDigit rest).map ('e' :: ·)
    if fraction.isEmpty && exponent.isEmpty then none
    match Json.Number.read (whole ++ fraction ++ exponent) with
    | some (.float bits, []) => some (sign ||| bits)
    | _ => none

/-! ### Dates -/

/-- A number of two digits up to a bound. -/
def twoDigits? (low high : Nat) (a b : Char) : Option Nat :=
  let n := (a.toNat - 48) * 10 + (b.toNat - 48)
  if a.isDigit && b.isDigit && low ≤ n && n ≤ high then some n else none

/-- The number of days of a month. -/
def daysIn (year month : Nat) : Nat :=
  if month = 2 then
    if (year % 4 = 0 ∧ year % 100 ≠ 0) ∨ year % 400 = 0 then 29 else 28
  else if month = 4 ∨ month = 6 ∨ month = 9 ∨ month = 11 then 30 else 31

/-- A date off the front of a word. -/
def dropDate? : List Char → Option (List Char)
  | y₁ :: y₂ :: y₃ :: y₄ :: '-' :: m₁ :: m₂ :: '-' :: d₁ :: d₂ :: rest => do
    let century ← twoDigits? 0 99 y₁ y₂
    let year ← twoDigits? 0 99 y₃ y₄
    let month ← twoDigits? 1 12 m₁ m₂
    let _ ← twoDigits? 1 (daysIn (century * 100 + year) month) d₁ d₂
    some rest
  | _ => none

/-- A time of day off the front of a word; seconds and their fraction may be missing. -/
def dropTime? : List Char → Option (List Char)
  | h₁ :: h₂ :: ':' :: m₁ :: m₂ :: rest => do
    let _ ← twoDigits? 0 23 h₁ h₂
    let _ ← twoDigits? 0 59 m₁ m₂
    match rest with
    | ':' :: s₁ :: s₂ :: rest =>
      let _ ← twoDigits? 0 60 s₁ s₂
      match rest with
      | '.' :: rest =>
        if (rest.takeWhile Char.isDigit).isEmpty then none
        else some (rest.dropWhile Char.isDigit)
      | rest => some rest
    | rest => some rest
  | _ => none

/-- An offset from universal time, or nothing. -/
def isOffset : List Char → Bool
  | [] => true
  | ['Z'] | ['z'] => true
  | [sign, h₁, h₂, ':', m₁, m₂] =>
    (sign == '+' || sign == '-') && (twoDigits? 0 23 h₁ h₂).isSome &&
      (twoDigits? 0 59 m₁ m₂).isSome
  | _ => false

/-- A date, a time of day, or both with an offset. -/
def isDate (w : List Char) : Bool :=
  match dropDate? w with
  | some [] => true
  | some (sep :: rest) =>
    (sep == 'T' || sep == 't' || sep == ' ') && ((dropTime? rest).map isOffset).getD false
  | none => dropTime? w == some []

/-! ### Plain values -/

/-- A character of a plain value. -/
def isWord (c : Char) : Bool :=
  c.isAlphanum || c == '_' || c == '-' || c == '+' || c == '.' || c == ':'

/-- The value that a word stands for. A date is an object with a name that no setting
has. -/
def scalarOfWord (w : List Char) : Option Json :=
  if w = ['t', 'r', 'u', 'e'] then some (.bool true)
  else if w = ['f', 'a', 'l', 's', 'e'] then some (.bool false)
  else match integerOfWord w with
    | some n => if leastInteger ≤ n && n ≤ greatestInteger then some (.ofInt n) else none
    | none =>
      match floatOfWord w with
      | some bits => some (.num (.float bits))
      | none =>
        if isDate w then some (.obj [("$date", .str (String.ofList w))]) else none

/-- A plain value off the front: a date and the time after it may be separated by one
space. -/
def readScalar (s : List Char) : Option (Json × List Char) :=
  let w := s.takeWhile isWord
  let rest := s.dropWhile isWord
  match dropDate? w, rest with
  | some [], ' ' :: c :: more =>
    if c.isDigit then
      (scalarOfWord (w ++ ' ' :: (c :: more).takeWhile isWord)).map
        (·, (c :: more).dropWhile isWord)
    else (scalarOfWord w).map (·, rest)
  | _, _ => (scalarOfWord w).map (·, rest)

end LanguageHub.Toml
