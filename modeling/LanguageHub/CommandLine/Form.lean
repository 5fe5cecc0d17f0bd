/-!
# Options and operands

The words of a command line are options and operands. An option has a **long name** after
two dashes; its value is the next word, or follows an equals sign in the same word. A
word of two dashes alone ends the options, and all words after it are operands. No option
may be given twice, and no value or operand starts with a dash unless it is a dash alone
or the options have ended.

`Form.read?` reads words as far as they belong to a form. It stops in front of an operand
for which the form has no room, so that the forms of a program and of a command can be
read one after the other.
-/

namespace LanguageHub.CommandLine

/-- What a word is by its look. -/
inductive Word where
  /-- The end of the options. -/
  | terminator
  /-- A long option, perhaps with its value. -/
  | option (name : String) (value : Option String)
  /-- Some letters after one dash. -/
  | letters
  | plain (text : String)
deriving DecidableEq, Repr

/-- What a word is. -/
def Word.ofString (s : String) : Word :=
  match s.toList with
  | ['-', '-'] => .terminator
  | '-' :: '-' :: rest =>
    match rest.dropWhile (· != '=') with
    | _ :: value =>
      .option (String.ofList (rest.takeWhile (· != '='))) (some (String.ofList value))
    | [] => .option (String.ofList rest) none
  | '-' :: _ :: _ => .letters
  | _ => .plain s

/-- The options and operands that words may give. -/
structure Form where
  /-- The names of the options that take a value. -/
  valued : List String
  /-- The names of the options that stand alone. -/
  flags : List String
  /-- How many operands there may be. -/
  operands : Nat
deriving DecidableEq, Repr

/-- What words give. -/
structure Reading where
  values : List (String × String)
  flags : List String
  operands : List String
deriving DecidableEq, Repr, Inhabited

namespace Reading

/-- The reading of no words. -/
def empty : Reading := ⟨[], [], []⟩

/-- The value of an option. -/
def value? (r : Reading) (name : String) : Option String :=
  (r.values.find? (·.1 == name)).map (·.2)

/-- Whether an option is given. -/
def has (r : Reading) (name : String) : Bool := r.flags.contains name

end Reading

namespace Form

/-- A reading with the value of one more option. -/
def addValue? (f : Form) (r : Reading) (name value : String) : Option Reading :=
  if f.valued.contains name && (r.value? name).isNone then
    some { r with values := r.values ++ [(name, value)] }
  else none

/-- A reading with one more option that stands alone. -/
def addFlag? (f : Form) (r : Reading) (name : String) : Option Reading :=
  if f.flags.contains name && !r.has name then some { r with flags := r.flags ++ [name] }
  else none

/-- A reading with some more operands, if there is room for all of them. -/
def addOperands? (f : Form) (r : Reading) (words : List String) : Option Reading :=
  if r.operands.length + words.length ≤ f.operands then
    some { r with operands := r.operands ++ words }
  else none

/-- Reads words after a reading, and leaves those from the first operand on for which
there is no room. -/
def readFrom? (f : Form) (r : Reading) : List String → Option (Reading × List String)
  | [] => some (r, [])
  | w :: rest =>
    match Word.ofString w with
    | .terminator => (f.addOperands? r rest).map fun r => (r, [])
    | .letters => none
    | .plain text =>
      match f.addOperands? r [text] with
      | some r => f.readFrom? r rest
      | none => some (r, w :: rest)
    | .option name (some value) =>
      match f.addValue? r name value with
      | some r => f.readFrom? r rest
      | none => none
    | .option name none =>
      match f.addFlag? r name, rest with
      | some r, rest => f.readFrom? r rest
      | none, v :: rest =>
        match Word.ofString v, f.addValue? r name v with
        | .plain _, some r => f.readFrom? r rest
        | _, _ => none
      | none, [] => none

/-- Reads words, and leaves those from the first operand on for which there is no room. -/
def read? (f : Form) (words : List String) : Option (Reading × List String) :=
  f.readFrom? .empty words

/-- Reads words that all belong to a form. -/
def readAll? (f : Form) (words : List String) : Option Reading :=
  match f.read? words with
  | some (r, []) => some r
  | _ => none

end Form

/-! ### Numbers -/

/-- The number that digits write. -/
def digits? (ds : List Char) : Option Nat :=
  if ds.isEmpty || !ds.all Char.isDigit then none
  else some (ds.foldl (fun n d => 10 * n + (d.toNat - 48)) 0)

/-- The number that a word writes, with a plus in front or without. -/
def count? (limit : Nat) (s : String) : Option Nat :=
  let number := match s.toList with
    | '+' :: ds => digits? ds
    | ds => digits? ds
  number.filter (· ≤ limit)

/-- The number that a word writes with a sign in front or without; below zero there is
none. -/
def signedCount? (limit : Nat) (s : String) : Option Nat :=
  match s.toList with
  | '-' :: ds => (digits? ds).filter (· = 0)
  | _ => count? limit s

end LanguageHub.CommandLine
