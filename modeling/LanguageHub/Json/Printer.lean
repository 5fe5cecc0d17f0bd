import LanguageHub.Json.Number

/-!
# JSON texts

`Json.compact` writes a value without blanks, the form of a frame's body;
`Json.pretty` writes it indented by two spaces a level, the form in which the
command line shows a result. In strings only what has to be is escaped: the quote,
the backslash and the controls below the space.
-/

namespace LanguageHub.Json

/-- A digit in base sixteen. -/
def hexDigit (n : Nat) : Char := Nat.digitChar n

/-- One character inside a string. -/
def writeChar (c : Char) : List Char :=
  if c = '"' then ['\\', '"']
  else if c = '\\' then ['\\', '\\']
  else if c = '\x08' then ['\\', 'b']
  else if c = '\x0c' then ['\\', 'f']
  else if c = '\n' then ['\\', 'n']
  else if c = '\r' then ['\\', 'r']
  else if c = '\t' then ['\\', 't']
  else if c.toNat < 0x20 then ['\\', 'u', '0', '0', hexDigit (c.toNat / 16), hexDigit (c.toNat % 16)]
  else [c]

/-- A string with its quotes. -/
def writeString (s : String) : List Char := '"' :: s.toList.flatMap writeChar ++ ['"']

mutual

/-- The text of a value without blanks. -/
def write : Json → List Char
  | .null => ['n', 'u', 'l', 'l']
  | .bool true => ['t', 'r', 'u', 'e']
  | .bool false => ['f', 'a', 'l', 's', 'e']
  | .num n => n.write
  | .str s => writeString s
  | .arr [] => ['[', ']']
  | .arr (j :: rest) => '[' :: write j ++ writeItems rest
  | .obj [] => ['\x7b', '\x7d']
  | .obj ((k, j) :: rest) => '\x7b' :: writeString k ++ ':' :: write j ++ writeMembers rest

/-- The items of an array after its first one, and the bracket that ends it. -/
def writeItems : List Json → List Char
  | [] => [']']
  | j :: rest => ',' :: write j ++ writeItems rest

/-- The members of an object after its first one, and the brace that ends it. -/
def writeMembers : List (String × Json) → List Char
  | [] => ['\x7d']
  | (k, j) :: rest => ',' :: writeString k ++ ':' :: write j ++ writeMembers rest

end

/-- The text of a value without blanks, as a string. -/
def compact (j : Json) : String := String.ofList j.write

/-- A new line at a level of nesting. -/
def newLine (level : Nat) : List Char := '\n' :: List.replicate (2 * level) ' '

mutual

/-- The indented text of a value at a level of nesting. -/
def writePretty (level : Nat) : Json → List Char
  | .arr (j :: rest) =>
    '[' :: newLine (level + 1) ++ writePretty (level + 1) j ++ prettyItems level rest
  | .obj ((k, j) :: rest) =>
    '\x7b' :: newLine (level + 1) ++ writeString k ++ ':' :: ' ' :: writePretty (level + 1) j ++
      prettyMembers level rest
  | j => j.write

/-- The items of an indented array after its first one, and its end. -/
def prettyItems (level : Nat) : List Json → List Char
  | [] => newLine level ++ [']']
  | j :: rest => ',' :: newLine (level + 1) ++ writePretty (level + 1) j ++ prettyItems level rest

/-- The members of an indented object after its first one, and its end. -/
def prettyMembers (level : Nat) : List (String × Json) → List Char
  | [] => newLine level ++ ['\x7d']
  | (k, j) :: rest =>
    ',' :: newLine (level + 1) ++ writeString k ++ ':' :: ' ' :: writePretty (level + 1) j ++
      prettyMembers level rest

end

/-- The indented text of a value. -/
def pretty (j : Json) : String := String.ofList (j.writePretty 0)

end LanguageHub.Json
