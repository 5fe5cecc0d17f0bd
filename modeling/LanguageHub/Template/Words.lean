/-!
# Words of a command line

`Template.split` cuts a text into words by the quoting rules of the shell: blanks
separate words, a single quote keeps everything up to the next one, a double quote
leaves only the backslash special, and a hash that starts a word begins a comment.

The cut is a machine that reads one character at a time. A `Cutter` holds the words
so far and a `Mode`; the text is refused exactly when it ends inside a quote.
-/

namespace LanguageHub.Template

/-- Where in a text the reader is. -/
inductive Mode where
  /-- Between words. -/
  | between
  /-- After a backslash between words. -/
  | betweenEscape
  /-- In a comment. -/
  | comment
  /-- In a word, outside quotes. -/
  | word
  /-- After a backslash in a word. -/
  | wordEscape
  /-- In single quotes. -/
  | single
  /-- In double quotes. -/
  | double
  /-- After a backslash in double quotes. -/
  | doubleEscape
deriving DecidableEq, Repr

/-- A text that has been read in part. -/
structure Cutter where
  /-- The finished words, last one first. -/
  done : List (List Char)
  /-- The characters of the current word, last one first. -/
  current : List Char
  mode : Mode
deriving Repr

/-- A character that a backslash between double quotes takes its meaning from: a dollar
sign, a backquote, a quote or a backslash. -/
def isSpecialQuoted (c : Char) : Bool :=
  c = '$' || c.toNat = 0x60 || c = '"' || c = '\\'

namespace Cutter

/-- The cutter before the first character. -/
def start : Cutter := ⟨[], [], .between⟩

/-- A cutter with one more character in its word. -/
def add (k : Cutter) (c : Char) (m : Mode) : Cutter := ⟨k.done, c :: k.current, m⟩

/-- A cutter whose word is finished. -/
def finishWord (k : Cutter) : Cutter := ⟨k.current.reverse :: k.done, [], .between⟩

/-- A character that separates words. -/
def isSeparator (c : Char) : Bool := c == ' ' || c == '\t' || c == '\n'

/-- Reads one character. -/
def step (k : Cutter) (c : Char) : Cutter :=
  match k.mode with
  | .between =>
    if c = '\'' then { k with mode := .single }
    else if c = '"' then { k with mode := .double }
    else if c = '\\' then { k with mode := .betweenEscape }
    else if isSeparator c then k
    else if c = '#' then { k with mode := .comment }
    else k.add c .word
  | .betweenEscape => if c = '\n' then { k with mode := .between } else k.add c .word
  | .comment => if c = '\n' then { k with mode := .between } else k
  | .word =>
    if c = '\'' then { k with mode := .single }
    else if c = '"' then { k with mode := .double }
    else if c = '\\' then { k with mode := .wordEscape }
    else if isSeparator c then k.finishWord
    else k.add c .word
  | .wordEscape => if c = '\n' then { k with mode := .word } else k.add c .word
  | .single => if c = '\'' then { k with mode := .word } else k.add c .single
  | .double =>
    if c = '"' then { k with mode := .word }
    else if c = '\\' then { k with mode := .doubleEscape }
    else k.add c .double
  | .doubleEscape =>
    if c = '\n' then { k with mode := .double }
    else if isSpecialQuoted c then k.add c .double
    else (k.add '\\' .double).add c .double

/-- The words at the end of the text, unless it ends inside a quote. A backslash that
ends the text stands for itself. -/
def finish (k : Cutter) : Option (List (List Char)) :=
  match k.mode with
  | .between | .comment => some k.done.reverse
  | .word => some k.finishWord.done.reverse
  | .betweenEscape | .wordEscape => some (k.add '\\' .word).finishWord.done.reverse
  | .single | .double | .doubleEscape => none

end Cutter

/-- The words of a text. -/
def split (text : List Char) : Option (List (List Char)) :=
  (text.foldl Cutter.step .start).finish

end LanguageHub.Template
