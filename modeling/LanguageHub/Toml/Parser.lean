import LanguageHub.Toml.Scalar
import LanguageHub.Toml.Document

/-!
# Reading TOML documents

`Toml.parse?` reads a document as a JSON object. A document is a list of lines; each is
blank, a header or a key with its value, and may end in a comment. Arrays and inline
tables run over line ends and may end in a comma.
-/

namespace LanguageHub.Toml

/-- How deep arrays and inline tables may be nested. -/
def greatestDepth : Nat := 80

/-- The items of an array after its bracket. -/
def readItems (item : List Char → Option (Json × List Char)) :
    Nat → List Json → List Char → Option (List Json × List Char)
  | 0, _, _ => none
  | fuel + 1, done, s => do
    let s ← skipLines (s.length + 1) s
    match s with
    | ']' :: s => some (done.reverse, s)
    | s =>
      let (j, s) ← item s
      let s ← skipLines (s.length + 1) s
      match s with
      | ',' :: s => readItems item fuel (j :: done) s
      | ']' :: s => some ((j :: done).reverse, s)
      | _ => none

/-- The entries of an inline table after its brace. -/
def readEntries (item : List Char → Option (Json × List Char)) :
    Nat → Entries → List Char → Option (Entries × List Char)
  | 0, _, _ => none
  | fuel + 1, done, s => do
    let s ← skipLines (s.length + 1) s
    match s with
    | '\x7d' :: s => some (done, s)
    | s =>
      let (k, s) ← readKey (s.length + 1) s
      match s with
      | '=' :: s =>
        let (j, s) ← item (skipBlanks s)
        let done ← insertValue j k done
        let s ← skipLines (s.length + 1) s
        match s with
        | ',' :: s => readEntries item fuel done s
        | '\x7d' :: s => some (done, s)
        | _ => none
      | _ => none

/-- A value, nested at most `depth` deep. -/
def readValue : Nat → List Char → Option (Json × List Char)
  | depth, s =>
    match s with
    | '"' :: s => (readString '"' s).map fun (t, rest) => (.str (String.ofList t), rest)
    | '\'' :: s => (readString '\'' s).map fun (t, rest) => (.str (String.ofList t), rest)
    | '[' :: s =>
      match depth with
      | 0 => none
      | depth + 1 =>
        (readItems (readValue depth) (s.length + 1) [] s).map fun (items, rest) =>
          (.arr items, rest)
    | '\x7b' :: s =>
      match depth with
      | 0 => none
      | depth + 1 =>
        (readEntries (readValue depth) (s.length + 1) [] s).map fun (es, rest) =>
          (es.toJson, rest)
    | s => readScalar s

/-- What is left after the end of a line: blanks, a comment, and a line end or the end
of the text. -/
def endLine (s : List Char) : Option (List Char) := do
  let s ← match skipBlanks s with
    | '#' :: s => skipComment s
    | s => some s
  match s with
  | [] => some []
  | s => newline? s

/-- Reads the lines of a document; `header` is the path of the table that is open. -/
def readDocument : Nat → List String → Entries → List Char → Option Entries
  | 0, _, _, _ => none
  | fuel + 1, header, root, s => do
    let s ← skipLines (s.length + 1) s
    match s with
    | [] => some root
    | '[' :: '[' :: s =>
      let (k, s) ← readKey (s.length + 1) s
      match s with
      | ']' :: ']' :: s =>
        let root ← updateAt (openItem (k.getLastD "")) k.dropLast root
        let s ← endLine s
        readDocument fuel k root s
      | _ => none
    | '[' :: s =>
      let (k, s) ← readKey (s.length + 1) s
      match s with
      | ']' :: s =>
        let root ← updateAt (openTable (k.getLastD "")) k.dropLast root
        let s ← endLine s
        readDocument fuel k root s
      | _ => none
    | s =>
      let (k, s) ← readKey (s.length + 1) s
      match s with
      | '=' :: s =>
        let (j, s) ← readValue greatestDepth (skipBlanks s)
        let root ← updateAt (insertValue j k) header root
        let s ← endLine s
        readDocument fuel header root s
      | _ => none

/-- The object that a document stands for. A byte order mark may come first. -/
def parse? (text : String) : Option Json :=
  let s := match text.toList with
    | '\uFEFF' :: s => s
    | s => s
  (readDocument (s.length + 1) [] [] s).map Entries.toJson

end LanguageHub.Toml
