import LanguageHub.Json.Parser
import LanguageHub.Json.Printer
import LanguageHub.Text.Blank
import LanguageHub.Text.Case
import LanguageHub.Text.Quoted

/-!
# Frames

A frame is a block of header lines, a blank line, and a body whose length in **bytes**
the header gives. `Frame.write` puts a value into a frame; `Frame.next` takes one frame
off the bytes that have arrived.

Bytes may still be on their way. As long as the stream has not ended, `next` answers
`more` where it cannot decide yet, and it decides as early as it can: a header line with
a bad length is an error when the line is complete, before the rest of its block.
-/

namespace LanguageHub.Frame

/-- The greatest length of a body. -/
def limit : Nat := 4194304

/-- Why no frame can be read. -/
inductive Error where
  /-- A header line is not a text. -/
  | header
  /-- The stream ends inside a body. -/
  | body
  /-- The body is not JSON. -/
  | notJson
  | endedInHeader
  | noLength
  | badLength (value : String)
  | tooLong (length : Nat)
deriving DecidableEq, Repr

/-- The wording of an error. -/
def Error.message : Error → String
  | .header => "reading frame header"
  | .body => "reading frame body"
  | .notJson => "frame body is not valid JSON"
  | .endedInHeader => "stream ended inside a frame header"
  | .noLength => "frame header has no Content-Length"
  | .badLength v => "bad Content-Length value " ++ Text.quote v
  | .tooLong n =>
    "frame of " ++ toString n ++ " bytes exceeds the " ++ toString limit ++ " byte limit"

/-- What the bytes of a stream start with. -/
inductive Outcome where
  /-- A whole frame, and the bytes after it. -/
  | message (value : Json) (rest : List UInt8)
  /-- Nothing: the stream ends between two frames. -/
  | ended
  | failed (e : Error)
  /-- Something that later bytes decide. -/
  | more
deriving Repr

/-! ### Writing -/

/-- The name of the header line that counts. -/
def lengthName : String := "Content-Length"

/-- The body of a frame. -/
def bodyOf (j : Json) : List UInt8 := Text.Utf8.encode j.write

/-- A value as a frame. -/
def write (j : Json) : List UInt8 :=
  Text.Utf8.encodeString (lengthName ++ ": " ++ toString (bodyOf j).length ++ "\r\n\r\n") ++
    bodyOf j

/-! ### Reading -/

/-- A line with its line feed, and the bytes after it. -/
def takeLine : List UInt8 → Option (List UInt8 × List UInt8)
  | [] => none
  | b :: s => if b = 0x0A then some ([b], s) else (takeLine s).map fun (l, r) => (b :: l, r)

theorem takeLine_length {s line rest : List UInt8} (h : takeLine s = some (line, rest)) :
    rest.length < s.length := by
  induction s generalizing line rest with
  | nil => simp [takeLine] at h
  | cons b s ih =>
    simp only [takeLine] at h
    split at h
    · simp only [Option.some.injEq, Prod.mk.injEq] at h
      simp [← h.2]
    · simp only [Option.map_eq_some_iff, Prod.mk.injEq, Prod.exists] at h
      obtain ⟨l, r, hr, -, rfl⟩ := h
      exact Nat.lt_succ_of_lt (ih hr)

/-- A number of 64 bits: digits, with a plus sign in front if need be. -/
def readLength (value : List Char) : Option Nat :=
  let digits := match value with
    | '+' :: rest => rest
    | s => s
  if digits.isEmpty || !digits.all Char.isDigit then none
  else
    let n := digits.foldl (fun n c => n * 10 + (c.toNat - 48)) 0
    if n < UInt64.size then some n else none

/-- What a header line, trimmed, says about the length: nothing, or a value, or that the
value is none. -/
def lengthOf (line : List Char) : Option (Except Error Nat) :=
  match line.dropWhile (· != ':') with
  | [] => none
  | _ :: value =>
    let name := String.ofList (Text.trim (line.takeWhile (· != ':')))
    if !Text.eqIgnoreAsciiCase name lengthName then none
    else match readLength (Text.trim value) with
      | some n => some (.ok n)
      | none => some (.error (.badLength (String.ofList (Text.trim value))))

/-- What follows a header block that gives a length. -/
def readBody (ended : Bool) (length : Option Nat) (s : List UInt8) : Outcome :=
  match length with
  | none => .failed .noLength
  | some n =>
    if limit < n then .failed (.tooLong n)
    else if s.length < n then if ended then .failed .body else .more
    else match Json.parse? (s.take n) with
      | some j => .message j (s.drop n)
      | none => .failed .notJson

/-- What one header line makes of the length so far; a blank line has none. -/
inductive LineEffect where
  | blank
  | length (n : Option Nat)
  | bad (e : Error)
deriving Repr

/-- The effect of a header line. -/
def lineEffect (length : Option Nat) (line : List UInt8) : LineEffect :=
  match Text.Utf8.decode? line with
  | none => .bad .header
  | some text =>
    let text := Text.trim text
    if text.isEmpty then .blank
    else match lengthOf text with
      | none => .length length
      | some (.ok n) => .length (some n)
      | some (.error e) => .bad e

/-- Reads a header block, of which `length` is known so far, and the body after it. -/
def readHeader (ended first : Bool) (length : Option Nat) (s : List UInt8) : Outcome :=
  match h : takeLine s with
  | some (line, rest) =>
    have := takeLine_length h
    match lineEffect length line with
    | .blank => readBody ended length rest
    | .length n => readHeader ended false n rest
    | .bad e => .failed e
  | none =>
    if !ended then .more
    else if s.isEmpty then if first then .ended else .failed .endedInHeader
    else match lineEffect length s with
      | .blank => readBody ended length []
      | .length _ => .failed .endedInHeader
      | .bad e => .failed e
termination_by s.length

/-- What the bytes that have arrived start with. -/
def next (ended : Bool) (s : List UInt8) : Outcome := readHeader ended true none s

/-- The values of the frames of a whole stream, and the error at its end if there is one;
`fuel` bounds their number. -/
def readAllFrom : Nat → List UInt8 → List Json × Option Error
  | 0, _ => ([], none)
  | fuel + 1, s =>
    match next true s with
    | .message j rest =>
      let (js, e) := readAllFrom fuel rest
      (j :: js, e)
    | .failed e => ([], some e)
    | .ended | .more => ([], none)

/-- The values of the frames of a whole stream, and the error at its end if there is one. -/
def readAll (s : List UInt8) : List Json × Option Error := readAllFrom (s.length + 1) s

end LanguageHub.Frame
