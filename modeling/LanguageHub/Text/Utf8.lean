/-!
# UTF-8

Bytes and characters, over lists. `encode` writes a text, `decode?` reads it back
and refuses everything else, and `decodeLossy` reads any bytes: each **maximal
part** of a character that breaks off is replaced by one replacement character.

`step` is the one place that knows the encoding. It takes a character, or the
bytes of a broken one, off the front of the input.
-/

namespace LanguageHub.Text.Utf8

/-- The bytes of a text. -/
def encode (s : List Char) : List UInt8 := s.flatMap String.utf8EncodeChar

/-- The bytes of a string. -/
def encodeString (s : String) : List UInt8 := encode s.toList

/-- A byte that continues a character. -/
def isContinuation (b : UInt8) : Bool := 0x80 ≤ b && b ≤ 0xBF

/-- The six bits that a continuation byte carries. -/
def payload (b : UInt8) : Nat := b.toNat % 64

/-- Which bytes may follow a given first byte of a longer character: the range of
the second byte and the number of bytes after it. -/
def second (b : UInt8) : Option (UInt8 × UInt8 × Nat) :=
  if 0xC2 ≤ b && b ≤ 0xDF then some (0x80, 0xBF, 0)
  else if b == 0xE0 then some (0xA0, 0xBF, 1)
  else if b == 0xED then some (0x80, 0x9F, 1)
  else if 0xE1 ≤ b && b ≤ 0xEF then some (0x80, 0xBF, 1)
  else if b == 0xF0 then some (0x90, 0xBF, 2)
  else if 0xF1 ≤ b && b ≤ 0xF3 then some (0x80, 0xBF, 2)
  else if b == 0xF4 then some (0x80, 0x8F, 2)
  else none

/-- The value carried by the first byte of a longer character. -/
def lead (b : UInt8) : Nat :=
  if b < 0xE0 then b.toNat % 32 else if b < 0xF0 then b.toNat % 16 else b.toNat % 8

/-- Takes `n` continuation bytes: the value that they complete, or nothing if one
is missing, with what is left. -/
def continuation : Nat → Nat → List UInt8 → Option Nat × List UInt8
  | 0, v, s => (some v, s)
  | _ + 1, _, [] => (none, [])
  | n + 1, v, b :: s =>
    if isContinuation b then continuation n (v * 64 + payload b) s else (none, b :: s)

/-- One character off the front, or nothing where a character is broken, with the
bytes after it. -/
def step (b : UInt8) (s : List UInt8) : Option Char × List UInt8 :=
  if b < 0x80 then (some (Char.ofNat b.toNat), s)
  else match second b, s with
    | some (lo, hi, more), b' :: s' =>
      if lo ≤ b' && b' ≤ hi then
        let (v, rest) := continuation more (lead b * 64 + payload b') s'
        (v.map Char.ofNat, rest)
      else (none, s)
    | _, _ => (none, s)

theorem continuation_length (n v : Nat) (s : List UInt8) :
    (continuation n v s).2.length ≤ s.length := by
  induction n generalizing v s with
  | zero => simp [continuation]
  | succ n ih =>
    cases s with
    | nil => simp [continuation]
    | cons b s =>
      simp only [continuation]
      split
      · exact Nat.le_succ_of_le (ih _ _)
      · exact Nat.le_refl _

theorem step_length (b : UInt8) (s : List UInt8) : (step b s).2.length ≤ s.length := by
  unfold step
  split
  · exact Nat.le_refl _
  · split
    · split
      · exact Nat.le_succ_of_le (continuation_length _ _ _)
      · exact Nat.le_refl _
    · exact Nat.le_refl _

/-- The text whose bytes these are, if there is one. -/
def decode? : List UInt8 → Option (List Char)
  | [] => some []
  | b :: s =>
    match h : step b s with
    | (some c, rest) =>
      have : rest.length < s.length + 1 := by
        have := step_length b s; rw [h] at this; exact Nat.lt_succ_of_le this
      (decode? rest).map (c :: ·)
    | (none, _) => none
termination_by s => s.length

/-- The text of any bytes, with a replacement character for each broken part. -/
def decodeLossy : List UInt8 → List Char
  | [] => []
  | b :: s =>
    match h : step b s with
    | (c, rest) =>
      have : rest.length < s.length + 1 := by
        have := step_length b s; rw [h] at this; exact Nat.lt_succ_of_le this
      c.getD (Char.ofNat 0xFFFD) :: decodeLossy rest
termination_by s => s.length

/-- `decode?` as a string. -/
def decodeString? (s : List UInt8) : Option String := (decode? s).map String.ofList

/-- `decodeLossy` as a string. -/
def decodeStringLossy (s : List UInt8) : String := String.ofList (decodeLossy s)

end LanguageHub.Text.Utf8
