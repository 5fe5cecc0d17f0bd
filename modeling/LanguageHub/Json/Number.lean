import LanguageHub.Decimal.Shortest
import LanguageHub.Json.Basic

/-!
# Numbers in JSON texts

**Writing.** An integer is written in base ten. A double is written with the fewest
digits that read back: positionally, and always with a fraction, while the exponent
of its first digit is between -5 and 15; otherwise with an exponent that shows its
sign.

**Reading.** A literal without fraction and exponent is an integer if it fits into 64
bits, with or without a sign. Every other literal is a double, and so is `-0`. The
double is computed from a *significand* of 64 bits and a decimal exponent in two
roundings: the significand is rounded, and then multiplied or divided by a power of
ten. Digits that no longer fit into the significand are dropped. A literal that is
too large for a double is not a number.
-/

namespace LanguageHub.Json.Number

/-! ### Writing -/

/-- The first exponent that is written positionally. -/
def leastPositional : Int := -5

/-- The last exponent that is written positionally. -/
def greatestPositional : Int := 15

/-- Digits with a point after the first `n` of them, filled up with zeros. -/
def positional (digits : List Char) (n : Nat) : List Char :=
  let whole := digits.take n
  let fraction := digits.drop n
  whole ++ List.replicate (n - digits.length) '0' ++ '.' ::
    (if fraction.isEmpty then ['0'] else fraction)

/-- The text of a decimal without its sign. -/
def writeDecimal (d : Decimal) : List Char :=
  let digits := Nat.toDigits 10 d.digits
  let e := d.exponent + digits.length - 1
  if d.digits = 0 then ['0', '.', '0']
  else if leastPositional ≤ e ∧ e ≤ greatestPositional then
    if e < 0 then '0' :: '.' :: List.replicate ((-e).toNat - 1) '0' ++ digits
    else positional digits (e.toNat + 1)
  else
    let mantissa := match digits with
      | [] => []
      | [c] => [c]
      | c :: rest => c :: '.' :: rest
    mantissa ++ 'e' :: (if e < 0 then '-' else '+') :: Nat.toDigits 10 e.natAbs

/-- The text of a number. -/
def write : Number → List Char
  | .int n => (if n < 0 then ['-'] else []) ++ Nat.toDigits 10 n.natAbs
  | .float bits =>
    let (negative, m, q, low) := Decimal.ofBits bits
    (if negative then ['-'] else []) ++ writeDecimal (Decimal.shortest m q low)

/-! ### Reading -/

/-- Whether a character is a digit in base ten. -/
def isDigit (c : Char) : Bool := '0' ≤ c && c ≤ '9'

/-- The value of a digit. -/
def digitValue (c : Char) : Nat := c.toNat - '0'.toNat

/-- The greatest significand. -/
def greatestSignificand : Nat := UInt64.size - 1

/-- A significand and a decimal exponent. -/
structure Scaled where
  significand : Nat
  exponent : Int
deriving Repr

/-- Appends the digits before the point; each one that does not fit, and all after
it, raise the exponent instead. The flag says whether all fitted. -/
def absorbWhole (significand : Nat) : List Char → Scaled × Bool
  | [] => (⟨significand, 0⟩, true)
  | c :: rest =>
    let next := significand * 10 + digitValue c
    if next ≤ greatestSignificand then absorbWhole next rest
    else (⟨significand, rest.length + 1⟩, false)

/-- Appends the digits after the point, up to the first one that does not fit. -/
def absorbFraction (x : Scaled) : List Char → Scaled
  | [] => x
  | c :: rest =>
    let next := x.significand * 10 + digitValue c
    if next ≤ greatestSignificand then absorbFraction ⟨next, x.exponent - 1⟩ rest else x

/-- `f · 10 ^ e`, or nothing if it is too large. An exponent below -308 is worked off
in divisions of 308, of which the first two leave nothing of a significand. -/
def scale (f : Float) (e : Int) : Nat → Option Float
  | 0 => some f
  | fuel + 1 =>
    if e < -308 then
      if f == 0 then some f else scale (f / Float.ofScientific 1 false 308) (e + 308) fuel
    else if e < 0 then some (f / Float.ofScientific 1 false e.natAbs)
    else if 308 < e then if f == 0 then some f else none
    else
      let g := f * Float.ofScientific 1 false e.natAbs
      if g.isInf then none else some g

/-- The double of a significand and an exponent. -/
def Scaled.toFloat? (x : Scaled) (negative : Bool) : Option Number :=
  (scale x.significand.toUInt64.toFloat x.exponent 4).map fun f =>
    .float (if negative then -f else f).toBits

/-- The parts of a literal: its sign, the digits before and after the point, and the
exponent with its sign. -/
structure Literal where
  negative : Bool
  whole : List Char
  fraction : Option (List Char)
  exponent : Option (Bool × List Char)

/-- The greatest exponent that is worked with. -/
def greatestExponent : Nat := Int32.maxValue.toInt.toNat

/-- The value of some digits. -/
def natOfDigits (ds : List Char) : Nat := ds.foldl (fun n c => n * 10 + digitValue c) 0

/-- The number that a literal denotes. -/
def Literal.value? (l : Literal) : Option Number :=
  let (x, fits) := absorbWhole 0 l.whole
  match l.fraction, l.exponent with
  | none, none =>
    if !fits then x.toFloat? l.negative
    else if !l.negative then some (.int x.significand)
    else if x.significand = 0 ∨ UInt64.size / 2 < x.significand then x.toFloat? true
    else some (.int (-x.significand))
  | fraction, exponent =>
    let y := absorbFraction x (fraction.getD [])
    match exponent with
    | none => y.toFloat? l.negative
    | some (down, ds) =>
      let e := natOfDigits ds
      if greatestExponent < e then
        if y.significand = 0 ∨ down then Scaled.toFloat? ⟨0, 0⟩ l.negative else none
      else Scaled.toFloat? ⟨y.significand, if down then y.exponent - e else y.exponent + e⟩ l.negative

/-- Some digits off the front. -/
def takeDigits (s : List Char) : List Char × List Char := (s.takeWhile isDigit, s.dropWhile isDigit)

/-- A literal off the front of a text: no zero in front of another digit, and a digit
at least before the point, after it, and in the exponent. -/
def readLiteral (s : List Char) : Option (Literal × List Char) := do
  let (negative, s) := match s with
    | '-' :: rest => (true, rest)
    | s => (false, s)
  let (whole, s) := takeDigits s
  if whole.isEmpty || (whole.head? == some '0' && 1 < whole.length) then none
  let (fraction, s) ← match s with
    | '.' :: rest =>
      let (ds, rest) := takeDigits rest
      if ds.isEmpty then none else some (some ds, rest)
    | s => some (none, s)
  let (exponent, s) ← match s with
    | c :: rest =>
      if c == 'e' || c == 'E' then
        let (down, rest) := match rest with
          | '+' :: r => (false, r)
          | '-' :: r => (true, r)
          | r => (false, r)
        let (ds, rest) := takeDigits rest
        if ds.isEmpty then none else some (some (down, ds), rest)
      else some (none, s)
    | [] => some (none, s)
  some (⟨negative, whole, fraction, exponent⟩, s)

/-- A number off the front of a text. -/
def read (s : List Char) : Option (Number × List Char) := do
  let (l, rest) ← readLiteral s
  let n ← l.value?
  some (n, rest)

end LanguageHub.Json.Number
