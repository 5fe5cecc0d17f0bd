/-!
# The shortest decimal that reads back

A finite binary number `m · 2 ^ q` is read back from every decimal in the interval
of reals that round to it. `Decimal.shortest` looks for a decimal with the fewest
digits in that interval: grid by grid, it tests the two neighbours of the number
on the grid of decimals with 1, 2, … 17 digits, in exact arithmetic. The first grid
with a hit wins, of two hits the nearer one, and an exact tie goes to the even
digit.

If a point of a grid lies in the interval, so does one of the two neighbours of the
number on that grid, so no shorter decimal is passed over.
-/

namespace LanguageHub

/-- The decimal number `digits · 10 ^ exponent`. -/
structure Decimal where
  digits : Nat
  exponent : Int
deriving DecidableEq, Repr

namespace Decimal

/-- A positive rational, for comparisons in exact arithmetic. -/
structure Ratio where
  num : Nat
  den : Nat

/-- `n · b ^ e`. -/
def Ratio.ofPower (n b : Nat) (e : Int) : Ratio :=
  if 0 ≤ e then ⟨n * b.pow e.toNat, 1⟩ else ⟨n, b.pow (-e).toNat⟩

/-- Less than. -/
def Ratio.lt (x y : Ratio) : Bool := x.num * y.den < y.num * x.den

/-- The rational by `10 ^ e`, rounded down. -/
def Ratio.quotient (x : Ratio) (e : Int) : Nat :=
  if 0 ≤ e then x.num / (x.den * Nat.pow 10 e.toNat) else x.num * Nat.pow 10 (-e).toNat / x.den

/-- The exponent of the first digit of a positive rational. -/
def Ratio.magnitude (x : Ratio) : Int :=
  if x.den ≤ x.num then (Nat.toDigits 10 (x.num / x.den)).length - 1
  else
    let j := (Nat.toDigits 10 (x.den / x.num)).length - 1
    if x.den ≤ x.num * Nat.pow 10 j then -j else -(j + 1)

/-- The value of a decimal. -/
def toRatio (d : Decimal) : Ratio := .ofPower d.digits 10 d.exponent

/-- The same value without zeros at the end of its digits, of which `fuel` at most
are taken away. -/
def trimZeros : Nat → Decimal → Decimal
  | 0, d => d
  | fuel + 1, d =>
    if d.digits ≠ 0 ∧ d.digits % 10 = 0 then trimZeros fuel ⟨d.digits / 10, d.exponent + 1⟩
    else d

/-- The reals that round to a number: its two ends, and whether they belong to it. -/
structure Interval where
  lower : Ratio
  upper : Ratio
  closed : Bool

/-- Whether a decimal lies in an interval. -/
def Interval.holds (i : Interval) (d : Decimal) : Bool :=
  let x := d.toRatio
  if i.closed then !x.lt i.lower && !i.upper.lt x else i.lower.lt x && x.lt i.upper

/-- The better of the two neighbours of `x` on the grid of step `10 ^ e`, if one of
them lies in the interval. -/
def neighbour (x : Ratio) (i : Interval) (e : Int) : Option Decimal :=
  let below : Decimal := ⟨x.quotient e, e⟩
  let above : Decimal := ⟨x.quotient e + 1, e⟩
  let isBelow := below.digits ≠ 0 && i.holds below
  let isAbove := i.holds above
  if isBelow && isAbove then
    let middle : Ratio := (Decimal.mk (2 * below.digits + 1) e).toRatio
    let twice : Ratio := ⟨2 * x.num, x.den⟩
    if twice.lt middle then some below
    else if middle.lt twice then some above
    else if below.digits % 2 = 0 then some below else some above
  else if isBelow then some below
  else if isAbove then some above
  else none

/-- The first hit on the grids with `n`, `n + 1`, … digits. -/
def search (x : Ratio) (i : Interval) (magnitude : Int) : Nat → Nat → Decimal
  | 0, n => ⟨x.quotient (magnitude - n), magnitude - n⟩
  | grids + 1, n => (neighbour x i (magnitude - n)).getD (search x i magnitude grids (n + 1))

/-- The shortest decimal for the binary number `m · 2 ^ q`; `low` says that the
number below it is half as far away as the one above. -/
def shortest (m : Nat) (q : Int) (low : Bool) : Decimal :=
  if m = 0 then ⟨0, 0⟩
  else
    let x := Ratio.ofPower m 2 q
    let i : Interval :=
      { lower := .ofPower (4 * m - (if low then 1 else 2)) 2 (q - 2)
        upper := .ofPower (4 * m + 2) 2 (q - 2)
        closed := m % 2 == 0 }
    trimZeros 20 (search x i x.magnitude 17 0)

/-- The parts of the bits of a finite double: sign, significand, exponent, and
whether the significand is the least of its exponent. -/
def ofBits (bits : UInt64) : Bool × Nat × Int × Bool :=
  let n := bits.toNat
  let fraction : Nat := n % (1 <<< 52)
  let biased : Nat := (n >>> 52) % (1 <<< 11)
  let negative := n >>> 63 == 1
  if biased = 0 then (negative, fraction, -1074, false)
  else (negative, (1 <<< 52) + fraction, (biased : Int) - 1075, fraction == 0 && biased != 1)

end Decimal

end LanguageHub
