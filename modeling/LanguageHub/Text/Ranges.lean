/-!
# Ranges of code points

A character class of the Unicode character database is kept as a list of closed
ranges of code points, and membership in the list is membership in the class.
-/

namespace LanguageHub.Text

/-- A closed range of code points. -/
structure CodeRange where
  first : Nat
  last : Nat

/-- Whether a code point lies in a range. -/
def CodeRange.covers (r : CodeRange) (n : Nat) : Bool := r.first ≤ n && n ≤ r.last

/-- Whether a character lies in one of some ranges. -/
def inRanges (ranges : List CodeRange) (c : Char) : Bool :=
  ranges.any (·.covers c.toNat)

end LanguageHub.Text
