import LanguageHub.Text.CaseTable

/-!
# Lower-casing

`lowercase` maps a text to its full lower-case form, the form in which roots and
path components are compared. Every character is mapped on its own, with two
exceptions: a capital I with a dot becomes two characters, and a capital sigma
depends on its neighbours. **The rule of the final sigma**: a sigma that follows
a cased character and does not precede one is final; the characters in between
that are case-ignorable do not count.

So the map is not a homomorphism for concatenation, and two texts can have equal
foldings while their parts do not.
-/

namespace LanguageHub.Text

/-- Whether a character has case. -/
def isCased (c : Char) : Bool := inRanges casedRanges c

/-- Whether the search for a cased neighbour steps over a character. -/
def isCaseIgnorable (c : Char) : Bool := inRanges caseIgnorableRanges c

/-- The lower-case form of one character taken on its own. -/
def lowerChar (c : Char) : List Char :=
  if c.toNat < 0x80 then [c.toLower]
  else if c.toNat = 0x130 then ['i', Char.ofNat 0x307]
  else match caseRuns.find? (·.covers c.toNat) with
    | some r => [Char.ofNat (c.toNat + r.shift).toNat]
    | none => [c]

/-- Whether the first character that is not case-ignorable is cased. -/
def meetsCased (s : List Char) : Bool :=
  match s.dropWhile isCaseIgnorable with
  | [] => false
  | c :: _ => isCased c

/-- The lower-case form of a sigma between the characters before it (nearest
first) and those after it. -/
def lowerSigma (before after : List Char) : Char :=
  if meetsCased before && !meetsCased after then 'ς' else 'σ'

/-- `lowercase` of a text that continues the characters `before`, nearest first. -/
def lowercaseFrom (before : List Char) : List Char → List Char
  | [] => []
  | c :: rest =>
    (if c = 'Σ' then [lowerSigma before rest] else lowerChar c) ++
      lowercaseFrom (c :: before) rest

/-- The full lower-case form of a text. -/
def lowercase (s : List Char) : List Char := lowercaseFrom [] s

/-- Two strings that differ in the case of ASCII letters only. -/
def eqIgnoreAsciiCase (a b : String) : Bool :=
  a.toList.map Char.toLower == b.toList.map Char.toLower

@[simp] theorem lowercase_nil : lowercase [] = [] := rfl

end LanguageHub.Text
