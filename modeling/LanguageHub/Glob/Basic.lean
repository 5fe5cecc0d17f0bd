import LanguageHub.Text.Utf8

/-!
# Glob patterns

A pattern is a list of `Glob.Token`s that matches byte strings. A star and a question
mark match slashes too, and a question mark matches one **byte**; a class of
characters is a class of the bytes that write them.

The meaning of a token is the set of what it leaves over: `Token.rests t s` lists the
ends of `s` that remain when `t` has matched a front part of it. A pattern matches
when the empty rest is among them.
-/

namespace LanguageHub.Glob

/-- A part of a pattern. -/
inductive Token where
  /-- One character. -/
  | literal (c : Char)
  /-- Any byte. -/
  | any
  /-- Any bytes. -/
  | star
  /-- Nothing, or directories with the slash after them. -/
  | leadingDirs
  /-- A slash and everything after it. -/
  | inside
  /-- A slash, or directories between two slashes. -/
  | between
  /-- One byte of those that write the characters of some ranges, or one of the others. -/
  | oneOf (negated : Bool) (ranges : List (Char × Char))
  /-- One of several patterns. -/
  | alternates (branches : List (List Token))
deriving Repr, Inhabited

/-- The byte of the slash. -/
def slash : UInt8 := 0x2F

/-- Every end of a byte string, from the whole of it to the empty one. -/
def tails : List UInt8 → List (List UInt8)
  | [] => [[]]
  | b :: s => (b :: s) :: tails s

/-- What follows each slash. -/
def afterSlashes : List UInt8 → List (List UInt8)
  | [] => []
  | b :: s => if b = slash then s :: afterSlashes s else afterSlashes s

/-- The intervals of bytes that a range of characters stands for: the interval runs
from the last byte of its first character to the first byte of its last one, and the
other bytes of the two stand for themselves. -/
def byteIntervals (r : Char × Char) : List (UInt8 × UInt8) :=
  let low := String.utf8EncodeChar r.1
  let high := String.utf8EncodeChar r.2
  if r.1 = r.2 then low.map fun b => (b, b)
  else low.dropLast.map (fun b => (b, b)) ++
    [(low.getLastD 0, high.headD 0)] ++ high.tail.map fun b => (b, b)

/-- Whether a byte is one of those that ranges of characters stand for. -/
def inByteClass (ranges : List (Char × Char)) (b : UInt8) : Bool :=
  (ranges.flatMap byteIntervals).any fun i => i.1 ≤ b && b ≤ i.2

/-- A byte string without a front part. -/
def dropFront : List UInt8 → List UInt8 → Option (List UInt8)
  | [], s => some s
  | b :: bs, c :: s => if b = c then dropFront bs s else none
  | _ :: _, [] => none

mutual

/-- A token that has nothing to match: a group with empty branches only. -/
def Token.isVoid : Token → Bool
  | .alternates branches => allVoid branches
  | _ => false

/-- A list of void tokens. -/
def voidSeq : List Token → Bool
  | [] => true
  | t :: ts => t.isVoid && voidSeq ts

/-- A list of void branches. -/
def allVoid : List (List Token) → Bool
  | [] => true
  | b :: bs => voidSeq b && allVoid bs

end

mutual

/-- What a token can leave over of a byte string. -/
def Token.rests : Token → List UInt8 → List (List UInt8)
  | .literal c, s => (dropFront (String.utf8EncodeChar c) s).toList
  | .any, [] => []
  | .any, _ :: s => [s]
  | .star, s => tails s
  | .leadingDirs, s => s :: afterSlashes s
  | .inside, b :: s => if b = slash then tails s else []
  | .inside, [] => []
  | .between, b :: s => if b = slash then s :: afterSlashes s else []
  | .between, [] => []
  | .oneOf _ _, [] => []
  | .oneOf negated ranges, b :: s => if inByteClass ranges b != negated then [s] else []
  | .alternates branches, s => if allVoid branches then [s] else restsOfAny branches s

/-- What a sequence of tokens can leave over. -/
def restsOfSeq : List Token → List UInt8 → List (List UInt8)
  | [], s => [s]
  | t :: ts, s => ((t.rests s).flatMap (restsOfSeq ts)).eraseDups

/-- What some branch can leave over; an empty branch is no choice. -/
def restsOfAny : List (List Token) → List UInt8 → List (List UInt8)
  | [], _ => []
  | b :: bs, s => (if voidSeq b then [] else restsOfSeq b s) ++ restsOfAny bs s

end

end LanguageHub.Glob

namespace LanguageHub

/-- A pattern for names. -/
structure Glob where
  tokens : List Glob.Token
deriving Repr, Inhabited

/-- Whether a pattern matches a byte string. A pair of stars alone matches everything. -/
def Glob.isMatch (g : Glob) (name : List UInt8) : Bool :=
  match g.tokens with
  | [.leadingDirs] => true
  | ts => (Glob.restsOfSeq ts name).contains []

end LanguageHub
