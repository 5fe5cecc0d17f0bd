/-!
# JSON values

`Json` is the one dynamic value of this library: the body of a frame. Numbers are
integers or doubles, and a double is kept as its **bits**, so that equality is
decidable and zero keeps its sign.

The members of an object are a list with distinct names. A value that was read
from text, and every value that goes into a frame, is **canonical**: the members of
each object are in the order of their names. `Json.object` builds such an object,
and of two members of one name the later one counts.
-/

namespace LanguageHub

/-- A number of a JSON text. -/
inductive Json.Number where
  | int (n : Int)
  | float (bits : UInt64)
deriving DecidableEq, Repr, Inhabited

/-- A JSON value. -/
inductive Json where
  | null
  | bool (b : Bool)
  | num (n : Json.Number)
  | str (s : String)
  | arr (items : List Json)
  | obj (members : List (String × Json))
deriving BEq, Repr, Inhabited

namespace Json

/-- A member list with one member put at its place, in place of one of its name. -/
def insertMember (k : String) (v : Json) : List (String × Json) → List (String × Json)
  | [] => [(k, v)]
  | (k', v') :: rest =>
    if k < k' then (k, v) :: (k', v') :: rest
    else if k = k' then (k, v) :: rest
    else (k', v') :: insertMember k v rest

/-- The object with some members; the last member of a name counts. -/
def object (members : List (String × Json)) : Json :=
  .obj (members.foldl (fun acc m => insertMember m.1 m.2 acc) [])

/-- The integer `n`. -/
def ofInt (n : Int) : Json := .num (.int n)

/-- The natural number `n`. -/
def ofNat (n : Nat) : Json := .num (.int n)

/-- The member of a name, for an object that has one. -/
def get? (j : Json) (k : String) : Option Json :=
  match j with
  | .obj members => (members.find? (·.1 == k)).map (·.2)
  | _ => none

/-- Whether an object has a member of a name. -/
def has (j : Json) (k : String) : Bool := (j.get? k).isSome

/-- The text of a string. -/
def str? : Json → Option String
  | .str s => some s
  | _ => none

/-- The items of an array. -/
def arr? : Json → Option (List Json)
  | .arr items => some items
  | _ => none

/-- The members of an object. -/
def obj? : Json → Option (List (String × Json))
  | .obj members => some members
  | _ => none

/-- The truth value of a Boolean. -/
def bool? : Json → Option Bool
  | .bool b => some b
  | _ => none

/-- An integer of an interval. -/
def intIn? (lo hi : Int) : Json → Option Int
  | .num (.int n) => if lo ≤ n ∧ n ≤ hi then some n else none
  | _ => none

/-- A number of 64 bits without a sign. -/
def u64? (j : Json) : Option Nat := (j.intIn? 0 (UInt64.size - 1)).map Int.toNat

/-- A number of 64 bits with a sign. -/
def i64? (j : Json) : Option Int := j.intIn? Int64.minValue.toInt Int64.maxValue.toInt

/-- A number of 32 bits without a sign. -/
def u32? (j : Json) : Option Nat := (j.intIn? 0 (UInt32.size - 1)).map Int.toNat

/-- A number of 32 bits with a sign. -/
def i32? (j : Json) : Option Int := j.intIn? Int32.minValue.toInt Int32.maxValue.toInt

mutual

/-- The same value with the members of every object in the order of their names. -/
def canonical : Json → Json
  | .arr items => .arr (canonicalItems items)
  | .obj members => object (canonicalMembers members)
  | j => j

/-- `canonical` on the items of an array. -/
def canonicalItems : List Json → List Json
  | [] => []
  | j :: rest => canonical j :: canonicalItems rest

/-- `canonical` on the values of the members of an object. -/
def canonicalMembers : List (String × Json) → List (String × Json)
  | [] => []
  | (k, j) :: rest => (k, canonical j) :: canonicalMembers rest

end

end Json

end LanguageHub
