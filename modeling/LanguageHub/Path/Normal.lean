import LanguageHub.Path.Basic
import LanguageHub.Text.Case

/-!
# Normal paths and containment

`Path.normalize` resolves the dots of a path **lexically**, without a look at the
file system: a double dot takes back the last name, if there is one. `Path.settle`
says the same as a stack machine on components.

`Path.within` is the test for a path at or below a root. It compares component by
component, and it compares **folded** names: roots that differ in case are one root.
-/

namespace LanguageHub.Path

/-- A path without its last component, or the path itself where there is none. -/
def pop (p : Path) : Path := p.parent?.getD p

/-- One step of `normalize`. -/
def resolve (p : Path) : Component → Path
  | .current => p
  | .parent => p.pop
  | c => p.join ⟨c.bytes⟩

/-- The path with its dots resolved. -/
def normalize (p : Path) : Path := p.components.foldl resolve ⟨[]⟩

/-- One step of the stack machine; the top of the stack comes first. -/
def settleStep (stack : List Component) : Component → List Component
  | .current => stack
  | .parent =>
    match stack with
    | [] => []
    | .root :: rest => .root :: rest
    | _ :: rest => rest
  | c => c :: stack

/-- The components that are left when every double dot has taken back a name. -/
def settle (cs : List Component) : List Component := (cs.foldl settleStep []).reverse

/-- A path seen from a directory, normalized. The empty path has no absolute form and
is left as it is. -/
def absolute (p directory : Path) : Path :=
  if p.bytes.isEmpty then normalize p else normalize (directory.join p)

/-- A component as it is compared. -/
def Component.fold (c : Component) : List Char :=
  Text.lowercase (Text.Utf8.decodeLossy c.bytes)

/-- Whether folded components start with those of a root. -/
def startsWithFolded : List Component → List Component → Bool
  | _, [] => true
  | [], _ :: _ => false
  | c :: cs, r :: rs => c.fold == r.fold && startsWithFolded cs rs

/-- Whether a path is a root or lies below it. -/
def within (p root : Path) : Bool := startsWithFolded p.components root.components

/-- The number of components. -/
def depth (p : Path) : Nat := p.components.length

end LanguageHub.Path
