import LanguageHub.Text.Utf8

/-!
# Paths

A `Path` is a list of **bytes** in which slashes separate components; the file
system gives no other meaning to it, and its text is only a way to show it. What a
path says is the list of its `components`: repeated slashes and inner single dots
say nothing, while a double dot is a component of its own.
-/

namespace LanguageHub

/-- The name of a place in the file system. -/
structure Path where
  bytes : List UInt8
deriving DecidableEq, Repr, Inhabited

namespace Path

/-- The byte of the slash. -/
def slash : UInt8 := 0x2F

/-- The byte of the dot. -/
def dot : UInt8 := 0x2E

/-- One step of a path. A `current` stands only in front of a relative path. -/
inductive Component where
  | root
  | current
  | parent
  | name (bytes : List UInt8)
deriving DecidableEq, Repr, Inhabited

/-- The bytes that write a component. -/
def Component.bytes : Component → List UInt8
  | .root => [slash]
  | .current => [dot]
  | .parent => [dot, dot]
  | .name b => b

/-- The path that a string writes. -/
def ofString (s : String) : Path := ⟨Text.Utf8.encodeString s⟩

/-- The path as it is shown: broken characters are replaced. -/
def display (p : Path) : String := Text.Utf8.decodeStringLossy p.bytes

/-- A path that starts at the root. -/
def isAbsolute (p : Path) : Bool := p.bytes.head? == some slash

/-- The stretches between separators, empty ones included. -/
def splitAt (sep : UInt8) : List UInt8 → List (List UInt8)
  | [] => [[]]
  | b :: rest =>
    if b = sep then [] :: splitAt sep rest
    else match splitAt sep rest with
      | [] => [[b]]
      | s :: more => (b :: s) :: more

/-- The component that a stretch between slashes stands for, if it says anything. -/
def Component.ofSegment : List UInt8 → Option Component
  | [] => none
  | [0x2E] => none
  | [0x2E, 0x2E] => some .parent
  | s => some (.name s)

/-- The components of a path. -/
def components (p : Path) : List Component :=
  let segments := splitAt slash p.bytes
  let rest := segments.filterMap Component.ofSegment
  if p.isAbsolute then .root :: rest
  else if segments.head? == some [dot] then .current :: rest
  else rest

/-- A path continued by another one, which counts alone if it is absolute. -/
def join (p q : Path) : Path :=
  if q.isAbsolute then q
  else if p.bytes.isEmpty || p.bytes.getLast? == some slash then ⟨p.bytes ++ q.bytes⟩
  else ⟨p.bytes ++ slash :: q.bytes⟩

/-- The path that says some components. -/
def ofComponents (cs : List Component) : Path := cs.foldl (fun p c => p.join ⟨c.bytes⟩) ⟨[]⟩

/-- A path without its last component; the root and the empty path have none. -/
def parent? (p : Path) : Option Path :=
  match p.components.getLast? with
  | none | some .root => none
  | some _ => some (ofComponents p.components.dropLast)

/-- The directories above a path, nearest first, after the path itself. -/
def ancestors (p : Path) : List Path :=
  (List.range (p.components.length + 1)).reverse.filterMap fun n =>
    if n = 0 ∧ p.isAbsolute then none
    else if n = p.components.length then some p
    else some (ofComponents (p.components.take n))

/-- The name that a path ends with. -/
def fileName? (p : Path) : Option (List UInt8) :=
  match p.components.getLast? with
  | some (.name b) => some b
  | _ => none

/-- What follows the last dot of the file name, unless the name starts with that dot. -/
def extension? (p : Path) : Option (List UInt8) := do
  let name ← p.fileName?
  let after := name.reverse.takeWhile (· != dot)
  if after.length + 1 < name.length then some after.reverse else none

end Path

end LanguageHub
