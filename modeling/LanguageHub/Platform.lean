import LanguageHub.Text.Blank
import LanguageHub.Text.Case

/-!
# Platforms

A platform is an operating system and a processor architecture. Its text, such as
`linux-x64`, names the build of a server in a catalog and the directory in which that
build is installed. Reading is more generous than writing: it ignores case and outer
blanks and knows the long names, and what it has read is written in the short form.
-/

namespace LanguageHub

/-- An operating system. -/
inductive Os where
  | windows
  | linux
  | macos
deriving DecidableEq, Repr, Inhabited

/-- A processor architecture. -/
inductive Arch where
  | x64
  | arm64
deriving DecidableEq, Repr, Inhabited

/-- An operating system on an architecture. -/
structure Platform where
  os : Os
  arch : Arch
deriving DecidableEq, Repr, Inhabited

/-- The short name of an operating system. -/
def Os.text : Os → String
  | .windows => "win"
  | .linux => "linux"
  | .macos => "osx"

/-- The rank of an operating system in the order of platforms. -/
def Os.rank : Os → Nat
  | .windows => 0
  | .linux => 1
  | .macos => 2

/-- The operating system of a name in lower case. -/
def Os.ofText? : String → Option Os
  | "win" | "windows" => some .windows
  | "linux" => some .linux
  | "osx" | "macos" => some .macos
  | _ => none

/-- The short name of an architecture. -/
def Arch.text : Arch → String
  | .x64 => "x64"
  | .arm64 => "arm64"

/-- The rank of an architecture in the order of platforms. -/
def Arch.rank : Arch → Nat
  | .x64 => 0
  | .arm64 => 1

/-- The architecture of a name in lower case. -/
def Arch.ofText? : String → Option Arch
  | "x64" | "x86_64" => some .x64
  | "arm64" | "aarch64" => some .arm64
  | _ => none

namespace Platform

/-- The name of a platform. -/
def text (p : Platform) : String := p.os.text ++ "-" ++ p.arch.text

/-- The order of platforms: by operating system, then by architecture. -/
def rank (p : Platform) : Nat := 2 * p.os.rank + p.arch.rank

/-- Whether a platform runs Windows. -/
def isWindows (p : Platform) : Bool := p.os == .windows

/-- The platform that a text names. The first dash separates the two names. -/
def ofText? (s : String) : Option Platform := do
  let lower := (Text.trim s.toList).map Char.toLower
  let os ← Os.ofText? (String.ofList (lower.takeWhile (· != '-')))
  match lower.dropWhile (· != '-') with
  | _ :: arch =>
    let arch ← Arch.ofText? (String.ofList arch)
    some ⟨os, arch⟩
  | [] => none

/-- The wording for a text that names no platform. -/
def unrecognised (s : String) : String := "unrecognised platform key '" ++ s ++ "'"

end Platform

end LanguageHub
