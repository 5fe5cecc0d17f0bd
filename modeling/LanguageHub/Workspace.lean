import LanguageHub.FileTree
import LanguageHub.Glob.Parser

/-!
# Workspace roots

The root of a document is the **nearest** directory above it with an entry whose name
matches a marker, and the document's own directory where there is none. A directory
that cannot be listed has no markers.

A `SessionKey` names the session for a root and a language. Keys are compared by their
folded root, without regard to case and to separators at its end, and by the language
as it stands.
-/

namespace LanguageHub

/-- The patterns for the names that mark a root. -/
structure RootMarkers where
  globs : List Glob
deriving Repr, Inhabited

namespace RootMarkers

/-- The markers that patterns write, or the first pattern that is none. -/
def ofPatterns (patterns : List String) : Except Glob.Error RootMarkers :=
  (patterns.mapM Glob.parse).map RootMarkers.mk

/-- Whether a name marks a root. -/
def isMarker (m : RootMarkers) (name : FileName) : Bool := m.globs.any (·.isMatch name)

/-- Whether a directory has an entry that marks a root. -/
def marks (m : RootMarkers) (files : FileTree) (directory : Path) : Bool :=
  match files.list directory with
  | .ok names => names.any m.isMarker
  | .error _ => false

end RootMarkers

namespace Workspace

/-- The directory of a document, from which the search for its root starts. -/
def startOf (directory document : Path) : Path :=
  let document := document.absolute directory
  document.parent?.getD document

/-- The nearest marked directory of a document. -/
def markedRoot? (m : RootMarkers) (files : FileTree) (directory document : Path) : Option Path :=
  (startOf directory document).ancestors.find? (m.marks files)

/-- How many directories are searched for the root of a document. -/
def searched (m : RootMarkers) (files : FileTree) (directory document : Path) : Nat :=
  let above := (startOf directory document).ancestors
  min above.length ((above.takeWhile fun d => !m.marks files d).length + 1)

/-- The root of a document. -/
def findRoot (m : RootMarkers) (files : FileTree) (directory document : Path) : Path :=
  (markedRoot? m files directory document).getD (startOf directory document)

end Workspace

/-- The name of a session: a root as it was first seen, and a language. -/
structure SessionKey where
  root : Path
  language : String
deriving DecidableEq, Repr, Inhabited

namespace SessionKey

/-- A separator at the end of a root. -/
def isSeparator (c : Char) : Bool := c == '/' || c == '\\'

/-- The root as it is compared. -/
def foldedRoot (k : SessionKey) : List Char :=
  Text.lowercase
    ((Text.Utf8.decodeLossy k.root.bytes).reverse.dropWhile isSeparator).reverse

/-- Whether two keys name one session. -/
def same (a b : SessionKey) : Bool :=
  a.foldedRoot == b.foldedRoot && a.language == b.language

/-- The key as it is shown. -/
def text (k : SessionKey) : String := k.language ++ "@" ++ k.root.display

/-- The number of components of the root: of two roots that contain a document the deeper
one is its owner. -/
def depth (k : SessionKey) : Nat := k.root.depth

end SessionKey

end LanguageHub
