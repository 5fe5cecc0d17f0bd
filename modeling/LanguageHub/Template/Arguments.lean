import LanguageHub.Path.Basic
import LanguageHub.Template.Words

/-!
# Arguments from a template

A template is cut into words first, and each word then gets its placeholders filled
in, so that a workspace root with blanks stays one argument. The root is filled in
before the process id: a placeholder for the id that stands in the **name of the
root** is filled in as well.
-/

namespace LanguageHub.Template

/-- The only fault of a template. -/
inductive Error where
  | missingClosingQuote
deriving DecidableEq, Repr

/-- The wording of the fault. -/
def Error.message : Error → String
  | .missingClosingQuote => "missing closing quote"

/-- The placeholder for the workspace root. -/
def rootPlaceholder : List Char := "\x7bWorkspaceRoot\x7d".toList

/-- The placeholder for the process id of the host. -/
def pidPlaceholder : List Char := "\x7bHostProcessId\x7d".toList

/-- A text with each occurrence of a non-empty pattern replaced, from left to right;
`skip` characters belong to the occurrence that was replaced last. -/
def replaceFrom (pattern value : List Char) : Nat → List Char → List Char
  | _, [] => []
  | skip + 1, _ :: s => replaceFrom pattern value skip s
  | 0, c :: s =>
    if pattern.isPrefixOf (c :: s) then value ++ replaceFrom pattern value (pattern.length - 1) s
    else c :: replaceFrom pattern value 0 s

/-- A text with each occurrence of a pattern replaced. -/
def replace (pattern value text : List Char) : List Char := replaceFrom pattern value 0 text

/-- A word with its placeholders filled in. -/
def fill (root pid word : List Char) : List Char :=
  replace pidPlaceholder pid (replace rootPlaceholder root word)

/-- The arguments that a template gives for a workspace root and a process id. -/
def arguments (template : String) (root : Path) (pid : Nat) : Except Error (List String) :=
  match split template.toList with
  | some words =>
    .ok (words.map fun w => String.ofList (fill root.display.toList (toString pid).toList w))
  | none => .error .missingClosingQuote

end LanguageHub.Template
