import LanguageHub.Path.Basic
import LanguageHub.Text.Utf8

/-!
# Languages by extension

The language of a file is inferred from the extension of its name, without regard to
case.
-/

namespace LanguageHub.CommandLine

/-- The language of an extension in lower case. -/
def languageOfExtension? : String → Option String
  | "cs" | "csx" => some "csharp"
  | "rs" => some "rust"
  | "py" | "pyi" => some "python"
  | "ts" | "tsx" => some "typescript"
  | "js" | "jsx" | "mjs" => some "javascript"
  | "go" => some "go"
  | "c" | "h" => some "c"
  | "cc" | "cpp" | "cxx" | "hpp" => some "cpp"
  | "java" => some "java"
  | _ => none

/-- The language of a file. -/
def languageOf? (file : Path) : Option String := do
  let extension ← Text.Utf8.decodeString? (← file.extension?)
  languageOfExtension? (String.ofList (extension.toList.map Char.toLower))

end LanguageHub.CommandLine
