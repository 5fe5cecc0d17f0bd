import LanguageHub.CommandLine.Form
import LanguageHub.Lsp.Basic
import LanguageHub.Path.Basic

/-!
# Commands

A command line names a command, in front of it or behind it a file of settings and a file
for the log, and what the command needs. Lines and characters are counted from zero; the
end of a range is its start unless it is given.

The empty path names no file, so a command line with it is none.
-/

namespace LanguageHub

/-- What a command asks about a document. -/
inductive DocumentRequest where
  | hover (at_ : Lsp.Position)
  | completion (at_ : Lsp.Position)
  | definition (at_ : Lsp.Position)
  | signatureHelp (at_ : Lsp.Position)
  | references (at_ : Lsp.Position) (includeDeclaration : Bool)
  | symbols
  | codeActions (range : Lsp.Range)
  | rename (at_ : Lsp.Position) (newName : String)
  | workspaceSymbols (query : String)
  /-- The diagnostics that are published within some seconds. -/
  | diagnostics (waitSecs : Nat)
deriving Repr

/-- What the program is to do. -/
inductive Command where
  /-- List the servers of the catalog. -/
  | servers
  /-- Show the platform of the host. -/
  | platform
  | install (language : String)
  /-- Open a document and ask about it; the language is inferred if it is not given. -/
  | onDocument (file : Path) (language : Option String) (request : DocumentRequest)
deriving Repr

/-- What a command line says. -/
structure Invocation where
  /-- The file of settings, in place of that of the user. -/
  config : Option Path
  logFile : Option Path
  command : Command
deriving Repr

namespace CommandLine

/-- The options that may stand in front of a command as well as behind it. -/
def globalOptions : List String := ["config", "log-file"]

/-- The options for a position. -/
def positionOptions : List String := ["line", "character"]

/-- The form of what stands in front of a command. -/
def leadingForm : Form := ⟨globalOptions, [], 0⟩

/-- The form of what follows the name of a command. -/
def formOf? (name : String) : Option Form :=
  let document (options flags : List String) (extra : Nat) : Option Form :=
    some ⟨globalOptions ++ "language" :: options, flags, 1 + extra⟩
  match name with
  | "servers" | "platform" => some ⟨globalOptions, [], 0⟩
  | "install" => some ⟨globalOptions, [], 1⟩
  | "hover" | "completion" | "definition" | "signature-help" => document positionOptions [] 0
  | "references" => document positionOptions ["include-declaration"] 0
  | "symbols" => document [] [] 0
  | "code-actions" => document (positionOptions ++ ["end-line", "end-character"]) [] 0
  | "rename" => document positionOptions [] 1
  | "workspace-symbols" => document [] [] 1
  | "diagnostics" => document ["wait"] [] 0
  | _ => none

/-- The greatest line or character. -/
def greatestCoordinate : Nat := UInt32.size - 1

/-- The greatest number of seconds. -/
def greatestSeconds : Nat := UInt64.size - 1

/-- How many seconds are waited for diagnostics unless it is said. -/
def standardWaitSecs : Nat := 15

/-- The path that a word names. -/
def path? (s : String) : Option Path := if s.isEmpty then none else some (.ofString s)

namespace Reading

/-- The line or character that an option gives. -/
def coordinate? (r : Reading) (name : String) : Option Nat :=
  r.value? name >>= signedCount? greatestCoordinate

/-- What an option gives that need not be there; none at all if it gives nonsense. -/
def optional? {α : Type} (r : Reading) (name : String) (read : String → Option α) :
    Option (Option α) :=
  match r.value? name with
  | some s => (read s).map some
  | none => some none

/-- The position that the options give. -/
def position? (r : Reading) : Option Lsp.Position := do
  some ⟨← r.coordinate? "line", ← r.coordinate? "character"⟩

/-- The range that the options give. -/
def range? (r : Reading) : Option Lsp.Range := do
  let start ← r.position?
  let line ← r.optional? "end-line" (signedCount? greatestCoordinate)
  let character ← r.optional? "end-character" (signedCount? greatestCoordinate)
  some ⟨start, ⟨line.getD start.line, character.getD start.character⟩⟩

/-- What a reading behind the name of a command asks about a document. -/
def request? (r : Reading) (name : String) : Option DocumentRequest :=
  match name with
  | "hover" => r.position?.map .hover
  | "completion" => r.position?.map .completion
  | "definition" => r.position?.map .definition
  | "signature-help" => r.position?.map .signatureHelp
  | "references" => r.position?.map (.references · (r.has "include-declaration"))
  | "symbols" => some .symbols
  | "code-actions" => r.range?.map .codeActions
  | "rename" => do some (.rename (← r.position?) (← r.operands[1]?))
  | "workspace-symbols" => r.operands[1]?.map .workspaceSymbols
  | "diagnostics" => (r.optional? "wait" (count? greatestSeconds)).map fun n =>
      .diagnostics (n.getD standardWaitSecs)
  | _ => none

/-- The command that a reading behind a name gives. -/
def command? (r : Reading) (name : String) : Option Command :=
  match name with
  | "servers" => some .servers
  | "platform" => some .platform
  | "install" => r.operands.head?.map .install
  | name => do
    let file ← r.operands.head? >>= path?
    some (.onDocument file (r.value? "language") (← r.request? name))

end Reading

end CommandLine

/-- What words say; nothing if they are misused. A global option behind the command
counts more than the same one in front of it. -/
def Invocation.ofWords? (words : List String) : Option Invocation := do
  match ← CommandLine.leadingForm.read? words with
  | (leading, name :: rest) =>
    let trailing ← (← CommandLine.formOf? name).readAll? rest
    let file (name : String) : Option (Option Path) := do
      let outer ← leading.optional? name CommandLine.path?
      let inner ← trailing.optional? name CommandLine.path?
      some (inner <|> outer)
    some ⟨← file "config", ← file "log-file", ← trailing.command? name⟩
  | (_, []) => none

end LanguageHub
