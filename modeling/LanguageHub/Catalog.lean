import LanguageHub.Json.Record
import LanguageHub.Platform

/-!
# The catalog of servers

A `Server` describes one language server that can be installed and started: which
languages it handles, how it is started, and where its build for each platform is. A
`Catalog` is an ordered list of servers. **The first enabled server** that handles a
language is the one for it, so that earlier entries shadow later ones.
-/

namespace LanguageHub

/-- The build of a server for one platform. -/
structure Build where
  downloadUrl : String
  /-- The path of the program in the archive. -/
  executable : String
deriving DecidableEq, Repr, Inhabited

/-- The description of a server. -/
structure Server where
  name : String
  version : String
  languages : List String
  enabled : Bool
  /-- The template of its arguments. -/
  arguments : String
  /-- Its builds, in the order of platforms. -/
  builds : List (Platform × Build)
deriving DecidableEq, Repr, Inhabited

namespace Server

/-- Whether a server handles a language. The case of ASCII letters does not count. -/
def handles (s : Server) (language : String) : Bool :=
  s.languages.any fun l => Text.eqIgnoreAsciiCase l language

/-- The build for a platform. -/
def buildFor (s : Server) (p : Platform) : Option Build :=
  (s.builds.find? (·.1 == p)).map (·.2)

/-- Builds with one put at its place, in place of one for the same platform. -/
def insertBuild (p : Platform) (b : Build) : List (Platform × Build) → List (Platform × Build)
  | [] => [(p, b)]
  | (p', b') :: rest =>
    if p.rank < p'.rank then (p, b) :: (p', b') :: rest
    else if p = p' then (p, b) :: rest
    else (p', b') :: insertBuild p b rest

/-- The build that a value writes. -/
def buildOf? (j : Json) : Option Build := do
  let r ← Json.Record.of? ["download_url", "executable"] j
  some ⟨← r.required "download_url" Json.str?, ← r.required "executable" Json.str?⟩

/-- The builds that a value writes. Two names of one platform are one platform. -/
def buildsOf? (j : Json) : Option (List (Platform × Build)) := do
  let members ← j.obj?
  members.foldlM (fun acc m => do
    let p ← Platform.ofText? m.1
    let b ← buildOf? m.2
    some (insertBuild p b acc)) []

/-- The server that a value writes. -/
def of? (j : Json) : Option Server := do
  let r ← Json.Record.of?
    ["name", "version", "language_ids", "enabled", "arguments", "platforms"] j
  some {
    name := ← r.required "name" Json.str?
    version := ← r.required "version" Json.str?
    languages := ← r.required "language_ids" (Json.list? Json.str?)
    enabled := ← r.defaulted "enabled" Json.bool? true
    arguments := ← r.defaulted "arguments" Json.str? ""
    builds := ← r.defaulted "platforms" buildsOf? [] }

/-- The value that writes a server. -/
def toJson (s : Server) : Json :=
  .obj [("name", .str s.name), ("version", .str s.version),
    ("language_ids", .arr (s.languages.map .str)), ("enabled", .bool s.enabled),
    ("arguments", .str s.arguments),
    ("platforms", .obj (s.builds.map fun b => (b.1.text,
      .obj [("download_url", .str b.2.downloadUrl), ("executable", .str b.2.executable)])))]

end Server

/-- An ordered list of servers. -/
structure Catalog where
  servers : List Server
deriving Repr, Inhabited

namespace Catalog

/-- The version of the server that comes with the library. -/
def omnisharpVersion : String := "1.39.13"

/-- Where a build of the server that comes with the library is. -/
def omnisharpRelease (asset : String) : String :=
  "https://github.com/OmniSharp/omnisharp-roslyn/releases/download/v" ++ omnisharpVersion ++
    "/omnisharp-" ++ asset

/-- The server that comes with the library. -/
def omnisharp : Server where
  name := "omnisharp"
  version := omnisharpVersion
  languages := ["csharp"]
  enabled := true
  arguments := "-s \"\x7bWorkspaceRoot\x7d\" --hostPID \x7bHostProcessId\x7d"
  builds := [
    (⟨.windows, .x64⟩, ⟨omnisharpRelease "win-x64-net6.0.zip", "OmniSharp.exe"⟩),
    (⟨.linux, .x64⟩, ⟨omnisharpRelease "linux-x64-net6.0.tar.gz", "run"⟩),
    (⟨.macos, .x64⟩, ⟨omnisharpRelease "osx-x64-net6.0.tar.gz", "run"⟩),
    (⟨.macos, .arm64⟩, ⟨omnisharpRelease "osx-arm64-net6.0.tar.gz", "run"⟩)]

/-- The servers that come with the library. -/
def builtin : Catalog := ⟨[omnisharp]⟩

/-- The server for a language. -/
def resolve (c : Catalog) (language : String) : Option Server :=
  c.servers.find? fun s => s.enabled && s.handles language

/-- The place of the server for a language in the catalog. -/
def resolveIndex (c : Catalog) (language : String) : Option Nat :=
  c.servers.findIdx? fun s => s.enabled && s.handles language

end Catalog

end LanguageHub
