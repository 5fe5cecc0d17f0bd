import LanguageHub.Path.Basic
import LanguageHub.Platform
import LanguageHub.Workspace

/-!
# Errors

What can go wrong between a caller and a language server. An `InstallError` is a failure
to provide the program of a server, an `LspError` a failure of anything that a caller
asks for. Every error is a cause with its data; the wording is in one function for each
kind.
-/

namespace LanguageHub

/-- A length of time in milliseconds, as it is shown: in the greatest unit of which there
is one, without zeros at the end. -/
def durationText (ms : Nat) : String :=
  if ms = 0 then "0ns"
  else if ms < 1000 then toString ms ++ "ms"
  else
    let fraction := (toString (1000 + ms % 1000)).toList.drop 1
    let digits := (fraction.reverse.dropWhile (· == '0')).reverse
    if digits.isEmpty then toString (ms / 1000) ++ "s"
    else toString (ms / 1000) ++ "." ++ String.ofList digits ++ "s"

/-- Why a download fails. -/
inductive DownloadFault where
  /-- The server answers with another status than success. -/
  | status (code : Nat) (phrase : String)
  /-- A step on this machine or on the way fails. -/
  | step (name detail : String)
  /-- The request cannot be sent. -/
  | transport (detail : String)
deriving DecidableEq, Repr

/-- Why an archive cannot be extracted. -/
inductive ExtractionFault where
  | unsupported (url : String)
  | step (name detail : String)
  | other (text : String)
deriving DecidableEq, Repr

/-- A failure to provide the program of a server. -/
inductive InstallError where
  | notConfigured (language : String)
  | unsupportedPlatform (server platform : String)
  | downloadFailed (url : String) (fault : DownloadFault)
  | extractionFailed (target : Path) (fault : ExtractionFault)
  | executableMissing (path : Path)
deriving DecidableEq, Repr

/-- The wording of the fault of a download. -/
def DownloadFault.message : DownloadFault → String
  | .status code phrase => "HTTP " ++ toString code ++ " " ++ phrase
  | .step name detail => name ++ ": " ++ detail
  | .transport detail => detail

/-- The wording of the fault of an extraction. -/
def ExtractionFault.message : ExtractionFault → String
  | .unsupported url => "unsupported archive type: " ++ url
  | .step name detail => name ++ ": " ++ detail
  | .other text => text

/-- The wording for a language without a server. -/
def notConfiguredText (language : String) : String :=
  "no enabled language server configured for language '" ++ language ++ "'"

/-- The wording of an error. -/
def InstallError.message : InstallError → String
  | .notConfigured language => notConfiguredText language
  | .unsupportedPlatform server platform =>
    "server '" ++ server ++ "' has no binary for platform " ++ platform
  | .downloadFailed url fault => "downloading " ++ url ++ " failed: " ++ fault.message
  | .extractionFailed target fault =>
    "extracting archive into " ++ target.display ++ " failed: " ++ fault.message
  | .executableMissing path =>
    "expected executable " ++ path.display ++ " is missing after extraction"

/-- Why a request fails. -/
inductive RequestFault where
  /-- The server answers with an error. -/
  | response (message : String) (code : Int)
  /-- There is no answer within some milliseconds. -/
  | timeout (ms : Nat)
  /-- The result is none of those that the request can have. -/
  | shape (detail : String)
  /-- Some other reason. -/
  | other (text : String)
deriving DecidableEq, Repr

/-- The wording of the fault of a request. -/
def RequestFault.message : RequestFault → String
  | .response message code => message ++ " (code " ++ toString code ++ ")"
  | .timeout ms => "no response within " ++ durationText ms
  | .shape detail => "unexpected response shape: " ++ detail
  | .other text => text

/-- A failure of what a caller asks for. -/
inductive LspError where
  | notConfigured (language : String)
  | installFailed (cause : InstallError)
  | launchFailed (executable : Path) (reason : String)
  | handshakeFailed (server reason : String)
  | sessionNotFound (path : Path)
  | sessionDegraded (key : SessionKey)
  | requestFailed (method : String) (fault : RequestFault)
  | cancelled (method : String)
  | invalidPath (path : Path)
deriving DecidableEq, Repr

/-- The wording of an error. -/
def LspError.message : LspError → String
  | .notConfigured language => notConfiguredText language
  | .installFailed _ => "installing language server failed"
  | .launchFailed executable reason =>
    "launching " ++ executable.display ++ " failed: " ++ reason
  | .handshakeFailed server reason => "handshake with '" ++ server ++ "' failed: " ++ reason
  | .sessionNotFound path => "no language server session owns " ++ path.display
  | .sessionDegraded key =>
    "language server session " ++ key.text ++ " is no longer running"
  | .requestFailed method fault => method ++ " request failed: " ++ fault.message
  | .cancelled method => method ++ " request was cancelled"
  | .invalidPath path => "cannot express " ++ path.display ++ " as a file URI"

/-- The errors under an error, nearest first. -/
def LspError.causes : LspError → List String
  | .installFailed cause => [cause.message]
  | _ => []

/-- An error of an installation as an error of a caller: a language without a server keeps
its kind. -/
def LspError.ofInstall : InstallError → LspError
  | .notConfigured language => .notConfigured language
  | cause => .installFailed cause

end LanguageHub
