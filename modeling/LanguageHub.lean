import LanguageHub.Catalog
import LanguageHub.CommandLine.Command
import LanguageHub.CommandLine.Form
import LanguageHub.CommandLine.Language
import LanguageHub.CommandLine.Run
import LanguageHub.Config
import LanguageHub.Decimal.Shortest
import LanguageHub.Diagnostics
import LanguageHub.Error
import LanguageHub.FileTree
import LanguageHub.Frame
import LanguageHub.Glob.Basic
import LanguageHub.Glob.Parser
import LanguageHub.Installer.Basic
import LanguageHub.Installer.Install
import LanguageHub.Installer.Run
import LanguageHub.Json.Basic
import LanguageHub.Json.Number
import LanguageHub.Json.Parser
import LanguageHub.Json.Printer
import LanguageHub.Json.Record
import LanguageHub.Log
import LanguageHub.Lsp.Basic
import LanguageHub.Lsp.Diagnostic
import LanguageHub.Lsp.Message
import LanguageHub.Lsp.Query
import LanguageHub.Lsp.Results
import LanguageHub.Lsp.Shape
import LanguageHub.Lsp.Symbol
import LanguageHub.Main
import LanguageHub.Manager.Basic
import LanguageHub.Manager.Task
import LanguageHub.Path.Basic
import LanguageHub.Path.Normal
import LanguageHub.Platform
import LanguageHub.Rehearsal.Desk
import LanguageHub.Rehearsal.Script
import LanguageHub.Rehearsal.Server
import LanguageHub.Rehearsal.Stage
import LanguageHub.Session.Background
import LanguageHub.Session.Basic
import LanguageHub.Session.Call
import LanguageHub.Session.Operation
import LanguageHub.Session.State
import LanguageHub.Template.Arguments
import LanguageHub.Template.Words
import LanguageHub.Text.Blank
import LanguageHub.Text.Case
import LanguageHub.Text.CaseTable
import LanguageHub.Text.PrintableTable
import LanguageHub.Text.Quoted
import LanguageHub.Text.Ranges
import LanguageHub.Text.Utf8
import LanguageHub.Toml.Document
import LanguageHub.Toml.Parser
import LanguageHub.Toml.Scalar
import LanguageHub.Uri.Basic
import LanguageHub.Uri.File
import LanguageHub.Uri.Percent
import LanguageHub.Workspace
import LanguageHub.Proofs.Entries
import LanguageHub.Proofs.Session.Correlation
import LanguageHub.Proofs.Session.Documents
import LanguageHub.Proofs.Lsp.Frames
import LanguageHub.Proofs.Session.Lock
import LanguageHub.Proofs.Session.Settling
import LanguageHub.Proofs.Session.Scenarios
import LanguageHub.Proofs.Session.Ending
import LanguageHub.Proofs.Lsp.Conversation
import LanguageHub.Proofs.Lsp.Inbound
import LanguageHub.Proofs.Session.Mirror
import LanguageHub.Proofs.Session.Calls
import LanguageHub.Proofs.Manager.Table
import LanguageHub.Proofs.Manager.Stages
import LanguageHub.Proofs.Manager.Run
import LanguageHub.Proofs.Manager.Registry
import LanguageHub.Proofs.Manager.SingleFlight
import LanguageHub.Proofs.Path.Names
import LanguageHub.Proofs.Path.Roots
import LanguageHub.Proofs.Path.Keys
import LanguageHub.Proofs.Manager.Documents
import LanguageHub.Proofs.Manager.Owners
import LanguageHub.Proofs.Manager.Routing
import LanguageHub.Proofs.Text.Encoding
import LanguageHub.Proofs.Json.Tokens
import LanguageHub.Proofs.Json.Values
import LanguageHub.Proofs.Frame.Header
import LanguageHub.Proofs.Frame.Streams
import LanguageHub.Proofs.Session.Custody
import LanguageHub.Proofs.Manager.Operations
import LanguageHub.Proofs.Manager.Processes
import LanguageHub.Proofs.Installer.Lock
import LanguageHub.Proofs.Session.Saying
import LanguageHub.Proofs.Session.Conversation
import LanguageHub.Proofs.Session.Dispatch
import LanguageHub.Proofs.FileTree.Keeping
import LanguageHub.Proofs.Installer.Stability
import LanguageHub.Proofs.Diagnostics.Snapshot
import LanguageHub.Proofs.Manager.Lookup
import LanguageHub.Proofs.Manager.Accounting
import LanguageHub.Proofs.Manager.Retirement
import LanguageHub.Proofs.Manager.Audit
import LanguageHub.Proofs.FileTree.Confinement
import LanguageHub.Proofs.Installer.Effects
import LanguageHub.Proofs.Installer.Course
import LanguageHub.Proofs.Installer.Once
import LanguageHub.Proofs.Uri.Encoding
import LanguageHub.Proofs.Uri.Files
import LanguageHub.Proofs.Uri.Writable
import LanguageHub.Proofs.Diagnostics.Spelling
import LanguageHub.Proofs.Diagnostics.Stream
import LanguageHub.Proofs.Session.Atomicity
import LanguageHub.Proofs.Manager.Solo
import LanguageHub.Proofs.Manager.Failure
import LanguageHub.Proofs.Session.Pending
import LanguageHub.Proofs.Path.Identity
import LanguageHub.Proofs.Template.Substitution
import LanguageHub.Proofs.Template.Arguments
import LanguageHub.Proofs.Frame.Block
import LanguageHub.Proofs.Manager.Isolation
import LanguageHub.Proofs.Path.Normalization
import LanguageHub.Proofs.Path.Discovery
import LanguageHub.Proofs.Lsp.Symbols
import LanguageHub.Proofs.Manager.Merging
