import Masthead.Json.Parser
import Masthead.Json.Printer
import Masthead.Text.Utf8
import Masthead.Glob.Regex
import Masthead.Layout
import Masthead.License
import Masthead.Contributor.Ranking
import Masthead.Diagnostic
import Masthead.Config.Table
import Masthead.Header.Writing
import Masthead.Header.Reading
import Masthead.Header.Validation
import Masthead.Fix
import Masthead.Diff
import Masthead.Log
import Masthead.Terminal
import Masthead.Config.Starter
import Masthead.Git.HookScript
import Masthead.Workspace
import Masthead.Workspace.Change
import Masthead.Git.Hook
import Masthead.Config.Discovery
import Masthead.Discovery
import Masthead.Check
import Masthead.Fix.File
import Masthead.Config.Project
import Masthead.Command
import Masthead.Main
import Masthead.Proofs.Text.Lines
import Masthead.Proofs.Text.Decimal
import Masthead.Proofs.Text.Points
import Masthead.Proofs.Config.Freezing
import Masthead.Proofs.Layout.Placement
import Masthead.Proofs.Header.Usable
import Masthead.Proofs.Header.Recognition
import Masthead.Proofs.Header.Credit
import Masthead.Proofs.Header.LicenseLine
import Masthead.Proofs.Header.Block
import Masthead.Proofs.Header.RoundTrip
import Masthead.Proofs.Source.Preamble
import Masthead.Proofs.Contributor.Crediting
import Masthead.Proofs.Fix.Step
import Masthead.Proofs.Fix.Stability
import Masthead.Proofs.Fix.Rewriting
import Masthead.Proofs.Fix.History
import Masthead.Proofs.Fix.Keeping
import Masthead.Proofs.Fix.Validation
import Masthead.Proofs.Source.Newlines
import Masthead.Proofs.Text.Utf8
import Masthead.Proofs.Workspace.Tree
import Masthead.Proofs.Fix.File
import Masthead.Proofs.Glob.Language
import Masthead.Proofs.Header.Remarks
import Masthead.Proofs.Fix.Report
import Masthead.Proofs.Fix.Renewal
import Masthead.Proofs.Workspace.Places
import Masthead.Proofs.Workspace.Agreement
import Masthead.Proofs.Config.Loading
import Masthead.Proofs.Config.Table
import Masthead.Proofs.Config.Export
import Masthead.Proofs.Config.Layers
import Masthead.Proofs.Config.Precedence
import Masthead.Proofs.Workspace.Discovery
import Masthead.Proofs.Command.Arguments
import Masthead.Proofs.Backend.CommandLine
import Masthead.Proofs.Command.Running
import Masthead.Proofs.Fix.Course
import Masthead.Proofs.Fix.Preparation
import Masthead.Proofs.Fix.DryRun
import Masthead.Proofs.Workspace.Walking
import Masthead.Proofs.Workspace.Spelling
import Masthead.Proofs.Config.Search
import Masthead.Proofs.Config.Faults
import Masthead.Proofs.Chain
import Masthead.Proofs.Workspace.Following
import Masthead.Proofs.Workspace.Writing
import Masthead.Proofs.Toml
import Masthead.Proofs.Toml.Plain
import Masthead.Proofs.Config.Starter
import Masthead.Proofs.Config.Rereading
import Masthead.Proofs.Config.Starting
import Masthead.Proofs.Config.Thawing
import Masthead.Proofs.Header.Extent
import Masthead.Proofs.Fix.Details
import Masthead.Proofs.Text.Order
import Masthead.Proofs.Workspace.Union
import Masthead.Proofs.Config.Merging
import Masthead.Proofs.Source.RoundTrip
import Masthead.Proofs.Contributor.Ranking
import Masthead.Proofs.Contributor.ChangeList
import Masthead.Proofs.Contributor.Merging
import Masthead.Proofs.Layout.Offsets
import Masthead.Proofs.Config.Accounting
import Masthead.Proofs.Workspace.Making
import Masthead.Proofs.Workspace.Dependence
import Masthead.Proofs.Git.Hook
import Masthead.Proofs.Glob.Literal
import Masthead.Proofs.Text.LooseLines
import Masthead.Proofs.Paint
import Masthead.Proofs.Backend.Style
import Masthead.Proofs.Diff.Rendering
import Masthead.Proofs.Text.Numeral
import Masthead.Proofs.Contributor.Reading
import Masthead.Proofs.Git.Lookup
import Masthead.Proofs.Text.Containing
import Masthead.Proofs.Git.Foreign
import Masthead.Proofs.Header.Opening
import Masthead.Proofs.Source.Edits
