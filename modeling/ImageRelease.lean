import ImageRelease.Binary
import ImageRelease.Command.Basic
import ImageRelease.Command.Line
import ImageRelease.Command.Runner
import ImageRelease.Command.Scripted
import ImageRelease.CommandLine.Arguments
import ImageRelease.CommandLine.Check
import ImageRelease.CommandLine.Parameter
import ImageRelease.CommandLine.Reading
import ImageRelease.Config.Basic
import ImageRelease.Config.Decode
import ImageRelease.Config.Load
import ImageRelease.Decimal.Binary
import ImageRelease.Decimal.Shortest
import ImageRelease.Docker
import ImageRelease.Edit.File
import ImageRelease.Edit.Line
import ImageRelease.Edit.Replacement
import ImageRelease.Environment
import ImageRelease.Failure
import ImageRelease.FileTree
import ImageRelease.Git
import ImageRelease.Machine.Basic
import ImageRelease.Machine.Escape
import ImageRelease.Machine.Format
import ImageRelease.Machine.Install
import ImageRelease.Machine.Runner
import ImageRelease.Machine.Utility
import ImageRelease.Main
import ImageRelease.Notice.Basic
import ImageRelease.Notice.Print
import ImageRelease.Path
import ImageRelease.Pattern.Basic
import ImageRelease.Pattern.Parse
import ImageRelease.Plan.Basic
import ImageRelease.Plan.Build
import ImageRelease.Plan.Push
import ImageRelease.Plan.Release
import ImageRelease.Program
import ImageRelease.ReleaseNotes
import ImageRelease.Request
import ImageRelease.Shell.Run
import ImageRelease.Shell.Script
import ImageRelease.Text.Blank
import ImageRelease.Text.Hidden
import ImageRelease.Text.Quoted
import ImageRelease.Text.Search
import ImageRelease.Text.Utf8
import ImageRelease.Toml.Document
import ImageRelease.Toml.Moment
import ImageRelease.Toml.Node
import ImageRelease.Toml.Number
import ImageRelease.Toml.Place
import ImageRelease.Toml.Quote
import ImageRelease.Toml.Table
import ImageRelease.Toml.Value
import ImageRelease.Version.Basic
import ImageRelease.Version.Order
import ImageRelease.Version.Parse
import ImageRelease.Proofs.Edit.File
import ImageRelease.Proofs.FileTree
import ImageRelease.Proofs.Images.Build
import ImageRelease.Proofs.Images.Push
import ImageRelease.Proofs.Images.Selection
import ImageRelease.Proofs.Machine.Runner
import ImageRelease.Proofs.Plan.FailStop
import ImageRelease.Proofs.Plan.Failures
import ImageRelease.Proofs.Plan.Muted
import ImageRelease.Proofs.Plan.Queries
import ImageRelease.Proofs.Plan.Run
import ImageRelease.Proofs.Plan.Trace
import ImageRelease.Proofs.Plan.Within
import ImageRelease.Proofs.Program.DryRun
import ImageRelease.Proofs.Release.Clearance
import ImageRelease.Proofs.Release.Outcome
import ImageRelease.Proofs.Release.Residue
import ImageRelease.Proofs.Release.Stages
import ImageRelease.Proofs.Images.Stamp
import ImageRelease.Proofs.Plan.Foretells
import ImageRelease.Proofs.Program.Preview
import ImageRelease.Proofs.Machine.Process
import ImageRelease.Proofs.Program.ExitStatus
import ImageRelease.Proofs.Edit.Line
import ImageRelease.Proofs.Edit.Overwrite
import ImageRelease.Proofs.Version.Chars
import ImageRelease.Proofs.Version.Grammar
import ImageRelease.Proofs.Version.Written
import ImageRelease.Proofs.Pattern.Sweep
import ImageRelease.Proofs.Pattern.Segment
import ImageRelease.Proofs.Edit.Rerelease
import ImageRelease.Proofs.Edit.Pinning
import ImageRelease.Proofs.CommandLine.Verbosity
import ImageRelease.Proofs.Plan.Watch
import ImageRelease.Proofs.Program.Verbosity
import ImageRelease.Proofs.Plan.Hints
import ImageRelease.Proofs.Release.Branches
import ImageRelease.Proofs.Release.Series
import ImageRelease.Proofs.Release.Notes
import ImageRelease.Proofs.Release.Tags
import ImageRelease.Proofs.Edit.Change
import ImageRelease.Proofs.Edit.Correspondence
import ImageRelease.Proofs.Edit.Assignment
import ImageRelease.Proofs.Command.Line
import ImageRelease.Proofs.Release.Writes
import ImageRelease.Proofs.Machine.Output
import ImageRelease.Proofs.CommandLine.Check
import ImageRelease.Proofs.Images.Reference
import ImageRelease.Proofs.Toml.Line
import ImageRelease.Proofs.Toml.Table
import ImageRelease.Proofs.Toml.Document
import ImageRelease.Proofs.Config.Decode
import ImageRelease.Proofs.Config.Overlay
import ImageRelease.Proofs.Version.Order
import ImageRelease.Proofs.Config.Override
import ImageRelease.Proofs.CommandLine.Exclusion
import ImageRelease.Proofs.Toml.Suffix
import ImageRelease.Proofs.Toml.Outline
import ImageRelease.Proofs.Toml.Written
import ImageRelease.Proofs.Config.Entries
import ImageRelease.Proofs.Config.Keys
import ImageRelease.Proofs.Pattern.Match
