import MatchTrace.Archive.Compression
import MatchTrace.Archive.Container
import MatchTrace.Archive.Publish
import MatchTrace.Archive.Read
import MatchTrace.Archive.TracedRun
import MatchTrace.Cli.Args
import MatchTrace.Cli.Help
import MatchTrace.Cli.Inspect
import MatchTrace.Cli.Run
import MatchTrace.Demo
import MatchTrace.Json.Basic
import MatchTrace.Json.Printer
import MatchTrace.Json.Reader
import MatchTrace.Json.Record
import MatchTrace.Main
import MatchTrace.Match.Eval
import MatchTrace.Match.Heard
import MatchTrace.Match.Hook
import MatchTrace.Match.Listener
import MatchTrace.Match.Run
import MatchTrace.Rule.Basic
import MatchTrace.Rule.Class
import MatchTrace.Rule.Error
import MatchTrace.Rule.Grammar
import MatchTrace.Rule.Terminal
import MatchTrace.Settings.Basic
import MatchTrace.Settings.Document
import MatchTrace.Staging.File
import MatchTrace.Staging.Gather
import MatchTrace.Staging.Pipeline
import MatchTrace.Staging.Table
import MatchTrace.Store.Basic
import MatchTrace.Store.Content
import MatchTrace.Store.Path
import MatchTrace.Table.Layout
import MatchTrace.Table.Record
import MatchTrace.Table.Row
import MatchTrace.Table.Totals
import MatchTrace.Text.CaseMap
import MatchTrace.Text.Decimal
import MatchTrace.Text.Escape
import MatchTrace.Text.Hex
import MatchTrace.Text.Indexed
import MatchTrace.Text.Input
import MatchTrace.Text.Invisible
import MatchTrace.Text.LineTable
import MatchTrace.Text.Units
import MatchTrace.Text.Utf8
import MatchTrace.Toml.Reader
import MatchTrace.Toml.Scalar
import MatchTrace.Toml.Value
import MatchTrace.Trace.Catalog
import MatchTrace.Trace.Category
import MatchTrace.Trace.Classifier
import MatchTrace.Trace.Error
import MatchTrace.Trace.Event
import MatchTrace.Trace.Recorder
import MatchTrace.Trace.Step
import MatchTrace.Zip.Bytes
import MatchTrace.Zip.Checksum
import MatchTrace.Zip.Directory
import MatchTrace.Zip.Inflate
import MatchTrace.Zip.Line
import MatchTrace.Zip.Names
import MatchTrace.Zip.Pack
import MatchTrace.Zip.Unpack
import MatchTrace.Proofs.Match.Simulation
import MatchTrace.Proofs.Match.Announce
import MatchTrace.Proofs.Match.Audience
import MatchTrace.Proofs.Match.Nesting
import MatchTrace.Proofs.Trace.Classifier
import MatchTrace.Proofs.Trace.Nesting
import MatchTrace.Proofs.Archive.Clean
import MatchTrace.Proofs.Archive.TracedRun
import MatchTrace.Proofs.Match.Adequacy
import MatchTrace.Proofs.Staging.File
import MatchTrace.Proofs.Staging.Schedule
import MatchTrace.Proofs.Archive.Drain
import MatchTrace.Proofs.Trace.Forest
import MatchTrace.Proofs.Trace.Retelling
import MatchTrace.Proofs.Trace.Timeless
import MatchTrace.Proofs.Archive.Published
import MatchTrace.Proofs.Archive.CallTree
import MatchTrace.Proofs.Match.Forward
import MatchTrace.Proofs.Trace.Tally
import MatchTrace.Proofs.Archive.Consistency
import MatchTrace.Proofs.Match.OpenCalls
import MatchTrace.Proofs.Match.Ranks
import MatchTrace.Proofs.Rule.Language
import MatchTrace.Proofs.Match.Acceptance
import MatchTrace.Proofs.Match.Mentions
import MatchTrace.Proofs.Demo.Arith
import MatchTrace.Proofs.Demo.Csv
import MatchTrace.Proofs.Staging.Hearing
import MatchTrace.Proofs.Archive.Cause
import MatchTrace.Proofs.Demo.Lines
import MatchTrace.Proofs.Text.LineTable
import MatchTrace.Proofs.Text.Slices
import MatchTrace.Proofs.Trace.AnyOrder
import MatchTrace.Proofs.Match.Visits
import MatchTrace.Proofs.Text.Indexed
import MatchTrace.Proofs.Match.Shorthand
import MatchTrace.Proofs.Match.Pairing
import MatchTrace.Proofs.Match.Course
import MatchTrace.Proofs.Match.Laws
import MatchTrace.Proofs.Match.Shift
import MatchTrace.Proofs.Match.Relabel
import MatchTrace.Proofs.Rule.Ownership
import MatchTrace.Proofs.Match.Unbound
import MatchTrace.Proofs.Table.Spelling
import MatchTrace.Proofs.Json.Texts
import MatchTrace.Proofs.Table.Fields
import MatchTrace.Proofs.Archive.Entries
import MatchTrace.Proofs.Archive.Opening
import MatchTrace.Proofs.Trace.LateRegistration
import MatchTrace.Proofs.Store.Removal
import MatchTrace.Proofs.Staging.Operations
import MatchTrace.Proofs.Archive.Setback
import MatchTrace.Proofs.Archive.Removals
import MatchTrace.Proofs.Match.EitherCase
import MatchTrace.Proofs.Table.Cuts
