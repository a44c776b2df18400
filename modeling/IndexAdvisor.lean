import IndexAdvisor.Advice
import IndexAdvisor.Analysis.Analyzer
import IndexAdvisor.Analysis.Application
import IndexAdvisor.Analysis.Batch
import IndexAdvisor.Analysis.Counters
import IndexAdvisor.AppliedIndex
import IndexAdvisor.Command.Arguments
import IndexAdvisor.Command.Basic
import IndexAdvisor.Command.Program
import IndexAdvisor.Command.Run
import IndexAdvisor.Command.World
import IndexAdvisor.Config
import IndexAdvisor.Dashboard
import IndexAdvisor.Disk.Basic
import IndexAdvisor.Disk.Path
import IndexAdvisor.Disk.Place
import IndexAdvisor.Index.Kind
import IndexAdvisor.Index.Statement
import IndexAdvisor.Json.Basic
import IndexAdvisor.Json.Double
import IndexAdvisor.Json.Fault
import IndexAdvisor.Json.Number
import IndexAdvisor.Json.Parts
import IndexAdvisor.Json.Quoted
import IndexAdvisor.Json.Scalar
import IndexAdvisor.Json.Shape
import IndexAdvisor.Json.Untyped
import IndexAdvisor.Log.Entry
import IndexAdvisor.Log.Event
import IndexAdvisor.Log.Journal
import IndexAdvisor.Log.Scope
import IndexAdvisor.Log.Severity
import IndexAdvisor.LoggedQuery
import IndexAdvisor.Main
import IndexAdvisor.Plan
import IndexAdvisor.Proofs.Advice.Aliases
import IndexAdvisor.Proofs.Advice.Rules
import IndexAdvisor.Proofs.Advice.Shapes
import IndexAdvisor.Proofs.Advice.Silence
import IndexAdvisor.Proofs.Advice.Statements
import IndexAdvisor.Proofs.Analysis.Accounts
import IndexAdvisor.Proofs.Analysis.Application
import IndexAdvisor.Proofs.Analysis.Batch
import IndexAdvisor.Proofs.Analysis.Growth
import IndexAdvisor.Proofs.Analysis.Journal
import IndexAdvisor.Proofs.Analysis.Keys
import IndexAdvisor.Proofs.Analysis.Owners
import IndexAdvisor.Proofs.Analysis.Positions
import IndexAdvisor.Proofs.Analysis.Reanalysis
import IndexAdvisor.Proofs.Command.Alarms
import IndexAdvisor.Proofs.Command.Applications
import IndexAdvisor.Proofs.Command.Attribution
import IndexAdvisor.Proofs.Command.DataFiles
import IndexAdvisor.Proofs.Command.Explained
import IndexAdvisor.Proofs.Command.Extensions
import IndexAdvisor.Proofs.Command.Failure
import IndexAdvisor.Proofs.Command.Footprints
import IndexAdvisor.Proofs.Command.Growth
import IndexAdvisor.Proofs.Command.Isolation
import IndexAdvisor.Proofs.Command.Ledger
import IndexAdvisor.Proofs.Command.Sessions
import IndexAdvisor.Proofs.Command.Shown
import IndexAdvisor.Proofs.Command.Steps
import IndexAdvisor.Proofs.Dashboard
import IndexAdvisor.Proofs.Disk.Children
import IndexAdvisor.Proofs.Disk.Directories
import IndexAdvisor.Proofs.Disk.Extensions
import IndexAdvisor.Proofs.Disk.Files
import IndexAdvisor.Proofs.Disk.Footprints
import IndexAdvisor.Proofs.Disk.Siblings
import IndexAdvisor.Proofs.Fallible
import IndexAdvisor.Proofs.Index.Injective
import IndexAdvisor.Proofs.Index.Statement
import IndexAdvisor.Proofs.Json.Double
import IndexAdvisor.Proofs.Json.Extent
import IndexAdvisor.Proofs.Json.Followed
import IndexAdvisor.Proofs.Json.Kept
import IndexAdvisor.Proofs.Json.Layout
import IndexAdvisor.Proofs.Json.Number
import IndexAdvisor.Proofs.Json.Parts
import IndexAdvisor.Proofs.Json.Passage
import IndexAdvisor.Proofs.Json.Quoted
import IndexAdvisor.Proofs.Json.Settled
import IndexAdvisor.Proofs.Json.Shape
import IndexAdvisor.Proofs.Json.Skipped
import IndexAdvisor.Proofs.Json.Value
import IndexAdvisor.Proofs.Log.Entry
import IndexAdvisor.Proofs.Plan.Costs
import IndexAdvisor.Proofs.QueryLog
import IndexAdvisor.Proofs.Random.Ranges
import IndexAdvisor.Proofs.Random.Tosses
import IndexAdvisor.Proofs.Records
import IndexAdvisor.Proofs.Sql.Bindings
import IndexAdvisor.Proofs.Sql.Clauses
import IndexAdvisor.Proofs.Sql.Comparisons
import IndexAdvisor.Proofs.Sql.Conditions
import IndexAdvisor.Proofs.Sql.Connectives
import IndexAdvisor.Proofs.Sql.Entries
import IndexAdvisor.Proofs.Sql.Extraction
import IndexAdvisor.Proofs.Sql.Flags
import IndexAdvisor.Proofs.Sql.Fragments
import IndexAdvisor.Proofs.Sql.Joins
import IndexAdvisor.Proofs.Sql.Layouts
import IndexAdvisor.Proofs.Sql.Names
import IndexAdvisor.Proofs.Sql.Pieces
import IndexAdvisor.Proofs.Sql.Places
import IndexAdvisor.Proofs.Sql.Reading
import IndexAdvisor.Proofs.Sql.Scanner
import IndexAdvisor.Proofs.Sql.Spacing
import IndexAdvisor.Proofs.Sql.Statement
import IndexAdvisor.Proofs.Sql.Targets
import IndexAdvisor.Proofs.Store.Additions
import IndexAdvisor.Proofs.Store.Agreement
import IndexAdvisor.Proofs.Store.Checksum
import IndexAdvisor.Proofs.Store.Clearing
import IndexAdvisor.Proofs.Store.Damage
import IndexAdvisor.Proofs.Store.Entries
import IndexAdvisor.Proofs.Store.Growth
import IndexAdvisor.Proofs.Store.Insertion
import IndexAdvisor.Proofs.Store.Lines
import IndexAdvisor.Proofs.Store.Marks
import IndexAdvisor.Proofs.Store.Refinement
import IndexAdvisor.Proofs.Store.Removal
import IndexAdvisor.Proofs.Store.Respelled
import IndexAdvisor.Proofs.Store.Torn
import IndexAdvisor.Proofs.Store.Verdict
import IndexAdvisor.Proofs.Text.Ascii
import IndexAdvisor.Proofs.Text.Breaks
import IndexAdvisor.Proofs.Text.Lines
import IndexAdvisor.Proofs.Text.Spacing
import IndexAdvisor.Proofs.Text.Trimming
import IndexAdvisor.Proofs.Text.Utf8
import IndexAdvisor.QueryLog
import IndexAdvisor.Random.Identifier
import IndexAdvisor.Random.Keystream
import IndexAdvisor.Random.Scripted
import IndexAdvisor.Random.Seeded
import IndexAdvisor.Random.Source
import IndexAdvisor.Recommendation
import IndexAdvisor.Sql.Alias
import IndexAdvisor.Sql.Cardinality
import IndexAdvisor.Sql.Clause
import IndexAdvisor.Sql.Features
import IndexAdvisor.Sql.Join
import IndexAdvisor.Sql.Operator
import IndexAdvisor.Sql.Predicate
import IndexAdvisor.Sql.Record
import IndexAdvisor.Sql.Scan
import IndexAdvisor.Store.Checksum
import IndexAdvisor.Store.Error
import IndexAdvisor.Store.File
import IndexAdvisor.Store.Memory
import IndexAdvisor.Store.Sealed
import IndexAdvisor.Text.Alphabetic
import IndexAdvisor.Text.Blank
import IndexAdvisor.Text.Casing
import IndexAdvisor.Text.Decimal
import IndexAdvisor.Text.Hex
import IndexAdvisor.Text.Lines
import IndexAdvisor.Text.Lowercase
import IndexAdvisor.Text.Mark
import IndexAdvisor.Text.Numeric
import IndexAdvisor.Text.Range
import IndexAdvisor.Text.Shown
import IndexAdvisor.Text.Split
import IndexAdvisor.Text.Unprintable
import IndexAdvisor.Text.Utf8
import IndexAdvisor.Text.Word
