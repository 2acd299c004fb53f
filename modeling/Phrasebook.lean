import Phrasebook.Build.Cache
import Phrasebook.Build.Fields
import Phrasebook.Build.File
import Phrasebook.Build.Findings
import Phrasebook.Build.Inputs
import Phrasebook.Build.Options
import Phrasebook.Build.Run
import Phrasebook.Catalog
import Phrasebook.Command.Catalogs
import Phrasebook.Command.Console
import Phrasebook.Command.Flags
import Phrasebook.Command.Help
import Phrasebook.Command.Logger
import Phrasebook.Command.Project
import Phrasebook.Command.Run
import Phrasebook.Command.Session
import Phrasebook.Command.Spec
import Phrasebook.Compile.ArgType
import Phrasebook.Compile.Builders
import Phrasebook.Compile.Formats
import Phrasebook.Compile.Message
import Phrasebook.Compile.Module
import Phrasebook.Decimal.Fixed
import Phrasebook.Decimal.Layout
import Phrasebook.Decimal.Read
import Phrasebook.Decimal.Shortest
import Phrasebook.Decimal.Whole
import Phrasebook.Diagnostic.Bag
import Phrasebook.Diagnostic.Basic
import Phrasebook.Diagnostic.Code
import Phrasebook.Diagnostic.Document
import Phrasebook.Diagnostic.Pretty
import Phrasebook.Diagnostic.Preview
import Phrasebook.Diagnostic.Short
import Phrasebook.Digest.Sha256
import Phrasebook.Disk.Basic
import Phrasebook.Disk.Glob
import Phrasebook.Evaluate.Formatters
import Phrasebook.Evaluate.Run
import Phrasebook.Evaluate.Value
import Phrasebook.Json.Read
import Phrasebook.Json.Write
import Phrasebook.Locale.Calendar
import Phrasebook.Locale.Common
import Phrasebook.Locale.Common.Numbers
import Phrasebook.Locale.Common.Plurals
import Phrasebook.Locale.Common.Subtags
import Phrasebook.Locale.Common.Tag
import Phrasebook.Locale.Data
import Phrasebook.Locale.DateFormat
import Phrasebook.Locale.NumberFormat
import Phrasebook.Locale.Plural
import Phrasebook.Log
import Phrasebook.Main
import Phrasebook.Message.Cursor
import Phrasebook.Message.Fault
import Phrasebook.Message.Nesting
import Phrasebook.Message.Node
import Phrasebook.Message.Parse
import Phrasebook.Message.Tree
import Phrasebook.Program.Expr
import Phrasebook.Program.Print
import Phrasebook.Program.Quote
import Phrasebook.Progress.Display
import Phrasebook.Progress.Events
import Phrasebook.Progress.Names
import Phrasebook.Progress.View
import Phrasebook.Release
import Phrasebook.Scope.Name
import Phrasebook.Scope.Table
import Phrasebook.Scope.Validate
import Phrasebook.Settings.Basic
import Phrasebook.Settings.Environment
import Phrasebook.Settings.Load
import Phrasebook.Settings.Read
import Phrasebook.Settings.Write
import Phrasebook.Skeleton.Date
import Phrasebook.Skeleton.Number
import Phrasebook.Skeleton.Options
import Phrasebook.Skeleton.Shared
import Phrasebook.Source.File
import Phrasebook.Source.Path
import Phrasebook.Source.Span
import Phrasebook.Text.Blank
import Phrasebook.Text.Case
import Phrasebook.Text.Cluster
import Phrasebook.Text.Letter
import Phrasebook.Text.Mark
import Phrasebook.Text.Normal
import Phrasebook.Text.Normal.Class
import Phrasebook.Text.Normal.Decomposition
import Phrasebook.Text.Paint
import Phrasebook.Text.Pattern
import Phrasebook.Text.Printable
import Phrasebook.Text.Quoted
import Phrasebook.Text.Ranges
import Phrasebook.Text.Utf8
import Phrasebook.Text.Width
import Phrasebook.Timing.Masked
import Phrasebook.Timing.Report
import Phrasebook.Timing.Stages
import Phrasebook.Timing.Timer
import Phrasebook.Toml.Document
import Phrasebook.Toml.Syntax
import Phrasebook.Proofs.Isolation
import Phrasebook.Proofs.ArgumentTypes
import Phrasebook.Proofs.SharedConstants
import Phrasebook.Proofs.WellScoped
import Phrasebook.Proofs.Rendering
import Phrasebook.Proofs.Cursors
import Phrasebook.Proofs.Grammar
import Phrasebook.Proofs.Numbers
import Phrasebook.Proofs.WellFormed
import Phrasebook.Proofs.Tiling
import Phrasebook.Proofs.Codes
import Phrasebook.Proofs.WholeNumbers
import Phrasebook.Proofs.Writing
import Phrasebook.Proofs.RoundTrip
import Phrasebook.Proofs.Literals
import Phrasebook.Proofs.Canonical
import Phrasebook.Proofs.Interpreter
import Phrasebook.Proofs.Faithful
import Phrasebook.Proofs.ScopeRuns
import Phrasebook.Proofs.GeneratedNames
import Phrasebook.Proofs.Faults
import Phrasebook.Proofs.ProgressEvents
import Phrasebook.Proofs.CacheHits
import Phrasebook.Proofs.DefaultFixes
import Phrasebook.Proofs.PrintedCallees
import Phrasebook.Proofs.PrintedExports
import Phrasebook.Proofs.OptionTexts
import Phrasebook.Proofs.StringLiterals
import Phrasebook.Proofs.NestingLimits
import Phrasebook.Proofs.LoweredMarkup
import Phrasebook.Proofs.CatalogLeaves
import Phrasebook.Proofs.KeepGoing
import Phrasebook.Proofs.KeyStreams
import Phrasebook.Proofs.ReportedNames
import Phrasebook.Proofs.SkeletonComposition
import Phrasebook.Proofs.WholeOrder
import Phrasebook.Proofs.FormatterConstraints
import Phrasebook.Proofs.Extensions
import Phrasebook.Proofs.OutputPlaces
import Phrasebook.Proofs.Subexpressions
import Phrasebook.Proofs.Dispatches
import Phrasebook.Proofs.ExactCases
import Phrasebook.Proofs.Lines
import Phrasebook.Proofs.EditPreviews
import Phrasebook.Proofs.SortedDiagnostics
