import ProbeWeave.Analysis
import ProbeWeave.CommandLine.Flag
import ProbeWeave.CommandLine.Help
import ProbeWeave.CommandLine.Mode
import ProbeWeave.CommandLine.Reading
import ProbeWeave.CommandLine.Word
import ProbeWeave.Delivery
import ProbeWeave.Desk.Basic
import ProbeWeave.Desk.Interview
import ProbeWeave.Desk.Keeping
import ProbeWeave.Desk.Program
import ProbeWeave.Desk.Survey
import ProbeWeave.Desk.Timings
import ProbeWeave.Dictionary
import ProbeWeave.Duration
import ProbeWeave.Event
import ProbeWeave.Files.Copying
import ProbeWeave.Files.Path
import ProbeWeave.Files.Tree
import ProbeWeave.Files.World
import ProbeWeave.Graph.Basic
import ProbeWeave.Graph.Model
import ProbeWeave.Instrumentation
import ProbeWeave.Main
import ProbeWeave.Number.Double
import ProbeWeave.Number.Shortest
import ProbeWeave.Number.Whole
import ProbeWeave.Outcome
import ProbeWeave.Probe.Registry
import ProbeWeave.Profile.Basic
import ProbeWeave.Profile.Record
import ProbeWeave.Profile.Session
import ProbeWeave.Profile.Store
import ProbeWeave.Project.Annotation
import ProbeWeave.Project.Basic
import ProbeWeave.Project.Callee
import ProbeWeave.Project.Entry
import ProbeWeave.Project.Load
import ProbeWeave.Project.Lookup
import ProbeWeave.Project.Module
import ProbeWeave.Project.Origin
import ProbeWeave.Proofs.Control.Paths
import ProbeWeave.Proofs.Delivery.Mirror
import ProbeWeave.Proofs.Delivery.Originals
import ProbeWeave.Proofs.Delivery.Steps
import ProbeWeave.Proofs.Desk.Editing
import ProbeWeave.Proofs.Evaluation.Certain
import ProbeWeave.Proofs.Evaluation.Effects
import ProbeWeave.Proofs.Evaluation.Entered
import ProbeWeave.Proofs.Evaluation.Order
import ProbeWeave.Proofs.Files.Copied
import ProbeWeave.Proofs.Files.PathText
import ProbeWeave.Proofs.Files.Places
import ProbeWeave.Proofs.Graph.Closure
import ProbeWeave.Proofs.Graph.Expansion
import ProbeWeave.Proofs.Graph.Occurrence
import ProbeWeave.Proofs.Graph.Outlined
import ProbeWeave.Proofs.Graph.Reach
import ProbeWeave.Proofs.Hoisting.Inline
import ProbeWeave.Proofs.Hoisting.Moves
import ProbeWeave.Proofs.Hoisting.Overtaking
import ProbeWeave.Proofs.Hoisting.Recorded
import ProbeWeave.Proofs.Hoisting.Sequence
import ProbeWeave.Proofs.Hoisting.Slot
import ProbeWeave.Proofs.Hoisting.Statement
import ProbeWeave.Proofs.Hoisting.Temporaries
import ProbeWeave.Proofs.Hoisting.Walk
import ProbeWeave.Proofs.Indent.KeptTexts
import ProbeWeave.Proofs.Indent.PieceByPiece
import ProbeWeave.Proofs.Indent.Pieces
import ProbeWeave.Proofs.Indent.ScannedLines
import ProbeWeave.Proofs.Indent.TextLines
import ProbeWeave.Proofs.Probe.Names
import ProbeWeave.Proofs.Probe.Numbering
import ProbeWeave.Proofs.Profile.Coherence
import ProbeWeave.Proofs.Profile.FailedUpdate
import ProbeWeave.Proofs.Profile.Fields
import ProbeWeave.Proofs.Profile.Storage
import ProbeWeave.Proofs.Profile.Stored
import ProbeWeave.Proofs.Project.Analysed
import ProbeWeave.Proofs.Project.Annotations
import ProbeWeave.Proofs.Project.BaseQueue
import ProbeWeave.Proofs.Project.Ending
import ProbeWeave.Proofs.Project.Filed
import ProbeWeave.Proofs.Project.Followed
import ProbeWeave.Proofs.Project.Guessed
import ProbeWeave.Proofs.Project.Inquiry
import ProbeWeave.Proofs.Project.LeftOut
import ProbeWeave.Proofs.Project.Linearised
import ProbeWeave.Proofs.Project.Loaded
import ProbeWeave.Proofs.Project.LocalNames
import ProbeWeave.Proofs.Project.MethodOrder
import ProbeWeave.Proofs.Project.NearestFirst
import ProbeWeave.Proofs.Project.SingleModule
import ProbeWeave.Proofs.Project.Spans
import ProbeWeave.Proofs.Project.Waiting
import ProbeWeave.Proofs.Report.Coverage
import ProbeWeave.Proofs.Report.LineForms
import ProbeWeave.Proofs.Report.Placement
import ProbeWeave.Proofs.Report.Printed
import ProbeWeave.Proofs.Report.Segments
import ProbeWeave.Proofs.Splicing.Frame
import ProbeWeave.Proofs.Splicing.HomeClass
import ProbeWeave.Proofs.Splicing.LineByLine
import ProbeWeave.Proofs.Splicing.Placed
import ProbeWeave.Proofs.Stopwatch.RunningTime
import ProbeWeave.Proofs.Syntax.Blocks
import ProbeWeave.Proofs.Syntax.CallOrder
import ProbeWeave.Proofs.Syntax.ClassBlock
import ProbeWeave.Proofs.Syntax.ExpressionOrder
import ProbeWeave.Proofs.Syntax.Laid
import ProbeWeave.Proofs.Syntax.Layout
import ProbeWeave.Proofs.Syntax.NameUses
import ProbeWeave.Proofs.Syntax.Reading
import ProbeWeave.Proofs.Syntax.SourceOrder
import ProbeWeave.Proofs.Syntax.TextRoom
import ProbeWeave.Proofs.Syntax.TokenLines
import ProbeWeave.Proofs.Syntax.TokenSpans
import ProbeWeave.Proofs.Syntax.TokenText
import ProbeWeave.Proofs.Syntax.Words
import ProbeWeave.Proofs.Text.Tables
import ProbeWeave.Proofs.Text.Utf8
import ProbeWeave.Proofs.Text.Wildcards
import ProbeWeave.Proofs.Weaving.Agreement
import ProbeWeave.Proofs.Weaving.Applied
import ProbeWeave.Proofs.Weaving.Balance
import ProbeWeave.Proofs.Weaving.BoundOnce
import ProbeWeave.Proofs.Weaving.Erasure
import ProbeWeave.Proofs.Weaving.FreshNames
import ProbeWeave.Proofs.Weaving.HomeGone
import ProbeWeave.Proofs.Weaving.LifeCycle
import ProbeWeave.Proofs.Weaving.Mapped
import ProbeWeave.Proofs.Weaving.Marking
import ProbeWeave.Proofs.Weaving.PiecePaths
import ProbeWeave.Proofs.Weaving.ProbeEvent
import ProbeWeave.Proofs.Weaving.Provenance
import ProbeWeave.Proofs.Weaving.RebuiltBody
import ProbeWeave.Proofs.Weaving.Recovery
import ProbeWeave.Proofs.Weaving.References
import ProbeWeave.Proofs.Weaving.ReportNames
import ProbeWeave.Proofs.Weaving.ReportPaths
import ProbeWeave.Proofs.Weaving.SideBySide
import ProbeWeave.Report.Build
import ProbeWeave.Report.Line
import ProbeWeave.Report.Log
import ProbeWeave.Stopwatch
import ProbeWeave.Syntax.Block
import ProbeWeave.Syntax.Call
import ProbeWeave.Syntax.Grammar.Cursor
import ProbeWeave.Syntax.Grammar.Expression
import ProbeWeave.Syntax.Grammar.Pattern
import ProbeWeave.Syntax.Grammar.Statement
import ProbeWeave.Syntax.Lexer
import ProbeWeave.Syntax.Literal
import ProbeWeave.Syntax.Node
import ProbeWeave.Syntax.Operand
import ProbeWeave.Syntax.Printer.Expression
import ProbeWeave.Syntax.Printer.Literal
import ProbeWeave.Syntax.Printer.Statement
import ProbeWeave.Syntax.Token
import ProbeWeave.Syntax.Tree
import ProbeWeave.Text.Character
import ProbeWeave.Text.Compatibility
import ProbeWeave.Text.CompatibilityTable
import ProbeWeave.Text.Diff
import ProbeWeave.Text.Glob
import ProbeWeave.Text.Identifier
import ProbeWeave.Text.Lines
import ProbeWeave.Text.Lowercase
import ProbeWeave.Text.Printable
import ProbeWeave.Text.Quoted
import ProbeWeave.Text.Table
import ProbeWeave.Text.Utf8
import ProbeWeave.Text.Wrap
import ProbeWeave.Value
import ProbeWeave.Weaving.Body
import ProbeWeave.Weaving.Course
import ProbeWeave.Weaving.Hoist
import ProbeWeave.Weaving.Indent
import ProbeWeave.Weaving.Mark
import ProbeWeave.Weaving.Plan
import ProbeWeave.Weaving.ProbeStatement
import ProbeWeave.Weaving.Splice
import ProbeWeave.Weaving.Unit
import ProbeWeave.Weaving.Worker
import ProbeWeave.Yaml.Grammar
import ProbeWeave.Yaml.Lexer
import ProbeWeave.Yaml.Node
import ProbeWeave.Yaml.Printer
import ProbeWeave.Yaml.Scalar
import ProbeWeave.Yaml.Token
import ProbeWeave.Yaml.Written
