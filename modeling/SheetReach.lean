import SheetReach.CommandLine.Cluster
import SheetReach.CommandLine.CommaList
import SheetReach.CommandLine.Parameter
import SheetReach.CommandLine.Run
import SheetReach.CommandLine.Settings
import SheetReach.CommandLine.Usage
import SheetReach.CommandLine.Word
import SheetReach.Comment
import SheetReach.Decimal
import SheetReach.Dialect
import SheetReach.Event
import SheetReach.Exclusion
import SheetReach.Fault
import SheetReach.FileTree.Basic
import SheetReach.FileTree.Lookup
import SheetReach.Import.Candidate
import SheetReach.Import.Directive
import SheetReach.ImportGraph
import SheetReach.Kilobytes
import SheetReach.Listing
import SheetReach.Logger
import SheetReach.Main
import SheetReach.Path
import SheetReach.Pattern.Basic
import SheetReach.Pattern.Escape
import SheetReach.Pattern.Flaw
import SheetReach.Pattern.Inline
import SheetReach.Pattern.Match
import SheetReach.Pattern.Parse
import SheetReach.Pattern.Reader
import SheetReach.Proofs.AlteredFiles
import SheetReach.Proofs.BoxedConsole
import SheetReach.Proofs.CandidatePair
import SheetReach.Proofs.CarriageReturns
import SheetReach.Proofs.CellLines
import SheetReach.Proofs.CodePointOrder
import SheetReach.Proofs.CommandFrame
import SheetReach.Proofs.CommentLines
import SheetReach.Proofs.CommentPatterns
import SheetReach.Proofs.CompleteDeletion
import SheetReach.Proofs.ConsoleLaws
import SheetReach.Proofs.DanglingRecords
import SheetReach.Proofs.Deletion
import SheetReach.Proofs.DirectiveLines
import SheetReach.Proofs.DirectivePatterns
import SheetReach.Proofs.DirectiveScan
import SheetReach.Proofs.Discovery
import SheetReach.Proofs.FileCells
import SheetReach.Proofs.FileEndings
import SheetReach.Proofs.ImportRun
import SheetReach.Proofs.JoinedEntries
import SheetReach.Proofs.ListOptions
import SheetReach.Proofs.ListingOrder
import SheetReach.Proofs.LookupTrail
import SheetReach.Proofs.MarkupText
import SheetReach.Proofs.NormalPath
import SheetReach.Proofs.Outcome
import SheetReach.Proofs.PathForm
import SheetReach.Proofs.PatternRun
import SheetReach.Proofs.PlainTree
import SheetReach.Proofs.PrintedImports
import SheetReach.Proofs.Reachability
import SheetReach.Proofs.ReadFailures
import SheetReach.Proofs.RepeatedDeletion
import SheetReach.Proofs.RunLength
import SheetReach.Proofs.SecondSurvey
import SheetReach.Proofs.SpecifierPath
import SheetReach.Proofs.StepLimit
import SheetReach.Proofs.StrippedLines
import SheetReach.Proofs.StrippedText
import SheetReach.Proofs.SurveyOutcome
import SheetReach.Proofs.SurveyParts
import SheetReach.Proofs.TextParts
import SheetReach.Proofs.TopFiles
import SheetReach.Proofs.Unread
import SheetReach.Proofs.Unused
import SheetReach.Proofs.Walk
import SheetReach.Proofs.WalkOrder
import SheetReach.Proofs.WorkingDirectory
import SheetReach.Report.Boxed
import SheetReach.Report.Cell
import SheetReach.Report.Markup
import SheetReach.Report.Style
import SheetReach.Report.Table
import SheetReach.Survey
import SheetReach.Text.Blank
import SheetReach.Text.CellWidth
import SheetReach.Text.Identifier
import SheetReach.Text.Lower
import SheetReach.Text.Order
import SheetReach.Text.Printable
import SheetReach.Text.Quoted
import SheetReach.Text.Ranges
import SheetReach.Text.Split
import SheetReach.Text.Utf8
import SheetReach.Text.Word
import SheetReach.Traced
import SheetReach.Workspace
