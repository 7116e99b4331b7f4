import RelayLadder.Catalog
import RelayLadder.CommandLine.Arguments
import RelayLadder.CommandLine.Command
import RelayLadder.CommandLine.Program
import RelayLadder.CommandLine.Run
import RelayLadder.CommandLine.Tasks
import RelayLadder.Console.Display
import RelayLadder.Console.Outline
import RelayLadder.Element
import RelayLadder.Element.Location
import RelayLadder.Element.Printer
import RelayLadder.Element.Traversal
import RelayLadder.Error
import RelayLadder.FieldValue
import RelayLadder.FileTree
import RelayLadder.L5X.Reader
import RelayLadder.L5X.Writer
import RelayLadder.Layout.Config
import RelayLadder.Layout.Diagram
import RelayLadder.Layout.Glyphs
import RelayLadder.Layout.Placement
import RelayLadder.Layout.Stack
import RelayLadder.Layout.Svg
import RelayLadder.Main
import RelayLadder.Number.Exact
import RelayLadder.Number.Numeral
import RelayLadder.Number.Scalar
import RelayLadder.Number.Written
import RelayLadder.Routine
import RelayLadder.Rung
import RelayLadder.RungText.Canonical
import RelayLadder.RungText.Diagnostic
import RelayLadder.RungText.Grammar
import RelayLadder.RungText.Lexeme
import RelayLadder.RungText.Parser
import RelayLadder.Search
import RelayLadder.StandIn.Columns
import RelayLadder.StandIn.Document
import RelayLadder.StandIn.Event
import RelayLadder.StandIn.Notice
import RelayLadder.StandIn.Screen
import RelayLadder.StandIn.Uri
import RelayLadder.StandIn.Writer
import RelayLadder.Text.AlphaNum
import RelayLadder.Text.Blank
import RelayLadder.Text.CharRange
import RelayLadder.Text.Digit
import RelayLadder.Text.LowerCase
import RelayLadder.Text.Markup
import RelayLadder.Text.Printable
import RelayLadder.Text.Quoted
import RelayLadder.Xml.Character
import RelayLadder.Xml.Library
import RelayLadder.Xml.Node
import RelayLadder.Xml.Reference
import RelayLadder.Xml.Source
import RelayLadder.Proofs.OperandList
import RelayLadder.Proofs.Lexing
import RelayLadder.Proofs.FlatReading
import RelayLadder.Proofs.CanonicalReading
import RelayLadder.Proofs.CleanReading
import RelayLadder.Proofs.RoundTrip
import RelayLadder.Proofs.Places
import RelayLadder.Proofs.RungEdits
import RelayLadder.Proofs.Drawing
import RelayLadder.Proofs.Regions
import RelayLadder.Proofs.Extents
import RelayLadder.Proofs.Parting
import RelayLadder.Proofs.Clicks
import RelayLadder.Proofs.RoutineEdits
import RelayLadder.Proofs.Containment
import RelayLadder.Proofs.Conduction
import RelayLadder.Proofs.PlainMarkup
import RelayLadder.Proofs.TagReading
import RelayLadder.Proofs.MarkupReading
import RelayLadder.Proofs.SourceCharacters
import RelayLadder.Proofs.WrittenRoutine
import RelayLadder.Proofs.Merging
import RelayLadder.Proofs.DrawingFiles
import RelayLadder.Proofs.Refusals
import RelayLadder.Proofs.SearchMatches
import RelayLadder.Proofs.SeriesOrder
import RelayLadder.Proofs.Surroundings
import RelayLadder.Proofs.TokenRuns
import RelayLadder.Proofs.DeadCharacters
import RelayLadder.Proofs.MissingClosers
import RelayLadder.Proofs.ContainedGarbage
import RelayLadder.Proofs.FindingSpans
import RelayLadder.Proofs.FilledLegs
import RelayLadder.Proofs.Replacement
import RelayLadder.Proofs.BranchTree
import RelayLadder.Proofs.Widths
import RelayLadder.Proofs.EditedWidths
import RelayLadder.Proofs.Appending
import RelayLadder.Proofs.Redrawing
import RelayLadder.Proofs.RungNumbers
import RelayLadder.Proofs.StackedBands
import RelayLadder.Proofs.WrittenNumbers
import RelayLadder.Proofs.Tags
import RelayLadder.Proofs.SvgTags
import RelayLadder.Proofs.Addresses
import RelayLadder.Proofs.OperandNames
import RelayLadder.Proofs.LiteralMatches
import RelayLadder.Proofs.HalfUnits
import RelayLadder.Proofs.SvgNumbers
