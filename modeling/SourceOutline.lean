import SourceOutline.Batch
import SourceOutline.CommandLine
import SourceOutline.Decimal.Shortest
import SourceOutline.Discovery
import SourceOutline.Fault
import SourceOutline.FileTree
import SourceOutline.Ignore.Glob
import SourceOutline.Ignore.Regex
import SourceOutline.Ignore.Rule
import SourceOutline.Json.Basic
import SourceOutline.Json.Float
import SourceOutline.Json.Parser
import SourceOutline.Json.Printer
import SourceOutline.Language.Basic
import SourceOutline.Language.Toy
import SourceOutline.LineIndex
import SourceOutline.Literal
import SourceOutline.Main
import SourceOutline.Node
import SourceOutline.Path
import SourceOutline.Proofs.Batch.Outcomes
import SourceOutline.Proofs.CommandLine.Delivery
import SourceOutline.Proofs.Discovery.Qualifying
import SourceOutline.Proofs.Discovery.Sorting
import SourceOutline.Proofs.FileTree.Lookup
import SourceOutline.Proofs.FileTree.Writing
import SourceOutline.Proofs.Json.RoundTrip
import SourceOutline.Proofs.LineIndex.Bounds
import SourceOutline.Proofs.LineIndex.Counting
import SourceOutline.Proofs.Literal.Collections
import SourceOutline.Proofs.Literal.Forms
import SourceOutline.Proofs.Literal.Strings
import SourceOutline.Proofs.Node.Texts
import SourceOutline.Proofs.Places
import SourceOutline.Proofs.Report.RoundTrip
import SourceOutline.Proofs.Run.Inputs
import SourceOutline.Proofs.Swift.Provenance
import SourceOutline.Proofs.Swift.Slices
import SourceOutline.Proofs.Symbol.Listing
import SourceOutline.Proofs.Symbol.Reading
import SourceOutline.Proofs.Text.Trimming
import SourceOutline.Proofs.Text.Utf8
import SourceOutline.Proofs.Walk.Pruning
import SourceOutline.Proofs.Walk.Recursion
import SourceOutline.Proofs.Walk.Spans
import SourceOutline.Proofs.Walk.Visibility
import SourceOutline.Proofs.Walk.WellFormed
import SourceOutline.Report
import SourceOutline.Run
import SourceOutline.ScopeStack
import SourceOutline.Swift.Declaration
import SourceOutline.Swift.Language
import SourceOutline.Swift.Tree
import SourceOutline.Symbol.Basic
import SourceOutline.Symbol.Format
import SourceOutline.SystemError
import SourceOutline.Text.Blank
import SourceOutline.Text.Cut
import SourceOutline.Text.Lines
import SourceOutline.Text.Quoted
import SourceOutline.Text.Terminal
import SourceOutline.Text.Utf8
import SourceOutline.Text.Visible
import SourceOutline.TypeLabel
import SourceOutline.Walk
import SourceOutline.Workspace
import SourceOutline.Proofs.TypeLabel.Rules
import SourceOutline.Proofs.ScopeStack.Calls
import SourceOutline.Proofs.Walk.Balance
import SourceOutline.Proofs.Walk.Labels
import SourceOutline.Proofs.Walk.LineOrder
import SourceOutline.Proofs.Walk.Transparency
import SourceOutline.Proofs.Swift.FirstBinding
import SourceOutline.Proofs.Symbol.Iteration
import SourceOutline.Proofs.Swift.BindingWords
import SourceOutline.Proofs.Fault.CallChain
import SourceOutline.Proofs.Symbol.Tolerance
