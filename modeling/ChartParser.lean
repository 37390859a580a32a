import ChartParser.Grammar.Dump
import ChartParser.Grammar.Layout
import ChartParser.Proofs.Grammar.RuleFile
import ChartParser.Proofs.NormalForm.Ambiguity
import ChartParser.Proofs.NormalForm.Language
import ChartParser.Proofs.NormalForm.Reorder
import ChartParser.Proofs.NormalForm.Restore
import ChartParser.Proofs.Parser.Simulation
import ChartParser.Text.Segment
import ChartParser.Tree.Layout
import ChartParser.Proofs.Steps
import ChartParser.Proofs.UnitCycle
import ChartParser.Proofs.NormalForm.UnitCycle
import ChartParser.Proofs.Parser.Finite
import ChartParser.RuleFile.Format
import ChartParser.Proofs.RuleFile.Format
import ChartParser.Proofs.Grammar.Format
import ChartParser.Proofs.Grammar.Made
import ChartParser.Proofs.NormalForm.Stable
import ChartParser.Proofs.Symbol.Table
import ChartParser.Proofs.Grammar.Described
import ChartParser.Grammar.Draft
import ChartParser.Proofs.Grammar.Outcome
import ChartParser.Proofs.RuleFile.Append
import ChartParser.Proofs.Search.Order
import ChartParser.Proofs.Tree.Unfold
import ChartParser.Proofs.Grammar.Warnings
import ChartParser.Layout.Printer
import ChartParser.Proofs.Layout.Printer
import ChartParser.Proofs.Tree.Layout
import ChartParser.Layout.Fill
import ChartParser.Proofs.Layout.Fill
import ChartParser.Proofs.Rule.Layout
import ChartParser.Proofs.Grammar.Layout
import ChartParser.Proofs.Parser.Bracketings
import ChartParser.Proofs.Tree.Text
import ChartParser.Proofs.Symbol.Calls
import ChartParser.Proofs.Chart.Access
import ChartParser.Proofs.RuleFile.Keywords
import ChartParser.Proofs.Text.Tokens
import ChartParser.Proofs.Chart.Filling
import ChartParser.Proofs.Parser.Gathering
import ChartParser.Proofs.Parser.Filling
import ChartParser.Proofs.Tree.Walk
import ChartParser.Proofs.Text.Bytes
import ChartParser.Proofs.Tree.Precedes
import ChartParser.Proofs.Parser.Ascending
import ChartParser.Proofs.Recognizer.Matching
import ChartParser.Proofs.Recognizer.Filling
