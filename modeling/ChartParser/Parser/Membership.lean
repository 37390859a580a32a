import ChartParser.Chart
import ChartParser.Parser.Basic
import ChartParser.Search

/-! # Membership without trees

To know whether a sentence has a tree, it is enough to know the root symbols of each span. They are
never too many, so there is no limit.
-/

namespace ChartParser.Parser

/-- The symbols that unit rules make of some symbols, those included. -/
def unitClosure (g : Grammar) (symbols : List Symbol) : Std.TreeSet Symbol :=
  Search.reached g.unitParents (g.rules.length + 1) symbols

/-- The symbols of a word, before unit rules. -/
def wordHeads (g : Grammar) (word : String) : List Symbol :=
  (g.rulesProducing [.term word]).map Rule.head

/-- The symbols that a pair of neighbouring parts makes up, before unit rules. -/
def pairHeads (g : Grammar) (left right : Std.TreeSet Symbol) : List Symbol :=
  left.toList.flatMap fun leftRoot =>
    right.toList.flatMap fun rightRoot => (g.rulesProducing [leftRoot, rightRoot]).map Rule.head

/-- The symbols of a longer span, before unit rules. -/
def spanHeads (g : Grammar) (chart : Chart (Std.TreeSet Symbol)) (span : Span) : List Symbol :=
  span.cuts.flatMap fun cut =>
    match chart.get? ⟨span.start, cut⟩, chart.get? ⟨cut, span.stop⟩ with
    | some left, some right => pairHeads g left right
    | _, _ => []

/-- The symbols of any span. -/
def symbolsFor (g : Grammar) (words : List String) (chart : Chart (Std.TreeSet Symbol))
    (span : Span) : Std.TreeSet Symbol :=
  unitClosure g <|
    if span.isWord then (words[span.start]?.map (wordHeads g)).getD [] else spanHeads g chart span

/-- The symbols of all spans of a sentence. -/
def symbolChart (g : Grammar) (words : List String) : Chart (Std.TreeSet Symbol) :=
  Chart.fill (symbolsFor g words) (Span.all words.length) (.empty words.length)

/-- The sentence has a tree. -/
def accepts (parser : Parser) (words : List String) : Bool :=
  match (symbolChart parser.grammar words).get? ⟨0, words.length⟩ with
  | some symbols => symbols.contains parser.grammar.start
  | none => false

end ChartParser.Parser
