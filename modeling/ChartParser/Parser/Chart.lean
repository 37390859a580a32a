import ChartParser.Chart
import ChartParser.Parser.Close

/-! # The chart parser

The parser finds every tree of a sentence. The cell of a word holds a tree for each rule that
produces the word. The cell of a longer span holds a tree for each rule with two non-terminals and
each pair of trees of its parts. Both also hold what unit rules make of their trees.
-/

namespace ChartParser

namespace Parser

/-! ## Trees of a span -/

/-- The cell of a word. -/
def wordCell (parser : Parser) (span : Span) (word : String) : Except ParseError Cell := do
  let heads := (parser.grammar.rulesProducing [.term word]).map Rule.head
  let direct ← heads.foldlM (fun cell head =>
    cell.insertWithin parser.limit span head (.node head [.leaf (.term word)]) rfl) .empty
  parser.closeCell span direct

/-- Trees for the two parts of a span, and a non-terminal that their roots make up. -/
structure Split where
  head : Symbol
  lefts : List Tree
  rights : List Tree

/-- The splits that a pair of neighbouring cells has. -/
def splitsOf (g : Grammar) (left right : Cell) : List Split :=
  left.trees.toList.flatMap fun (leftRoot, lefts) =>
    right.trees.toList.flatMap fun (rightRoot, rights) =>
      (g.rulesProducing [leftRoot, rightRoot]).map fun rule =>
        ⟨rule.head, lefts.toList, rights.toList⟩

/-- The splits of a span at all of its cuts. -/
def splits (g : Grammar) (chart : Chart Cell) (span : Span) : List Split :=
  span.cuts.flatMap fun cut =>
    match chart.get? ⟨span.start, cut⟩, chart.get? ⟨cut, span.stop⟩ with
    | some left, some right => splitsOf g left right
    | _, _ => []

/-- Adds the trees of a split. -/
def addSplit (parser : Parser) (span : Span) (cell : Cell) (split : Split) :
    Except ParseError Cell :=
  split.lefts.foldlM (fun cell left =>
    split.rights.foldlM (fun cell right =>
      cell.insertWithin parser.limit span split.head (.node split.head [left, right]) rfl)
      cell) cell

/-- The cell of a span of several words. -/
def spanCell (parser : Parser) (chart : Chart Cell) (span : Span) : Except ParseError Cell := do
  let direct ← (splits parser.grammar chart span).foldlM (parser.addSplit span) .empty
  parser.closeCell span direct

/-- The cell of any span of a sentence. -/
def cellFor (parser : Parser) (words : List String) (chart : Chart Cell) (span : Span) :
    Except ParseError Cell :=
  if span.isWord then
    match words[span.start]? with
    | some word => parser.wordCell span word
    | none => .ok .empty
  else parser.spanCell chart span

/-! ## Trees of a sentence -/

/-- The chart of a sentence, and the error that stopped it from being filled. -/
def chart (parser : Parser) (words : List String) : Chart Cell × Option ParseError :=
  Chart.fillUntil (parser.cellFor words) (Span.all words.length) (.empty words.length)

/-- The trees that a chart holds for the whole sentence. -/
def treesIn (g : Grammar) (chart : Chart Cell) : List Tree :=
  match chart.get? ⟨0, chart.size⟩ with
  | some cell => (cell.treesOf g.start).toList
  | none => []

/-- Every tree of a sentence, in ascending order. -/
def parse (parser : Parser) (words : List String) : Except ParseError (List Tree) :=
  match parser.chart words with
  | (_, some error) => .error error
  | (chart, none) => .ok (treesIn parser.grammar chart)

/-! ## Events -/

/-- What filling the cell of a span reports. -/
def cellEvents (words : List String) (span : Span) (cell : Cell) : List Event :=
  let unknown := match words[span.start]? with
    | some word => if span.isWord && cell.count == 0 then [.unknownWord word span.start] else []
    | none => []
  unknown ++ [.filled span cell.trees.size cell.count]

/-- What parsing a sentence reports. -/
def parseEvents (parser : Parser) (words : List String) : List Event :=
  if words.isEmpty then []
  else
    let (chart, error) := parser.chart words
    let cells := (Span.all words.length).flatMap fun span =>
      match chart.get? span with
      | some cell => cellEvents words span cell
      | none => []
    let last := match error with
      | some (.overLimit span limit) => [.overLimit span limit]
      | some _ => []
      | none => [.parsed (treesIn parser.grammar chart).length words.length]
    cells ++ last

end Parser

end ChartParser
