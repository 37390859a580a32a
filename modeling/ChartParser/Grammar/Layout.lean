import ChartParser.Grammar.Basic
import ChartParser.Layout.Render
import ChartParser.Rule.Layout

/-! # Layout of grammars -/

namespace ChartParser.Grammar

open Layout

/-- The start symbol, and then the rules on lines of their own between braces. -/
def doc (g : Grammar) : Doc :=
  let rules := Doc.separated .newline (g.rules.map Rule.doc)
  .group (.text "Start =") ++ Doc.softline ++ g.start.doc ++ .text "," ++ .newline
    ++ .text "Rules " ++ .text "\x7b" ++ .nest 2 (.newline ++ rules) ++ .newline ++ .text "\x7d"

/-- The grammar laid out at the default width. -/
def pretty (g : Grammar) : String := g.doc.render defaultWidth

end ChartParser.Grammar
