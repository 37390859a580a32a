import ChartParser.Layout.Doc
import ChartParser.Rule

/-! # Layout of rules -/

namespace ChartParser

open Layout

/-- A symbol is never broken. -/
def Symbol.doc (symbol : Symbol) : Doc := .text symbol.text

/-- A rule fills its lines, and continuation lines are indented. -/
def Rule.doc (rule : Rule) : Doc :=
  let label := match rule.label with
    | some label => Doc.softline ++ (.text "\x7b" ++ label.doc ++ .text "\x7d")
    | none => .nil
  .group <| .nest 2 <|
    rule.head.doc ++ .text " =" ++ Doc.softline
      ++ Doc.separated Doc.softline (rule.body.map Symbol.doc) ++ label ++ .text ";"

end ChartParser
