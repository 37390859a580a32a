import ChartParser.Layout.Render
import ChartParser.Rule.Layout
import ChartParser.Tree.Basic

/-! # Layout of trees -/

namespace ChartParser.Tree

open Layout

mutual

/-- A node stands on one line if it fits, else its children stand on indented lines of their own. -/
def doc : Tree → Doc
  | node symbol [] => symbol.doc
  | node symbol (child :: more) =>
    .group (symbol.doc ++ .text "(" ++ .nest 2 (Doc.lineOrNil ++ (child.doc ++ docs more))
      ++ Doc.lineOrNil ++ .text ")")

/-- Children after the first one, each after a comma. -/
def docs : List Tree → Doc
  | [] => .nil
  | tree :: more => .text "," ++ Doc.line ++ (tree.doc ++ docs more)

end

/-- The tree laid out at the default width. -/
def pretty (tree : Tree) : String := tree.doc.render defaultWidth

end ChartParser.Tree
