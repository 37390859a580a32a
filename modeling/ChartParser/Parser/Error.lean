import ChartParser.Rule
import ChartParser.Span

/-! # Why a sentence cannot be parsed -/

namespace ChartParser

inductive ParseError
  /-- A rule is not in relaxed Chomsky normal form. -/
  | nonconforming (rule : Rule)
  /-- Unit rules lead from a symbol back to itself. -/
  | unitCycle (cycle : List Symbol)
  /-- A span has more trees than the limit allows. -/
  | overLimit (span : Span) (limit : Nat)

/-- The text of an error. -/
def ParseError.message : ParseError → String
  | nonconforming rule => s!"rule `{rule.text}` is not in relaxed Chomsky normal form"
  | unitCycle cycle => "unit rules form a cycle: " ++ " -> ".intercalate (cycle.map Symbol.text)
  | overLimit span limit => s!"span {span.text} has more than {limit} parse trees"

end ChartParser
