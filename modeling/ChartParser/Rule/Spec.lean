import ChartParser.Rule

/-! # Rules as they are declared -/

namespace ChartParser

/-- A rule in tokens, with the line that declares it. -/
structure RuleSpec where
  line : Nat
  /-- The head of a public rule is the start symbol. -/
  isPublic : Bool
  head : String
  body : List String
  label : Option String
  deriving DecidableEq

namespace RuleSpec

/-- The tokens of the declaration, in order. -/
def tokens (spec : RuleSpec) : List String := spec.head :: spec.body ++ spec.label.toList

/-- The rule that is declared. -/
def toRule (spec : RuleSpec) : Except RuleFault Rule :=
  Rule.make (.ofToken spec.head) (spec.body.map .ofToken) (spec.label.map .ofToken)

end RuleSpec

end ChartParser
