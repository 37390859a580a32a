import ChartParser.Rule

/-! # Rules by body -/

namespace ChartParser

/-- For each body, the positions of the rules that have it, in ascending order. -/
structure RuleIndex where
  byBody : Std.TreeMap (List Symbol) (List Nat)

namespace RuleIndex

/-- The positions of the rules with a body. -/
def positions (index : RuleIndex) (body : List Symbol) : List Nat := index.byBody.getD body []

/-- The index that has one more position, before all others. -/
def addFirst (index : RuleIndex) (position : Nat) (body : List Symbol) : RuleIndex :=
  ⟨index.byBody.insert body (position :: index.positions body)⟩

/-- The index of rules of which the first has the position `first`. -/
def ofRulesFrom (first : Nat) : List Rule → RuleIndex
  | [] => ⟨∅⟩
  | rule :: rules => (ofRulesFrom (first + 1) rules).addFirst first rule.body

/-- The index of a list of rules. -/
def ofRules (rules : List Rule) : RuleIndex := ofRulesFrom 0 rules

end RuleIndex

end ChartParser
