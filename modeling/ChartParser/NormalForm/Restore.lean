import ChartParser.Grammar.Basic

/-! # Rules without helpers

A helper stands for the body of the rule that it heads. Where all helpers give way to what they
stand for, the rules before normalization are left.
-/

namespace ChartParser.Grammar

/-- What a symbol stands for: the body of its rule, if it is a helper with one rule. -/
def replaceHelper (h : Grammar) (symbol : Symbol) : List Symbol :=
  if h.isHelper symbol then
    match h.rulesFor symbol with
    | [rule] => rule.body
    | _ => [symbol]
  else [symbol]

/-- Replaces all helpers of a body at once, and again until none is left or the rounds are over. -/
def replaceHelpers (h : Grammar) : Nat → List Symbol → List Symbol
  | 0, body => body
  | rounds + 1, body =>
    if body.any h.isHelper then h.replaceHelpers rounds (body.flatMap h.replaceHelper) else body

/-- The rules with heads of their own, without helpers in their bodies. No helper stands for itself,
so there are no more rounds than rules. -/
def restoredRules (h : Grammar) : List Rule :=
  (h.rules.filter fun rule => !h.isHelper rule.head).map fun rule =>
    { rule with body := h.replaceHelpers h.rules.length rule.body }

end ChartParser.Grammar
