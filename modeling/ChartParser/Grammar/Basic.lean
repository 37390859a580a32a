import Std.Data.TreeSet
import ChartParser.Rule.Index
import ChartParser.Symbol.Table

/-! # Grammars -/

namespace ChartParser

/-- A grammar: its rules in order, and what is known about their symbols. Every rule is valid, the
start symbol is a non-terminal, and the index is that of the rules. -/
structure Grammar where
  start : Symbol
  rules : List Rule
  /-- The language tag of the rule file. -/
  language : Option String
  /-- All symbols of the rules, labels included. -/
  symbols : SymbolTable
  /-- The number at which the search for a new helper name starts. -/
  counter : Nat
  /-- The non-terminals that normalization has added. -/
  helpers : Std.TreeSet Symbol
  /-- The rules by body. -/
  index : RuleIndex
  start_isNonterm : start.isNonterm = true
  rules_valid : ∀ rule ∈ rules, rule.Valid
  index_eq : index = .ofRules rules

namespace Grammar

/-! ## Rules -/

/-- The rules with exactly this body, in order. -/
def rulesProducing (g : Grammar) (body : List Symbol) : List Rule :=
  (g.index.positions body).filterMap (g.rules[·]?)

/-- The rules with this head, in order. -/
def rulesFor (g : Grammar) (head : Symbol) : List Rule := g.rules.filter (·.head == head)

/-- The non-terminals that become `symbol` by a unit rule. -/
def unitParents (g : Grammar) (symbol : Symbol) : List Symbol :=
  (g.rulesProducing [symbol]).map Rule.head

/-! ## Symbols -/

def isHelper (g : Grammar) (symbol : Symbol) : Bool := g.helpers.contains symbol

/-- The symbols of all bodies, in order. -/
def bodySymbols (g : Grammar) : List Symbol := g.rules.flatMap Rule.body

/-- The heads of all rules, in order. -/
def heads (g : Grammar) : List Symbol := g.rules.map Rule.head

/-- The terminals of the bodies. -/
def terminals (g : Grammar) : Std.TreeSet Symbol := .ofList (g.bodySymbols.filter Symbol.isTerm)

/-- The heads, and the non-terminals of the bodies. -/
def nonterminals (g : Grammar) : Std.TreeSet Symbol :=
  .ofList (g.heads ++ g.bodySymbols.filter Symbol.isNonterm)

/-! ## Normal forms -/

/-- The first rule that is not in relaxed Chomsky normal form. -/
def violation? (g : Grammar) : Option Rule := g.rules.find? fun rule => !rule.isRelaxed

/-- Every rule is in relaxed Chomsky normal form. -/
def isRelaxed (g : Grammar) : Bool := g.violation?.isNone

/-- Every rule is in Chomsky normal form. -/
def isNormal (g : Grammar) : Bool := g.rules.all Rule.isNormal

end Grammar

end ChartParser
