import ChartParser.Event
import ChartParser.Grammar.Basic
import ChartParser.NormalForm.Rewrite
import ChartParser.NormalForm.Supply

/-! # Grammars in relaxed Chomsky normal form -/

namespace ChartParser.Grammar

/-- The numbers of the helpers that normalization adds, in the order in which it draws them. -/
def helperNumbers (g : Grammar) : List Nat :=
  g.symbols.freeNumbers g.counter (NormalForm.helperCount g.rules)

/-- The supply of helpers: free numbers in ascending order. `known` holds the first of them. -/
def supply (g : Grammar) (known : Array Nat) (n : Nat) : Symbol :=
  helperSymbol (known[n]?.getD (g.symbols.freeNumber g.counter n))

/-- The grammar in relaxed Chomsky normal form. One that has the form already stays as it is. -/
def normalize (g : Grammar) : Grammar :=
  if g.isRelaxed then g
  else
    let numbers := g.helperNumbers
    let added := numbers.map helperSymbol
    let rules := NormalForm.rewrite (g.supply numbers.toArray) g.rules
    { g with
      rules
      symbols := g.symbols.addAll added
      counter := numbers.getLast?.elim g.counter (· + 1)
      helpers := g.helpers.insertMany added
      index := .ofRules rules
      rules_valid := NormalForm.rewrite_valid (fun _ => rfl) g.rules_valid
      index_eq := rfl }

/-- What normalization reports. -/
def normalizeEvents (g : Grammar) : List Event :=
  if g.isRelaxed then [.alreadyRelaxed]
  else
    let normalized := g.normalize
    g.helperNumbers.map (fun i => .minted (helperSymbol i))
      ++ [.normalized g.rules.length normalized.rules.length normalized.helpers.size]

end ChartParser.Grammar
