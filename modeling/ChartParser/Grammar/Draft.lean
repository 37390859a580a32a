import ChartParser.Grammar.Build

/-! # Grammars in the making

Declarations can be read one by one. All of them share a table, so that a token has the symbol that
was stored when it was first met.
-/

namespace ChartParser

/-- What is known of a grammar while its declarations are read. -/
structure Draft where
  symbols : SymbolTable
  /-- The head of the first public rule. -/
  start : Option Symbol
  rules : List Rule

namespace Draft

def empty : Draft := ⟨.empty, none, []⟩

/-- The draft with one more declaration. -/
def add (draft : Draft) (spec : RuleSpec) : Except GrammarError Draft := do
  let (head, symbols) := draft.symbols.internToken spec.head
  let (body, symbols) := symbols.internTokens spec.body
  let (label, symbols) := symbols.internTokens spec.label.toList
  let rule ← (Rule.make head body label.head?).mapError (.malformedRule spec.line)
  let start ← Grammar.declareStart draft.start spec.isPublic rule.head
  return ⟨symbols, start, draft.rules ++ [rule]⟩

/-- The start symbol, the rules and the table of the grammar. -/
def finish (draft : Draft) : Except GrammarError (Symbol × List Rule × SymbolTable) :=
  match draft.start with
  | none => .error .missingStart
  | some start => .ok (start, draft.rules, draft.symbols)

end Draft

end ChartParser
