import ChartParser.Grammar.Basic
import ChartParser.Text.Quoted

/-! # Full dumps of grammars

A dump shows every field of a grammar and of its rules on one line.
-/

namespace ChartParser

/-- The texts with commas between them. -/
def commaSeparated (texts : List String) : String := ", ".intercalate texts

/-- An optional part in the words `None` and `Some`. -/
def dumpOption : Option String → String
  | none => "None"
  | some text => "Some(" ++ text ++ ")"

/-- Every field of a rule. -/
def Rule.dump (rule : Rule) : String :=
  "Rule \x7b lhs: " ++ rule.head.text
    ++ ", rhs: [" ++ commaSeparated (rule.body.map Symbol.text)
    ++ "], label: " ++ dumpOption (rule.label.map Symbol.text) ++ " \x7d"

/-- Every field of a grammar, except its symbol table and its index. -/
def Grammar.dump (g : Grammar) : String :=
  "Grammar \x7b start_symbol: " ++ g.start.text
    ++ ", rules: [" ++ commaSeparated (g.rules.map Rule.dump)
    ++ "], language: " ++ dumpOption (g.language.map Text.quote)
    ++ ", fresh_counter: " ++ toString g.counter
    ++ ", helpers: \x7b" ++ commaSeparated (g.helpers.toList.map Symbol.text) ++ "\x7d \x7d"

end ChartParser
