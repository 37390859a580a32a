import ChartParser.Grammar.Build
import ChartParser.RuleFile.Reader

/-! # Grammars as rule files -/

namespace ChartParser.Grammar

/-- The grammar of a rule file. -/
def ofRuleFile (text : String) : Except GrammarError Grammar :=
  match RuleFile.read text with
  | .error error => .error (.unreadable error)
  | .ok file => ofSpecs file.rules file.language

/-- The line of a rule. The rules for the start symbol are public. -/
def ruleLine (g : Grammar) (rule : Rule) : String :=
  (if rule.head = g.start then "public " else "") ++ rule.text ++ "\n"

/-- The rule file of the grammar. -/
def toRuleFile (g : Grammar) : String :=
  let language := match g.language with
    | some tag => "language " ++ tag ++ ";\n"
    | none => ""
  "#ABNF V1.0 utf-8;\n" ++ language ++ String.join (g.rules.map g.ruleLine)

end ChartParser.Grammar
