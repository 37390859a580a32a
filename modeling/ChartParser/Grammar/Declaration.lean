import ChartParser.Grammar.Build

/-! # Grammars from declarations in code -/

namespace ChartParser

/-- One call that describes a grammar. -/
inductive Declaration
  | language (tag : String)
  | publicRule (head : String) (body : List String)
  | rule (head : String) (body : List String)
  | labeledRule (head : String) (body : List String) (label : String)

namespace Declaration

/-- The rule that is declared as number `line`. -/
def spec? (line : Nat) : Declaration → Option RuleSpec
  | language _ => none
  | publicRule head body => some ⟨line, true, head, body, none⟩
  | rule head body => some ⟨line, false, head, body, none⟩
  | labeledRule head body label => some ⟨line, false, head, body, some label⟩

/-- The declared rules, numbered from `line`. -/
def specsFrom (line : Nat) : List Declaration → List RuleSpec
  | [] => []
  | declaration :: more =>
    match declaration.spec? line with
    | some spec => spec :: specsFrom (line + 1) more
    | none => specsFrom line more

/-- The last language that is declared. -/
def language? : List Declaration → Option String
  | [] => none
  | language tag :: more => language? more <|> some tag
  | _ :: more => language? more

end Declaration

/-- The grammar that the declarations describe. -/
def Grammar.declare (declarations : List Declaration) : Except GrammarError Grammar :=
  ofSpecs (Declaration.specsFrom 1 declarations) (Declaration.language? declarations)

end ChartParser
