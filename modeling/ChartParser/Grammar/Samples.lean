import ChartParser.Grammar.Declaration
import ChartParser.Grammar.RuleFile

/-! # Sample grammars -/

namespace ChartParser.Sample

/-- The rule file of `telescope`. -/
def telescopeText : String :=
  String.join <| List.map (· ++ "\n")
    ["#ABNF V1.0 utf-8;", "language en;", "public $S = $NP $VP;", "$NP = I;", "$NP = $Det $N;",
      "$NP = $NP $PP;", "$VP = $V $NP;", "$VP = $VP $PP;", "$PP = $P $NP;", "$V = saw;",
      "$Det = the;", "$Det = a;", "$N = duck;", "$N = telescope;", "$P = with;"]

/-- A prepositional phrase may belong to the verb or to the noun before it. -/
def telescope : Except GrammarError Grammar := Grammar.ofRuleFile telescopeText

/-- A rule file with marks of the format in its symbols, a header below a comment, a label without
white space before it, and two languages. -/
def marksText : String :=
  "  // first\n #aBnF\nlanguage en;\r\npublic\t$S=$A ;;\x7d x\x7b a b \x7d;// $S\n" ++
    "$A = $B= ;\nlanguage\u00a0de ;"

/-- One sentence about a duck. -/
def duck : Except GrammarError Grammar := Grammar.declare
  [.publicRule "$S" ["$NP", "$VP"], .rule "$NP" ["I"], .rule "$NP" ["the", "$N"],
    .rule "$VP" ["$V", "$NP"], .rule "$N" ["duck"], .rule "$V" ["saw"]]

/-- Two derivations of `x x`. -/
def ambiguous : Except GrammarError Grammar := Grammar.declare
  [.publicRule "$S" ["$A", "$B"], .rule "$A" ["x"], .rule "$B" ["x"], .publicRule "$S" ["x", "x"]]

/-- A chain of unit rules, in relaxed Chomsky normal form. -/
def unitChain : Except GrammarError Grammar := Grammar.declare
  [.publicRule "$S" ["$A"], .publicRule "$S" ["$S", "$S"], .rule "$A" ["$B"], .rule "$B" ["b"]]

/-- Three unit rules in a ring. -/
def unitCycle : Except GrammarError Grammar := Grammar.declare
  [.publicRule "$A" ["$B"], .rule "$B" ["$C"], .rule "$C" ["$A"], .publicRule "$A" ["x"]]

/-- A long body with terminals and non-terminals. -/
def longMixed : Except GrammarError Grammar := Grammar.declare
  [.publicRule "$S" ["a", "$B", "c", "$D", "e"], .rule "$B" ["b"], .rule "$B" ["$B", "b"],
    .rule "$D" ["d"]]

/-- Balanced parentheses around `x`, one after another. -/
def parens : Except GrammarError Grammar := Grammar.declare
  [.publicRule "$E" ["x"], .publicRule "$E" ["(", "$E", ")"], .publicRule "$E" ["$E", "$E"]]

/-- The noun of a noun phrase is misspelled, so the rules for nouns are of no use. -/
def misspelled : Except GrammarError Grammar := Grammar.declare
  [.publicRule "$S" ["$NP", "$V", "$NP"], .publicRule "$S" ["$S", "and", "$S"],
    .rule "$NP" ["the", "$Noun"], .rule "$N" ["duck"], .rule "$N" ["$Adj", "$N"], .rule "$V" ["saw"],
    .rule "$N" ["duck"]]

end ChartParser.Sample
