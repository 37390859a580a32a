import Mathlib.Data.List.Infix
import ChartParser.Grammar.RuleFile

/-! # Grammars that a rule file can express

A rule file has no escapes, so a text with a mark of the format in the wrong place cannot be
written.
-/

namespace ChartParser

namespace RuleFile

open Text

/-- No `//`. -/
def Uncommented (cs : List Char) : Prop := ¬ ['/', '/'] <:+: cs

instance (cs : List Char) : Decidable (Uncommented cs) :=
  inferInstanceAs (Decidable (¬ ['/', '/'] <:+: cs))

/-- A text that stands between white space and `marks`. -/
structure IsToken (marks cs : List Char) : Prop where
  nonempty : cs ≠ []
  clear : ∀ c ∈ cs, isBlank c = false ∧ c ∉ marks
  uncommented : Uncommented cs

/-- A text that stands between braces. -/
structure IsLabel (cs : List Char) : Prop where
  nonempty : cs ≠ []
  bare : Bare cs
  clear : ∀ c ∈ cs, c ∉ ['\x7b', '\x7d', '\n']
  uncommented : Uncommented cs

end RuleFile

open RuleFile

structure Rule.TextSafe (rule : Rule) : Prop where
  head : IsToken ['='] rule.head.name.toList
  body : ∀ symbol ∈ rule.body, IsToken ['\x7b', '|'] symbol.text.toList
  label : ∀ label ∈ rule.label, IsLabel label.text.toList

namespace Grammar

structure TextSafe (g : Grammar) : Prop where
  language : ∀ tag ∈ g.language, IsToken [] tag.toList
  rules : ∀ rule ∈ g.rules, rule.TextSafe

/-- The rule file of the grammar is read as the same rules, start symbol and language. -/
def Rereads (g : Grammar) : Prop :=
  ∃ again, ofRuleFile g.toRuleFile = .ok again ∧
    again.rules = g.rules ∧ again.start = g.start ∧ again.language = g.language

end Grammar

end ChartParser
