import Std.Data.TreeMap

/-! # Symbols

A grammar is written over terminals and non-terminals. In text, a leading `$` marks a non-terminal.
-/

namespace ChartParser

/-- A terminal or a non-terminal with its name. -/
inductive Symbol
  | term (name : String)
  | nonterm (name : String)
  deriving DecidableEq

namespace Symbol

/-- The symbol that a token of a rule stands for. -/
def ofToken (token : String) : Symbol :=
  match token.toList with
  | '$' :: name => nonterm (String.ofList name)
  | _ => term token

/-- The name without the mark. -/
def name : Symbol → String
  | term name => name
  | nonterm name => name

def isTerm : Symbol → Bool
  | term _ => true
  | nonterm _ => false

def isNonterm : Symbol → Bool
  | term _ => false
  | nonterm _ => true

/-- The name of a terminal. -/
def termName? : Symbol → Option String
  | term name => some name
  | nonterm _ => none

/-- The symbol as it is written in a rule. -/
def text : Symbol → String
  | term name => name
  | nonterm name => "$" ++ name

/-! ## Order -/

/-- All terminals come before all non-terminals. Within a kind, names are ordered by code point. -/
instance : Ord Symbol where
  compare
    | term a, term b => compare a b
    | term _, nonterm _ => .lt
    | nonterm _, term _ => .gt
    | nonterm a, nonterm b => compare a b

theorem compare_eq_compareLex :
    (compare : Symbol → Symbol → Ordering) = compareLex (compareOn isNonterm) (compareOn name) := by
  funext a b
  cases a <;> cases b <;> rfl

instance : Std.TransOrd Symbol := by
  unfold Std.TransOrd
  rw [compare_eq_compareLex]
  infer_instance

instance : Std.LawfulEqOrd Symbol where
  eq_of_compare {a b} h := by
    rw [compare_eq_compareLex] at h
    have key : compare a.isNonterm b.isNonterm = .eq ∧ compare a.name b.name = .eq :=
      Ordering.then_eq_eq.mp h
    have kind := Std.LawfulEqOrd.eq_of_compare key.1
    have name := Std.LawfulEqOrd.eq_of_compare key.2
    cases a <;> cases b <;> simp_all [isNonterm, Symbol.name]

/-! ## Spelling -/

/-- A token is the text of the symbol it stands for. -/
theorem text_ofToken (token : String) : (ofToken token).text = token := by
  unfold ofToken
  split
  · next name h =>
    apply String.toList_inj.mp
    simp [text, h]
  · rfl

end Symbol

end ChartParser
