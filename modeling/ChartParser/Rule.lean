import ChartParser.Symbol

/-! # Rules -/

namespace ChartParser

/-- A rule says that its head may be replaced by its body. A label is for the reader only. -/
structure Rule where
  head : Symbol
  body : List Symbol
  label : Option Symbol
  deriving DecidableEq

/-- Why a head and a body do not make a rule. -/
inductive RuleFault
  | terminalHead (head : Symbol)
  | emptyBody (head : Symbol)

/-- The text of a fault. -/
def RuleFault.message : RuleFault → String
  | terminalHead head => "left-hand side `" ++ head.text ++ "` is not a non-terminal"
  | emptyBody head => "rule for `" ++ head.text ++ "` has an empty right-hand side"

namespace Rule

/-- A rule of a grammar has a non-terminal head and a body with at least one symbol. -/
def Valid (rule : Rule) : Prop := rule.head.isNonterm = true ∧ rule.body ≠ []

/-- The rule with these parts, if it is valid. -/
def make (head : Symbol) (body : List Symbol) (label : Option Symbol) : Except RuleFault Rule :=
  if head.isTerm then .error (.terminalHead head)
  else if body.isEmpty then .error (.emptyBody head)
  else .ok ⟨head, body, label⟩

theorem valid_of_make {head : Symbol} {body : List Symbol} {label : Option Symbol} {rule : Rule}
    (h : make head body label = .ok rule) : rule.Valid := by
  unfold make at h
  split at h
  · nomatch h
  · next kind =>
    split at h
    · nomatch h
    · next nonempty =>
      cases h
      refine ⟨?_, by simpa using nonempty⟩
      cases head with
      | term name => exact absurd rfl kind
      | nonterm name => rfl

/-! ## Shapes -/

/-- The body is one symbol. -/
def isUnary (rule : Rule) : Bool := rule.body.length == 1

/-- The terminal that is the whole body. -/
def unaryTerm? (rule : Rule) : Option Symbol :=
  match rule.body with
  | [symbol] => if symbol.isTerm then some symbol else none
  | _ => none

/-- The non-terminal that is the whole body. Such a rule is a unit rule. -/
def unaryNonterm? (rule : Rule) : Option Symbol :=
  match rule.body with
  | [symbol] => if symbol.isNonterm then some symbol else none
  | _ => none

/-- The body is two non-terminals. -/
def isBinary (rule : Rule) : Bool :=
  match rule.body with
  | [left, right] => left.isNonterm && right.isNonterm
  | _ => false

/-- The shape of relaxed Chomsky normal form: one symbol, or two non-terminals. -/
def isRelaxed (rule : Rule) : Bool := rule.isUnary || rule.isBinary

/-- The shape of Chomsky normal form: one terminal, or two non-terminals. -/
def isNormal (rule : Rule) : Bool := rule.unaryTerm?.isSome || rule.isBinary

/-! ## Text -/

/-- The symbols with a space before each. -/
def spaced (symbols : List Symbol) : String := String.join (symbols.map fun s => " " ++ s.text)

/-- The label in braces. -/
def braced (label : Symbol) : String := "\x7b" ++ label.text ++ "\x7d"

/-- The rule on one line. -/
def text (rule : Rule) : String :=
  let label := match rule.label with
    | some label => " " ++ braced label
    | none => ""
  rule.head.text ++ " =" ++ spaced rule.body ++ label ++ ";"

/-! ## Order -/

/-- By head, then by body, then by label, where no label comes first. -/
instance : Ord Rule where
  compare a b :=
    (compare a.head b.head).then ((compare a.body b.body).then (compare a.label b.label))

end Rule

end ChartParser
