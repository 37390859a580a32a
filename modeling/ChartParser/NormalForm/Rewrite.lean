import ChartParser.Rule

/-! # Rewriting rules into relaxed Chomsky normal form

A grammar takes the form in two passes. The first moves terminals out of long bodies into rules of
their own, and the second cuts bodies of more than two symbols into chains. Both draw helpers from
a supply `fresh`, and each use of a helper has a number of its own.
-/

namespace ChartParser.NormalForm

variable (fresh : Nat → Symbol)

/-! ## Terminals -/

/-- The terminals that move out of a rule: all of them, if the body is long. -/
def liftedTerms (rule : Rule) : List Symbol :=
  if 1 < rule.body.length then rule.body.filter Symbol.isTerm else []

/-- The body with helpers for its terminals. The first helper has number `i`. -/
def liftBody (i : Nat) : List Symbol → List Symbol
  | [] => []
  | symbol :: rest =>
    if symbol.isTerm then fresh i :: liftBody (i + 1) rest else symbol :: liftBody i rest

/-- The rule with helpers for the terminals that move out of it. -/
def liftRule (i : Nat) (rule : Rule) : Rule :=
  if 1 < rule.body.length then { rule with body := liftBody fresh i rule.body } else rule

/-- The rules with helpers for the terminals that move out of them. -/
def liftRules (i : Nat) : List Rule → List Rule
  | [] => []
  | rule :: rules => liftRule fresh i rule :: liftRules (i + (liftedTerms rule).length) rules

/-- A rule for each terminal that has moved. -/
def termRules (i : Nat) : List Symbol → List Rule
  | [] => []
  | symbol :: rest => ⟨fresh i, [symbol], none⟩ :: termRules (i + 1) rest

/-- The first pass. The rules for the terminals come last. -/
def lift (rules : List Rule) : List Rule :=
  liftRules fresh 0 rules ++ termRules fresh 0 (rules.flatMap liftedTerms)

/-- How many helpers the first pass draws. -/
def liftCount (rules : List Rule) : Nat := (rules.flatMap liftedTerms).length

/-! ## Long bodies -/

/-- The chain of rules for a body. Each helper stands for the rest of the body, and only the first
rule has the label. -/
def splitBody (i : Nat) (head : Symbol) (label : Option Symbol) : List Symbol → List Rule
  | first :: second :: third :: rest =>
    ⟨head, [first, fresh i], label⟩ :: splitBody (i + 1) (fresh i) none (second :: third :: rest)
  | body => [⟨head, body, label⟩]

/-- The second pass, with helpers from number `i` on. -/
def splitRules (i : Nat) : List Rule → List Rule
  | [] => []
  | rule :: rules =>
    splitBody fresh i rule.head rule.label rule.body
      ++ splitRules (i + (rule.body.length - 2)) rules

/-- How many helpers the second pass draws. -/
def splitCount : List Rule → Nat
  | [] => 0
  | rule :: rules => rule.body.length - 2 + splitCount rules

/-! ## Both passes -/

/-- The rules in relaxed Chomsky normal form. -/
def rewrite (rules : List Rule) : List Rule :=
  splitRules fresh (liftCount rules) (lift fresh rules)

/-- How many helpers both passes draw. -/
def helperCount (rules : List Rule) : Nat := liftCount rules + splitCount rules

/-! ## Validity -/

theorem length_liftBody (i : Nat) (body : List Symbol) :
    (liftBody fresh i body).length = body.length := by
  induction body generalizing i with
  | nil => rfl
  | cons symbol rest ih =>
    rw [liftBody]
    split <;> simp [ih]

theorem liftRule_valid (i : Nat) {rule : Rule} (valid : rule.Valid) :
    (liftRule fresh i rule).Valid := by
  unfold liftRule
  split
  · refine ⟨valid.1, fun h => valid.2 ?_⟩
    rw [← List.length_eq_zero_iff, ← length_liftBody fresh i, List.length_eq_zero_iff]
    exact h
  · exact valid

theorem liftRules_valid (i : Nat) {rules : List Rule} (valid : ∀ rule ∈ rules, rule.Valid) :
    ∀ rule ∈ liftRules fresh i rules, rule.Valid := by
  induction rules generalizing i with
  | nil => simp [liftRules]
  | cons rule rules ih =>
    obtain ⟨first, others⟩ := List.forall_mem_cons.mp valid
    exact List.forall_mem_cons.mpr ⟨liftRule_valid fresh i first, ih _ others⟩

variable {fresh}

theorem termRules_valid (hfresh : ∀ n, (fresh n).isNonterm = true) (i : Nat)
    (symbols : List Symbol) : ∀ rule ∈ termRules fresh i symbols, rule.Valid := by
  induction symbols generalizing i with
  | nil => simp [termRules]
  | cons symbol rest ih => exact List.forall_mem_cons.mpr ⟨⟨hfresh i, by simp⟩, ih _⟩

theorem splitBody_valid (hfresh : ∀ n, (fresh n).isNonterm = true) (i : Nat) (head : Symbol)
    (label : Option Symbol) (body : List Symbol) (hhead : head.isNonterm = true)
    (hbody : body ≠ []) : ∀ rule ∈ splitBody fresh i head label body, rule.Valid := by
  fun_induction splitBody fresh i head label body with
  | case1 i head label first second third rest ih =>
    exact List.forall_mem_cons.mpr ⟨⟨hhead, by simp⟩, ih (hfresh i) (by simp)⟩
  | case2 => simpa using ⟨hhead, hbody⟩

theorem splitRules_valid (hfresh : ∀ n, (fresh n).isNonterm = true) (i : Nat)
    {rules : List Rule} (valid : ∀ rule ∈ rules, rule.Valid) :
    ∀ rule ∈ splitRules fresh i rules, rule.Valid := by
  induction rules generalizing i with
  | nil => simp [splitRules]
  | cons rule rules ih =>
    obtain ⟨first, others⟩ := List.forall_mem_cons.mp valid
    rw [splitRules]
    exact List.forall_mem_append.mpr
      ⟨splitBody_valid hfresh i _ _ _ first.1 first.2, ih _ others⟩

/-- Rewriting keeps rules valid. -/
theorem rewrite_valid (hfresh : ∀ n, (fresh n).isNonterm = true) {rules : List Rule}
    (valid : ∀ rule ∈ rules, rule.Valid) : ∀ rule ∈ rewrite fresh rules, rule.Valid :=
  splitRules_valid hfresh _ <| List.forall_mem_append.mpr
    ⟨liftRules_valid fresh 0 valid, termRules_valid hfresh 0 _⟩

end ChartParser.NormalForm
