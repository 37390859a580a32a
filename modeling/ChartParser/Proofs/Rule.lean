import ChartParser.Grammar.Basic

/-! # Shapes of rules -/

namespace ChartParser

namespace Rule

variable {rule : Rule}

theorem make_eq_ok {head : Symbol} {body : List Symbol} {label : Option Symbol} :
    make head body label = .ok rule ↔ rule.Valid ∧ rule = ⟨head, body, label⟩ := by
  constructor
  · intro h
    refine ⟨valid_of_make h, ?_⟩
    unfold make at h
    split at h
    · nomatch h
    · split at h
      · nomatch h
      · cases h
        rfl
  · rintro ⟨⟨kind, nonempty⟩, rfl⟩
    cases head with
    | term name => nomatch kind
    | nonterm name => simpa [make, Symbol.isTerm] using nonempty

theorem unaryNonterm?_eq_some {child : Symbol} :
    rule.unaryNonterm? = some child ↔ child.isNonterm = true ∧ rule.body = [child] := by
  unfold unaryNonterm?
  split
  · next symbol h =>
    rw [h]
    by_cases kind : symbol.isNonterm = true
    · simp only [kind, if_true, Option.some.injEq, List.cons.injEq, and_true]
      constructor
      · rintro rfl
        exact ⟨kind, rfl⟩
      · exact And.right
    · simp only [kind, List.cons.injEq, and_true, Bool.false_eq_true, if_false, reduceCtorEq,
        false_iff]
      rintro ⟨h, rfl⟩
      exact kind h
  · next h =>
    simp only [false_iff, reduceCtorEq]
    rintro ⟨-, body⟩
    exact h child body

theorem isBinary_iff : rule.isBinary = true ↔
    ∃ left right, rule.body = [left, right] ∧ left.isNonterm = true ∧ right.isNonterm = true := by
  unfold isBinary
  split
  · next left right h =>
    rw [h, Bool.and_eq_true]
    constructor
    · exact fun kinds => ⟨left, right, rfl, kinds⟩
    · rintro ⟨left', right', same, kinds⟩
      cases same
      exact kinds
  · next h =>
    simp only [Bool.false_eq_true, false_iff]
    rintro ⟨left, right, body, -⟩
    exact h left right body

theorem isRelaxed_iff : rule.isRelaxed = true ↔ (∃ symbol, rule.body = [symbol]) ∨
    ∃ left right, rule.body = [left, right] ∧ left.isNonterm = true ∧ right.isNonterm = true := by
  rw [isRelaxed, isUnary, Bool.or_eq_true, isBinary_iff, beq_iff_eq, List.length_eq_one_iff]

/-- The bodies of relaxed Chomsky normal form, except those of unit rules. -/
theorem body_of_isRelaxed (h : rule.isRelaxed = true) (direct : rule.unaryNonterm? = none) :
    (∃ word, rule.body = [.term word]) ∨
      ∃ left right, rule.body = [left, right] ∧ left.isNonterm = true ∧ right.isNonterm = true := by
  rcases isRelaxed_iff.mp h with ⟨symbol, body⟩ | binary
  · cases symbol with
    | term word => exact .inl ⟨word, body⟩
    | nonterm name =>
      have unit : rule.unaryNonterm? = some (.nonterm name) := unaryNonterm?_eq_some.mpr ⟨rfl, body⟩
      rw [unit] at direct
      nomatch direct
  · exact .inr binary

/-! ## Rules without labels -/

/-- The rule without its label. -/
def shape (rule : Rule) : Symbol × List Symbol := (rule.head, rule.body)

/-- The rule over other symbols, without its label. -/
def renamedShape (rename : Symbol → Symbol) (rule : Rule) : Symbol × List Symbol :=
  (rename rule.head, rule.body.map rename)

end Rule

theorem Symbol.isNonterm_eq_isNone (symbol : Symbol) :
    symbol.isNonterm = symbol.termName?.isNone := by
  cases symbol <;> rfl

theorem Symbol.termName?_eq_some {symbol : Symbol} {word : String} :
    symbol.termName? = some word ↔ symbol = .term word := by
  cases symbol <;> simp [termName?]

namespace Grammar

variable {g : Grammar}

theorem violation?_eq_none_iff :
    g.violation? = none ↔ ∀ rule ∈ g.rules, rule.isRelaxed = true := by
  simp [violation?]

theorem mem_terminals {symbol : Symbol} :
    symbol ∈ g.terminals ↔ symbol ∈ g.bodySymbols ∧ symbol.isTerm = true := by
  rw [terminals, Std.TreeSet.mem_ofList, List.contains_iff_mem, List.mem_filter]

theorem mem_nonterminals {symbol : Symbol} : symbol ∈ g.nonterminals ↔
    symbol ∈ g.heads ∨ symbol ∈ g.bodySymbols ∧ symbol.isNonterm = true := by
  rw [nonterminals, Std.TreeSet.mem_ofList, List.contains_iff_mem, List.mem_append,
    List.mem_filter]

end Grammar

end ChartParser
