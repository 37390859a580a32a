import ChartParser.Proofs.Derivation
import ChartParser.Proofs.Rule
import ChartParser.Proofs.RuleIndex
import ChartParser.Proofs.Span

/-! # Derivations in relaxed Chomsky normal form

A derivation tree of a non-terminal is a tower of unit rules. Below the tower stands a terminal, or
two trees that a cut of the words tells apart.
-/

namespace ChartParser.Grammar

variable {g : Grammar} {words : List String} {span : Span}

/-! ## Towers -/

/-- A tree of `base` with any number of unit rules on top. -/
inductive Tower (g : Grammar) (base : Tree → Prop) : Tree → Prop
  | base {tree : Tree} : base tree → Tower g base tree
  | step {tree : Tree} {parent : Symbol} : Tower g base tree →
      parent ∈ g.unitParents tree.symbol → Tower g base (.node parent [tree])

/-- A derivation tree of the words with a rule at its root that is not a unit rule. -/
def Grounded (g : Grammar) (words : List String) (tree : Tree) : Prop :=
  ∃ rule ∈ g.rules, rule.unaryNonterm? = none ∧
    ∃ children, tree = .node rule.head children ∧ g.ParsesAll rule.body words children

theorem parses_of_grounded {tree : Tree} (h : g.Grounded words tree) :
    tree.symbol.isNonterm = true ∧ g.Parses tree.symbol words tree := by
  obtain ⟨rule, mem, -, children, rfl, h⟩ := h
  exact ⟨(g.rules_valid rule mem).1, parses_rule mem h⟩

theorem exists_grounded_iff {symbol : Symbol} :
    (∃ tree, g.Grounded words tree ∧ tree.symbol = symbol) ↔ ∃ rule ∈ g.rules,
      rule.unaryNonterm? = none ∧ rule.head = symbol ∧ g.DerivesAll rule.body words := by
  constructor
  · rintro ⟨-, ⟨rule, mem, direct, children, rfl, h⟩, head⟩
    exact ⟨rule, mem, direct, head, children, h⟩
  · rintro ⟨rule, mem, direct, head, children, h⟩
    exact ⟨_, ⟨rule, mem, direct, children, rfl, h⟩, head⟩

/-- Derivation trees of non-terminals are towers of unit rules on trees without one at the root. -/
theorem tower_grounded_iff {tree : Tree} :
    Tower g (g.Grounded words) tree ↔
      tree.symbol.isNonterm = true ∧ g.Parses tree.symbol words tree := by
  constructor
  · intro tower
    induction tower with
    | base grounded => exact parses_of_grounded grounded
    | @step tree parent _ up ih =>
      obtain ⟨rule, mem, rfl, body⟩ := mem_unitParents.mp up
      refine ⟨(g.rules_valid rule mem).1, parses_rule mem ?_⟩
      exact body ▸ parsesAll_singleton.mpr ⟨tree, rfl, ih.2⟩
  · rintro ⟨kind, parses⟩
    induction tree with
    | node symbol children ih =>
      obtain ⟨rule, mem, rfl, children', same, h⟩ := (parses_nonterm kind).mp parses
      cases same
      -- A unit rule at the root is a step on the tower of the only child.
      cases unit : rule.unaryNonterm? with
      | none => exact .base ⟨rule, mem, unit, children, rfl, h⟩
      | some child =>
        obtain ⟨child_kind, body⟩ := Rule.unaryNonterm?_eq_some.mp unit
        rw [body, parsesAll_singleton] at h
        obtain ⟨tree, rfl, tree_parses⟩ := h
        have root := tree_parses.root
        subst root
        refine .step (ih tree (.head _) child_kind tree_parses) ?_
        exact mem_unitParents.mpr ⟨rule, mem, rfl, body⟩

/-! ## Bodies without unit rules -/

theorem body_eq_of_derivesAll_word (relaxed : g.violation? = none) {rule : Rule}
    (mem : rule ∈ g.rules) (direct : rule.unaryNonterm? = none) {word : String}
    (h : g.DerivesAll rule.body [word]) : rule.body = [.term word] := by
  have short := length_le_of_derivesAll h
  rcases Rule.body_of_isRelaxed (violation?_eq_none_iff.mp relaxed rule mem) direct with
    ⟨other, body⟩ | ⟨left, right, body, -⟩
  · rw [body, derivesAll_singleton, derives_term] at h
    rw [body, List.singleton_inj.mp h]
  · simp [body] at short

theorem body_eq_of_derivesAll_long (relaxed : g.violation? = none) {rule : Rule}
    (mem : rule ∈ g.rules) (direct : rule.unaryNonterm? = none) (long : 1 < words.length)
    (h : g.DerivesAll rule.body words) :
    ∃ left right, rule.body = [left, right] ∧ left.isNonterm = true ∧ right.isNonterm = true := by
  rcases Rule.body_of_isRelaxed (violation?_eq_none_iff.mp relaxed rule mem) direct with
    ⟨word, body⟩ | binary
  · rw [body, derivesAll_singleton, derives_term] at h
    simp [h] at long
  · exact binary

/-- Trees of two symbols meet at a cut of the span. -/
theorem parsesAll_pair (within : span.Within words.length) {left right : Symbol}
    {trees : List Tree} :
    g.ParsesAll [left, right] (span.slice words) trees ↔ ∃ cut ∈ span.cuts, ∃ one other,
      trees = [one, other] ∧ g.Parses left (Span.slice ⟨span.start, cut⟩ words) one ∧
        g.Parses right (Span.slice ⟨cut, span.stop⟩ words) other := by
  simp only [Span.mem_cuts]
  constructor
  · intro h
    obtain ⟨first, second, one, other, rfl, both, hone, hother⟩ := parsesAll_two.mp h
    have total := Span.length_slice within
    have first_pos := List.length_pos_iff.mpr (ne_nil_of_derives ⟨one, hone⟩)
    have second_pos := List.length_pos_iff.mpr (ne_nil_of_derives ⟨other, hother⟩)
    obtain ⟨first_eq, second_eq⟩ := Span.slice_eq_append within both
    rw [both, List.length_append] at total
    refine ⟨span.start + first.length, ⟨by omega, by omega⟩, one, other, rfl, ?_, ?_⟩
    · exact first_eq.symm ▸ hone
    · exact second_eq.symm ▸ hother
  · rintro ⟨cut, ⟨first, second⟩, one, other, rfl, hone, hother⟩
    have whole := Span.slice_append words (Nat.le_of_lt first) (Nat.le_of_lt second)
    rw [← show Span.slice ⟨span.start, span.stop⟩ words = span.slice words from rfl, ← whole]
    exact parsesAll_two.mpr ⟨_, _, one, other, rfl, rfl, hone, hother⟩

theorem derivesAll_pair (within : span.Within words.length) {left right : Symbol} :
    g.DerivesAll [left, right] (span.slice words) ↔ ∃ cut ∈ span.cuts,
      g.Derives left (Span.slice ⟨span.start, cut⟩ words) ∧
        g.Derives right (Span.slice ⟨cut, span.stop⟩ words) := by
  simp only [DerivesAll, parsesAll_pair within]
  constructor
  · rintro ⟨-, cut, mem, one, other, -, hone, hother⟩
    exact ⟨cut, mem, ⟨one, hone⟩, ⟨other, hother⟩⟩
  · rintro ⟨cut, mem, ⟨one, hone⟩, ⟨other, hother⟩⟩
    exact ⟨_, cut, mem, one, other, rfl, hone, hother⟩

end ChartParser.Grammar
