import ChartParser.Proofs.NormalForm.Normalize
import ChartParser.Proofs.Parser.Sentence

/-! # Symbols without trees are the roots of the trees

The chart of symbols and the chart of trees agree span by span: a symbol is in the one where the
other has a tree of it. So a sentence is accepted where it has a tree, whatever the limit on trees.
-/

namespace ChartParser.Parser

open Grammar

variable {g : Grammar} {limit : Option Nat} {parser : Parser} {words : List String} {span : Span}

theorem treesOf_nonempty_iff {cell : Cell} (right : RightCell g words span cell) {symbol : Symbol} :
    (cell.treesOf symbol).isEmpty = false ↔
      symbol.isNonterm = true ∧ g.Derives symbol (span.slice words) := by
  simp only [Std.TreeSet.isEmpty_eq_false_iff_exists_mem, Cell.mem_treesOf, right _]
  constructor
  · rintro ⟨tree, ⟨kind, parses⟩, rfl⟩
    exact ⟨kind, tree, parses⟩
  · rintro ⟨kind, tree, parses⟩
    have root := parses.root
    subst root
    exact ⟨tree, ⟨kind, parses⟩, rfl⟩

theorem accepts_iff_parse {unlimited : Parser} (same : unlimited.grammar = parser.grammar)
    (none : unlimited.limit = none) (words : List String) :
    parser.accepts words = true ↔ ∃ trees, unlimited.parse words = .ok trees ∧ trees ≠ [] := by
  obtain ⟨trees, trees_eq⟩ := exists_parse_eq_ok none words
  have mem_trees := (trees_of_parse trees_eq).2
  rw [accepts_iff, ← same, trees_eq]
  simp only [Except.ok.injEq, exists_eq_left', ne_eq, List.eq_nil_iff_forall_not_mem, mem_trees]
  simp [Derives]

/-- The symbols of each span are the roots of the trees in its cell. Membership never fails, and it
holds of the sentences that have a tree. -/
theorem symbolChart_eq_roots (made : make g limit = .ok parser) (words : List String) :
    ∃ unlimited, make g none = .ok unlimited ∧
      (∀ span : Span, span.Within words.length → ∃ symbols cell,
        (symbolChart g words).get? span = some symbols ∧
        (unlimited.chart words).1.get? span = some cell ∧
        ∀ symbol, symbols.contains symbol = true ↔ (cell.treesOf symbol).isEmpty = false) ∧
      (g.acceptsWithin limit words).result = .ok (parser.accepts words) ∧
      (parser.accepts words = true ↔
        ∃ trees, unlimited.parse words = .ok trees ∧ trees ≠ []) := by
  obtain ⟨rfl, rfl⟩ := of_make_eq_ok made
  obtain ⟨unlimited, made_none⟩ : ∃ unlimited, make parser.grammar none = .ok unlimited :=
    ⟨_, make_eq_ok none parser.relaxed parser.acyclic⟩
  obtain ⟨same, none⟩ := of_make_eq_ok made_none
  refine ⟨unlimited, made_none, fun span within => ?_, ?_, accepts_iff_parse same none words⟩
  · obtain ⟨-, symbols_hold⟩ := symbolChart_spec parser.relaxed words
    obtain ⟨symbols, symbols_eq, right_symbols⟩ := Chart.exists_of_holds symbols_hold within
    obtain ⟨chart, filled, -, cells_hold⟩ := chart_unlimited_spec none words
    obtain ⟨cell, cell_eq, right_cell⟩ := Chart.exists_of_holds cells_hold within
    rw [same] at right_cell
    rw [filled]
    refine ⟨symbols, cell, symbols_eq, cell_eq, fun symbol => ?_⟩
    rw [right_symbols, treesOf_nonempty_iff right_cell]
  · rw [acceptsWithin, ask, made]

/-- One tree is allowed, and the sentence has two. -/
theorem symbolChart_eq_roots_parens : ∃ g parser, Sample.parens = .ok g ∧
    make g.normalize (some 1) = .ok parser ∧ ∃ unlimited, make g.normalize none = .ok unlimited ∧
      (∀ span : Span, span.Within ["x", "x", "x"].length → ∃ symbols cell,
        (symbolChart g.normalize ["x", "x", "x"]).get? span = some symbols ∧
        (unlimited.chart ["x", "x", "x"]).1.get? span = some cell ∧
        ∀ symbol, symbols.contains symbol = true ↔ (cell.treesOf symbol).isEmpty = false) ∧
      (g.normalize.acceptsWithin (some 1) ["x", "x", "x"]).result =
        .ok (parser.accepts ["x", "x", "x"]) ∧
      (parser.accepts ["x", "x", "x"] = true ↔
        ∃ trees, unlimited.parse ["x", "x", "x"] = .ok trees ∧ trees ≠ []) := by
  obtain ⟨g, parser, built, made⟩ := exists_parser_parens (some 1)
  exact ⟨g, parser, built, made, symbolChart_eq_roots made _⟩

end ChartParser.Parser
