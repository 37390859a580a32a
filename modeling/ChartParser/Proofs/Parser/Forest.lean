import ChartParser.Grammar.Samples
import ChartParser.Parser.Chart
import ChartParser.Proofs.Chart
import ChartParser.Proofs.Derivation
import ChartParser.Proofs.Parser.Close

/-! # The chart holds the parse forest

The cell of a span holds the derivation trees of the words of the span. The trees whose root is not
a unit rule come from shorter spans, and unit rules on top of them make all others.
-/

namespace ChartParser

open Grammar

variable {g : Grammar} {words : List String} {span : Span}

namespace Parser

/-! ## Trees before unit rules -/

/-- The trees of a word, before unit rules. -/
def wordTrees (g : Grammar) (word : String) : List Tree :=
  (g.rulesProducing [.term word]).map fun rule => .node rule.head [.leaf (.term word)]

/-- The trees of a split. -/
def Split.made (split : Split) : List Tree :=
  split.lefts.flatMap fun left => split.rights.map fun right => .node split.head [left, right]

/-- The trees of any span, before unit rules. -/
def directTrees (g : Grammar) (words : List String) (chart : Chart Cell) (span : Span) :
    List Tree :=
  if span.isWord then (words[span.start]?.map (wordTrees g)).getD []
  else (splits g chart span).flatMap Split.made

theorem closeCell_empty (parser : Parser) (span : Span) :
    parser.closeCell span .empty = .ok .empty := by
  have nothing : Cell.empty.toList = [] := by
    rw [List.eq_nil_iff_forall_not_mem]
    intro tree mem
    rw [Cell.mem_toList, Cell.contains_empty] at mem
    nomatch mem
  rw [closeCell, nothing, List.reverse_nil, close]

theorem cellFor_eq (parser : Parser) (words : List String) (chart : Chart Cell) (span : Span) :
    parser.cellFor words chart span =
      (directTrees parser.grammar words chart span).foldlM
        (Cell.addWithin parser.limit span) .empty >>= parser.closeCell span := by
  unfold cellFor directTrees
  split
  · cases words[span.start]? with
    | none => exact (closeCell_empty parser span).symm
    | some word =>
      simp only [wordCell, Option.map_some, Option.getD_some, wordTrees, List.foldlM_map]
      rfl
  · simp only [spanCell, foldlM_flatMap, Split.made, List.foldlM_map]
    rfl

theorem contains_cellFor {parser : Parser} {chart : Chart Cell} {cell : Cell}
    (h : parser.cellFor words chart span = .ok cell) (tree : Tree) :
    cell.contains tree = true ↔
      Tower parser.grammar (· ∈ directTrees parser.grammar words chart span) tree := by
  rw [cellFor_eq] at h
  obtain ⟨direct, hdirect, h⟩ := bind_eq_ok.mp h
  rw [contains_closeCell h, Cell.eq_foldl_add_of_foldlM hdirect]
  simp only [Cell.contains_foldl_add, Cell.contains_empty, Bool.false_eq_true, or_false]

/-! ## Cells of words and of longer spans -/

/-- The cell holds the derivation trees of the words of the span. -/
def RightCell (g : Grammar) (words : List String) (span : Span) (cell : Cell) : Prop :=
  ∀ tree, cell.contains tree = true ↔
    tree.symbol.isNonterm = true ∧ g.Parses tree.symbol (span.slice words) tree

theorem mem_wordTrees (relaxed : g.violation? = none) {word : String} {tree : Tree} :
    tree ∈ wordTrees g word ↔ g.Grounded [word] tree := by
  simp only [wordTrees, List.mem_map, mem_rulesProducing]
  constructor
  · rintro ⟨rule, ⟨mem, body⟩, rfl⟩
    refine ⟨rule, mem, by simp [Rule.unaryNonterm?, body, Symbol.isNonterm], _, rfl, ?_⟩
    exact body ▸ parsesAll_singleton.mpr ⟨_, rfl, parses_term.mpr ⟨rfl, rfl⟩⟩
  · rintro ⟨rule, mem, direct, children, rfl, h⟩
    have body := body_eq_of_derivesAll_word relaxed mem direct ⟨children, h⟩
    rw [body, parsesAll_singleton] at h
    obtain ⟨tree, rfl, parses⟩ := h
    rw [(parses_term.mp parses).2]
    exact ⟨rule, ⟨mem, body⟩, rfl⟩

theorem mem_made_splitsOf {left right : Cell} {tree : Tree} :
    tree ∈ (splitsOf g left right).flatMap Split.made ↔ ∃ first second, left.contains first = true ∧
      right.contains second = true ∧ ∃ rule ∈ g.rules, rule.body = [first.symbol, second.symbol] ∧
        tree = .node rule.head [first, second] := by
  simp only [splitsOf, Split.made, List.mem_flatMap, List.mem_map, Prod.exists,
    Std.TreeMap.mem_toList_iff_getElem?_eq_some, mem_rulesProducing]
  constructor
  · rintro ⟨-, ⟨leftRoot, lefts, lefts_eq, rightRoot, rights, rights_eq, rule, ⟨mem, body⟩, rfl⟩,
      first, hfirst, second, hsecond, rfl⟩
    rw [Std.TreeSet.mem_toList] at hfirst hsecond
    obtain ⟨hfirst, rfl⟩ := Cell.exists_stored_iff.mp ⟨lefts, lefts_eq, hfirst⟩
    obtain ⟨hsecond, rfl⟩ := Cell.exists_stored_iff.mp ⟨rights, rights_eq, hsecond⟩
    exact ⟨first, second, hfirst, hsecond, rule, mem, body, rfl⟩
  · rintro ⟨first, second, hfirst, hsecond, rule, mem, body, rfl⟩
    obtain ⟨lefts, lefts_eq, hfirst⟩ := Cell.exists_stored_iff.mpr ⟨hfirst, rfl⟩
    obtain ⟨rights, rights_eq, hsecond⟩ := Cell.exists_stored_iff.mpr ⟨hsecond, rfl⟩
    refine ⟨_, ⟨_, lefts, lefts_eq, _, rights, rights_eq, rule, ⟨mem, body⟩, rfl⟩, first, ?_,
      second, ?_, rfl⟩
    · exact Std.TreeSet.mem_toList.mpr hfirst
    · exact Std.TreeSet.mem_toList.mpr hsecond

/-- Derivation trees of the parts at a cut make up derivation trees of the span. -/
theorem grounded_of_mem_made (within : span.Within words.length) {cut : Nat}
    (cut_mem : cut ∈ span.cuts) {left right : Cell}
    (hleft : ∀ tree, left.contains tree = true →
      g.Parses tree.symbol (Span.slice ⟨span.start, cut⟩ words) tree)
    (hright : ∀ tree, right.contains tree = true →
      g.Parses tree.symbol (Span.slice ⟨cut, span.stop⟩ words) tree) {tree : Tree}
    (made : tree ∈ (splitsOf g left right).flatMap Split.made) :
    g.Grounded (span.slice words) tree := by
  obtain ⟨one, other, hone, hother, rule, mem, body, rfl⟩ := mem_made_splitsOf.mp made
  refine ⟨rule, mem, by simp [Rule.unaryNonterm?, body], _, rfl, ?_⟩
  rw [body, parsesAll_pair within]
  exact ⟨cut, cut_mem, one, other, rfl, hleft one hone, hright other hother⟩

/-- A rule with two non-terminals is used at some cut of the span. -/
theorem mem_made_splits (relaxed : g.violation? = none) {chart : Chart Cell}
    (size : chart.size = words.length) (within : span.Within words.length)
    (long : span.isWord = false) (ready : chart.Ready (RightCell g words) span) {tree : Tree} :
    tree ∈ (splits g chart span).flatMap Split.made ↔ g.Grounded (span.slice words) tree := by
  rw [splits, List.flatMap_assoc, List.mem_flatMap]
  constructor
  · rintro ⟨cut, cut_mem, made⟩
    obtain ⟨left, right, left_eq, right_eq, hleft, hright⟩ :=
      Chart.exists_parts size within ready cut_mem
    rw [left_eq, right_eq] at made
    exact grounded_of_mem_made within cut_mem (fun one hone => ((hleft one).mp hone).2)
      (fun other hother => ((hright other).mp hother).2) made
  · rintro ⟨rule, mem, direct, children, rfl, h⟩
    have two := Span.one_lt_length_slice within long
    obtain ⟨left, right, body, left_kind, right_kind⟩ :=
      body_eq_of_derivesAll_long relaxed mem direct two ⟨children, h⟩
    rw [body, parsesAll_pair within] at h
    obtain ⟨cut, cut_mem, one, other, rfl, hone, hother⟩ := h
    obtain ⟨left_cell, right_cell, left_eq, right_eq, hleft, hright⟩ :=
      Chart.exists_parts size within ready cut_mem
    refine ⟨cut, cut_mem, ?_⟩
    rw [left_eq, right_eq]
    have one_root := hone.root
    have other_root := hother.root
    subst one_root other_root
    exact mem_made_splitsOf.mpr ⟨one, other, (hleft one).mpr ⟨left_kind, hone⟩,
      (hright other).mpr ⟨right_kind, hother⟩, rule, mem, body, rfl⟩

theorem mem_directTrees (relaxed : g.violation? = none) {chart : Chart Cell}
    (size : chart.size = words.length) (within : span.Within words.length)
    (ready : chart.Ready (RightCell g words) span) {tree : Tree} :
    tree ∈ directTrees g words chart span ↔ g.Grounded (span.slice words) tree := by
  unfold directTrees
  split
  · next word =>
    have inside : span.start < words.length := Nat.lt_of_lt_of_le within.1 within.2
    have here := List.getElem?_eq_getElem inside
    rw [here, Option.map_some, Option.getD_some, Span.slice_word word here, mem_wordTrees relaxed]
  · next long =>
    exact mem_made_splits relaxed size within (by simpa using long) ready

/-- Over right cells of all shorter spans, the cell of a span is right. -/
theorem rightCell_cellFor {parser : Parser} {chart : Chart Cell} {cell : Cell}
    (size : chart.size = words.length) (within : span.Within words.length)
    (ready : chart.Ready (RightCell parser.grammar words) span)
    (h : parser.cellFor words chart span = .ok cell) :
    RightCell parser.grammar words span cell := by
  intro tree
  rw [contains_cellFor h, ← tower_grounded_iff]
  have same : (· ∈ directTrees parser.grammar words chart span) =
      parser.grammar.Grounded (span.slice words) :=
    funext fun _ => propext (mem_directTrees parser.relaxed size within ready)
  rw [same]

/-! ## Charts -/

theorem chart_spec (parser : Parser) (words : List String) (wrong : Span → ParseError → Prop)
    (cell_wrong : ∀ (chart : Chart Cell) (span : Span) (error : ParseError),
      chart.size = words.length → span.Within words.length →
      chart.Ready (RightCell parser.grammar words) span →
      parser.cellFor words chart span = .error error → wrong span error) :
    Chart.FillPost words.length (RightCell parser.grammar words) wrong (parser.chart words) :=
  Chart.fillUntil_spec (fun _ _ _ size within ready h => rightCell_cellFor size within ready h)
    cell_wrong

theorem mem_treesIn {chart : Chart Cell} (size : chart.size = words.length)
    (holds : chart.Holds (RightCell g words) (Span.all words.length)) {tree : Tree} :
    tree ∈ treesIn g chart ↔ g.Parses g.start words tree := by
  unfold treesIn
  rw [size]
  by_cases empty : words = []
  · subst empty
    have unset : chart.get? ⟨0, 0⟩ = none := chart.get?_of_size_eq_zero size _
    simp only [List.length_nil, unset, List.not_mem_nil, false_iff]
    exact fun parses => ne_nil_of_derives ⟨tree, parses⟩ rfl
  · have pos := List.length_pos_iff.mpr empty
    have whole : Span.Within words.length ⟨0, words.length⟩ := ⟨pos, Nat.le_refl _⟩
    obtain ⟨cell, cell_eq, right⟩ := Chart.exists_of_holds holds whole
    rw [cell_eq]
    dsimp only
    rw [Std.TreeSet.mem_toList, Cell.mem_treesOf, right tree, Span.slice_all]
    constructor
    · rintro ⟨⟨-, parses⟩, root⟩
      exact root ▸ parses
    · intro parses
      have root := parses.root
      exact ⟨⟨root ▸ g.start_isNonterm, root ▸ parses⟩, root⟩

theorem pairwise_treesIn (g : Grammar) (chart : Chart Cell) :
    (treesIn g chart).Pairwise fun a b => compare a b = .lt := by
  unfold treesIn
  split
  · exact Std.TreeSet.ordered_toList
  · exact .nil

/-- Trees that are returned are all the derivation trees, each once and in ascending order. -/
theorem trees_of_parse {parser : Parser} {trees : List Tree}
    (h : parser.parse words = .ok trees) :
    trees.Pairwise (fun a b => compare a b = .lt) ∧
      ∀ tree, tree ∈ trees ↔ parser.grammar.Parses parser.grammar.start words tree := by
  have spec := chart_spec parser words (fun _ _ => True) fun _ _ _ _ _ _ _ => trivial
  unfold parse at h
  cases result : parser.chart words with
  | mk chart error =>
    cases error with
    | some error => simp [result] at h
    | none =>
      rw [result] at spec h
      obtain ⟨size, holds⟩ := spec
      rw [← Except.ok.inj h]
      exact ⟨pairwise_treesIn _ _, fun _ => mem_treesIn size holds⟩

/-! ## Without a limit -/

theorem exists_close_eq_ok {parser : Parser} (unlimited : parser.limit = none) (span : Span)
    (cell : Cell) (pending : List Tree) : ∃ final, parser.close span cell pending = .ok final := by
  fun_induction parser.close span cell pending with
  | case1 cell => exact ⟨cell, rfl⟩
  | case2 cell tree pending error h =>
    obtain ⟨work, climb_eq⟩ : ∃ work, parser.climb span tree ⟨cell, pending⟩ = .ok work := by
      unfold climb
      refine exists_foldlM_eq_ok (fun work parent => ?_) _ _
      unfold push
      rw [unlimited]
      exact ⟨_, rfl⟩
    simp [climb_eq] at h
  | case3 cell tree pending work h ih => exact ih

theorem exists_cellFor_eq_ok {parser : Parser} (unlimited : parser.limit = none)
    (words : List String) (chart : Chart Cell) (span : Span) :
    ∃ cell, parser.cellFor words chart span = .ok cell := by
  have inserted (cell : Cell) (tree : Tree) :
      ∃ next, Cell.addWithin none span cell tree = .ok next :=
    ⟨_, Cell.addWithin_none span cell tree⟩
  obtain ⟨direct, direct_eq⟩ :=
    exists_foldlM_eq_ok inserted (directTrees parser.grammar words chart span) .empty
  rw [cellFor_eq, unlimited, direct_eq]
  exact exists_close_eq_ok unlimited span direct _

theorem chart_unlimited_spec {parser : Parser} (unlimited : parser.limit = none)
    (words : List String) : ∃ chart, parser.chart words = (chart, none) ∧
      chart.size = words.length ∧
      chart.Holds (RightCell parser.grammar words) (Span.all words.length) := by
  have spec := chart_spec parser words (fun _ _ => False) fun chart span error _ _ _ h => by
    obtain ⟨cell, cell_eq⟩ := exists_cellFor_eq_ok unlimited words chart span
    rw [cell_eq] at h
    nomatch h
  generalize parser.chart words = filled at spec
  obtain ⟨chart, error | error⟩ := filled
  · exact ⟨chart, rfl, spec⟩
  · obtain ⟨-, -, -, -, -, -, -, impossible⟩ := spec
    exact impossible.elim

theorem exists_parse_eq_ok {parser : Parser} (unlimited : parser.limit = none)
    (words : List String) : ∃ trees, parser.parse words = .ok trees := by
  obtain ⟨chart, filled, -⟩ := chart_unlimited_spec unlimited words
  unfold parse
  rw [filled]
  exact ⟨_, rfl⟩

/-- The trees of a sentence are its parse forest: all of the derivation trees, each of them once. -/
theorem parse_eq_forest {parser : Parser} (made : make g none = .ok parser) (words : List String) :
    ∃ trees, parser.parse words = .ok trees ∧ trees.Pairwise (fun a b => compare a b = .lt) ∧
      (∀ tree, tree ∈ trees ↔ g.Parses g.start words tree) ∧ (words = [] → trees = []) := by
  obtain ⟨rfl, unlimited⟩ := of_make_eq_ok made
  obtain ⟨trees, trees_eq⟩ := exists_parse_eq_ok unlimited words
  obtain ⟨ascending, mem_trees⟩ := trees_of_parse trees_eq
  refine ⟨trees, trees_eq, ascending, mem_trees, ?_⟩
  rintro rfl
  rw [List.eq_nil_iff_forall_not_mem]
  intro tree mem
  exact ne_nil_of_derives ⟨tree, (mem_trees tree).mp mem⟩ rfl

/-- A chain of unit rules stands below each use of the rule with two non-terminals. -/
theorem parse_unitChain : ∃ g parser, Sample.unitChain = .ok g ∧ make g none = .ok parser ∧
    ∃ trees, parser.parse ["b", "b", "b"] = .ok trees ∧
      trees.Pairwise (fun a b => compare a b = .lt) ∧
      (∀ tree, tree ∈ trees ↔ g.Parses g.start ["b", "b", "b"] tree) ∧
      (["b", "b", "b"] = [] → trees = []) := by
  obtain ⟨g, g_eq, relaxed, lower⟩ : ∃ g, Sample.unitChain = .ok g ∧ g.violation? = none ∧
      ∀ rule ∈ g.rules, ∀ child ∈ rule.unaryNonterm?,
        ["B", "A", "S"].idxOf child.name < ["B", "A", "S"].idxOf rule.head.name :=
    ⟨_, rfl, rfl, by decide⟩
  have acyclic := unitAcyclic_of_rank (fun symbol => ["B", "A", "S"].idxOf symbol.name) lower
  have made := make_eq_ok none relaxed ((unitCycle?_eq_none_iff g).mpr acyclic)
  exact ⟨g, _, g_eq, made, parse_eq_forest made _⟩

end Parser

end ChartParser
