import ChartParser.Proofs.Parser.Limit
import ChartParser.Proofs.Parser.Pending
import ChartParser.Proofs.UnitCycle
import Mathlib.Data.Set.Finite.Lemmas

/-! # Finite forests

Without a cycle of unit rules a derivation tree has few nodes, and a span has few trees. On a cycle
every derivation tree has a larger one for the same words.
-/

namespace ChartParser

open Relation

mutual

/-- How many nodes of the tree are labelled by non-terminals. -/
def Tree.nontermCount : Tree → Nat
  | node symbol children => (if symbol.isNonterm then 1 else 0) + nontermCounts children

/-- How many nodes of the trees are labelled by non-terminals. -/
def Tree.nontermCounts : List Tree → Nat
  | [] => 0
  | tree :: more => tree.nontermCount + nontermCounts more

end

namespace Grammar

variable {g : Grammar} {words : List String}

/-! ## The number of nodes -/

open Classical in
/-- How many non-terminals a chain of unit rules leads up to. -/
noncomputable def headroom (g : Grammar) (symbol : Symbol) : Nat :=
  g.nonterminals.toList.countP (decide <| g.Climbs symbol ·)

theorem head_mem_nonterminals {rule : Rule} (mem : rule ∈ g.rules) :
    rule.head ∈ g.nonterminals.toList := by
  rw [Std.TreeSet.mem_toList, mem_nonterminals]
  exact .inl (List.mem_map_of_mem mem)

theorem headroom_lt (acyclic : g.UnitAcyclic) {symbol parent : Symbol}
    (h : parent ∈ g.unitParents symbol) : g.headroom parent < g.headroom symbol := by
  obtain ⟨rule, mem, rfl, -⟩ := mem_unitParents.mp h
  exact countP_climbs_lt acyclic h (head_mem_nonterminals mem)

/-- The head of a rule is not above itself. -/
theorem headroom_head_lt (acyclic : g.UnitAcyclic) {rule : Rule} (mem : rule ∈ g.rules) :
    g.headroom rule.head < g.nonterminals.size := by
  rw [headroom, ← Std.TreeSet.length_toList, List.countP_lt_length_iff]
  refine ⟨rule.head, head_mem_nonterminals mem, ?_⟩
  have kind := (g.rules_valid rule mem).1
  simpa using fun cycle => acyclic _ (transGen_unitEdge_of_climbs kind cycle).2

theorem nontermCount_add_headroom_le (relaxed : g.violation? = none) (acyclic : g.UnitAcyclic)
    {symbol : Symbol} (kind : symbol.isNonterm = true) {tree : Tree}
    (parses : g.Parses symbol words tree) :
    tree.nontermCount + g.headroom symbol ≤ (2 * words.length - 1) * g.nonterminals.size := by
  induction tree generalizing symbol words with
  | node root children ih =>
    obtain ⟨rule, mem, rfl, children', same, h⟩ := (parses_nonterm kind).mp parses
    cases same
    have free := headroom_head_lt acyclic mem
    rw [Tree.nontermCount, if_pos kind]
    cases unit : rule.unaryNonterm? with
    | some child =>
      -- The node that a unit rule adds takes up headroom.
      obtain ⟨child_kind, body⟩ := Rule.unaryNonterm?_eq_some.mp unit
      rw [body, parsesAll_singleton] at h
      obtain ⟨tree, rfl, tree_parses⟩ := h
      have below := ih tree (.head _) child_kind tree_parses
      have lower := headroom_lt acyclic (mem_unitParents.mpr ⟨rule, mem, rfl, body⟩)
      simp only [Tree.nontermCounts]
      omega
    | none =>
      rcases Rule.body_of_isRelaxed (violation?_eq_none_iff.mp relaxed rule mem) unit with
        ⟨word, body⟩ | ⟨left, right, body, left_kind, right_kind⟩
      · rw [body, parsesAll_singleton] at h
        obtain ⟨tree, rfl, tree_parses⟩ := h
        obtain ⟨rfl, rfl⟩ := parses_term.mp tree_parses
        have none_below : Tree.nontermCounts [.leaf (.term word)] = 0 := rfl
        rw [none_below, List.length_singleton]
        omega
      · rw [body] at h
        obtain ⟨first, second, one, more, rfl, rfl, hone, h⟩ := parsesAll_cons.mp h
        obtain ⟨other, rfl, hother⟩ := parsesAll_singleton.mp h
        have below := ih one (.head _) left_kind hone
        have below' := ih other (.tail _ (.head _)) right_kind hother
        have some_first := List.length_pos_iff.mpr (ne_nil_of_derives ⟨one, hone⟩)
        have some_second := List.length_pos_iff.mpr (ne_nil_of_derives ⟨other, hother⟩)
        have parts : 2 * (first ++ second).length - 1 =
            (2 * first.length - 1) + (2 * second.length - 1) + 1 := by
          rw [List.length_append]
          omega
        rw [parts, Nat.add_mul, Nat.add_mul]
        simp only [Tree.nontermCounts]
        omega

/-! ## Forests -/

theorem finite_forest (relaxed : g.violation? = none) (acyclic : g.unitCycle? = none)
    (words : List String) (span : Span) : (g.forest words span).Finite := by
  -- The words of the span are a sentence of their own, and one cell holds its trees.
  obtain ⟨chart, -, size, holds⟩ :=
    @Parser.chart_unlimited_spec ⟨g, none, relaxed, acyclic⟩ rfl (span.slice words)
  by_cases empty : span.slice words = []
  · refine Set.Finite.subset Set.finite_empty fun tree mem => ?_
    exact ne_nil_of_derives ⟨tree, mem.2⟩ empty
  · have pos := List.length_pos_iff.mpr empty
    have whole : Span.Within (span.slice words).length ⟨0, (span.slice words).length⟩ :=
      ⟨pos, Nat.le_refl _⟩
    obtain ⟨cell, -, right⟩ := Chart.exists_of_holds holds whole
    refine Set.Finite.subset cell.toList.finite_toSet fun tree mem => ?_
    rw [Set.mem_ofPred_eq, Cell.mem_toList, right tree, Span.slice_all]
    exact mem

/-! ## Cycles -/

/-- Trees grow where unit rules are put on top of them. -/
theorem exists_larger {parent child : Symbol} (path : TransGen g.UnitEdge parent child)
    {tree : Tree} (parses : g.Parses child words tree) :
    ∃ larger, g.Parses parent words larger ∧ tree.size < larger.size := by
  have up {parent child : Symbol} (edge : g.UnitEdge parent child) {tree : Tree}
      (parses : g.Parses child words tree) : g.Parses parent words (.node parent [tree]) := by
    obtain ⟨-, rule, mem, rfl, body⟩ := edge
    exact parses_rule mem (body ▸ parsesAll_singleton.mpr ⟨tree, rfl, parses⟩)
  induction path generalizing tree with
  | single edge => exact ⟨_, up edge parses, by simp [Tree.size, Tree.sizes]⟩
  | tail _ edge ih =>
    obtain ⟨larger, larger_parses, more⟩ := ih (up edge parses)
    refine ⟨larger, larger_parses, ?_⟩
    simp only [Tree.size, Tree.sizes] at more
    omega

theorem infinite_parses {symbol : Symbol} (around : TransGen g.UnitEdge symbol symbol)
    (derives : g.Derives symbol words) : {tree | g.Parses symbol words tree}.Infinite := by
  intro finite
  obtain ⟨largest, parses, most⟩ := Set.exists_max_image _ Tree.size finite derives
  obtain ⟨larger, larger_parses, more⟩ := exists_larger around parses
  exact absurd more (not_lt.mpr (most larger larger_parses))

/-! ## The check -/

/-- The check for a cycle of unit rules is exactly what makes forests finite. Where it finds none,
no tree is pending twice while a cell is closed, and derivation trees are small. -/
theorem forests_of_unitCycle? (relaxed : g.violation? = none) :
    (g.unitCycle? = none →
      (∀ limit, ∃ parser, Parser.make g limit = .ok parser ∧
        ∀ span cell, (Parser.Stage.start cell).Finds g limit span (parser.closeCell span cell)) ∧
      (∀ limit span, Terminates (Parser.CloseStep g limit span)) ∧
      (∀ limit span cell stage,
        ReflTransGen (Parser.CloseStep g limit span) (.start cell) stage → stage.pushed.Nodup) ∧
      (∀ symbol words tree, symbol.isNonterm = true → g.Parses symbol words tree →
        tree.nontermCount ≤ (2 * words.length - 1) * g.nonterminals.size) ∧
      ∀ words span, (g.forest words span).Finite) ∧
    ∀ cycle, g.unitCycle? = some cycle → ∀ symbol ∈ cycle, ∀ words, g.Derives symbol words →
      {tree | g.Parses symbol words tree}.Infinite := by
  constructor
  · intro none_found
    have acyclic := (unitCycle?_eq_none_iff g).mp none_found
    refine ⟨fun limit => ?_, Parser.terminates_closeStep acyclic, fun _ _ _ _ run => ?_, ?_,
      finite_forest relaxed none_found⟩
    · have made := Parser.make_eq_ok limit relaxed none_found
      exact ⟨_, made, Parser.closeCell_finds ⟨g, limit, relaxed, none_found⟩⟩
    · exact (Parser.logged_of_reaches run).distinct
    · intro symbol words tree kind parses
      have := nontermCount_add_headroom_le relaxed acyclic kind parses
      omega
  · intro cycle found symbol mem words derives
    exact infinite_parses (transGen_of_mem_cycle (isUnitCycle_of_unitCycle? found) mem) derives

/-- The words of a chain of unit rules have finitely many trees, those of a ring do not. -/
theorem forests_unitChain_unitCycle :
    (∃ g, Sample.unitChain = .ok g ∧ g.violation? = none ∧ g.unitCycle? = none ∧
      ∀ words span, (g.forest words span).Finite) ∧
    ∃ g, Sample.unitCycle = .ok g ∧ g.violation? = none ∧
      g.unitCycle? = some (["A", "B", "C", "A"].map .nonterm) ∧
      {tree | g.Parses (.nonterm "C") ["x"] tree}.Infinite := by
  constructor
  · obtain ⟨g, built, relaxed, none_found⟩ : ∃ g, Sample.unitChain = .ok g ∧
        g.violation? = none ∧ g.unitCycle? = none := ⟨_, rfl, rfl, by cbv⟩
    exact ⟨g, built, relaxed, none_found, ((forests_of_unitCycle? relaxed).1 none_found).2.2.2.2⟩
  · obtain ⟨g, built, relaxed, found, mem⟩ : ∃ g, Sample.unitCycle = .ok g ∧
        g.violation? = none ∧ g.unitCycle? = some (["A", "B", "C", "A"].map .nonterm) ∧
        (⟨.nonterm "C", [.nonterm "A"], none⟩ : Rule) ∈ g.rules ∧
        (⟨.nonterm "A", [.term "x"], none⟩ : Rule) ∈ g.rules :=
      ⟨_, rfl, rfl, by cbv, by decide, by decide⟩
    have low : g.Derives (.nonterm "A") ["x"] := (derives_nonterm rfl).mpr
      ⟨_, mem.2, rfl, derivesAll_singleton.mpr (derives_term.mpr rfl)⟩
    have high : g.Derives (.nonterm "C") ["x"] := (derives_nonterm rfl).mpr
      ⟨_, mem.1, rfl, derivesAll_singleton.mpr low⟩
    refine ⟨g, built, relaxed, found, ?_⟩
    exact (forests_of_unitCycle? relaxed).2 _ found _ (by decide) _ high

end Grammar

end ChartParser
