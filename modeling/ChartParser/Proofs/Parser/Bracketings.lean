import ChartParser.Proofs.Parser.Limit
import ChartParser.Proofs.Parser.Sentence
import Mathlib.Combinatorics.Enumerative.Catalan.Tree
import Mathlib.Order.Bounds.Basic

/-! # Bracketings of copies of one word

A symbol that derives one word and any two strings of its own derives copies of the word in as many
ways as there are binary trees.
-/

namespace ChartParser

variable {g : Grammar}

/-! ## Binary trees as derivation trees -/

/-- The inner nodes are uses of the rule with two symbols, and `single` is in each empty place. -/
def Tree.bracketed (symbol : Symbol) (single : Tree) : BinaryTree Unit → Tree
  | .nil => single
  | .node _ left right => .node symbol [bracketed symbol single left, bracketed symbol single right]

namespace Grammar

/-- The symbol derives the word by `single`, and otherwise only by a rule whose body is the symbol
twice, as long as no other words are there. -/
structure Brackets (g : Grammar) (symbol : Symbol) (word : String) (single : Tree) : Prop where
  parses_iff : ∀ words, (∀ other ∈ words, other = word) → ∀ tree,
    (g.Parses symbol words tree ↔ tree = single ∧ words = [word] ∨
      ∃ first second left right, tree = .node symbol [left, right] ∧ words = first ++ second ∧
        g.Parses symbol first left ∧ g.Parses symbol second right)
  single_ne : ∀ left right, single ≠ .node symbol [left, right]

variable {symbol : Symbol} {word : String} {single : Tree}

theorem bracketed_injective (brackets : g.Brackets symbol word single) :
    Function.Injective (Tree.bracketed symbol single) := by
  intro shape other same
  induction shape generalizing other with
  | nil =>
    cases other with
    | nil => rfl
    | node _ left right => exact absurd same (brackets.single_ne _ _)
  | node _ left right left_ih right_ih =>
    cases other with
    | nil => exact absurd same.symm (brackets.single_ne _ _)
    | node _ left' right' =>
      rw [Tree.bracketed, Tree.bracketed] at same
      injection same with _ children
      injection children with left_eq more
      injection more with right_eq
      rw [left_ih left_eq, right_ih right_eq]

/-- Copies are cut into copies on the left and on the right. -/
theorem exists_counts {n : Nat} {first second : List String}
    (h : List.replicate (n + 1) word = first ++ second) (left : g.Derives symbol first)
    (right : g.Derives symbol second) :
    ∃ i j, first = List.replicate (i + 1) word ∧ second = List.replicate (j + 1) word ∧
      n = i + j + 1 := by
  obtain ⟨total, first_eq, second_eq⟩ := List.replicate_eq_append_iff.mp h
  have some_left := List.length_pos_iff.mpr (ne_nil_of_derives left)
  have some_right := List.length_pos_iff.mpr (ne_nil_of_derives right)
  refine ⟨first.length - 1, second.length - 1, ?_, ?_, by omega⟩
  · rwa [Nat.sub_add_cancel some_left]
  · rwa [Nat.sub_add_cancel some_right]

theorem parses_replicate (brackets : g.Brackets symbol word single) (n : Nat) (tree : Tree) :
    g.Parses symbol (List.replicate (n + 1) word) tree ↔
      ∃ shape : BinaryTree Unit,
        shape.numNodes = n ∧ Tree.bracketed symbol single shape = tree := by
  constructor
  · induction n using Nat.strong_induction_on generalizing tree with
    | _ n ih =>
      intro parses
      rcases (brackets.parses_iff _ (fun _ => List.eq_of_mem_replicate) tree).mp parses with
        ⟨rfl, words⟩ | ⟨first, second, left, right, rfl, words, left_parses, right_parses⟩
      · have one : n = 0 := by simpa using congrArg List.length words
        exact ⟨.nil, one.symm, rfl⟩
      · obtain ⟨i, j, rfl, rfl, rfl⟩ :=
          exists_counts words ⟨left, left_parses⟩ ⟨right, right_parses⟩
        obtain ⟨shape, rfl, rfl⟩ := ih i (by omega) left left_parses
        obtain ⟨shape', rfl, rfl⟩ := ih j (by omega) right right_parses
        exact ⟨.node () shape shape', rfl, rfl⟩
  · rintro ⟨shape, rfl, rfl⟩
    induction shape with
    | nil =>
      exact (brackets.parses_iff _ (fun _ => List.eq_of_mem_replicate) _).mpr (.inl ⟨rfl, rfl⟩)
    | node _ left right left_ih right_ih =>
      refine (brackets.parses_iff _ (fun _ => List.eq_of_mem_replicate) _).mpr
        (.inr ⟨_, _, _, _, rfl, ?_, left_ih, right_ih⟩)
      rw [List.replicate_append_replicate, BinaryTree.numNodes]
      congr 1
      omega

theorem encard_parses_replicate (brackets : g.Brackets symbol word single) (n : Nat) :
    {tree | g.Parses symbol (List.replicate (n + 1) word) tree}.encard = catalan n := by
  have image : {tree | g.Parses symbol (List.replicate (n + 1) word) tree} =
      Tree.bracketed symbol single '' (BinaryTree.treesOfNumNodesEq n) := by
    ext tree
    simp [parses_replicate brackets]
  rw [image, (bracketed_injective brackets).encard_image, Set.encard_coe_eq_coe_finsetCard,
    BinaryTree.treesOfNumNodesEq_card_eq_catalan]

/-! ## Grammars with brackets -/

/-- A leaf below nodes with one child each. -/
def chainOf (word : String) : List String → Tree
  | [] => .leaf (.term word)
  | name :: names => .node (.nonterm name) [chainOf word names]

variable {name : String} {part : Symbol} {words : List String} {tree : Tree}

theorem parses_of_only (only : g.rulesFor (.nonterm name) = [⟨.nonterm name, [part], none⟩]) :
    g.Parses (.nonterm name) words tree ↔
      ∃ child, tree = .node (.nonterm name) [child] ∧ g.Parses part words child := by
  have rules (rule : Rule) : rule ∈ g.rules ∧ rule.head = .nonterm name ↔
      rule = ⟨.nonterm name, [part], none⟩ := by
    have mem : rule ∈ g.rulesFor (.nonterm name) ↔ rule = ⟨.nonterm name, [part], none⟩ := by
      rw [only, List.mem_singleton]
    rwa [rulesFor, List.mem_filter, beq_iff_eq] at mem
  rw [parses_nonterm rfl]
  simp only [← and_assoc, rules, exists_eq_left, parsesAll_singleton]
  constructor
  · rintro ⟨-, rfl, child, rfl, parses⟩
    exact ⟨child, rfl, parses⟩
  · rintro ⟨child, rfl, parses⟩
    exact ⟨_, rfl, child, rfl, parses⟩

theorem parses_of_only_word
    (only : g.rulesFor (.nonterm name) = [⟨.nonterm name, [.term word], none⟩]) :
    g.Parses (.nonterm name) words tree ↔ tree = chainOf word [name] ∧ words = [word] := by
  rw [parses_of_only only]
  simp [parses_term, chainOf]

/-- The rules of the sample with unit rules. -/
def chainRules : List Rule :=
  [⟨.nonterm "S", [.nonterm "A"], none⟩, ⟨.nonterm "S", [.nonterm "S", .nonterm "S"], none⟩,
    ⟨.nonterm "A", [.nonterm "B"], none⟩, ⟨.nonterm "B", [.term "b"], none⟩]

theorem brackets_unitChain (rules : g.rules = chainRules) :
    g.Brackets (.nonterm "S") "b" (chainOf "b" ["S", "A", "B"]) where
  parses_iff := by
    intro words _ tree
    have only_a : g.rulesFor (.nonterm "A") = [⟨.nonterm "A", [.nonterm "B"], none⟩] := by
      rw [rulesFor, rules]
      decide
    have only_b : g.rulesFor (.nonterm "B") = [⟨.nonterm "B", [.term "b"], none⟩] := by
      rw [rulesFor, rules]
      decide
    rw [parses_nonterm rfl, rules]
    simp [chainRules, parsesAll_singleton, parsesAll_two, parses_of_only only_a,
      parses_of_only_word only_b, chainOf]
  single_ne := by simp [chainOf]

/-- The rules of the sample with parentheses in normal form. -/
def parensRules : List Rule :=
  [⟨.nonterm "E", [.term "x"], none⟩, ⟨.nonterm "E", [.nonterm "_H0", .nonterm "_H2"], none⟩,
    ⟨.nonterm "_H2", [.nonterm "E", .nonterm "_H1"], none⟩,
    ⟨.nonterm "E", [.nonterm "E", .nonterm "E"], none⟩, ⟨.nonterm "_H0", [.term "("], none⟩,
    ⟨.nonterm "_H1", [.term ")"], none⟩]

theorem only_open (rules : g.rules = parensRules) :
    g.rulesFor (.nonterm "_H0") = [⟨.nonterm "_H0", [.term "("], none⟩] := by
  rw [rulesFor, rules]
  decide

theorem only_close (rules : g.rules = parensRules) :
    g.rulesFor (.nonterm "_H1") = [⟨.nonterm "_H1", [.term ")"], none⟩] := by
  rw [rulesFor, rules]
  decide

theorem brackets_parens (rules : g.rules = parensRules) :
    g.Brackets (.nonterm "E") "x" (chainOf "x" ["E"]) where
  parses_iff := by
    intro words plain tree
    have no_open (second : List String) : words ≠ "(" :: second := by
      rintro rfl
      exact absurd (plain "(" (.head _)) (by decide)
    rw [parses_nonterm rfl, rules]
    simp [parensRules, parsesAll_singleton, parsesAll_two, parses_term, chainOf,
      parses_of_only_word (only_open rules), no_open]
  single_ne := by simp [chainOf]

theorem root_of_parens (rules : g.rules = parensRules) {words : List String}
    (plain : ∀ word ∈ words, word = "x") {tree : Tree}
    (kind : tree.symbol.isNonterm = true) (h : g.Parses tree.symbol words tree) :
    tree.symbol = .nonterm "E" := by
  have no_open : "(" ∉ words := fun mem => absurd (plain _ mem) (by decide)
  have no_close : ")" ∉ words := fun mem => absurd (plain _ mem) (by decide)
  obtain ⟨rule, mem, head, children, -, parses⟩ := (parses_nonterm kind).mp h
  rw [← head]
  rw [rules] at mem
  simp only [parensRules, List.mem_cons, List.not_mem_nil, or_false] at mem
  rcases mem with rfl | rfl | rfl | rfl | rfl | rfl
  · rfl
  · rfl
  · obtain ⟨first, second, left, right, -, rfl, -, closing⟩ := parsesAll_two.mp parses
    obtain ⟨-, rfl⟩ := (parses_of_only_word (only_close rules)).mp closing
    simp at no_close
  · rfl
  · obtain ⟨leaf, -, opening⟩ := parsesAll_singleton.mp parses
    obtain ⟨rfl, -⟩ := parses_term.mp opening
    simp at no_open
  · obtain ⟨leaf, -, closing⟩ := parsesAll_singleton.mp parses
    obtain ⟨rfl, -⟩ := parses_term.mp closing
    simp at no_close

/-! ## Forests of copies -/

/-- The words of a span have as many trees as the span has bracketings. -/
theorem encard_forest_parens (rules : g.rules = parensRules) {n : Nat} {span : Span}
    (within : span.Within n) :
    (g.forest (List.replicate n "x") span).encard = catalan (span.stop - span.start - 1) := by
  have slice_eq : span.slice (List.replicate n "x") =
      List.replicate (span.stop - span.start - 1 + 1) "x" := by
    obtain ⟨proper, inside⟩ := within
    rw [Span.slice, List.drop_replicate, List.take_replicate]
    congr 1
    omega
  have only_root : g.forest (List.replicate n "x") span =
      {tree | g.Parses (.nonterm "E") (List.replicate (span.stop - span.start - 1 + 1) "x")
        tree} := by
    ext tree
    rw [forest, slice_eq]
    constructor
    · rintro ⟨kind, parses⟩
      rwa [root_of_parens rules (fun _ => List.eq_of_mem_replicate) kind parses] at parses
    · intro parses
      have root := parses.root
      exact ⟨by rw [root]; rfl, by rwa [root]⟩
  rw [only_root, encard_parses_replicate (brackets_parens rules)]

/-! ## Parsing -/

open ChartParser.Parser

theorem catalan_mono : Monotone catalan := by
  apply monotone_nat_of_le_succ
  intro n
  rw [catalan_succ, Fin.sum_univ_castSucc]
  simp

theorem overLimit_parens_iff (rules : g.rules = parensRules) {n limit : Nat} {span : Span} :
    OverLimit g (List.replicate n "x") limit span ↔
      span.Within n ∧ limit < catalan (span.stop - span.start - 1) := by
  rw [OverLimit, List.length_replicate]
  refine and_congr_right fun within => ?_
  rw [encard_forest_parens rules within, Nat.cast_lt]

/-- The first span with too many bracketings begins at the first word. -/
theorem firstOverLimit_parens (rules : g.rules = parensRules) {n limit least : Nat}
    (h : IsLeast {k | limit < catalan k} least) (few : least ≤ n) :
    FirstOverLimit g (List.replicate (n + 1) "x") limit ⟨0, least + 1⟩ := by
  obtain ⟨beyond, lower⟩ := h
  constructor
  · exact (overLimit_parens_iff rules).mpr ⟨⟨Nat.succ_pos _, by simpa using few⟩, beyond⟩
  · rintro ⟨start, stop⟩ other
    obtain ⟨⟨proper, inside⟩, other_beyond⟩ := (overLimit_parens_iff rules).mp other
    have := lower other_beyond
    simp only [Span.Before, Span.mk.injEq] at proper this ⊢
    omega

theorem exists_overLimit_parens_iff (rules : g.rules = parensRules) (n limit : Nat) :
    (∃ span, OverLimit g (List.replicate (n + 1) "x") limit span) ↔ limit < catalan n := by
  simp only [overLimit_parens_iff rules]
  constructor
  · rintro ⟨span, ⟨proper, inside⟩, beyond⟩
    exact beyond.trans_le (catalan_mono (by omega))
  · intro beyond
    exact ⟨⟨0, n + 1⟩, ⟨Nat.succ_pos n, Nat.le_refl _⟩, beyond⟩

theorem parse_parens_eq_error_iff {parser : Parser} (rules : parser.grammar.rules = parensRules)
    {limit : Nat} (limited : parser.limit = some limit) (n : Nat) (error : ParseError) :
    parser.parse (List.replicate (n + 1) "x") = .error error ↔
      ∃ k ≤ n, IsLeast {k | limit < catalan k} k ∧ error = .overLimit ⟨0, k + 1⟩ limit := by
  rw [parse_eq_error_iff limited]
  constructor
  · rintro ⟨span, rfl, first⟩
    have beyond := (exists_overLimit_parens_iff rules n limit).mp ⟨span, first.1⟩
    have some_k : ∃ k, limit < catalan k := ⟨n, beyond⟩
    have least : IsLeast {k | limit < catalan k} (Nat.find some_k) :=
      ⟨Nat.find_spec some_k, fun _ => Nat.find_min' some_k⟩
    have few := Nat.find_min' some_k beyond
    refine ⟨_, few, least, ?_⟩
    rw [firstOverLimit_unique (firstOverLimit_parens rules least few) first]
  · rintro ⟨k, few, least, rfl⟩
    exact ⟨_, rfl, firstOverLimit_parens rules least few⟩

theorem length_parseWithin (relaxed : g.violation? = none) (acyclic : g.UnitAcyclic)
    (brackets : g.Brackets g.start word single) (n : Nat) :
    ∃ trees, (g.parseWithin none (List.replicate (n + 1) word)).result = .ok trees ∧
      trees.length = catalan n := by
  obtain ⟨parser, rfl, unlimited, result⟩ := result_ask relaxed acyclic none
    (·.parse (List.replicate (n + 1) word)) (·.parseEvents (List.replicate (n + 1) word))
  obtain ⟨trees, trees_eq⟩ := exists_parse_eq_ok unlimited (List.replicate (n + 1) word)
  refine ⟨trees, result.trans trees_eq, ?_⟩
  have size := encard_parses_of_parse trees_eq
  rw [encard_parses_replicate brackets] at size
  exact_mod_cast size.symm

/-- Copies of one word have as many trees as there are bracketings, with the grammar of parentheses
and with the chain of unit rules. A limit stops the parse at the least number of words that has too
many. -/
theorem parse_bracketings : ∃ parens chain, Sample.parens = .ok parens ∧
    Sample.unitChain = .ok chain ∧ ∀ n,
      (∃ trees, (parens.normalize.parseWithin none (List.replicate (n + 1) "x")).result =
        .ok trees ∧ trees.length = catalan n) ∧
      (∃ trees, (chain.parseWithin none (List.replicate (n + 1) "b")).result = .ok trees ∧
        trees.length = catalan n) ∧
      ∀ limit,
        ((∃ error, (parens.normalize.parseWithin (some limit)
          (List.replicate (n + 1) "x")).result = .error error) ↔ limit < catalan n) ∧
        ∀ error, (parens.normalize.parseWithin (some limit)
          (List.replicate (n + 1) "x")).result = .error error ↔
            ∃ k ≤ n, IsLeast {k | limit < catalan k} k ∧ error = .overLimit ⟨0, k + 1⟩ limit := by
  obtain ⟨parens, parens_eq, start, rules, none_unit⟩ : ∃ g, Sample.parens = .ok g ∧
      g.normalize.start = .nonterm "E" ∧ g.normalize.rules = parensRules ∧
      ∀ rule ∈ g.rules, ∀ child ∈ rule.unaryNonterm?, 0 < 0 := ⟨_, rfl, rfl, by decide, by decide⟩
  obtain ⟨chain, chain_eq, chain_start, chain_rules, chain_relaxed, lower⟩ :
      ∃ g, Sample.unitChain = .ok g ∧ g.start = .nonterm "S" ∧ g.rules = chainRules ∧
        g.violation? = none ∧ ∀ rule ∈ g.rules, ∀ child ∈ rule.unaryNonterm?,
          ["B", "A", "S"].idxOf child.name < ["B", "A", "S"].idxOf rule.head.name :=
    ⟨_, rfl, rfl, by decide, rfl, by decide⟩
  have relaxed := violation?_normalize parens
  have acyclic := unitAcyclic_normalize (unitAcyclic_of_rank (fun _ => 0) none_unit)
  have chain_acyclic := unitAcyclic_of_rank (fun symbol => ["B", "A", "S"].idxOf symbol.name) lower
  refine ⟨parens, chain, parens_eq, chain_eq, fun n => ⟨?_, ?_, fun limit => ?_⟩⟩
  · exact length_parseWithin relaxed acyclic (start ▸ brackets_parens rules) n
  · exact length_parseWithin chain_relaxed chain_acyclic
      (chain_start ▸ brackets_unitChain chain_rules) n
  · obtain ⟨parser, grammar_eq, limited, result⟩ := result_ask relaxed acyclic (some limit)
      (·.parse (List.replicate (n + 1) "x")) (·.parseEvents (List.replicate (n + 1) "x"))
    rw [← grammar_eq] at rules
    rw [parseWithin, result]
    refine ⟨?_, parse_parens_eq_error_iff rules limited n⟩
    rw [exists_error_iff limited, exists_overLimit_parens_iff rules]

end Grammar

end ChartParser
