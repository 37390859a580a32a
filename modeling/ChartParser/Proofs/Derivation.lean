import ChartParser.Grammar.Basic
import ChartParser.Proofs.Tree.Tokens

/-! # Derivations

What a grammar derives is defined by its derivation trees: a rule stands at each inner node, and the
terminals at the leaves are the words.
-/

namespace ChartParser

/-- A leaf with a terminal, or a node for a rule, over derivation trees of its body's symbols. -/
inductive Tree.DerivedBy (g : Grammar) : Tree → Prop
  | leaf (word : String) : DerivedBy g (.leaf (.term word))
  | node {rule : Rule} {children : List Tree} : rule ∈ g.rules →
      children.map Tree.symbol = rule.body → (∀ child ∈ children, DerivedBy g child) →
      DerivedBy g (.node rule.head children)

namespace Grammar

/-- The tree is a derivation tree of the words from the symbol. -/
structure Parses (g : Grammar) (symbol : Symbol) (words : List String) (tree : Tree) : Prop where
  derived : tree.DerivedBy g
  root : tree.symbol = symbol
  tokens : tree.tokens = words

/-- The trees are derivation trees of the words, one for each symbol of a body. -/
structure ParsesAll (g : Grammar) (body : List Symbol) (words : List String) (trees : List Tree) :
    Prop where
  derived : ∀ tree ∈ trees, tree.DerivedBy g
  roots : trees.map Tree.symbol = body
  tokens : trees.flatMap Tree.tokens = words

/-- The symbol derives the words. -/
def Derives (g : Grammar) (symbol : Symbol) (words : List String) : Prop :=
  ∃ tree, g.Parses symbol words tree

/-- The symbols of the body, one after another, derive the words. -/
def DerivesAll (g : Grammar) (body : List Symbol) (words : List String) : Prop :=
  ∃ trees, g.ParsesAll body words trees

variable {g : Grammar}

/-! ## Trees of bodies -/

theorem parsesAll_nil {words : List String} {trees : List Tree} :
    g.ParsesAll [] words trees ↔ words = [] ∧ trees = [] := by
  constructor
  · rintro ⟨-, roots, tokens⟩
    rw [List.map_eq_nil_iff] at roots
    subst roots
    exact ⟨tokens.symm, rfl⟩
  · rintro ⟨rfl, rfl⟩
    exact ⟨by simp, rfl, rfl⟩

theorem parsesAll_cons {symbol : Symbol} {rest : List Symbol} {words : List String}
    {trees : List Tree} :
    g.ParsesAll (symbol :: rest) words trees ↔ ∃ first second tree more, words = first ++ second ∧
      trees = tree :: more ∧ g.Parses symbol first tree ∧ g.ParsesAll rest second more := by
  constructor
  · rintro ⟨derived, roots, rfl⟩
    obtain ⟨tree, more, rfl, root, roots⟩ := List.map_eq_cons_iff.mp roots
    obtain ⟨first, others⟩ := List.forall_mem_cons.mp derived
    exact ⟨tree.tokens, more.flatMap Tree.tokens, tree, more, List.flatMap_cons, rfl,
      ⟨first, root, rfl⟩, ⟨others, roots, rfl⟩⟩
  · rintro ⟨first, second, tree, more, rfl, rfl, one, others⟩
    refine ⟨List.forall_mem_cons.mpr ⟨one.derived, others.derived⟩, ?_, ?_⟩
    · rw [List.map_cons, one.root, others.roots]
    · rw [List.flatMap_cons, one.tokens, others.tokens]

theorem parsesAll_singleton {symbol : Symbol} {words : List String} {trees : List Tree} :
    g.ParsesAll [symbol] words trees ↔ ∃ tree, trees = [tree] ∧ g.Parses symbol words tree := by
  simp only [parsesAll_cons, parsesAll_nil]
  constructor
  · rintro ⟨first, -, tree, -, rfl, rfl, parses, rfl, rfl⟩
    exact ⟨tree, rfl, by rwa [List.append_nil]⟩
  · rintro ⟨tree, rfl, parses⟩
    exact ⟨words, [], tree, [], by simp, rfl, parses, rfl, rfl⟩

theorem parsesAll_two {one other : Symbol} {words : List String} {trees : List Tree} :
    g.ParsesAll [one, other] words trees ↔ ∃ first second left right, trees = [left, right] ∧
      words = first ++ second ∧ g.Parses one first left ∧ g.Parses other second right := by
  rw [parsesAll_cons]
  simp only [parsesAll_singleton]
  constructor
  · rintro ⟨first, second, left, -, words_eq, rfl, one, right, rfl, other⟩
    exact ⟨first, second, left, right, rfl, words_eq, one, other⟩
  · rintro ⟨first, second, left, right, rfl, words_eq, one, other⟩
    exact ⟨first, second, left, _, words_eq, rfl, one, right, rfl, other⟩

theorem parsesAll_append {body rest : List Symbol} {words : List String} {trees : List Tree} :
    g.ParsesAll (body ++ rest) words trees ↔ ∃ first second before after, words = first ++ second ∧
      trees = before ++ after ∧ g.ParsesAll body first before ∧ g.ParsesAll rest second after := by
  constructor
  · rintro ⟨derived, roots, rfl⟩
    obtain ⟨before, after, rfl, roots, roots'⟩ := List.map_eq_append_iff.mp roots
    obtain ⟨derived, derived'⟩ := List.forall_mem_append.mp derived
    exact ⟨before.flatMap Tree.tokens, after.flatMap Tree.tokens, before, after,
      List.flatMap_append, rfl, ⟨derived, roots, rfl⟩, ⟨derived', roots', rfl⟩⟩
  · rintro ⟨first, second, before, after, rfl, rfl, one, others⟩
    refine ⟨List.forall_mem_append.mpr ⟨one.derived, others.derived⟩, ?_, ?_⟩
    · rw [List.map_append, one.roots, others.roots]
    · rw [List.flatMap_append, one.tokens, others.tokens]

/-! ## Trees of symbols -/

theorem parses_term {word : String} {words : List String} {tree : Tree} :
    g.Parses (.term word) words tree ↔ words = [word] ∧ tree = .leaf (.term word) := by
  constructor
  · rintro ⟨derived, root, rfl⟩
    cases derived with
    | leaf other =>
      cases root
      exact ⟨Tree.tokens_leaf _, rfl⟩
    | @node rule children mem roots derived =>
      have kind := (g.rules_valid rule mem).1
      rw [show rule.head = .term word from root] at kind
      nomatch kind
  · rintro ⟨rfl, rfl⟩
    exact ⟨.leaf word, rfl, Tree.tokens_leaf _⟩

theorem parses_rule {rule : Rule} {children : List Tree} {words : List String}
    (mem : rule ∈ g.rules) (h : g.ParsesAll rule.body words children) :
    g.Parses rule.head words (.node rule.head children) := by
  refine ⟨.node mem h.roots h.derived, rfl, ?_⟩
  rw [Tree.tokens_node, h.tokens]
  rintro rfl
  exact (g.rules_valid rule mem).2 h.roots.symm

theorem parses_nonterm {symbol : Symbol} (kind : symbol.isNonterm = true) {words : List String}
    {tree : Tree} :
    g.Parses symbol words tree ↔ ∃ rule ∈ g.rules, rule.head = symbol ∧
      ∃ children, tree = .node symbol children ∧ g.ParsesAll rule.body words children := by
  constructor
  · rintro ⟨derived, rfl, rfl⟩
    cases derived with
    | leaf word => nomatch kind
    | @node rule children mem roots derived =>
      refine ⟨rule, mem, rfl, children, rfl, derived, roots, ?_⟩
      rw [Tree.tokens_node]
      rintro rfl
      exact (g.rules_valid rule mem).2 roots.symm
  · rintro ⟨rule, mem, rfl, children, rfl, h⟩
    exact parses_rule mem h

/-! ## Derived words -/

theorem derivesAll_cons {symbol : Symbol} {rest : List Symbol} {words : List String} :
    g.DerivesAll (symbol :: rest) words ↔ ∃ first second, words = first ++ second ∧
      g.Derives symbol first ∧ g.DerivesAll rest second := by
  simp only [DerivesAll, Derives, parsesAll_cons]
  constructor
  · rintro ⟨-, first, second, tree, more, words_eq, -, one, others⟩
    exact ⟨first, second, words_eq, ⟨tree, one⟩, ⟨more, others⟩⟩
  · rintro ⟨first, second, words_eq, ⟨tree, one⟩, ⟨more, others⟩⟩
    exact ⟨_, first, second, tree, more, words_eq, rfl, one, others⟩

theorem derivesAll_singleton {symbol : Symbol} {words : List String} :
    g.DerivesAll [symbol] words ↔ g.Derives symbol words := by
  simp only [DerivesAll, Derives, parsesAll_singleton]
  constructor
  · rintro ⟨-, tree, -, parses⟩
    exact ⟨tree, parses⟩
  · rintro ⟨tree, parses⟩
    exact ⟨_, tree, rfl, parses⟩

theorem derivesAll_append {body rest : List Symbol} {words : List String} :
    g.DerivesAll (body ++ rest) words ↔ ∃ first second, words = first ++ second ∧
      g.DerivesAll body first ∧ g.DerivesAll rest second := by
  simp only [DerivesAll, parsesAll_append]
  constructor
  · rintro ⟨-, first, second, before, after, whole, -, one, others⟩
    exact ⟨first, second, whole, ⟨before, one⟩, ⟨after, others⟩⟩
  · rintro ⟨first, second, whole, ⟨before, one⟩, ⟨after, others⟩⟩
    exact ⟨_, first, second, before, after, whole, rfl, one, others⟩

theorem derives_term {word : String} {words : List String} :
    g.Derives (.term word) words ↔ words = [word] := by
  simp [Derives, parses_term]

theorem derives_nonterm {symbol : Symbol} (kind : symbol.isNonterm = true) {words : List String} :
    g.Derives symbol words ↔
      ∃ rule ∈ g.rules, rule.head = symbol ∧ g.DerivesAll rule.body words := by
  simp only [Derives, DerivesAll, parses_nonterm kind]
  constructor
  · rintro ⟨-, rule, mem, head, children, -, h⟩
    exact ⟨rule, mem, head, children, h⟩
  · rintro ⟨rule, mem, head, children, h⟩
    exact ⟨_, rule, mem, head, children, rfl, h⟩

/-! ## Lengths -/

theorem tokens_ne_nil {tree : Tree} (h : tree.DerivedBy g) : tree.tokens ≠ [] := by
  induction h with
  | leaf word => simp [Tree.tokens_leaf, Symbol.termName?]
  | @node rule children mem roots _ ih =>
    cases children with
    | nil => exact absurd roots.symm (g.rules_valid rule mem).2
    | cons child more =>
      rw [Tree.tokens_node _ (List.cons_ne_nil child more), List.flatMap_cons]
      exact List.append_ne_nil_of_left_ne_nil (ih child (.head more)) _

theorem ne_nil_of_derives {symbol : Symbol} {words : List String} (h : g.Derives symbol words) :
    words ≠ [] := by
  obtain ⟨tree, parses⟩ := h
  exact parses.tokens ▸ tokens_ne_nil parses.derived

/-- No symbol derives the empty list, so there is a word for every symbol. -/
theorem length_le_of_derivesAll {body : List Symbol} {words : List String}
    (h : g.DerivesAll body words) : body.length ≤ words.length := by
  induction body generalizing words with
  | nil => exact Nat.zero_le _
  | cons symbol rest ih =>
    obtain ⟨first, second, rfl, one, others⟩ := derivesAll_cons.mp h
    have nonempty := List.length_pos_iff.mpr (ne_nil_of_derives one)
    have := ih others
    rw [List.length_cons, List.length_append]
    omega

end Grammar

end ChartParser
