import ChartParser.Proofs.Derivation
import ChartParser.Proofs.Forall2
import ChartParser.Tree.Unfold

/-! # Helpers stand for parts of bodies

A body with helpers stands for the body that results when every helper gives way to the body of its
rule. Trees over the two bodies correspond, and unfolding leads from the one to the other.
-/

namespace ChartParser

/-! ## Unfolding -/

namespace Tree

variable {isHelper : Symbol → Bool}

theorem splice_of_plain {tree : Tree} (h : isHelper tree.symbol = false) :
    tree.splice isHelper = [tree.unfoldHelpers isHelper] := by
  cases tree with
  | node symbol children =>
    rw [Tree.symbol] at h
    rw [splice, h, unfoldHelpers]
    rfl

theorem splice_of_helper {symbol : Symbol} {children : List Tree} (h : isHelper symbol = true) :
    (node symbol children).splice isHelper = spliceAll isHelper children := by
  rw [splice, h, if_pos rfl]

end Tree

namespace Grammar

/-- The second body results from the first when helpers give way to the bodies of their rules. -/
inductive Expands (h : Grammar) : List Symbol → List Symbol → Prop
  | nil : Expands h [] []
  | keep {symbol : Symbol} {rest expanded : List Symbol} : h.isHelper symbol = false →
      Expands h rest expanded → Expands h (symbol :: rest) (symbol :: expanded)
  | expand {rule : Rule} {rest first expanded : List Symbol} : rule ∈ h.rules →
      h.isHelper rule.head = true → Expands h rule.body first → Expands h rest expanded →
      Expands h (rule.head :: rest) (first ++ expanded)

/-- The rules of `h` without a helper as their head are those of `g`, with helpers in their bodies.
Each helper is the head of one rule. -/
structure HelperFormOf (h g : Grammar) : Prop where
  start : h.start = g.start
  start_plain : h.isHelper g.start = false
  term_plain : ∀ word, h.isHelper (.term word) = false
  single : ∀ rule ∈ h.rules, ∀ other ∈ h.rules, h.isHelper rule.head = true →
    other.head = rule.head → other = rule
  rules : List.Forall₂ (fun rule cut => cut.head = rule.head ∧ cut.label = rule.label ∧
    h.Expands cut.body rule.body) g.rules (h.rules.filter fun rule => !h.isHelper rule.head)

variable {g h : Grammar} {words : List String}

/-! ## Expansion -/

theorem expands_cons {symbol : Symbol} {rest expanded : List Symbol} :
    h.Expands (symbol :: rest) expanded ↔ ∃ first second, expanded = first ++ second ∧
      h.Expands [symbol] first ∧ h.Expands rest second := by
  constructor
  · intro expands
    cases expands with
    | keep plain later => exact ⟨[symbol], _, rfl, .keep plain .nil, later⟩
    | @expand rule _ first second mem helper one later =>
      exact ⟨first, second, rfl, by simpa using Expands.expand mem helper one .nil, later⟩
  · rintro ⟨first, second, rfl, one, later⟩
    cases one with
    | keep plain none =>
      cases none
      exact .keep plain later
    | @expand rule _ inner _ mem helper one none =>
      cases none
      rw [List.append_nil]
      exact .expand mem helper one later

theorem eq_of_expands_plain {symbol : Symbol} (plain : h.isHelper symbol = false)
    {expanded : List Symbol} (expands : h.Expands [symbol] expanded) : expanded = [symbol] := by
  cases expands with
  | keep _ none =>
    cases none
    rfl
  | @expand rule _ _ _ _ helper => simp [helper] at plain

theorem expands_helper {symbol : Symbol} (helper : h.isHelper symbol = true)
    {expanded : List Symbol} (expands : h.Expands [symbol] expanded) :
    ∃ rule ∈ h.rules, rule.head = symbol ∧ h.Expands rule.body expanded := by
  cases expands with
  | keep plain => simp [helper] at plain
  | @expand rule _ inner _ mem _ one none =>
    cases none
    exact ⟨rule, mem, rfl, by rwa [List.append_nil]⟩

theorem expands_self {body : List Symbol} (plain : ∀ symbol ∈ body, h.isHelper symbol = false) :
    h.Expands body body := by
  induction body with
  | nil => exact .nil
  | cons symbol rest ih =>
    obtain ⟨first, others⟩ := List.forall_mem_cons.mp plain
    exact .keep first (ih others)

/-! ## From trees with helpers -/

theorem parsesAll_spliceAll {children : List Tree}
    (each : ∀ child ∈ children, ∀ expanded, h.Expands [child.symbol] expanded →
      g.ParsesAll expanded child.tokens (child.splice h.isHelper))
    {expanded : List Symbol} (expands : h.Expands (children.map Tree.symbol) expanded) :
    g.ParsesAll expanded (children.flatMap Tree.tokens) (Tree.spliceAll h.isHelper children) := by
  induction children generalizing expanded with
  | nil =>
    cases expands
    exact parsesAll_nil.mpr ⟨rfl, rfl⟩
  | cons child children ih =>
    obtain ⟨first, second, rfl, one, later⟩ := expands_cons.mp expands
    obtain ⟨each_first, each_later⟩ := List.forall_mem_cons.mp each
    rw [Tree.spliceAll, List.flatMap_cons]
    exact parsesAll_append.mpr ⟨_, _, _, _, rfl, rfl, each_first first one, ih each_later later⟩

/-- What stands for a derivation tree is a list of derivation trees for what its root stands for. -/
theorem parsesAll_splice (form : h.HelperFormOf g) {tree : Tree} (derived : tree.DerivedBy h)
    {expanded : List Symbol} (expands : h.Expands [tree.symbol] expanded) :
    g.ParsesAll expanded tree.tokens (tree.splice h.isHelper) := by
  induction derived generalizing expanded with
  | leaf word =>
    cases eq_of_expands_plain (form.term_plain word) expands
    rw [Tree.splice_of_plain (form.term_plain word), parsesAll_singleton]
    exact ⟨_, rfl, parses_term.mpr ⟨Tree.tokens_leaf _, rfl⟩⟩
  | @node rule children mem roots _ ih =>
    have nonempty : children ≠ [] := by
      rintro rfl
      exact (h.rules_valid rule mem).2 roots.symm
    have inner {expanded : List Symbol} (expands : h.Expands rule.body expanded) :=
      parsesAll_spliceAll (fun child mem _ => ih child mem) (roots ▸ expands)
    rw [Tree.tokens_node _ nonempty]
    cases helper : h.isHelper rule.head with
    | false =>
      cases eq_of_expands_plain helper expands
      have kept : rule ∈ h.rules.filter fun rule => !h.isHelper rule.head :=
        List.mem_filter.mpr ⟨mem, by simp [helper]⟩
      obtain ⟨whole, whole_mem, head, -, body⟩ := exists_left_of_forall₂ form.rules kept
      rw [Tree.splice_of_plain helper, parsesAll_singleton]
      exact ⟨_, rfl, head ▸ parses_rule whole_mem (inner body)⟩
    | true =>
      obtain ⟨other, other_mem, head, body⟩ := expands_helper helper expands
      -- The rule in the expansion is the rule in the tree, for a helper has no second one.
      cases form.single rule mem other other_mem helper head
      rw [Tree.splice_of_helper helper]
      exact inner body

/-! ## To trees with helpers -/

theorem exists_parsesAll_of_expands {body expanded : List Symbol}
    (expands : h.Expands body expanded) {trees : List Tree} (parses : h.ParsesAll expanded words trees) :
    ∃ cut, h.ParsesAll body words cut ∧
      Tree.spliceAll h.isHelper cut = trees.map (Tree.unfoldHelpers h.isHelper) := by
  induction expands generalizing words trees with
  | nil =>
    obtain ⟨rfl, rfl⟩ := parsesAll_nil.mp parses
    exact ⟨[], parses, rfl⟩
  | keep plain _ ih =>
    obtain ⟨first, second, tree, more, rfl, rfl, one, later⟩ := parsesAll_cons.mp parses
    obtain ⟨cut, cut_parses, cut_splice⟩ := ih later
    refine ⟨tree :: cut, parsesAll_cons.mpr ⟨_, _, tree, cut, rfl, rfl, one, cut_parses⟩, ?_⟩
    rw [Tree.spliceAll, Tree.splice_of_plain (one.root ▸ plain), cut_splice]
    rfl
  | @expand rule rest _ _ mem helper _ _ ih ih' =>
    obtain ⟨first, second, before, after, rfl, rfl, one, later⟩ := parsesAll_append.mp parses
    obtain ⟨inner, inner_parses, inner_splice⟩ := ih one
    obtain ⟨cut, cut_parses, cut_splice⟩ := ih' later
    refine ⟨.node rule.head inner :: cut, ?_, ?_⟩
    · exact parsesAll_cons.mpr
        ⟨_, _, _, cut, rfl, rfl, parses_rule mem inner_parses, cut_parses⟩
    · rw [Tree.spliceAll, Tree.splice_of_helper helper, inner_splice, cut_splice, List.map_append]

theorem exists_parsesAll_of_forall {children : List Tree} {f : Tree → Tree}
    (each : ∀ child ∈ children, ∃ cut, h.Parses child.symbol child.tokens cut ∧ f cut = child) :
    ∃ cuts, h.ParsesAll (children.map Tree.symbol) (children.flatMap Tree.tokens) cuts ∧
      cuts.map f = children := by
  induction children with
  | nil => exact ⟨[], parsesAll_nil.mpr ⟨rfl, rfl⟩, rfl⟩
  | cons child children ih =>
    obtain ⟨first, others⟩ := List.forall_mem_cons.mp each
    obtain ⟨cut, cut_parses, cut_eq⟩ := first
    obtain ⟨cuts, cuts_parse, cuts_eq⟩ := ih others
    refine ⟨cut :: cuts, parsesAll_cons.mpr ⟨_, _, cut, cuts, rfl, rfl, cut_parses, cuts_parse⟩, ?_⟩
    rw [List.map_cons, cut_eq, cuts_eq]

/-- Each derivation tree results from unfolding one with helpers. -/
theorem exists_parses_of_derivedBy (form : h.HelperFormOf g) {tree : Tree}
    (derived : tree.DerivedBy g) :
    ∃ cut, h.Parses tree.symbol tree.tokens cut ∧ cut.unfoldHelpers h.isHelper = tree := by
  induction derived with
  | leaf word => exact ⟨_, parses_term.mpr ⟨Tree.tokens_leaf _, rfl⟩, rfl⟩
  | @node rule children mem roots _ ih =>
    have nonempty : children ≠ [] := by
      rintro rfl
      exact (g.rules_valid rule mem).2 roots.symm
    obtain ⟨cuts, cuts_parse, cuts_eq⟩ := exists_parsesAll_of_forall ih
    obtain ⟨cut, kept, head, -, body⟩ := exists_right_of_forall₂ form.rules mem
    obtain ⟨cut_mem, -⟩ := List.mem_filter.mp kept
    obtain ⟨inner, inner_parses, inner_eq⟩ := exists_parsesAll_of_expands body (roots ▸ cuts_parse)
    rw [Tree.tokens_node _ nonempty]
    refine ⟨.node cut.head inner, head ▸ parses_rule cut_mem inner_parses, ?_⟩
    rw [Tree.unfoldHelpers, inner_eq, cuts_eq, head]

/-! ## The same words -/

/-- Unfolding leads from the derivation trees with helpers to those without, and to all of them. -/
theorem parses_iff_exists_unfold (form : h.HelperFormOf g) {symbol : Symbol}
    (plain : h.isHelper symbol = false) {tree : Tree} :
    g.Parses symbol words tree ↔
      ∃ cut, h.Parses symbol words cut ∧ cut.unfoldHelpers h.isHelper = tree := by
  constructor
  · rintro ⟨derived, rfl, rfl⟩
    exact exists_parses_of_derivedBy form derived
  · rintro ⟨cut, ⟨derived, rfl, rfl⟩, rfl⟩
    have unfolded := parsesAll_splice form derived (.keep plain .nil)
    rw [Tree.splice_of_plain plain, parsesAll_singleton] at unfolded
    obtain ⟨tree, same, parses⟩ := unfolded
    cases same
    exact parses

theorem derives_iff (form : h.HelperFormOf g) {symbol : Symbol}
    (plain : h.isHelper symbol = false) :
    g.Derives symbol words ↔ h.Derives symbol words := by
  simp only [Derives, parses_iff_exists_unfold form plain]
  constructor
  · rintro ⟨-, cut, parses, -⟩
    exact ⟨cut, parses⟩
  · rintro ⟨cut, parses⟩
    exact ⟨_, cut, parses, rfl⟩

end Grammar

end ChartParser
