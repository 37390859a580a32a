import ChartParser.Proofs.Grammar.Made
import ChartParser.Proofs.NormalForm.AddedHelpers

/-! # Unfolding any tree

The tree need not be a derivation tree. Its helpers may be anywhere, also at leaves, and are gone
below the root after unfolding.
-/

namespace ChartParser

namespace Tree

/-! ## The nodes of a tree -/

mutual

/-- The tree and all trees in it, one for each node. -/
def subtrees : Tree → List Tree
  | node symbol children => node symbol children :: subtreesAll children

def subtreesAll : List Tree → List Tree
  | [] => []
  | tree :: more => tree.subtrees ++ subtreesAll more

end

/-- The trees at the nodes below the root. -/
def belowRoot (tree : Tree) : List Tree := subtreesAll tree.children

theorem subtreesAll_eq_flatMap (trees : List Tree) : subtreesAll trees = trees.flatMap subtrees := by
  induction trees with
  | nil => rfl
  | cons tree trees ih => rw [subtreesAll, ih, List.flatMap_cons]

theorem forall_mem_subtrees {P : Tree → Prop} {symbol : Symbol} {children : List Tree} :
    (∀ sub ∈ (node symbol children).subtrees, P sub) ↔
      P (node symbol children) ∧ ∀ child ∈ children, ∀ sub ∈ child.subtrees, P sub := by
  rw [subtrees, List.forall_mem_cons, subtreesAll_eq_flatMap]
  simp only [List.mem_flatMap]
  grind

theorem tokens_nonterm {symbol : Symbol} (kind : symbol.isNonterm = true) (children : List Tree) :
    (node symbol children).tokens = children.flatMap tokens := by
  cases children with
  | nil =>
    cases symbol with
    | term name => nomatch kind
    | nonterm name => exact tokens_leaf (.nonterm name)
  | cons child more => exact tokens_node symbol (List.cons_ne_nil child more)

/-! ## What unfolding leaves -/

variable {isHelper : Symbol → Bool}

theorem spliceAll_eq_flatMap (trees : List Tree) :
    spliceAll isHelper trees = trees.flatMap (splice isHelper) := by
  induction trees with
  | nil => rfl
  | cons tree trees ih => rw [spliceAll, ih, List.flatMap_cons]

theorem plain_of_mem_splice (tree : Tree) :
    ∀ part ∈ tree.splice isHelper, ∀ sub ∈ part.subtrees, isHelper sub.symbol = false := by
  induction tree with
  | node symbol children ih =>
    have inner : ∀ part ∈ spliceAll isHelper children,
        ∀ sub ∈ part.subtrees, isHelper sub.symbol = false := by
      intro part mem
      rw [spliceAll_eq_flatMap] at mem
      obtain ⟨child, child_mem, mem⟩ := List.mem_flatMap.mp mem
      exact ih child child_mem part mem
    cases helper : isHelper symbol with
    | true => rwa [splice_of_helper helper]
    | false =>
      rw [splice_of_plain helper, unfoldHelpers, List.forall_mem_singleton, forall_mem_subtrees]
      exact ⟨helper, inner⟩

theorem plain_below_unfoldHelpers (tree : Tree) :
    ∀ sub ∈ (tree.unfoldHelpers isHelper).belowRoot, isHelper sub.symbol = false := by
  cases tree with
  | node symbol children =>
    intro sub mem
    rw [belowRoot, subtreesAll_eq_flatMap] at mem
    obtain ⟨part, part_mem, mem⟩ := List.mem_flatMap.mp mem
    rw [unfoldHelpers, Tree.children, spliceAll_eq_flatMap] at part_mem
    obtain ⟨child, -, part_mem⟩ := List.mem_flatMap.mp part_mem
    exact plain_of_mem_splice child part part_mem sub mem

theorem spliceAll_of_forall {trees : List Tree}
    (each : ∀ tree ∈ trees, tree.splice isHelper = [tree]) : spliceAll isHelper trees = trees := by
  rw [spliceAll_eq_flatMap, List.flatMap_congr each, List.flatMap_singleton']

theorem splice_of_forall {tree : Tree} (plain : ∀ sub ∈ tree.subtrees, isHelper sub.symbol = false) :
    tree.splice isHelper = [tree] := by
  induction tree with
  | node symbol children ih =>
    obtain ⟨root, inner⟩ := forall_mem_subtrees.mp plain
    rw [splice_of_plain root, unfoldHelpers,
      spliceAll_of_forall fun child mem => ih child mem (inner child mem)]

theorem unfoldHelpers_of_forall {tree : Tree}
    (plain : ∀ sub ∈ tree.belowRoot, isHelper sub.symbol = false) :
    tree.unfoldHelpers isHelper = tree := by
  cases tree with
  | node symbol children =>
    rw [belowRoot, subtreesAll_eq_flatMap] at plain
    have inner : ∀ child ∈ children, ∀ sub ∈ child.subtrees, isHelper sub.symbol = false :=
      fun child mem sub sub_mem => plain sub (List.mem_flatMap.mpr ⟨child, mem, sub_mem⟩)
    rw [unfoldHelpers, spliceAll_of_forall fun child mem => splice_of_forall (inner child mem)]

/-! ## Tokens -/

def TermsAtLeaves (tree : Tree) : Prop :=
  ∀ sub ∈ tree.subtrees, sub.symbol.isTerm = true → sub.isLeaf = true

/-- If what stands for each child has the tokens of the child, nothing is lost at the node. -/
theorem tokens_unfold {symbol : Symbol} {children : List Tree}
    (leaf : symbol.isTerm = true → (node symbol children).isLeaf = true)
    (same : ∀ child ∈ children, (child.splice isHelper).flatMap tokens = child.tokens) :
    (spliceAll isHelper children).flatMap tokens = children.flatMap tokens ∧
      (node symbol (spliceAll isHelper children)).tokens = (node symbol children).tokens := by
  have inner : (spliceAll isHelper children).flatMap tokens = children.flatMap tokens := by
    rw [spliceAll_eq_flatMap, List.flatMap_assoc, List.flatMap_congr same]
  refine ⟨inner, ?_⟩
  cases symbol with
  | term name =>
    have none : children = [] := List.isEmpty_iff.mp (leaf rfl)
    rw [none]
    rfl
  | nonterm name => rw [tokens_nonterm rfl, tokens_nonterm rfl, inner]

variable (nonterm : ∀ symbol, isHelper symbol = true → symbol.isNonterm = true)

include nonterm

theorem flatMap_tokens_splice {tree : Tree} (terms : tree.TermsAtLeaves) :
    (tree.splice isHelper).flatMap tokens = tree.tokens := by
  induction tree with
  | node symbol children ih =>
    obtain ⟨leaf, inner⟩ := forall_mem_subtrees.mp terms
    obtain ⟨all, whole⟩ := tokens_unfold leaf fun child mem => ih child mem (inner child mem)
    cases helper : isHelper symbol with
    | true => rw [splice_of_helper helper, all, tokens_nonterm (nonterm symbol helper)]
    | false => rwa [splice_of_plain helper, List.flatMap_singleton]

theorem tokens_unfoldHelpers {tree : Tree} (terms : tree.TermsAtLeaves) :
    (tree.unfoldHelpers isHelper).tokens = tree.tokens := by
  cases tree with
  | node symbol children =>
    obtain ⟨leaf, inner⟩ := forall_mem_subtrees.mp terms
    exact (tokens_unfold leaf fun child mem => flatMap_tokens_splice nonterm (inner child mem)).2

end Tree

namespace Grammar

variable {g : Grammar}

theorem isNonterm_of_isHelper (made : g.Made) :
    ∀ symbol, g.isHelper symbol = true → symbol.isNonterm = true := by
  apply made.induct
  · intro specs language g built symbol helper
    simp [(declared_of_ofSpecs built).plain] at helper
  · intro g ih symbol helper
    rcases isHelper_normalize_iff_or.mp helper with before | added
    · exact ih symbol before
    · exact isNonterm_of_mem_added added

/-- Whatever the tree, unfolding keeps its root, leaves no helper below it, and has nothing more to
do then. It keeps the tokens if only leaves hold terminals. -/
theorem unfoldHelpers_laws (made : g.Made) (tree : Tree) :
    (tree.unfoldHelpers g.isHelper).symbol = tree.symbol ∧
    (∀ sub ∈ (tree.unfoldHelpers g.isHelper).belowRoot, g.isHelper sub.symbol = false) ∧
    ((∀ sub ∈ tree.belowRoot, g.isHelper sub.symbol = false) →
      tree.unfoldHelpers g.isHelper = tree) ∧
    (tree.unfoldHelpers g.isHelper).unfoldHelpers g.isHelper = tree.unfoldHelpers g.isHelper ∧
    (tree.TermsAtLeaves → (tree.unfoldHelpers g.isHelper).tokens = tree.tokens) := by
  have plain : ∀ sub ∈ (tree.unfoldHelpers g.isHelper).belowRoot, g.isHelper sub.symbol = false :=
    tree.plain_below_unfoldHelpers
  refine ⟨?_, plain, Tree.unfoldHelpers_of_forall, Tree.unfoldHelpers_of_forall plain,
    Tree.tokens_unfoldHelpers (isNonterm_of_isHelper made)⟩
  cases tree
  rfl

/-- A helper inside a helper, helpers without children, and a node that loses its only child. -/
def nestedHelpers : Tree := .node (.nonterm "NP") [
  .node (.nonterm "_H0") [.leaf (.nonterm "_H0"), .node (.nonterm "_H0") [.leaf (.term "the")]],
  .node (.nonterm "N") [.leaf (.nonterm "_H0")]]

theorem unfoldHelpers_laws_nested : ∃ g, Sample.duck = .ok g ∧ g.normalize.Made ∧
    nestedHelpers.TermsAtLeaves ∧ nestedHelpers.unfoldHelpers g.normalize.isHelper =
      .node (.nonterm "NP") [.leaf (.term "the"), .leaf (.nonterm "N")] ∧
    (nestedHelpers.unfoldHelpers g.normalize.isHelper).tokens = nestedHelpers.tokens := by
  have terms : nestedHelpers.TermsAtLeaves := by
    unfold Tree.TermsAtLeaves
    decide
  obtain ⟨g, built, unfolded⟩ : ∃ g, Sample.duck = .ok g ∧
      nestedHelpers.unfoldHelpers g.normalize.isHelper =
        .node (.nonterm "NP") [.leaf (.term "the"), .leaf (.nonterm "N")] := ⟨_, rfl, rfl⟩
  have made : g.normalize.Made := .normalize (.declare built)
  obtain ⟨-, -, -, -, tokens⟩ := unfoldHelpers_laws made nestedHelpers
  exact ⟨g, built, made, terms, unfolded, tokens terms⟩

end Grammar

end ChartParser
