import ChartParser.Tree.Basic

/-! # The tokens of a tree -/

namespace ChartParser.Tree

/-! ## Induction -/

mutual

/-- What holds of a node if it holds of the children holds of every tree. -/
@[induction_eliminator]
theorem induct {motive : Tree → Prop}
    (node : ∀ symbol children, (∀ child ∈ children, motive child) → motive (node symbol children)) :
    ∀ tree, motive tree
  | .node symbol children => node symbol children (inducts node children)

theorem inducts {motive : Tree → Prop}
    (node : ∀ symbol children, (∀ child ∈ children, motive child) → motive (node symbol children)) :
    ∀ trees : List Tree, ∀ tree ∈ trees, motive tree
  | [] => List.forall_mem_nil _
  | first :: more => List.forall_mem_cons.mpr ⟨induct node first, inducts node more⟩

end

/-! ## Tokens -/

theorem walk_append (first second : List Tree) :
    walk (first ++ second) = walk first ++ walk second := by
  fun_induction walk first with
  | case1 => simp
  | case2 symbol pending ih => rw [List.cons_append, walk, ih, List.append_assoc]
  | case3 symbol child more pending ih =>
    rw [List.cons_append, walk, ← List.append_assoc, ih]

theorem walk_eq_flatMap (trees : List Tree) : walk trees = trees.flatMap tokens := by
  induction trees with
  | nil => rw [walk, List.flatMap_nil]
  | cons tree more ih => rw [← List.singleton_append, walk_append, ih, List.singleton_append,
      List.flatMap_cons, tokens]

theorem tokens_leaf (symbol : Symbol) : (leaf symbol).tokens = symbol.termName?.toList := by
  rw [tokens, leaf, walk, walk, List.append_nil]

theorem tokens_node (symbol : Symbol) {children : List Tree} (h : children ≠ []) :
    (node symbol children).tokens = children.flatMap tokens := by
  cases children with
  | nil => exact absurd rfl h
  | cons child more => rw [tokens, walk, List.append_nil, walk_eq_flatMap]

end ChartParser.Tree
