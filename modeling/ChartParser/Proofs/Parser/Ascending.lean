import ChartParser.Proofs.Parser.Cell
import ChartParser.Proofs.Tree.Precedes

/-! # Trees in ascending order

Whatever the order in which trees are inserted, and however often, a set ends up with each of them
once and in ascending order. A cell lists and counts its trees like a set.
-/

namespace ChartParser

variable {trees : List Tree} {tree : Tree} {set : Std.TreeSet Tree} {cell : Cell}

/-! ## Sets -/

/-- The set with more trees, inserted one after the other. -/
def Tree.insertAll (set : Std.TreeSet Tree) (trees : List Tree) : Std.TreeSet Tree :=
  trees.foldl Std.TreeSet.insert set

theorem Tree.mem_insertAll : tree ∈ insertAll set trees ↔ tree ∈ trees ∨ tree ∈ set := by
  induction trees generalizing set with
  | nil => simp [insertAll]
  | cons first more ih =>
    change tree ∈ insertAll (set.insert first) more ↔ _
    rw [ih, Std.TreeSet.mem_insert, compare_eq_eq_iff, List.mem_cons, eq_comm, or_left_comm,
      or_assoc]

/-! ## Cells -/

namespace Cell

/-- The cell holds the trees of the set, and its count is right. -/
structure Lists (cell : Cell) (set : Std.TreeSet Tree) : Prop where
  contains : ∀ tree, cell.contains tree = true ↔ tree ∈ set
  count : cell.count = set.size

theorem lists_empty : empty.Lists ∅ where
  contains tree := by simp [contains_empty]
  count := rfl

theorem lists_add (lists : cell.Lists set) (tree : Tree) :
    (cell.add tree).Lists (set.insert tree) where
  contains other := by
    rw [contains_add, lists.contains, Std.TreeSet.mem_insert, Tree.compare_eq_eq_iff]
  count := by
    have same : cell.contains tree = set.contains tree := Bool.eq_iff_iff.mpr (lists.contains tree)
    rw [count_add, Std.TreeSet.size_insert, lists.count, same]

theorem lists_foldl_add (lists : cell.Lists set) (trees : List Tree) :
    (trees.foldl add cell).Lists (Tree.insertAll set trees) := by
  induction trees generalizing cell set with
  | nil => exact lists
  | cons tree trees ih => exact ih (lists_add lists tree)

theorem toList_of_lists (lists : cell.Lists set) : cell.toList = set.toList := by
  apply Tree.eq_of_ascending cell.pairwise_toList Std.TreeSet.ordered_toList
  intro tree
  rw [mem_toList, lists.contains, Std.TreeSet.mem_toList]

theorem toList_treesOf_of_lists (lists : cell.Lists set) (symbol : Symbol) :
    (cell.treesOf symbol).toList = set.toList.filter fun tree => tree.symbol = symbol := by
  apply Tree.eq_of_ascending Std.TreeSet.ordered_toList (Std.TreeSet.ordered_toList.filter _)
  intro tree
  rw [Std.TreeSet.mem_toList, mem_treesOf, lists.contains, List.mem_filter,
    Std.TreeSet.mem_toList, decide_eq_true_iff]

end Cell

namespace Tree

theorem isLE_or_isLE (a b : Tree) : (compare a b).isLE = true ∨ (compare b a).isLE = true := by
  have swapped : compare b a = (compare a b).swap := Std.OrientedCmp.eq_swap
  rw [swapped]
  cases compare a b <;> simp

/-- The comparison of trees is a total order: by root symbol, then by children. So a set of trees is
in ascending order without repetition, whatever the order of insertion, and a cell lists and counts
its trees like a set. -/
theorem order_lawful :
    (∀ a b : Tree, (compare a b = .lt ↔ a.Precedes b) ∧ (compare a b = .eq ↔ a = b) ∧
      (compare a b = .gt ↔ b.Precedes a)) ∧
    (∀ a b : Tree, (compare a b).isLE = true ∨ (compare b a).isLE = true) ∧
    (∀ a b : Tree, (compare a b).isLE = true → (compare b a).isLE = true → a = b) ∧
    (∀ a b c : Tree, (compare a b).isLE = true → (compare b c).isLE = true →
      (compare a c).isLE = true) ∧
    (∀ set trees others, (∀ tree, tree ∈ trees ↔ tree ∈ others) →
      (insertAll set trees).toList = (insertAll set others).toList) ∧
    ∀ trees : List Tree,
      let sorted := (insertAll ∅ trees).toList
      let cell := trees.foldl Cell.add .empty
      sorted.Pairwise Precedes ∧ sorted.Nodup ∧ (∀ tree, tree ∈ sorted ↔ tree ∈ trees) ∧
        cell.toList = sorted ∧ cell.count = sorted.length ∧
        ∀ symbol, (cell.treesOf symbol).toList = sorted.filter fun tree => tree.symbol = symbol := by
  refine ⟨fun a b => ⟨compare_eq_lt_iff, compare_eq_eq_iff, compare_eq_gt_iff⟩, isLE_or_isLE,
    fun a b less more => ?_, fun a b c => Std.TransCmp.isLE_trans, fun set trees others same => ?_,
    fun trees => ?_⟩
  · exact compare_eq_eq_iff.mp (Std.OrientedCmp.isLE_antisymm less more)
  · apply eq_of_ascending Std.TreeSet.ordered_toList Std.TreeSet.ordered_toList
    intro tree
    rw [Std.TreeSet.mem_toList, Std.TreeSet.mem_toList, mem_insertAll, mem_insertAll, same]
  · have lists := Cell.lists_foldl_add Cell.lists_empty trees
    have ascending := Std.TreeSet.ordered_toList (t := insertAll ∅ trees)
    refine ⟨ascending.imp compare_eq_lt_iff.mp, nodup_of_ascending ascending, fun tree => ?_,
      Cell.toList_of_lists lists, ?_, Cell.toList_treesOf_of_lists lists⟩
    · rw [Std.TreeSet.mem_toList, mem_insertAll]
      simp
    · rw [lists.count, Std.TreeSet.length_toList]

/-- A leaf with a terminal, and nodes with one and with two of them. -/
theorem order_lawful_nested :
    let x := leaf (.term "x")
    let one := node (.nonterm "A") [x]
    let two := node (.nonterm "A") [x, x]
    (compare x one).isLE = true ∧ (compare one two).isLE = true ∧ (compare x two).isLE = true ∧
      one = node (.nonterm "A") [node (.term "x") []] ∧
      (insertAll ∅ [two, x, two, one, x]).toList = (insertAll ∅ [one, two, x]).toList := by
  intro x one two
  obtain ⟨-, -, antisymmetric, transitive, sameSet, -⟩ := order_lawful
  have first : (compare x one).isLE = true := by decide
  have second : (compare one two).isLE = true := by decide
  refine ⟨first, second, transitive x one two first second, ?_, sameSet _ _ _ fun tree => ?_⟩
  · exact antisymmetric _ _ (by decide) (by decide)
  · simp only [List.mem_cons, List.not_mem_nil, or_false]
    grind

end Tree

end ChartParser
