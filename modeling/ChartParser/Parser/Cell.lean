import Std.Data.TreeSet
import ChartParser.Parser.Error
import ChartParser.Proofs.Tree.Order

/-! # Cells of trees -/

namespace ChartParser

/-- The trees of one span, by root symbol. A symbol is in the cell only with trees of its own. -/
structure Cell where
  trees : Std.TreeMap Symbol (Std.TreeSet Tree)
  /-- How many trees there are in all. -/
  count : Nat
  keyed : ∀ (symbol : Symbol) (stored : Std.TreeSet Tree), trees[symbol]? = some stored →
    stored.isEmpty = false ∧ ∀ tree ∈ stored, tree.symbol = symbol

namespace Cell

def empty : Cell where
  trees := ∅
  count := 0
  keyed := by simp

/-- The trees with a root symbol. -/
def treesOf (cell : Cell) (symbol : Symbol) : Std.TreeSet Tree := cell.trees.getD symbol ∅

def contains (cell : Cell) (tree : Tree) : Bool := (cell.treesOf tree.symbol).contains tree

/-- All trees, by root symbol and then in ascending order. -/
def toList (cell : Cell) : List Tree := cell.trees.toList.flatMap fun (_, trees) => trees.toList

theorem exists_of_mem_treesOf {cell : Cell} {symbol : Symbol} {tree : Tree}
    (h : tree ∈ cell.treesOf symbol) :
    ∃ stored, cell.trees[symbol]? = some stored ∧ tree ∈ stored := by
  rw [treesOf, Std.TreeMap.getD_eq_getD_getElem?] at h
  cases known : cell.trees[symbol]? with
  | none => simp [known] at h
  | some stored => exact ⟨stored, rfl, by simpa [known] using h⟩

theorem symbol_of_mem_treesOf {cell : Cell} {symbol : Symbol} {tree : Tree}
    (h : tree ∈ cell.treesOf symbol) : tree.symbol = symbol := by
  obtain ⟨stored, known, mem⟩ := exists_of_mem_treesOf h
  exact (cell.keyed symbol stored known).2 tree mem

/-- The cell with one more tree under a symbol, which is the root of the tree. -/
def insert (cell : Cell) (symbol : Symbol) (tree : Tree) (root : tree.symbol = symbol) : Cell :=
  if (cell.treesOf symbol).contains tree then cell
  else {
    trees := cell.trees.insert symbol ((cell.treesOf symbol).insert tree)
    count := cell.count + 1
    keyed := by
      intro key stored h
      rw [Std.TreeMap.getElem?_insert] at h
      split at h
      · next same =>
        rw [Std.compare_eq_iff_eq] at same
        cases h
        refine ⟨by simp, fun other mem => ?_⟩
        rcases Std.TreeSet.mem_insert.mp mem with eq | mem
        · rw [← Std.compare_eq_iff_eq.mp eq, root, same]
        · rw [symbol_of_mem_treesOf mem, same]
      · exact cell.keyed key stored h }

/-- The cell with one more tree under its root, unless that makes too many. -/
def insertWithin (limit : Option Nat) (span : Span) (cell : Cell) (symbol : Symbol) (tree : Tree)
    (root : tree.symbol = symbol) : Except ParseError Cell :=
  let cell := cell.insert symbol tree root
  match limit with
  | some most => if most < cell.count then .error (.overLimit span most) else .ok cell
  | none => .ok cell

end Cell

end ChartParser
