import ChartParser.Parser.Cell
import ChartParser.Proofs.Except

/-! # Which trees a cell holds -/

namespace ChartParser.Cell

theorem contains_iff_mem_treesOf {cell : Cell} {tree : Tree} :
    cell.contains tree = true ↔ tree ∈ cell.treesOf tree.symbol :=
  Std.TreeSet.contains_iff_mem

theorem mem_treesOf {cell : Cell} {symbol : Symbol} {tree : Tree} :
    tree ∈ cell.treesOf symbol ↔ cell.contains tree = true ∧ tree.symbol = symbol := by
  rw [contains_iff_mem_treesOf]
  constructor
  · intro mem
    have root := symbol_of_mem_treesOf mem
    exact ⟨root ▸ mem, root⟩
  · rintro ⟨mem, rfl⟩
    exact mem

theorem contains_empty (tree : Tree) : empty.contains tree = false := by
  simp [contains, treesOf, empty]

theorem exists_stored_iff {cell : Cell} {symbol : Symbol} {tree : Tree} :
    (∃ stored, cell.trees[symbol]? = some stored ∧ tree ∈ stored) ↔
      cell.contains tree = true ∧ tree.symbol = symbol := by
  rw [← mem_treesOf]
  constructor
  · rintro ⟨stored, known, mem⟩
    rwa [treesOf, Std.TreeMap.getD_eq_getD_getElem?, known]
  · exact exists_of_mem_treesOf

theorem mem_toList {cell : Cell} {tree : Tree} :
    tree ∈ cell.toList ↔ cell.contains tree = true := by
  simp only [toList, List.mem_flatMap, Prod.exists, Std.TreeSet.mem_toList,
    Std.TreeMap.mem_toList_iff_getElem?_eq_some, exists_stored_iff, exists_eq_right']

theorem pairwise_toList (cell : Cell) : cell.toList.Pairwise fun a b => compare a b = .lt := by
  rw [toList, List.pairwise_flatMap]
  constructor
  · exact fun _ _ => Std.TreeSet.ordered_toList
  -- The symbols of the cell are the roots of its trees, and roots are compared first.
  · refine (Std.TreeMap.ordered_keys_toList (t := cell.trees)).imp_of_mem ?_
    rintro ⟨symbol, stored⟩ ⟨other, stored'⟩ mem mem' less a here b there
    rw [Std.TreeMap.mem_toList_iff_getElem?_eq_some] at mem mem'
    have root := (cell.keyed symbol stored mem).2 a (Std.TreeSet.mem_toList.mp here)
    have root' := (cell.keyed other stored' mem').2 b (Std.TreeSet.mem_toList.mp there)
    obtain ⟨s, children⟩ := a
    obtain ⟨t, others⟩ := b
    cases root
    cases root'
    exact Ordering.then_eq_lt.mpr (.inl less)

theorem nodup_toList (cell : Cell) : cell.toList.Nodup :=
  Tree.nodup_of_ascending cell.pairwise_toList

/-! ## Adding trees -/

/-- The cell with one more tree, under its root symbol. -/
def add (cell : Cell) (tree : Tree) : Cell := cell.insert tree.symbol tree rfl

theorem contains_add {cell : Cell} {tree other : Tree} :
    (cell.add tree).contains other = true ↔ tree = other ∨ cell.contains other = true := by
  unfold add insert
  split
  · next known =>
    constructor
    · exact .inr
    · rintro (rfl | h)
      · exact known
      · exact h
  · next new =>
    simp only [contains, treesOf, Std.TreeMap.getD_insert]
    split
    · next same =>
      rw [Std.compare_eq_iff_eq] at same
      simp [same]
    · next apart =>
      rw [Std.compare_eq_iff_eq] at apart
      constructor
      · exact .inr
      · rintro (rfl | h)
        · exact absurd rfl apart
        · exact h

/-- A tree that is known does not count again. -/
theorem count_add (cell : Cell) (tree : Tree) :
    (cell.add tree).count = if cell.contains tree then cell.count else cell.count + 1 := by
  rw [add, insert, ← contains]
  split <;> rfl

theorem contains_foldl_add {cell : Cell} {trees : List Tree} {other : Tree} :
    (trees.foldl add cell).contains other = true ↔
      other ∈ trees ∨ cell.contains other = true := by
  induction trees generalizing cell with
  | nil => simp
  | cons tree trees ih =>
    rw [List.foldl_cons, ih, contains_add, List.mem_cons]
    constructor
    · rintro (h | rfl | h)
      · exact .inl (.inr h)
      · exact .inl (.inl rfl)
      · exact .inr h
    · rintro ((rfl | h) | h)
      · exact .inr (.inl rfl)
      · exact .inl h
      · exact .inr (.inr h)

/-! ## Adding trees within a limit -/

/-- The cell with one more tree, under its root symbol, unless that makes too many. -/
def addWithin (limit : Option Nat) (span : Span) (cell : Cell) (tree : Tree) :
    Except ParseError Cell :=
  cell.insertWithin limit span tree.symbol tree rfl

theorem insertWithin_eq_addWithin {symbol : Symbol} (limit : Option Nat) (span : Span)
    (cell : Cell) {tree : Tree} (root : tree.symbol = symbol) :
    cell.insertWithin limit span symbol tree root = cell.addWithin limit span tree := by
  subst root
  rfl

theorem addWithin_none (span : Span) (cell : Cell) (tree : Tree) :
    addWithin none span cell tree = .ok (cell.add tree) := rfl

theorem addWithin_some (most : Nat) (span : Span) (cell : Cell) (tree : Tree) :
    addWithin (some most) span cell tree =
      if most < (cell.add tree).count then .error (.overLimit span most)
      else .ok (cell.add tree) := rfl

variable {limit : Option Nat} {span : Span}

/-- Where the limit allows a tree, it makes no difference. -/
theorem eq_add_of_addWithin {cell cell' : Cell} {tree : Tree}
    (h : addWithin limit span cell tree = .ok cell') : cell' = cell.add tree := by
  cases limit with
  | none => exact (Except.ok.inj h).symm
  | some most =>
    rw [addWithin_some] at h
    split at h
    · nomatch h
    · exact (Except.ok.inj h).symm

theorem eq_foldl_add_of_foldlM {trees : List Tree} {cell cell' : Cell}
    (h : trees.foldlM (addWithin limit span) cell = .ok cell') : cell' = trees.foldl add cell :=
  eq_foldl_of_foldlM (fun _ _ _ => eq_add_of_addWithin) h

end ChartParser.Cell
