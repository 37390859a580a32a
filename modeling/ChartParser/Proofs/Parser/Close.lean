import ChartParser.Parser.Close
import ChartParser.Proofs.Parser.Cell
import ChartParser.Proofs.Relaxed

/-! # What a closed cell holds

Closing a cell adds what chains of unit rules make of its trees, and nothing else.
-/

namespace ChartParser

open Grammar

namespace Parser

/-- All that one unit rule makes of the tree is in the cell. -/
def Climbed (g : Grammar) (cell : Cell) (tree : Tree) : Prop :=
  ∀ parent ∈ g.unitParents tree.symbol, cell.contains (.node parent [tree]) = true

/-- The work once a tree is added, whatever the limit. -/
def Work.add (work : Work) (tree : Tree) : Work :=
  ⟨work.cell.add tree, if work.cell.contains tree then work.pending else tree :: work.pending⟩

theorem eq_add_of_push {parser : Parser} {span : Span} {work work' : Work} {symbol : Symbol}
    {tree : Tree} {root : tree.symbol = symbol}
    (h : parser.push span work symbol tree root = .ok work') : work' = work.add tree := by
  rw [push, Cell.insertWithin_eq_addWithin] at h
  obtain ⟨cell, hcell, h⟩ := bind_eq_ok.mp h
  rw [← Except.ok.inj h, Cell.eq_add_of_addWithin hcell]
  rfl

theorem eq_foldl_add_of_climb {parser : Parser} {span : Span} {tree : Tree} {work work' : Work}
    (h : parser.climb span tree work = .ok work') :
    work' = ((parser.grammar.unitParents tree.symbol).map fun parent =>
      Tree.node parent [tree]).foldl Work.add work := by
  rw [climb] at h
  rw [List.foldl_map]
  exact eq_foldl_of_foldlM (fun _ _ _ => eq_add_of_push) h

theorem cell_foldl_add (trees : List Tree) (work : Work) :
    (trees.foldl Work.add work).cell = trees.foldl Cell.add work.cell := by
  induction trees generalizing work with
  | nil => rfl
  | cons tree trees ih => exact ih (work.add tree)

theorem mem_pending_add {work : Work} {added tree : Tree} :
    tree ∈ (work.add added).pending ↔
      tree ∈ work.pending ∨ tree = added ∧ work.cell.contains tree = false := by
  unfold Work.add
  dsimp only
  split
  · next known =>
    constructor
    · exact .inl
    · rintro (h | ⟨rfl, new⟩)
      · exact h
      · simp [known] at new
  · next new =>
    rw [List.mem_cons]
    constructor
    · rintro (rfl | h)
      · exact .inr ⟨rfl, by simpa using new⟩
      · exact .inl h
    · rintro (h | ⟨rfl, -⟩)
      · exact .inr h
      · exact .inl rfl

theorem mem_pending_foldl_add {trees : List Tree} {work : Work} {tree : Tree} :
    tree ∈ (trees.foldl Work.add work).pending ↔
      tree ∈ work.pending ∨ tree ∈ trees ∧ work.cell.contains tree = false := by
  induction trees generalizing work with
  | nil => simp
  | cons first trees ih =>
    have later : (work.add first).cell.contains tree = false ↔
        first ≠ tree ∧ work.cell.contains tree = false := by
      simp only [Work.add, ← Bool.not_eq_true, Cell.contains_add, not_or, ne_eq]
    rw [List.foldl_cons, ih, mem_pending_add, later, List.mem_cons]
    grind

/-! ## Closing -/

/-- What holds whenever the next pending tree is taken up. -/
structure Closing (g : Grammar) (base : Tree → Prop) (cell : Cell) (pending : List Tree) :
    Prop where
  held : ∀ tree ∈ pending, cell.contains tree = true
  towers : ∀ tree, cell.contains tree = true → Tower g base tree
  based : ∀ tree, base tree → cell.contains tree = true
  climbed : ∀ tree, cell.contains tree = true → tree ∈ pending ∨ Climbed g cell tree

theorem closing_climb {parser : Parser} {span : Span} {base : Tree → Prop} {cell : Cell}
    {tree : Tree} {pending : List Tree} {work : Work}
    (inv : Closing parser.grammar base cell (tree :: pending))
    (h : parser.climb span tree ⟨cell, pending⟩ = .ok work) :
    Closing parser.grammar base work.cell work.pending := by
  have here : cell.contains tree = true := inv.held tree (.head pending)
  have work_eq := eq_foldl_add_of_climb h
  generalize hmade : (parser.grammar.unitParents tree.symbol).map (fun parent =>
    Tree.node parent [tree]) = made at work_eq
  have mem_made (other : Tree) :
      other ∈ made ↔
        ∃ parent ∈ parser.grammar.unitParents tree.symbol, .node parent [tree] = other := by
    rw [← hmade, List.mem_map]
  have mem_cell (other : Tree) :
      work.cell.contains other = true ↔ other ∈ made ∨ cell.contains other = true := by
    rw [work_eq, cell_foldl_add, Cell.contains_foldl_add]
  have mem_pending (other : Tree) : other ∈ work.pending ↔
      other ∈ pending ∨ other ∈ made ∧ cell.contains other = false := by
    rw [work_eq, mem_pending_foldl_add]
  refine ⟨fun other mem => ?_, fun other mem => ?_, fun other mem => ?_, fun other mem => ?_⟩
  · rw [mem_cell]
    rcases (mem_pending other).mp mem with mem | ⟨mem, -⟩
    · exact .inr (inv.held other (.tail tree mem))
    · exact .inl mem
  · rcases (mem_cell other).mp mem with mem | mem
    · obtain ⟨parent, up, rfl⟩ := (mem_made other).mp mem
      exact .step (inv.towers tree here) up
    · exact inv.towers other mem
  · exact (mem_cell other).mpr (.inr (inv.based other mem))
  · cases known : cell.contains other with
    | false =>
      have mem := ((mem_cell other).mp mem).resolve_right (by simp [known])
      exact .inl ((mem_pending other).mpr (.inr ⟨mem, known⟩))
    | true =>
      rcases inv.climbed other known with mem | climbed
      · rcases List.mem_cons.mp mem with rfl | mem
        -- The tree that was taken up is no longer pending, and all that it makes is there now.
        · refine .inr fun parent up => (mem_cell _).mpr (.inl ((mem_made _).mpr ⟨parent, up, rfl⟩))
        · exact .inl ((mem_pending other).mpr (.inl mem))
      · exact .inr fun parent up => (mem_cell _).mpr (.inr (climbed parent up))

theorem closing_close {parser : Parser} {span : Span} {base : Tree → Prop} {cell final : Cell}
    {pending : List Tree} (inv : Closing parser.grammar base cell pending)
    (h : parser.close span cell pending = .ok final) : Closing parser.grammar base final [] := by
  fun_induction parser.close span cell pending with
  | case1 cell =>
    cases h
    exact inv
  | case2 => nomatch h
  | case3 cell tree pending work hwork ih => exact ih (closing_climb inv hwork) h

/-- A closed cell holds the trees that it held before, with unit rules on top. -/
theorem contains_closeCell {parser : Parser} {span : Span} {cell final : Cell}
    (h : parser.closeCell span cell = .ok final) (tree : Tree) :
    final.contains tree = true ↔
      Tower parser.grammar (fun base => cell.contains base = true) tree := by
  have start : Closing parser.grammar (fun base => cell.contains base = true) cell
      cell.toList.reverse :=
    ⟨by simp [Cell.mem_toList], fun _ h => .base h, fun _ => id,
      by simp +contextual [Cell.mem_toList]⟩
  have inv := closing_close start h
  constructor
  · exact inv.towers tree
  · intro tower
    induction tower with
    | base held => exact inv.based _ held
    | step _ up ih => exact ((inv.climbed _ ih).resolve_left (by simp)) _ up

end Parser

end ChartParser
