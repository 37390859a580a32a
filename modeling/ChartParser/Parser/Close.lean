import ChartParser.Parser.Basic
import ChartParser.Parser.Cell
import ChartParser.Proofs.Except
import ChartParser.Proofs.UnitRules

/-! # Closing cells under unit rules

A tree that is new in a cell is pending until its unit rules have been followed. Each of them makes
a tree that may be new in turn. Without a cycle of unit rules this comes to an end.
-/

namespace ChartParser

open Grammar

namespace Parser

/-- A cell, and those of its trees whose unit rules are still to be followed. -/
structure Work where
  cell : Cell
  pending : List Tree

/-- Adds a tree to the cell under its root. A tree that is new is the next one to be followed. -/
def push (parser : Parser) (span : Span) (work : Work) (symbol : Symbol) (tree : Tree)
    (root : tree.symbol = symbol) : Except ParseError Work := do
  let cell ← work.cell.insertWithin parser.limit span symbol tree root
  return ⟨cell, if work.cell.contains tree then work.pending else tree :: work.pending⟩

/-- Follows the unit rules of a tree. -/
def climb (parser : Parser) (span : Span) (tree : Tree) (work : Work) : Except ParseError Work :=
  (parser.grammar.unitParents tree.symbol).foldlM
    (fun work parent => parser.push span work parent (.node parent [tree]) rfl) work

/-! ## Termination -/

/-- A bound on how many trees chains of unit rules can make of a tree with this root. -/
noncomputable def weight (g : Grammar) (symbol : Symbol) : Nat :=
  (g.rules.length + 1).pow (g.height symbol)

/-- The bounds for several roots together. -/
noncomputable def weights (g : Grammar) : List Symbol → Nat
  | [] => 0
  | symbol :: more => weight g symbol + weights g more

/-- A bound on how many trees are still to be followed. -/
noncomputable def load (g : Grammar) (pending : List Tree) : Nat :=
  weights g (pending.map Tree.symbol)

theorem load_push_le {parser : Parser} {span : Span} {work work' : Work} {symbol : Symbol}
    {tree : Tree} {root : tree.symbol = symbol}
    (h : parser.push span work symbol tree root = .ok work') :
    load parser.grammar work'.pending ≤
      weight parser.grammar tree.symbol + load parser.grammar work.pending := by
  unfold push at h
  obtain ⟨cell, -, h⟩ := bind_eq_ok.mp h
  rw [← Except.ok.inj h]
  dsimp only
  split
  · omega
  · exact Nat.le_refl _

/-- The trees that unit rules make of one tree weigh less than the tree. -/
theorem weight_unitParents_lt {g : Grammar} (acyclic : g.UnitAcyclic) (symbol : Symbol) :
    weights g (g.unitParents symbol) < weight g symbol := by
  have bound (parents : List Symbol) (h : ∀ parent ∈ parents, parent ∈ g.unitParents symbol) :
      (g.rules.length + 1) * weights g parents ≤ parents.length * weight g symbol := by
    induction parents with
    | nil => simp [weights]
    | cons parent parents ih =>
      have lower : g.height parent + 1 ≤ g.height symbol := height_lt acyclic (h parent (.head _))
      have first : (g.rules.length + 1) * weight g parent ≤ weight g symbol :=
        calc (g.rules.length + 1) * weight g parent
            = (g.rules.length + 1).pow (g.height parent + 1) := Nat.mul_comm _ _
          _ ≤ weight g symbol := Nat.pow_le_pow_right (by omega) lower
      have others := ih fun other mem => h other (.tail _ mem)
      rw [weights, List.length_cons, Nat.mul_add, Nat.add_mul parents.length]
      omega
  have all := bound _ fun _ h => h
  have few := Nat.mul_le_mul_right (weight g symbol) (g.unitParents_length_le symbol)
  have pos : 0 < weight g symbol := Nat.pow_pos (by omega)
  apply Nat.lt_of_mul_lt_mul_left (a := g.rules.length + 1)
  calc (g.rules.length + 1) * weights g (g.unitParents symbol)
      ≤ g.rules.length * weight g symbol := Nat.le_trans all few
    _ < (g.rules.length + 1) * weight g symbol := Nat.mul_lt_mul_of_pos_right (by omega) pos

theorem load_climb_lt {parser : Parser} {span : Span} {tree : Tree} {work work' : Work}
    (h : parser.climb span tree work = .ok work') :
    load parser.grammar work'.pending < load parser.grammar (tree :: work.pending) := by
  have bound (parents : List Symbol) {work work' : Work}
      (h : parents.foldlM (fun work parent =>
        parser.push span work parent (.node parent [tree]) rfl) work = .ok work') :
      load parser.grammar work'.pending ≤
        weights parser.grammar parents + load parser.grammar work.pending := by
    induction parents generalizing work with
    | nil =>
      cases h
      simp [weights]
    | cons parent parents ih =>
      rw [List.foldlM_cons] at h
      obtain ⟨next, hnext, h⟩ := bind_eq_ok.mp h
      have first := load_push_le hnext
      have others := ih h
      simp only [weights, Tree.symbol] at first ⊢
      omega
  have added := bound _ h
  have fewer := weight_unitParents_lt ((unitCycle?_eq_none_iff _).mp parser.acyclic) tree.symbol
  simp only [load, List.map_cons, weights] at added ⊢
  omega

/-! ## Closing -/

/-- Follows the unit rules of pending trees until no tree is pending. -/
def close (parser : Parser) (span : Span) (cell : Cell) : List Tree → Except ParseError Cell
  | [] => .ok cell
  | tree :: pending =>
    match _h : parser.climb span tree ⟨cell, pending⟩ with
    | .error error => .error error
    | .ok work => parser.close span work.cell work.pending
termination_by pending => load parser.grammar pending
decreasing_by exact load_climb_lt _h

/-- The cell with all that unit rules make of its trees. The last tree is followed first. -/
def closeCell (parser : Parser) (span : Span) (cell : Cell) : Except ParseError Cell :=
  parser.close span cell cell.toList.reverse

end Parser

end ChartParser
