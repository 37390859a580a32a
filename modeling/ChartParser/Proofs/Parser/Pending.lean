import ChartParser.Proofs.Parser.Close
import ChartParser.Proofs.Steps
import Mathlib.Data.List.Nodup

/-! # Pending trees

Closing a cell takes up its pending trees one by one and adds what unit rules make of them. Without
a cycle of unit rules this comes to an end, and no tree is pending more than once.
-/

namespace ChartParser

open Grammar Relation

namespace Parser

variable {g : Grammar} {limit : Option Nat} {span : Span}

/-! ## Steps -/

/-- All that one unit rule makes of a tree. -/
def raised (g : Grammar) (tree : Tree) : List Tree :=
  (g.unitParents tree.symbol).map fun parent => .node parent [tree]

/-- Where the closing of a cell stands. -/
structure Stage where
  cell : Cell
  pending : List Tree
  /-- What unit rules make of the tree taken up last, as far as it is still to be added. -/
  made : List Tree
  /-- All trees that have been pending. -/
  pushed : List Tree

/-- All trees of the cell are pending. -/
def Stage.start (cell : Cell) : Stage :=
  ⟨cell, cell.toList.reverse, [], cell.toList.reverse⟩

/-- One step: a pending tree is taken up, or a tree made of it is added. -/
inductive CloseStep (g : Grammar) (limit : Option Nat) (span : Span) : Stage → Stage → Prop
  | take {cell : Cell} {tree : Tree} {pending pushed : List Tree} :
      CloseStep g limit span ⟨cell, tree :: pending, [], pushed⟩
        ⟨cell, pending, raised g tree, pushed⟩
  | pass {cell next : Cell} {tree : Tree} {pending made pushed : List Tree} :
      cell.contains tree = true → cell.addWithin limit span tree = .ok next →
      CloseStep g limit span ⟨cell, pending, tree :: made, pushed⟩ ⟨next, pending, made, pushed⟩
  | push {cell next : Cell} {tree : Tree} {pending made pushed : List Tree} :
      cell.contains tree = false → cell.addWithin limit span tree = .ok next →
      CloseStep g limit span ⟨cell, pending, tree :: made, pushed⟩
        ⟨next, tree :: pending, made, tree :: pushed⟩

theorem closeStep_unique {before after other : Stage} (one : CloseStep g limit span before after)
    (two : CloseStep g limit span before other) : after = other := by
  cases one with
  | take =>
    cases two
    rfl
  | pass known added =>
    cases two with
    | pass _ added' =>
      cases added.symm.trans added'
      rfl
    | push new => simp [known] at new
  | push new added =>
    cases two with
    | pass known => simp [known] at new
    | push _ added' =>
      cases added.symm.trans added'
      rfl

/-- A tree that is too many cannot be added. -/
theorem ne_closeStep {cell : Cell} {tree : Tree} {pending made pushed : List Tree}
    {error : ParseError} {next : Stage}
    (failed : cell.addWithin limit span tree = .error error) :
    ¬ CloseStep g limit span ⟨cell, pending, tree :: made, pushed⟩ next := by
  rintro (_ | ⟨_, added⟩ | ⟨_, added⟩)
  · nomatch failed.symm.trans added
  · nomatch failed.symm.trans added

/-! ## The end -/

theorem weight_pos (g : Grammar) (symbol : Symbol) : 0 < weight g symbol := Nat.pow_pos (by omega)

theorem load_nil (g : Grammar) : load g [] = 0 := rfl

theorem load_cons (g : Grammar) (tree : Tree) (trees : List Tree) :
    load g (tree :: trees) = weight g tree.symbol + load g trees := rfl

theorem load_raised_lt (acyclic : g.UnitAcyclic) (tree : Tree) :
    load g (raised g tree) < weight g tree.symbol := by
  have roots : (raised g tree).map Tree.symbol = g.unitParents tree.symbol := by
    rw [raised, List.map_map]
    exact List.map_id _
  rw [load, roots]
  exact weight_unitParents_lt acyclic tree.symbol

/-- What unit rules can still make gets less, or else what is still to be added. -/
theorem terminates_closeStep (acyclic : g.UnitAcyclic) (limit : Option Nat) (span : Span) :
    Terminates (CloseStep g limit span) := by
  apply terminates_of_measure fun stage : Stage =>
    (load g stage.pending + load g stage.made, stage.made.length)
  intro before after step
  change Prod.Lex (· < ·) (· < ·) _ _
  rw [Prod.lex_def]
  cases step with
  | @take cell tree pending pushed =>
    have lower := load_raised_lt acyclic tree
    left
    simp only [load_cons, load_nil]
    omega
  | @pass cell next tree pending made pushed known added =>
    have := weight_pos g tree.symbol
    left
    simp only [load_cons]
    omega
  | push =>
    right
    simp only [load_cons, List.length_cons]
    omega

/-! ## No tree twice -/

/-- Trees that have been pending are in the cell, each of them once. -/
structure Logged (stage : Stage) : Prop where
  distinct : stage.pushed.Nodup
  held : ∀ tree ∈ stage.pushed, stage.cell.contains tree = true

theorem logged_start (cell : Cell) : Logged (.start cell) where
  distinct := List.nodup_reverse.mpr cell.nodup_toList
  held _ mem := Cell.mem_toList.mp (List.mem_reverse.mp mem)

theorem logged_step {before after : Stage} (step : CloseStep g limit span before after)
    (logged : Logged before) : Logged after := by
  cases step with
  | take => exact ⟨logged.distinct, logged.held⟩
  | pass known added =>
    cases Cell.eq_add_of_addWithin added
    exact ⟨logged.distinct, fun tree mem => Cell.contains_add.mpr (.inr (logged.held tree mem))⟩
  | @push cell next tree pending made pushed new added =>
    cases Cell.eq_add_of_addWithin added
    refine ⟨List.nodup_cons.mpr ⟨?_, logged.distinct⟩, fun other mem => ?_⟩
    · intro mem
      simpa [new] using logged.held tree mem
    · rcases List.mem_cons.mp mem with rfl | mem
      · exact Cell.contains_add.mpr (.inl rfl)
      · exact Cell.contains_add.mpr (.inr (logged.held other mem))

theorem logged_of_reaches {cell : Cell} {stage : Stage}
    (run : ReflTransGen (CloseStep g limit span) (.start cell) stage) : Logged stage := by
  induction run with
  | refl => exact logged_start cell
  | tail _ step logged => exact logged_step step logged

/-! ## The result -/

/-- The closing stops at this stage with this result. -/
def Stage.Answers (limit : Option Nat) (span : Span) (stage : Stage) :
    Except ParseError Cell → Prop
  | .ok cell => stage.cell = cell ∧ stage.pending = [] ∧ stage.made = []
  | .error error => ∃ tree made, stage.made = tree :: made ∧
      stage.cell.addWithin limit span tree = .error error

/-- The steps from here on lead to the result. -/
def Stage.Finds (g : Grammar) (limit : Option Nat) (span : Span) (stage : Stage)
    (result : Except ParseError Cell) : Prop :=
  Leads (CloseStep g limit span) stage (·.Answers limit span result)

/-- The steps from here on add all that is to be added, as far as the limit allows. -/
def Stage.Adds (g : Grammar) (limit : Option Nat) (span : Span) (stage : Stage) :
    Except ParseError Work → Prop
  | .ok work => ∃ pushed, ReflTransGen (CloseStep g limit span) stage
      ⟨work.cell, work.pending, [], pushed⟩
  | .error error => stage.Finds g limit span (.error error)

theorem adds_of_reaches {before after : Stage} {result : Except ParseError Work}
    (run : ReflTransGen (CloseStep g limit span) before after)
    (adds : after.Adds g limit span result) : before.Adds g limit span result := by
  cases result with
  | ok work =>
    obtain ⟨pushed, more⟩ := adds
    exact ⟨pushed, run.trans more⟩
  | error error => exact leads_of_reaches run adds

theorem push_adds (parser : Parser) (span : Span) (symbol : Symbol) (tree : Tree)
    (root : tree.symbol = symbol) (made pushed : List Tree) (work : Work) :
    match parser.push span work symbol tree root with
    | .ok next => ∃ pushed', CloseStep parser.grammar parser.limit span
        ⟨work.cell, work.pending, tree :: made, pushed⟩ ⟨next.cell, next.pending, made, pushed'⟩
    | .error error => work.cell.addWithin parser.limit span tree = .error error := by
  rw [push, Cell.insertWithin_eq_addWithin]
  cases added : work.cell.addWithin parser.limit span tree with
  | error error => rfl
  | ok cell =>
    cases known : work.cell.contains tree with
    | true => exact ⟨pushed, by simpa using .pass known added⟩
    | false => exact ⟨tree :: pushed, by simpa using .push known added⟩

theorem climb_adds (parser : Parser) (span : Span) (tree : Tree) (pushed : List Tree)
    (work : Work) :
    Stage.Adds parser.grammar parser.limit span
      ⟨work.cell, work.pending, raised parser.grammar tree, pushed⟩
      (parser.climb span tree work) := by
  unfold climb raised
  generalize parser.grammar.unitParents tree.symbol = parents
  induction parents generalizing work pushed with
  | nil => exact ⟨pushed, .refl⟩
  | cons parent parents ih =>
    have first := push_adds parser span parent (.node parent [tree]) rfl
      (parents.map fun parent => .node parent [tree]) pushed work
    rw [List.foldlM_cons, List.map_cons]
    cases result : parser.push span work parent (.node parent [tree]) rfl with
    | error error =>
      rw [result] at first
      exact ⟨_, .refl, _, _, rfl, first⟩
    | ok next =>
      rw [result] at first
      obtain ⟨pushed', step⟩ := first
      exact adds_of_reaches (.single step) (ih pushed' next)

theorem close_finds (parser : Parser) (span : Span) (cell : Cell) (pending pushed : List Tree) :
    Stage.Finds parser.grammar parser.limit span ⟨cell, pending, [], pushed⟩
      (parser.close span cell pending) := by
  fun_induction parser.close span cell pending generalizing pushed with
  | case1 cell => exact ⟨_, .refl, rfl, rfl, rfl⟩
  | case2 cell tree pending error failed =>
    have adds := climb_adds parser span tree pushed ⟨cell, pending⟩
    rw [failed] at adds
    exact leads_of_reaches (.single .take) adds
  | case3 cell tree pending work done ih =>
    have adds := climb_adds parser span tree pushed ⟨cell, pending⟩
    rw [done] at adds
    obtain ⟨pushed', run⟩ := adds
    exact leads_of_reaches (.head .take run) (ih pushed')

/-- The steps from all trees of a cell lead to the closed cell, or to the error. -/
theorem closeCell_finds (parser : Parser) (span : Span) (cell : Cell) :
    (Stage.start cell).Finds parser.grammar parser.limit span (parser.closeCell span cell) :=
  close_finds parser span cell _ _

end Parser

end ChartParser
