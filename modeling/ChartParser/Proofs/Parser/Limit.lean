import ChartParser.Proofs.NormalForm.Normalize
import ChartParser.Proofs.Parser.Forest
import Mathlib.Data.Set.Card

/-! # The limit on trees is exact

A cell counts its trees one by one. All of them belong to the forest of its span, so an error says
that the forest is too large, and a cell without an error shows that it is not.
-/

namespace ChartParser

open Grammar

/-- The derivation trees of the words of a span, with any non-terminal at the root. -/
def Grammar.forest (g : Grammar) (words : List String) (span : Span) : Set Tree :=
  {tree | tree.symbol.isNonterm = true ∧ g.Parses tree.symbol (span.slice words) tree}

/-- The error says that the trees of the span are more than the limit, and they are. -/
def Exceeded (limit : Nat) (trees : Set Tree) (span : Span) (error : ParseError) : Prop :=
  error = .overLimit span limit ∧ limit < trees.encard

variable {g : Grammar} {words : List String} {span : Span} {limit : Nat} {trees : Set Tree}

/-! ## Counting -/

namespace Cell

def held (cell : Cell) : Set Tree := {tree | cell.contains tree = true}

theorem held_empty : empty.held = ∅ := by
  ext tree
  simp [held, contains_empty]

theorem held_add (cell : Cell) (tree : Tree) :
    (cell.add tree).held = Insert.insert tree cell.held := by
  ext other
  change (cell.add tree).contains other = true ↔ other = tree ∨ cell.contains other = true
  rw [contains_add, eq_comm]

/-- The cell holds some of the trees and counts them, and they are not more than the limit. -/
structure Fits (limit : Nat) (trees : Set Tree) (cell : Cell) : Prop where
  counted : cell.held.encard = cell.count
  subset : cell.held ⊆ trees
  count_le : cell.count ≤ limit

/-- The cell holds some of the trees and counts them. -/
structure Counts (trees : Set Tree) (cell : Cell) : Prop where
  counted : cell.held.encard = cell.count
  subset : cell.held ⊆ trees

theorem counts_empty (trees : Set Tree) : Counts trees empty := by
  refine ⟨?_, ?_⟩
  · rw [held_empty, Set.encard_empty]
    rfl
  · rw [held_empty]
    exact Set.empty_subset trees

theorem fits_empty (limit : Nat) (trees : Set Tree) : Fits limit trees empty :=
  ⟨(counts_empty trees).counted, (counts_empty trees).subset, Nat.zero_le limit⟩

theorem counted_add {cell : Cell} (counted : cell.held.encard = cell.count) (tree : Tree) :
    (cell.add tree).held.encard = (cell.add tree).count := by
  rw [held_add]
  cases known : cell.contains tree with
  | true =>
    have same : Insert.insert tree cell.held = cell.held := Set.insert_eq_of_mem known
    rw [same, counted]
    simp [count_add, known]
  | false =>
    have new : tree ∉ cell.held := by simp [held, known]
    rw [Set.encard_insert_of_notMem new, counted]
    simp [count_add, known]

theorem counts_add {cell : Cell} {tree : Tree} (counts : Counts trees cell)
    (mem : tree ∈ trees) : Counts trees (cell.add tree) := by
  refine ⟨counted_add counts.counted tree, ?_⟩
  rw [held_add]
  exact Set.insert_subset mem counts.subset

theorem addWithin_ends {cell : Cell} {tree : Tree} (fits : Fits limit trees cell)
    (mem : tree ∈ trees) :
    Ends (Fits limit trees) (Exceeded limit trees span)
      (cell.addWithin (some limit) span tree) := by
  obtain ⟨counted, subset⟩ := counts_add ⟨fits.counted, fits.subset⟩ mem
  rw [addWithin_some]
  split
  · next beyond =>
    refine ⟨rfl, lt_of_lt_of_le ?_ (Set.encard_le_encard subset)⟩
    rw [counted]
    exact_mod_cast beyond
  · next few => exact ⟨counted, subset, by omega⟩

end Cell

namespace Parser

/-! ## Closing -/

/-- What holds while a cell is closed. -/
structure Fitting (limit : Nat) (trees : Set Tree) (work : Work) : Prop where
  fits : Cell.Fits limit trees work.cell
  pending : ∀ tree ∈ work.pending, tree ∈ trees

variable {parser : Parser}

theorem push_ends (limited : parser.limit = some limit) {work : Work} {symbol : Symbol}
    {tree : Tree} (root : tree.symbol = symbol) (fitting : Fitting limit trees work)
    (mem : tree ∈ trees) :
    Ends (Fitting limit trees) (Exceeded limit trees span)
      (parser.push span work symbol tree root) := by
  rw [push, limited, Cell.insertWithin_eq_addWithin]
  apply ends_bind (Cell.addWithin_ends fitting.fits mem)
  intro cell fits
  refine ⟨fits, ?_⟩
  dsimp only
  split
  · exact fitting.pending
  · exact List.forall_mem_cons.mpr ⟨mem, fitting.pending⟩

/-- Unit rules lead from trees of the set to trees of the set. -/
def UnitClosed (g : Grammar) (trees : Set Tree) : Prop :=
  ∀ tree ∈ trees, ∀ parent ∈ g.unitParents tree.symbol, .node parent [tree] ∈ trees

theorem climb_ends (limited : parser.limit = some limit) (closed : UnitClosed parser.grammar trees)
    {cell : Cell} {tree : Tree} {pending : List Tree}
    (fitting : Fitting limit trees ⟨cell, tree :: pending⟩) :
    Ends (Fitting limit trees) (Exceeded limit trees span)
      (parser.climb span tree ⟨cell, pending⟩) := by
  obtain ⟨mem, later⟩ := List.forall_mem_cons.mp fitting.pending
  apply ends_foldlM
  · intro work fitting parent up
    exact push_ends limited rfl fitting (closed tree mem parent up)
  · exact ⟨fitting.fits, later⟩

theorem close_ends (limited : parser.limit = some limit) (closed : UnitClosed parser.grammar trees)
    {cell : Cell} {pending : List Tree} (fitting : Fitting limit trees ⟨cell, pending⟩) :
    Ends (Cell.Fits limit trees) (Exceeded limit trees span) (parser.close span cell pending) := by
  fun_induction parser.close span cell pending with
  | case1 cell => exact fitting.fits
  | case2 cell tree pending error h =>
    have ends : Ends (Fitting limit trees) (Exceeded limit trees span)
        (parser.climb span tree ⟨cell, pending⟩) := climb_ends limited closed fitting
    rwa [h] at ends
  | case3 cell tree pending work h ih =>
    have ends : Ends (Fitting limit trees) (Exceeded limit trees span)
        (parser.climb span tree ⟨cell, pending⟩) := climb_ends limited closed fitting
    rw [h] at ends
    exact ih ends

/-! ## Cells -/

theorem mem_forest {tree : Tree} :
    tree ∈ g.forest words span ↔ Tower g (g.Grounded (span.slice words)) tree :=
  tower_grounded_iff.symm

theorem unitClosed_forest (g : Grammar) (words : List String) (span : Span) :
    UnitClosed g (g.forest words span) := by
  intro tree mem parent up
  exact mem_forest.mpr (.step (mem_forest.mp mem) up)

theorem cellFor_ends (limited : parser.limit = some limit) {chart : Chart Cell}
    (size : chart.size = words.length) (within : span.Within words.length)
    (ready : chart.Ready (RightCell parser.grammar words) span) :
    Ends (Cell.Fits limit (parser.grammar.forest words span))
      (Exceeded limit (parser.grammar.forest words span) span)
      (parser.cellFor words chart span) := by
  have direct : Ends (Cell.Fits limit (parser.grammar.forest words span))
      (Exceeded limit (parser.grammar.forest words span) span)
      ((directTrees parser.grammar words chart span).foldlM
        (Cell.addWithin (some limit) span) .empty) := by
    apply ends_foldlM _ (Cell.fits_empty limit _)
    intro cell fits tree mem
    have grounded := (mem_directTrees parser.relaxed size within ready).mp mem
    exact Cell.addWithin_ends fits (mem_forest.mpr (.base grounded))
  rw [cellFor_eq, limited]
  apply ends_bind direct
  intro cell fits
  refine close_ends limited (unitClosed_forest _ _ _) ⟨fits, fun tree mem => fits.subset ?_⟩
  rwa [List.mem_reverse, Cell.mem_toList] at mem

/-! ## Charts -/

/-- The cell holds the forest of its span, which is not larger than the limit. -/
def FullCell (g : Grammar) (words : List String) (limit : Nat) (span : Span) (cell : Cell) : Prop :=
  RightCell g words span cell ∧ (g.forest words span).encard ≤ limit

theorem held_eq_forest {cell : Cell} (right : RightCell g words span cell) :
    cell.held = g.forest words span := Set.ext right

theorem ready_of_full {chart : Chart Cell} (ready : chart.Ready (FullCell g words limit) span) :
    chart.Ready (RightCell g words) span := by
  intro part within shorter
  obtain ⟨cell, known, right, -⟩ := ready part within shorter
  exact ⟨cell, known, right⟩

theorem chart_limit_spec (limited : parser.limit = some limit) (words : List String) :
    Chart.FillPost words.length (FullCell parser.grammar words limit)
      (fun span => Exceeded limit (parser.grammar.forest words span) span)
      (parser.chart words) := by
  apply Chart.fillUntil_spec
  · intro chart span cell size within ready result
    have ends := cellFor_ends limited size within (ready_of_full ready)
    have right := rightCell_cellFor size within (ready_of_full ready) result
    rw [result] at ends
    refine ⟨right, ?_⟩
    rw [← held_eq_forest right, ends.counted]
    exact_mod_cast ends.count_le
  · intro chart span error size within ready result
    have ends := cellFor_ends limited size within (ready_of_full ready)
    rwa [result] at ends

/-! ## Sentences -/

theorem encard_setOf_mem {trees : List Tree} (distinct : trees.Nodup) :
    {tree | tree ∈ trees}.encard = trees.length := by
  classical
  rw [← List.coe_toFinset, Set.encard_coe_eq_coe_finsetCard, List.toFinset_card_of_nodup distinct]

/-- As many trees are returned as the sentence has. -/
theorem encard_parses_of_parse {found : List Tree} (h : parser.parse words = .ok found) :
    {tree | parser.grammar.Parses parser.grammar.start words tree}.encard = found.length := by
  obtain ⟨ascending, mem_found⟩ := trees_of_parse h
  rw [← encard_setOf_mem (Tree.nodup_of_ascending ascending)]
  congr 1
  ext tree
  exact (mem_found tree).symm

/-- The span has more derivation trees than the limit allows. -/
def OverLimit (g : Grammar) (words : List String) (limit : Nat) (span : Span) : Prop :=
  span.Within words.length ∧ limit < (g.forest words span).encard

/-- No other span with too many trees is shorter, or as long and further left. -/
def FirstOverLimit (g : Grammar) (words : List String) (limit : Nat) (span : Span) : Prop :=
  OverLimit g words limit span ∧
    ∀ other, OverLimit g words limit other → other = span ∨ span.Before other

theorem parse_ends (limited : parser.limit = some limit) (words : List String) :
    Ends (fun _ => ∀ span, ¬ OverLimit parser.grammar words limit span)
      (fun error => ∃ span, error = .overLimit span limit ∧
        FirstOverLimit parser.grammar words limit span)
      (parser.parse words) := by
  have spec := chart_limit_spec limited words
  unfold parse
  generalize parser.chart words = filled at spec
  obtain ⟨chart, error | error⟩ := filled
  · obtain ⟨-, holds⟩ := spec
    rintro span ⟨within, beyond⟩
    obtain ⟨cell, -, -, few⟩ := Chart.exists_of_holds holds within
    exact absurd beyond (not_lt.mpr few)
  · obtain ⟨before, span, after, order, -, holds, -, rfl, beyond⟩ := spec
    have within : span.Within words.length := Span.mem_all.mp (by simp [order])
    refine ⟨span, rfl, ⟨within, beyond⟩, fun other ⟨other_within, other_beyond⟩ => ?_⟩
    apply Span.eq_or_before order other_within
    intro mem
    obtain ⟨cell, -, -, few⟩ := holds other mem
    exact absurd other_beyond (not_lt.mpr few)

/-- A parser that has no limit, or one that no span exceeds, returns the forest. -/
theorem exists_parse_of_few (few : ∀ most ∈ parser.limit,
    ∀ span, ¬ OverLimit parser.grammar words most span) :
    ∃ trees, parser.parse words = .ok trees := by
  cases limited : parser.limit with
  | none => exact exists_parse_eq_ok limited words
  | some most =>
    have ends := parse_ends limited words
    cases result : parser.parse words with
    | ok trees => exact ⟨trees, rfl⟩
    | error error =>
      rw [result] at ends
      obtain ⟨span, -, beyond, -⟩ := ends
      exact absurd beyond (few most limited span)

theorem parse_unique {other : Parser} (same : other.grammar = parser.grammar)
    {trees others : List Tree} (h : parser.parse words = .ok trees)
    (h' : other.parse words = .ok others) : trees = others := by
  obtain ⟨ascending, mem_trees⟩ := trees_of_parse h
  obtain ⟨ascending', mem_others⟩ := trees_of_parse h'
  apply Tree.eq_of_ascending ascending ascending'
  intro tree
  rw [mem_trees, mem_others, same]

theorem exists_error_iff (limited : parser.limit = some limit) (words : List String) :
    (∃ error, parser.parse words = .error error) ↔
      ∃ span, OverLimit parser.grammar words limit span := by
  have ends := parse_ends limited words
  cases result : parser.parse words with
  | ok trees =>
    rw [result] at ends
    have few : ∀ span, ¬ OverLimit parser.grammar words limit span := ends
    simpa using few
  | error error =>
    rw [result] at ends
    obtain ⟨span, -, beyond, -⟩ := ends
    simpa using ⟨span, beyond⟩

theorem firstOverLimit_unique {other : Span} (first : FirstOverLimit g words limit span)
    (first' : FirstOverLimit g words limit other) : other = span := by
  rcases first.2 other first'.1 with same | before
  · exact same
  · rcases first'.2 span first.1 with same | before'
    · exact same.symm
    · exact absurd before' (Span.not_before_of_before before)

theorem parse_eq_error_iff (limited : parser.limit = some limit) {error : ParseError} :
    parser.parse words = .error error ↔
      ∃ span, error = .overLimit span limit ∧ FirstOverLimit parser.grammar words limit span := by
  have ends := parse_ends limited words
  constructor
  · intro h
    rwa [h] at ends
  · rintro ⟨span, rfl, first⟩
    cases result : parser.parse words with
    | ok trees =>
      rw [result] at ends
      exact absurd first.1 (ends span)
    | error error =>
      rw [result] at ends
      obtain ⟨other, rfl, first'⟩ := ends
      rw [firstOverLimit_unique first first']

/-- The limit stops parsers at the same span if all spans have as many trees with the one grammar
as with the other. -/
theorem parse_of_encard_eq {other : Parser} (limits : other.limit = parser.limit)
    (sizes : ∀ span,
      (other.grammar.forest words span).encard = (parser.grammar.forest words span).encard) :
    (∃ span most, parser.limit = some most ∧
      parser.parse words = .error (.overLimit span most) ∧
      other.parse words = .error (.overLimit span most)) ∨
    ∃ trees others, parser.parse words = .ok trees ∧ other.parse words = .ok others := by
  have same (most : Nat) : OverLimit other.grammar words most =
      OverLimit parser.grammar words most := by
    funext span
    rw [OverLimit, OverLimit, sizes]
  cases limited : parser.limit with
  | none =>
    obtain ⟨trees, trees_eq⟩ := exists_parse_eq_ok limited words
    obtain ⟨others, others_eq⟩ := exists_parse_eq_ok (limits.trans limited) words
    exact .inr ⟨trees, others, trees_eq, others_eq⟩
  | some most =>
    cases result : parser.parse words with
    | ok trees =>
      have ends := parse_ends limited words
      rw [result] at ends
      have few : ∀ most' ∈ other.limit, ∀ span, ¬ OverLimit other.grammar words most' span := by
        intro most' limited'
        rw [limits, limited, Option.mem_some_iff] at limited'
        subst limited'
        rw [same]
        exact ends
      obtain ⟨others, others_eq⟩ := exists_parse_of_few few
      exact .inr ⟨trees, others, rfl, others_eq⟩
    | error error =>
      obtain ⟨span, rfl, first⟩ := (parse_eq_error_iff limited).mp result
      refine .inl ⟨span, most, rfl, rfl, ?_⟩
      refine (parse_eq_error_iff (limits.trans limited)).mpr ⟨span, rfl, ?_⟩
      rwa [FirstOverLimit, same]

/-- With a higher limit there are no more spans with too many trees. -/
theorem parse_of_higher (limited : parser.limit = some limit) {larger : Parser}
    (same : larger.grammar = parser.grammar) (higher : ∀ most ∈ larger.limit, limit ≤ most)
    {found : List Tree} (h : parser.parse words = .ok found) : larger.parse words = .ok found := by
  have ends := parse_ends limited words
  rw [h] at ends
  obtain ⟨others, h'⟩ : ∃ others, larger.parse words = .ok others := by
    apply exists_parse_of_few
    rintro most most_eq span ⟨within, beyond⟩
    rw [same] at beyond
    refine ends span ⟨within, lt_of_le_of_lt ?_ beyond⟩
    exact_mod_cast higher most most_eq
  rw [h', parse_unique same h h']

/-- The limit stops a parse exactly where a span has too many trees, at the first such span. It
changes no result otherwise. -/
theorem parse_within_limit (made : make g (some limit) = .ok parser) (words : List String) :
    ∃ unlimited, make g none = .ok unlimited ∧
      ((∃ error, parser.parse words = .error error) ↔ ∃ span, OverLimit g words limit span) ∧
      (∀ error, parser.parse words = .error error →
        ∃ span, error = .overLimit span limit ∧ FirstOverLimit g words limit span) ∧
      ((∀ span, ¬ OverLimit g words limit span) → parser.parse words = unlimited.parse words) ∧
      ∀ (higher : Option Nat) (larger : Parser) (trees : List Tree),
        (∀ most ∈ higher, limit ≤ most) → make g higher = .ok larger →
        parser.parse words = .ok trees → larger.parse words = .ok trees := by
  obtain ⟨rfl, limited⟩ := of_make_eq_ok made
  have fails := exists_error_iff limited words
  obtain ⟨unlimited, made_none⟩ : ∃ unlimited, make parser.grammar none = .ok unlimited :=
    ⟨_, make_eq_ok none parser.relaxed parser.acyclic⟩
  obtain ⟨same, none⟩ := of_make_eq_ok made_none
  refine ⟨unlimited, made_none, fails, fun error h => ?_, fun few => ?_, ?_⟩
  · have ends := parse_ends limited words
    rwa [h] at ends
  · cases result : parser.parse words with
    | ok trees => exact (parse_of_higher limited same (by simp [none]) result).symm
    | error error =>
      obtain ⟨span, beyond⟩ := fails.mp ⟨error, result⟩
      exact absurd beyond (few span)
  · intro higher larger trees more larger_made h
    obtain ⟨same, rfl⟩ := of_make_eq_ok larger_made
    exact parse_of_higher limited same more h

/-- Three words have two bracketings, and one is allowed. -/
theorem parse_parens_within_limit : ∃ g parser, Sample.parens = .ok g ∧
    make g.normalize (some 1) = .ok parser ∧ ∃ unlimited, make g.normalize none = .ok unlimited ∧
      ((∃ error, parser.parse ["x", "x", "x"] = .error error) ↔
        ∃ span, OverLimit g.normalize ["x", "x", "x"] 1 span) ∧
      (∀ error, parser.parse ["x", "x", "x"] = .error error →
        ∃ span, error = .overLimit span 1 ∧ FirstOverLimit g.normalize ["x", "x", "x"] 1 span) ∧
      ((∀ span, ¬ OverLimit g.normalize ["x", "x", "x"] 1 span) →
        parser.parse ["x", "x", "x"] = unlimited.parse ["x", "x", "x"]) ∧
      ∀ (higher : Option Nat) (larger : Parser) (trees : List Tree),
        (∀ most ∈ higher, 1 ≤ most) → make g.normalize higher = .ok larger →
        parser.parse ["x", "x", "x"] = .ok trees → larger.parse ["x", "x", "x"] = .ok trees := by
  obtain ⟨g, parser, built, made⟩ := exists_parser_parens (some 1)
  exact ⟨g, parser, built, made, parse_within_limit made _⟩

end Parser

end ChartParser
