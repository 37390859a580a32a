import ChartParser.Event
import ChartParser.Grammar.Basic
import ChartParser.Proofs.Count

/-! # Cycles of unit rules

With such a cycle a sentence can have infinitely many trees. The search for one goes in depth and
marks the symbols that it meets.
-/

namespace ChartParser.Grammar

/-- The non-terminals that `symbol` becomes by a unit rule, in rule order. -/
def unitChildren (g : Grammar) (symbol : Symbol) : List Symbol :=
  (g.rulesFor symbol).filterMap Rule.unaryNonterm?

/-- The heads of unit rules, in ascending order. -/
def unitHeads (g : Grammar) : List Symbol :=
  (Std.TreeSet.ofList ((g.rules.filter (·.unaryNonterm?.isSome)).map Rule.head)).toList

/-- The bodies of unit rules, in rule order. -/
def unitBodies (g : Grammar) : List Symbol := g.rules.filterMap Rule.unaryNonterm?

theorem unitChildren_subset (g : Grammar) (symbol : Symbol) :
    ∀ child ∈ g.unitChildren symbol, child ∈ g.unitBodies := by
  intro child h
  obtain ⟨rule, hrule, hchild⟩ := List.mem_filterMap.mp h
  exact List.mem_filterMap.mpr ⟨rule, (List.mem_filter.mp hrule).1, hchild⟩

/-! ## The search -/

/-- An active symbol is on the path. A symbol is done when all that it leads to has been met. -/
inductive Mark
  | active
  | done
  deriving DecidableEq

abbrev Marks := Std.TreeMap Symbol Mark

/-- A symbol on the path, with the children that are still to be followed. -/
structure Frame (g : Grammar) where
  symbol : Symbol
  rest : List Symbol
  known : ∀ child ∈ rest, child ∈ g.unitBodies

/-- The frame of a symbol that has just been met. -/
def Frame.enter (g : Grammar) (symbol : Symbol) : Frame g where
  symbol
  rest := g.unitChildren symbol
  known := g.unitChildren_subset symbol

/-- The symbols of a path that has the last symbol first, in the order in which they were met. -/
def pathSymbols {g : Grammar} (path : List (Frame g)) : List Symbol :=
  (path.map Frame.symbol).reverse

/-- The cycle that `symbol` closes: the path from where it stands, and `symbol` again. -/
def closeCycle (path : List Symbol) (symbol : Symbol) : List Symbol :=
  path.drop ((path.findIdx? (· == symbol)).getD 0) ++ [symbol]

/-- How many unit rules have a body that is not marked yet. -/
def unmarked (g : Grammar) (marks : Marks) : Nat :=
  g.unitBodies.countP fun symbol => !marks.contains symbol

/-- How many steps are left on a path if nothing more is entered. -/
def pathSize {g : Grammar} : List (Frame g) → Nat
  | [] => 0
  | frame :: path => frame.rest.length + 1 + pathSize path

theorem unmarked_insert_le (g : Grammar) (marks : Marks) (symbol : Symbol) (mark : Mark) :
    g.unmarked (marks.insert symbol mark) ≤ g.unmarked marks := by
  apply List.countP_mono_left
  intro other _ h
  rw [Std.TreeMap.contains_insert] at h
  simp_all

theorem unmarked_insert_lt (g : Grammar) {marks : Marks} {symbol : Symbol} (mark : Mark)
    (known : symbol ∈ g.unitBodies) (new : marks[symbol]? = none) :
    g.unmarked (marks.insert symbol mark) < g.unmarked marks := by
  apply countP_lt_countP _ known
  · simp [Std.TreeMap.contains_eq_isSome_getElem?, new]
  · simp
  · intro other _ h
    rw [Std.TreeMap.contains_insert] at h
    simp_all

/-- Follows a path to its end, the last symbol first. The answer is the first cycle met, or the
marks of all that the path leads to. -/
def follow (g : Grammar) (marks : Marks) : List (Frame g) → Except (List Symbol) Marks
  | [] => .ok marks
  | ⟨symbol, [], _⟩ :: path => g.follow (marks.insert symbol .done) path
  | ⟨symbol, child :: rest, known⟩ :: path =>
    let path := ⟨symbol, rest, fun other h => known other (.tail child h)⟩ :: path
    match _new : marks[child]? with
    | some .done => g.follow marks path
    | some .active => .error (closeCycle (pathSymbols path) child)
    | none => g.follow (marks.insert child .active) (.enter g child :: path)
termination_by path => (g.unmarked marks, pathSize path)
decreasing_by
  · rw [Prod.lex_def]
    have := unmarked_insert_le g marks symbol .done
    simp only [pathSize]
    omega
  · apply Prod.Lex.right
    simp [pathSize]
  · exact Prod.Lex.left _ _ (g.unmarked_insert_lt _ (known child (.head rest)) _new)

/-- Follows everything that `symbol` leads to, unless that has been done. -/
def explore (g : Grammar) (marks : Marks) (symbol : Symbol) : Except (List Symbol) Marks :=
  if marks.contains symbol then .ok marks
  else g.follow (marks.insert symbol .active) [.enter g symbol]

/-- A cycle of unit rules, from a symbol to itself. -/
def unitCycle? (g : Grammar) : Option (List Symbol) :=
  match g.unitHeads.foldlM g.explore (∅ : Marks) with
  | .error cycle => some cycle
  | .ok _ => none

/-- What the search for a cycle reports. -/
def unitCycleEvents (g : Grammar) : List Event :=
  match g.unitCycle? with
  | some cycle => [.unitCycle (cycle.length - 1)]
  | none => []

end ChartParser.Grammar
