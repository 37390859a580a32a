import Std.Data.TreeSet

/-! # Breadth-first search

A search goes level by level: the elements of one level, in ascending order, and then the new
elements that they lead to.
-/

namespace ChartParser.Search

variable {α : Type} [Ord α]

/-- What the elements of a level lead to and no level so far holds. -/
def nextLevel (step : α → List α) (seen level : Std.TreeSet α) : Std.TreeSet α :=
  .ofList ((level.toList.flatMap step).filter (!seen.contains ·))

/-- The levels from `level` on, at most `depth` of them. -/
def levels (step : α → List α) : Nat → Std.TreeSet α → Std.TreeSet α → List (List α)
  | 0, _, _ => []
  | depth + 1, seen, level =>
    if level.isEmpty then []
    else
      let next := nextLevel step seen level
      level.toList :: levels step depth (seen.insertMany next.toList) next

/-- The elements that the search meets, in the order in which it follows their steps. -/
def visited (step : α → List α) (depth : Nat) (start : List α) : List α :=
  (levels step depth (.ofList start) (.ofList start)).flatten

/-- The set of the elements that the search meets. It is all that `start` leads to, if `depth`
exceeds every shortest distance. -/
def reached (step : α → List α) (depth : Nat) (start : List α) : Std.TreeSet α :=
  .ofList (visited step depth start)

end ChartParser.Search
