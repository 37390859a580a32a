import ChartParser.Search
import Mathlib.Data.Set.Card
import Mathlib.Logic.Relation
import Mathlib.Order.Nat

/-! # Breadth-first search is complete

A level holds the elements with the same distance from the start. So a search meets all that the
start leads to, if its depth exceeds the distances.
-/

namespace ChartParser.Search

open Relation

variable {α : Type} {step : α → List α} {start : List α} {n m : Nat} {a b : α}

/-- The element `b` is reached from `a` in any number of steps. -/
def LeadsTo (step : α → List α) : α → α → Prop := ReflTransGen fun a b => b ∈ step a

/-! ## Distances -/

/-- A path of `n` steps leads from the start to the element. -/
inductive InSteps (step : α → List α) (start : List α) : Nat → α → Prop
  | start {a : α} : a ∈ start → InSteps step start 0 a
  | step {n : Nat} {a b : α} : InSteps step start n a → b ∈ step a → InSteps step start (n + 1) b

/-- The shortest path from the start to the element has `n` steps. -/
def AtDistance (step : α → List α) (start : List α) (n : Nat) (a : α) : Prop :=
  IsLeast {k | InSteps step start k a} n

theorem exists_inSteps_iff : (∃ n, InSteps step start n b) ↔ ∃ a ∈ start, LeadsTo step a b := by
  constructor
  · rintro ⟨n, path⟩
    induction path with
    | start mem => exact ⟨_, mem, .refl⟩
    | step _ edge ih =>
      obtain ⟨a, mem, path⟩ := ih
      exact ⟨a, mem, path.tail edge⟩
  · rintro ⟨a, mem, path⟩
    induction path with
    | refl => exact ⟨0, .start mem⟩
    | tail _ edge ih =>
      obtain ⟨n, path⟩ := ih
      exact ⟨n + 1, .step path edge⟩

theorem exists_atDistance (path : InSteps step start n a) : ∃ m ≤ n, AtDistance step start m a := by
  classical
  have least : AtDistance step start _ a := Nat.isLeast_find ⟨n, path⟩
  exact ⟨_, least.2 path, least⟩

theorem exists_atDistance_iff :
    (∃ n, AtDistance step start n b) ↔ ∃ a ∈ start, LeadsTo step a b := by
  rw [← exists_inSteps_iff]
  constructor
  · rintro ⟨n, least⟩
    exact ⟨n, least.1⟩
  · rintro ⟨n, path⟩
    obtain ⟨m, -, least⟩ := exists_atDistance path
    exact ⟨m, least⟩

theorem atDistance_zero : AtDistance step start 0 a ↔ a ∈ start := by
  constructor
  · rintro ⟨path, -⟩
    cases path with
    | start mem => exact mem
  · exact fun mem => ⟨.start mem, fun _ _ => Nat.zero_le _⟩

/-- The next distance is that of what steps lead to, as far as it is no nearer. -/
theorem atDistance_succ : AtDistance step start (n + 1) b ↔
    (¬ ∃ m ≤ n, AtDistance step start m b) ∧ ∃ a, AtDistance step start n a ∧ b ∈ step a := by
  constructor
  · rintro ⟨path, least⟩
    refine ⟨?_, ?_⟩
    · rintro ⟨m, near, path', -⟩
      have := least path'
      omega
    · cases path with
      | @step _ a _ path edge =>
        obtain ⟨m, le, nearest⟩ := exists_atDistance path
        have := least (InSteps.step nearest.1 edge)
        obtain rfl : m = n := by omega
        exact ⟨a, nearest, edge⟩
  · rintro ⟨far, a, ⟨path, -⟩, edge⟩
    refine ⟨InSteps.step path edge, fun k path' => ?_⟩
    by_contra near
    obtain ⟨m, le, nearest⟩ := exists_atDistance path'
    exact far ⟨m, by omega, nearest⟩

/-- There is no distance beyond one at which nothing is. -/
theorem exists_atDistance_of_le (far : AtDistance step start m b) (le : n ≤ m) :
    ∃ a, AtDistance step start n a := by
  induction m generalizing b with
  | zero => exact ⟨b, by rwa [Nat.le_zero.mp le]⟩
  | succ m ih =>
    rcases Nat.lt_or_eq_of_le le with less | rfl
    · obtain ⟨-, a, near, -⟩ := atDistance_succ.mp far
      exact ih near (Nat.le_of_lt_succ less)
    · exact ⟨b, far⟩

theorem injective_of_atDistance {k : Nat} {element : Fin k → α}
    (here : ∀ i : Fin k, AtDistance step start i (element i)) : Function.Injective element := by
  intro i j same
  have there := here j
  rw [← same] at there
  exact Fin.ext ((here i).unique there)

theorem lt_ncard_of_atDistance (finite : {b | ∃ a ∈ start, LeadsTo step a b}.Finite)
    (far : AtDistance step start m b) : m < {b | ∃ a ∈ start, LeadsTo step a b}.ncard := by
  -- Something is at each of the distances up to `m`, and no element is at two of them.
  have each (i : Fin (m + 1)) : ∃ a, AtDistance step start i a :=
    exists_atDistance_of_le far (Nat.le_of_lt_succ i.isLt)
  choose element here using each
  have subset : Set.range element ⊆ {b | ∃ a ∈ start, LeadsTo step a b} := by
    rintro _ ⟨i, rfl⟩
    exact exists_atDistance_iff.mp ⟨i, here i⟩
  have size := Set.ncard_le_ncard subset finite
  rw [Set.ncard_range_of_injective (injective_of_atDistance here), Nat.card_fin] at size
  omega

theorem le_length_of_atDistance {elements : List α} (complete : ∀ a, step a ≠ [] → a ∈ elements)
    (far : AtDistance step start m b) : m ≤ elements.length := by
  -- At each distance below `m`, some element has a step to what is next.
  have each (i : Fin m) : ∃ a, AtDistance step start i a ∧ step a ≠ [] := by
    obtain ⟨c, next⟩ := exists_atDistance_of_le far (Nat.succ_le_of_lt i.isLt)
    obtain ⟨-, a, here, edge⟩ := atDistance_succ.mp next
    exact ⟨a, here, List.ne_nil_of_mem edge⟩
  choose element here using each
  have distinct := List.nodup_ofFn.mpr (injective_of_atDistance fun i => (here i).1)
  have subset : List.ofFn element ⊆ elements := by
    intro a mem
    obtain ⟨i, rfl⟩ := (List.mem_ofFn' _ _).mp mem
    exact complete _ (here i).2
  simpa using (distinct.subperm subset).length_le

/-! ## Levels -/

variable [Ord α] [Std.TransOrd α]
variable {seen level : Std.TreeSet α}

/-- What is seen once all that is nearer has been followed. -/
structure Leveled (step : α → List α) (start : List α) (n : Nat) (seen level : Std.TreeSet α) :
    Prop where
  level : ∀ a, a ∈ level ↔ AtDistance step start n a
  seen : ∀ a, a ∈ seen ↔ ∃ m ≤ n, AtDistance step start m a

theorem not_atDistance_of_isEmpty (leveled : Leveled step start n seen level)
    (none : level.isEmpty = true) (le : n ≤ m) : ¬ AtDistance step start m b := by
  intro far
  obtain ⟨a, here⟩ := exists_atDistance_of_le far le
  have some := Std.TreeSet.isEmpty_eq_false_iff_exists_mem.mpr ⟨a, (leveled.level a).mpr here⟩
  simp [none] at some

theorem mem_seen_of_isEmpty (leveled : Leveled step start n seen level)
    (none : level.isEmpty = true) : b ∈ seen ↔ ∃ m, AtDistance step start m b := by
  rw [leveled.seen]
  constructor
  · exact fun ⟨m, _, h⟩ => ⟨m, h⟩
  · rintro ⟨m, h⟩
    refine ⟨m, ?_, h⟩
    by_contra far
    exact not_atDistance_of_isEmpty leveled none (by omega) h

omit [Std.TransOrd α] in
theorem levels_of_isEmpty (none : level.isEmpty = true) (depth : Nat) :
    levels step depth seen level = [] := by
  cases depth with
  | zero => rfl
  | succ depth => simp [levels, none]

variable [Std.LawfulEqOrd α]

theorem mem_nextLevel {b : α} :
    b ∈ nextLevel step seen level ↔ b ∉ seen ∧ ∃ a ∈ level, b ∈ step a := by
  classical
  simp only [nextLevel, Std.TreeSet.mem_ofList, List.contains_iff_mem, List.mem_filter,
    List.mem_flatMap, Std.TreeSet.mem_toList, Bool.not_eq_true', ← Bool.not_eq_true,
    Std.TreeSet.contains_iff_mem]
  exact And.comm

theorem mem_insertMany_nextLevel {b : α} :
    b ∈ seen.insertMany (nextLevel step seen level).toList ↔
      b ∈ seen ∨ b ∈ nextLevel step seen level := by
  classical
  rw [Std.TreeSet.mem_insertMany_list, List.contains_iff_mem, Std.TreeSet.mem_toList]

theorem leveled_start (step : α → List α) (start : List α) :
    Leveled step start 0 (.ofList start) (.ofList start) := by
  classical
  have mem (a : α) : a ∈ Std.TreeSet.ofList start ↔ AtDistance step start 0 a := by
    rw [Std.TreeSet.mem_ofList, List.contains_iff_mem, atDistance_zero]
  refine ⟨mem, fun a => (mem a).trans ⟨fun h => ⟨0, Nat.le_refl 0, h⟩, ?_⟩⟩
  rintro ⟨m, le, h⟩
  rwa [Nat.le_zero.mp le] at h

theorem leveled_next (leveled : Leveled step start n seen level) :
    Leveled step start (n + 1) (seen.insertMany (nextLevel step seen level).toList)
      (nextLevel step seen level) := by
  have next (a : α) : a ∈ nextLevel step seen level ↔ AtDistance step start (n + 1) a := by
    simp only [mem_nextLevel, leveled.seen, leveled.level, atDistance_succ]
  refine ⟨next, fun a => ?_⟩
  rw [mem_insertMany_nextLevel, leveled.seen, next]
  constructor
  · rintro (⟨m, le, h⟩ | h)
    · exact ⟨m, by omega, h⟩
    · exact ⟨n + 1, Nat.le_refl _, h⟩
  · rintro ⟨m, le, h⟩
    rcases Nat.lt_or_eq_of_le le with less | rfl
    · exact .inl ⟨m, Nat.le_of_lt_succ less, h⟩
    · exact .inr h

theorem mem_levels_iff (leveled : Leveled step start n seen level) (depth : Nat) :
    b ∈ (levels step depth seen level).flatten ↔
      ∃ m, n ≤ m ∧ m < n + depth ∧ AtDistance step start m b := by
  induction depth generalizing n seen level with
  | zero =>
    rw [levels, List.flatten_nil]
    simp only [List.not_mem_nil, false_iff]
    rintro ⟨m, le, less, -⟩
    omega
  | succ depth ih =>
    unfold levels
    split
    · next none =>
      simp only [List.flatten_nil, List.not_mem_nil, false_iff]
      rintro ⟨m, le, -, far⟩
      exact not_atDistance_of_isEmpty leveled none le far
    · simp only [List.flatten_cons, List.mem_append, Std.TreeSet.mem_toList, leveled.level,
        ih (leveled_next leveled)]
      constructor
      · rintro (here | ⟨m, le, less, far⟩)
        · exact ⟨n, Nat.le_refl n, by omega, here⟩
        · exact ⟨m, by omega, by omega, far⟩
      · rintro ⟨m, le, less, h⟩
        rcases Nat.eq_or_lt_of_le le with rfl | more
        · exact .inl h
        · exact .inr ⟨m, by omega, by omega, h⟩

theorem mem_visited_iff (depth : Nat) :
    b ∈ visited step depth start ↔ ∃ m < depth, AtDistance step start m b := by
  simp [visited, mem_levels_iff (leveled_start step start)]

/-- The search meets exactly what the start leads to. -/
theorem mem_reached {elements : List α} {depth : Nat} (complete : ∀ a, step a ≠ [] → a ∈ elements)
    (enough : elements.length < depth) :
    b ∈ reached step depth start ↔ ∃ a ∈ start, LeadsTo step a b := by
  classical
  rw [reached, Std.TreeSet.mem_ofList, List.contains_iff_mem, mem_visited_iff,
    ← exists_atDistance_iff]
  constructor
  · exact fun ⟨m, _, h⟩ => ⟨m, h⟩
  · rintro ⟨m, h⟩
    have := le_length_of_atDistance complete h
    exact ⟨m, by omega, h⟩

end ChartParser.Search
