import ChartParser.Proofs.Search
import ChartParser.Proofs.Steps

/-! # The order of a search

Elements are visited in the order of their distances. The search is also a machine here, which takes
the steps of one element at a time and has no bound on its depth. It comes to an end if the start
leads to finitely many elements.
-/

namespace ChartParser.Search

open Relation

variable {α : Type} [Ord α]

/-! ## The machine -/

/-- Where a search stands. -/
structure Progress (α : Type) [Ord α] where
  /-- What is still to be followed on this level, in ascending order. -/
  level : List α
  /-- What the next level holds so far. -/
  next : Std.TreeSet α
  seen : Std.TreeSet α
  /-- The elements whose steps have been taken, in order. -/
  followed : List α

def Progress.start (start : List α) : Progress α :=
  ⟨(Std.TreeSet.ofList start).toList, ∅, .ofList start, []⟩

/-- Nothing is left to follow. -/
def Progress.Done (progress : Progress α) : Prop :=
  progress.level = [] ∧ progress.next.isEmpty = true

/-- A step leads to one more element. -/
def meet (found : Std.TreeSet α × Std.TreeSet α) (a : α) : Std.TreeSet α × Std.TreeSet α :=
  if found.2.contains a then found else (found.1.insert a, found.2.insert a)

/-- The steps of one element are taken, or the next level takes the place of one that is done. -/
inductive SearchStep (step : α → List α) : Progress α → Progress α → Prop
  | follow {a : α} {level followed : List α} {next seen : Std.TreeSet α} :
      SearchStep step ⟨a :: level, next, seen, followed⟩ ⟨level,
        ((step a).foldl meet (next, seen)).1, ((step a).foldl meet (next, seen)).2,
        followed ++ [a]⟩
  | descend {followed : List α} {next seen : Std.TreeSet α} : next.isEmpty = false →
      SearchStep step ⟨[], next, seen, followed⟩ ⟨next.toList, ∅, seen, followed⟩

variable {step : α → List α} {start : List α} {n m : Nat} {a b : α}
variable {next seen level : Std.TreeSet α}

theorem searchStep_unique (before after other : Progress α) (one : SearchStep step before after)
    (two : SearchStep step before other) : after = other := by
  cases one <;> cases two <;> rfl

theorem stuck_of_done {last : Progress α} (done : last.Done) (after : Progress α) :
    ¬ SearchStep step last after := by
  obtain ⟨none, empty⟩ := done
  rintro (_ | more)
  · nomatch none
  · simp [more] at empty

/-! ## Order -/

/-- The first element is nearer to the start, or as near and less. -/
def Precedes (step : α → List α) (start : List α) (a b : α) : Prop :=
  ∃ m n, AtDistance step start m a ∧ AtDistance step start n b ∧
    (m < n ∨ m = n ∧ compare a b = .lt)

variable [Std.TransOrd α]

theorem not_precedes_self : ¬ Precedes step start a a := by
  rintro ⟨m, n, first, second, less | ⟨-, less⟩⟩
  · have := first.unique second
    omega
  · simp [Std.ReflCmp.compare_self] at less

theorem not_precedes_of_precedes (h : Precedes step start a b) : ¬ Precedes step start b a := by
  obtain ⟨m, n, first, second, near⟩ := h
  rintro ⟨n', m', second', first', far⟩
  obtain rfl := first.unique first'
  obtain rfl := second.unique second'
  rcases near with less | ⟨rfl, less⟩ <;> rcases far with more | ⟨same, more⟩
  · omega
  · omega
  · omega
  · exact Std.OrientedCmp.not_lt_of_lt less more

theorem nodup_of_precedes {elements : List α} (ordered : elements.Pairwise (Precedes step start)) :
    elements.Nodup := by
  apply ordered.imp
  rintro a b precedes rfl
  exact not_precedes_self precedes

theorem eq_of_precedes {elements others : List α}
    (ordered : elements.Pairwise (Precedes step start))
    (ordered' : others.Pairwise (Precedes step start))
    (same : ∀ a, a ∈ elements ↔ a ∈ others) : elements = others := by
  have perm := (List.perm_ext_iff_of_nodup (nodup_of_precedes ordered)
    (nodup_of_precedes ordered')).mpr same
  apply perm.eq_of_pairwise _ ordered ordered'
  exact fun a b _ _ precedes follows => absurd follows (not_precedes_of_precedes precedes)

variable [Std.LawfulEqOrd α]

theorem pairwise_levels (leveled : Leveled step start n seen level) (depth : Nat) :
    (levels step depth seen level).flatten.Pairwise (Precedes step start) := by
  induction depth generalizing n seen level with
  | zero => exact .nil
  | succ depth ih =>
    unfold levels
    split
    · exact .nil
    · have next := leveled_next leveled
      have here (a : α) (mem : a ∈ level.toList) : AtDistance step start n a :=
        (leveled.level a).mp (Std.TreeSet.mem_toList.mp mem)
      refine List.pairwise_append.mpr ⟨?_, ih next, fun a mem b later => ?_⟩
      · apply Std.TreeSet.ordered_toList.imp_of_mem
        exact fun mem mem' less => ⟨n, n, here _ mem, here _ mem', .inr ⟨rfl, less⟩⟩
      · obtain ⟨m, more, -, far⟩ := (mem_levels_iff next depth).mp later
        exact ⟨n, m, here a mem, far, .inl (by omega)⟩

/-! ## One level -/

theorem mem_meet_next {found : Std.TreeSet α × Std.TreeSet α} :
    b ∈ (meet found a).1 ↔ b ∈ found.1 ∨ b ∉ found.2 ∧ b = a := by
  unfold meet
  split
  · next known =>
    have a_seen : a ∈ found.2 := known
    grind
  · next new =>
    have a_new : a ∉ found.2 := new
    simp only [Std.TreeSet.mem_insert, Std.compare_eq_iff_eq]
    grind

theorem mem_meet_seen {found : Std.TreeSet α × Std.TreeSet α} :
    b ∈ (meet found a).2 ↔ b ∈ found.2 ∨ b = a := by
  unfold meet
  split
  · next known =>
    have a_seen : a ∈ found.2 := known
    grind
  · simp only [Std.TreeSet.mem_insert, Std.compare_eq_iff_eq]
    grind

theorem mem_foldl_meet (met : List α) (found : Std.TreeSet α × Std.TreeSet α) :
    (b ∈ (met.foldl meet found).1 ↔ b ∈ found.1 ∨ b ∉ found.2 ∧ b ∈ met) ∧
      (b ∈ (met.foldl meet found).2 ↔ b ∈ found.2 ∨ b ∈ met) := by
  induction met generalizing found with
  | nil => simp
  | cons a met ih =>
    simp only [List.foldl_cons, ih, mem_meet_next, mem_meet_seen, List.mem_cons]
    tauto

theorem exists_run_level (step : α → List α) (level followed : List α)
    (next seen : Std.TreeSet α) :
    ∃ next' seen', ReflTransGen (SearchStep step) ⟨level, next, seen, followed⟩
        ⟨[], next', seen', followed ++ level⟩ ∧
      (∀ b, b ∈ next' ↔ b ∈ next ∨ b ∉ seen ∧ ∃ a ∈ level, b ∈ step a) ∧
      ∀ b, b ∈ seen' ↔ b ∈ seen ∨ ∃ a ∈ level, b ∈ step a := by
  induction level generalizing next seen followed with
  | nil => exact ⟨next, seen, by rw [List.append_nil], by simp, by simp⟩
  | cons a level ih =>
    obtain ⟨next', seen', run, in_next, in_seen⟩ := ih (followed ++ [a])
      ((step a).foldl meet (next, seen)).1 ((step a).foldl meet (next, seen)).2
    rw [List.append_assoc, List.singleton_append] at run
    refine ⟨next', seen', .head .follow run, fun b => ?_, fun b => ?_⟩
    · rw [in_next, (mem_foldl_meet _ _).1, (mem_foldl_meet _ _).2, List.exists_mem_cons_iff]
      tauto
    · rw [in_seen, (mem_foldl_meet _ _).2, List.exists_mem_cons_iff, or_assoc]

/-- The machine finds the next level. What it has seen need not be the same set, only one with the
same elements. -/
theorem exists_run_nextLevel (step : α → List α) (seen level : Std.TreeSet α)
    {known : Std.TreeSet α} (same : ∀ b, b ∈ known ↔ b ∈ seen) (followed : List α) :
    ∃ next known', ReflTransGen (SearchStep step) ⟨level.toList, ∅, known, followed⟩
        ⟨[], next, known', followed ++ level.toList⟩ ∧
      next.Equiv (nextLevel step seen level) ∧
      ∀ b, b ∈ known' ↔ b ∈ seen.insertMany (nextLevel step seen level).toList := by
  obtain ⟨next, known', run, in_next, in_known⟩ :=
    exists_run_level step level.toList followed ∅ known
  refine ⟨next, known', run, .of_forall_mem_iff ?_, fun b => ?_⟩
  · simp [in_next, mem_nextLevel, same]
  · rw [in_known, mem_insertMany_nextLevel, mem_nextLevel, same]
    simp only [Std.TreeSet.mem_toList]
    tauto

/-! ## All levels -/

omit [Std.LawfulEqOrd α] in
theorem exists_run_of_isEmpty (leveled : Leveled step start n seen level)
    (none : level.isEmpty = true) (depth : Nat) {known : Std.TreeSet α}
    (same : ∀ b, b ∈ known ↔ b ∈ seen) (followed : List α) :
    ∃ last, ReflTransGen (SearchStep step) ⟨level.toList, ∅, known, followed⟩ last ∧ last.Done ∧
      last.followed = followed ++ (levels step depth seen level).flatten ∧
      ∀ b, b ∈ last.seen ↔ ∃ m, AtDistance step start m b := by
  have empty : level.toList = [] := List.isEmpty_iff.mp (Std.TreeSet.isEmpty_toList.trans none)
  refine ⟨_, .refl, ⟨empty, rfl⟩, by simp [levels_of_isEmpty none], fun b => ?_⟩
  rw [same, mem_seen_of_isEmpty leveled none]

/-- From the beginning of a level, the machine follows what the search visits, if the search is deep
enough. -/
theorem exists_run_levels (leveled : Leveled step start n seen level) (depth : Nat)
    (near : ∀ m b, AtDistance step start m b → m < n + depth) {known : Std.TreeSet α}
    (same : ∀ b, b ∈ known ↔ b ∈ seen) (followed : List α) :
    ∃ last, ReflTransGen (SearchStep step) ⟨level.toList, ∅, known, followed⟩ last ∧ last.Done ∧
      last.followed = followed ++ (levels step depth seen level).flatten ∧
      ∀ b, b ∈ last.seen ↔ ∃ m, AtDistance step start m b := by
  -- `Leveled` is the invariant. A level that is empty is the last one, whatever depth is left.
  induction depth generalizing n seen level known followed with
  | zero =>
    have none : level.isEmpty = true := by
      by_contra some
      obtain ⟨a, mem⟩ := Std.TreeSet.isEmpty_eq_false_iff_exists_mem.mp (by simpa using some)
      have := near n a ((leveled.level a).mp mem)
      omega
    exact exists_run_of_isEmpty leveled none 0 same followed
  | succ depth ih =>
    cases none : level.isEmpty with
    | true => exact exists_run_of_isEmpty leveled none _ same followed
    | false =>
      obtain ⟨next, known', run, equiv, same'⟩ :=
        exists_run_nextLevel step seen level same followed
      have leveled' := leveled_next leveled
      have whole : levels step (depth + 1) seen level = level.toList ::
          levels step depth (seen.insertMany (nextLevel step seen level).toList)
            (nextLevel step seen level) := by
        simp [levels, none]
      rw [whole, List.flatten_cons, ← List.append_assoc]
      cases last_level : next.isEmpty with
      | true =>
        have empty : (nextLevel step seen level).isEmpty = true := equiv.isEmpty_eq ▸ last_level
        refine ⟨_, run, ⟨rfl, last_level⟩, by simp [levels_of_isEmpty empty], fun b => ?_⟩
        rw [same', mem_seen_of_isEmpty leveled' empty]
      | false =>
        have near' : ∀ m b, AtDistance step start m b → m < n + 1 + depth := by
          intro m b far
          have := near m b far
          omega
        obtain ⟨last, more, rest⟩ := ih leveled' near' same' (followed ++ level.toList)
        rw [← equiv.toList_eq] at more
        exact ⟨last, (run.tail (.descend last_level)).trans more, rest⟩

/-! ## The whole search -/

/-- If the start leads to finitely many elements, the search comes to an end. It has seen them all
then, and has taken the steps of each of them once, in the order of their distances and in ascending
order at the same distance. A depth as large as their number is enough to visit them all. -/
theorem search_by_distance (step : α → List α) (start : List α)
    (finite : {b | ∃ a ∈ start, LeadsTo step a b}.Finite) :
    TerminatesFrom (SearchStep step) (.start start) ∧
    ∃ last, ReflTransGen (SearchStep step) (.start start) last ∧ last.Done ∧
      (∀ b, b ∈ last.seen ↔ ∃ a ∈ start, LeadsTo step a b) ∧
      (∀ b, b ∈ last.followed ↔ ∃ a ∈ start, LeadsTo step a b) ∧ last.followed.Nodup ∧
      last.followed.Pairwise (Precedes step start) ∧
      ∀ depth, {b | ∃ a ∈ start, LeadsTo step a b}.ncard ≤ depth →
        visited step depth start = last.followed ∧
          ∀ b, b ∈ reached step depth start ↔ b ∈ last.seen := by
  classical
  have leveled := leveled_start step start
  have near {depth : Nat} (enough : {b | ∃ a ∈ start, LeadsTo step a b}.ncard ≤ depth) (m : Nat)
      (b : α) (far : AtDistance step start m b) : m < 0 + depth := by
    have := lt_ncard_of_atDistance finite far
    omega
  have mem_visited {depth : Nat} (enough : {b | ∃ a ∈ start, LeadsTo step a b}.ncard ≤ depth)
      (b : α) : b ∈ visited step depth start ↔ ∃ a ∈ start, LeadsTo step a b := by
    rw [mem_visited_iff, ← exists_atDistance_iff]
    exact ⟨fun ⟨m, _, h⟩ => ⟨m, h⟩, fun ⟨m, h⟩ => ⟨m, by simpa using near enough m b h, h⟩⟩
  obtain ⟨last, run, done, followed, in_seen⟩ :=
    exists_run_levels leveled _ (near (Nat.le_refl _)) (fun _ => Iff.rfl) []
  rw [List.nil_append, ← visited] at followed
  simp only [exists_atDistance_iff] at in_seen
  have ordered (depth : Nat) : (visited step depth start).Pairwise (Precedes step start) :=
    pairwise_levels leveled depth
  refine ⟨terminatesFrom_of_stuck searchStep_unique run (stuck_of_done done), last, run, done,
    in_seen, ?_, ?_, ?_, fun depth enough => ⟨?_, fun b => ?_⟩⟩
  · rw [followed]
    exact mem_visited (Nat.le_refl _)
  · rw [followed]
    exact nodup_of_precedes (ordered _)
  · rw [followed]
    exact ordered _
  · rw [followed]
    apply eq_of_precedes (ordered _) (ordered _)
    simp [mem_visited enough, mem_visited (Nat.le_refl _)]
  · rw [reached, Std.TreeSet.mem_ofList, List.contains_iff_mem, mem_visited enough, in_seen]

/-- A graph with cycles, a loop and an edge that is there twice. -/
def knot : Nat → List Nat
  | 0 => [7, 2]
  | 1 => [7, 0]
  | 2 => [2]
  | 3 => [1, 3, 1]
  | 7 => [3]
  | _ => []

theorem search_by_distance_knot : {b | ∃ a ∈ [3, 1, 3], LeadsTo knot a b}.Finite ∧
    TerminatesFrom (SearchStep knot) (.start [3, 1, 3]) ∧
    ∃ last, ReflTransGen (SearchStep knot) (.start [3, 1, 3]) last ∧ last.Done ∧
      last.followed = [1, 3, 0, 7, 2] := by
  have subset : {b | ∃ a ∈ [3, 1, 3], LeadsTo knot a b} ⊆ ({0, 1, 2, 3, 7} : Finset Nat) := by
    rintro b ⟨a, mem, path⟩
    induction path with
    | refl =>
      revert a
      decide
    | @tail b c _ edge ih =>
      have closed : ∀ b ∈ ({0, 1, 2, 3, 7} : Finset Nat), ∀ c ∈ knot b,
          c ∈ ({0, 1, 2, 3, 7} : Finset Nat) := by decide
      exact closed b ih c edge
  have finite := (Finset.finite_toSet _).subset subset
  have few : {b | ∃ a ∈ [3, 1, 3], LeadsTo knot a b}.ncard ≤ 5 := by
    have size := Set.ncard_le_ncard subset (Finset.finite_toSet _)
    rwa [Set.ncard_coe_finset] at size
  obtain ⟨ends, last, run, done, -, -, -, -, visits⟩ := search_by_distance knot [3, 1, 3] finite
  have all : visited knot 5 [3, 1, 3] = [1, 3, 0, 7, 2] := by decide
  exact ⟨finite, ends, last, run, done, (visits 5 few).1.symm.trans all⟩

end ChartParser.Search
