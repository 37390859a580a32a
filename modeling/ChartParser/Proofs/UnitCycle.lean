import ChartParser.Proofs.Steps
import ChartParser.Proofs.UnitRules
import Mathlib.Data.List.Chain
import Mathlib.Data.List.Nodup

/-! # The cycle that the search finds

The search for a cycle of unit rules is a machine that takes one edge at a time. It comes to an end
on every grammar, and the cycle it answers with is a simple one.
-/

namespace ChartParser.Grammar

open Relation

variable {g : Grammar}

/-! ## Cycles -/

/-- A path of unit rules from a symbol back to itself, which meets no symbol twice in between. -/
structure IsUnitCycle (g : Grammar) (cycle : List Symbol) : Prop where
  long : 2 ≤ cycle.length
  closed : cycle.head? = cycle.getLast?
  edges : cycle.IsChain g.UnitEdge
  distinct : cycle.dropLast.Nodup

theorem isUnitCycle_of_path {symbol : Symbol} {path : List Symbol}
    (edges : (symbol :: path ++ [symbol]).IsChain g.UnitEdge) (distinct : (symbol :: path).Nodup) :
    g.IsUnitCycle (symbol :: path ++ [symbol]) := by
  refine ⟨by simp, ?_, edges, ?_⟩
  · rw [List.getLast?_concat]
    rfl
  · rwa [List.dropLast_concat]

theorem transGen_of_isChain {first last : Symbol} {path : List Symbol}
    (edges : (first :: path ++ [last]).IsChain g.UnitEdge) : TransGen g.UnitEdge first last := by
  induction path generalizing first with
  | nil => exact .single (List.isChain_pair.mp edges)
  | cons next path ih =>
    obtain ⟨edge, edges⟩ := List.isChain_cons_cons.mp edges
    exact .head edge (ih edges)

theorem exists_eq_of_isUnitCycle {cycle : List Symbol} (h : g.IsUnitCycle cycle) :
    ∃ first path, cycle = first :: path ++ [first] := by
  match cycle, h with
  | first :: rest, ⟨long, closed, _, _⟩ =>
    rcases List.eq_nil_or_concat rest with rfl | ⟨path, last, rfl⟩
    · simp at long
    · rw [List.concat_eq_append, ← List.cons_append, List.getLast?_concat] at closed
      cases closed
      exact ⟨first, path, by rw [List.concat_eq_append, List.cons_append]⟩

/-- Every symbol of a cycle leads back to itself. -/
theorem transGen_of_mem_cycle {cycle : List Symbol} (h : g.IsUnitCycle cycle) {symbol : Symbol}
    (mem : symbol ∈ cycle) : TransGen g.UnitEdge symbol symbol := by
  obtain ⟨first, path, rfl⟩ := exists_eq_of_isUnitCycle h
  have whole := h.edges
  have around : TransGen g.UnitEdge first first := transGen_of_isChain whole
  simp only [List.cons_append, List.mem_cons, List.mem_append, List.not_mem_nil, or_false] at mem
  rcases mem with rfl | mem | rfl
  · exact around
  · obtain ⟨before, after, rfl⟩ := List.append_of_mem mem
    have there : (first :: before ++ [symbol]).IsChain g.UnitEdge :=
      whole.infix ⟨[], after ++ [first], by simp⟩
    have back : (symbol :: after ++ [first]).IsChain g.UnitEdge :=
      whole.infix ⟨first :: before, [], by simp⟩
    exact .trans (transGen_of_isChain back) (transGen_of_isChain there)
  · exact around

/-! ## Steps of the search -/

/-- Where the search stands: the heads that are still to be explored, the marks, and the path, which
has its last symbol first. -/
structure SearchState (g : Grammar) where
  heads : List Symbol
  marks : Marks
  path : List (Frame g)

/-- Nothing has been met yet. -/
def SearchState.start (g : Grammar) : SearchState g := ⟨g.unitHeads, ∅, []⟩

/-- The next child to be followed is on the path. -/
def SearchState.Meets (state : SearchState g) (child : Symbol) : Prop :=
  state.marks[child]? = some .active ∧
    ∃ frame path, state.path = frame :: path ∧ frame.rest.head? = some child

/-- The search ends in this state with this answer. -/
def SearchState.Answers (state : SearchState g) : Option (List Symbol) → Prop
  | none => state.heads = [] ∧ state.path = []
  | some cycle => ∃ child, state.Meets child ∧ cycle = closeCycle (pathSymbols state.path) child

/-- One step of the search. It takes up the next head where no path is left. -/
inductive SearchStep : SearchState g → SearchState g → Prop
  | passHead {head : Symbol} {heads : List Symbol} {marks : Marks} : head ∈ marks →
      SearchStep ⟨head :: heads, marks, []⟩ ⟨heads, marks, []⟩
  | enterHead {head : Symbol} {heads : List Symbol} {marks : Marks} : head ∉ marks →
      SearchStep ⟨head :: heads, marks, []⟩ ⟨heads, marks.insert head .active, [.enter g head]⟩
  | passChild {heads : List Symbol} {marks : Marks} {symbol child : Symbol} {rest : List Symbol}
      {path : List (Frame g)} {known known'} : marks[child]? = some .done →
      SearchStep ⟨heads, marks, ⟨symbol, child :: rest, known⟩ :: path⟩
        ⟨heads, marks, ⟨symbol, rest, known'⟩ :: path⟩
  | enterChild {heads : List Symbol} {marks : Marks} {symbol child : Symbol} {rest : List Symbol}
      {path : List (Frame g)} {known known'} : marks[child]? = none →
      SearchStep ⟨heads, marks, ⟨symbol, child :: rest, known⟩ :: path⟩
        ⟨heads, marks.insert child .active, .enter g child :: ⟨symbol, rest, known'⟩ :: path⟩
  | leave {heads : List Symbol} {marks : Marks} {symbol : Symbol} {path : List (Frame g)} {known} :
      SearchStep ⟨heads, marks, ⟨symbol, [], known⟩ :: path⟩
        ⟨heads, marks.insert symbol .done, path⟩

/-- Heads are used up, then symbols without a mark, then what is left of the path. -/
theorem terminates_searchStep (g : Grammar) : Terminates (SearchStep (g := g)) := by
  apply terminates_of_measure fun state : SearchState g =>
    (state.heads.length, g.unmarked state.marks, pathSize state.path)
  intro before after step
  cases step with
  | passHead => exact Prod.Lex.left _ _ (Nat.lt_succ_self _)
  | enterHead => exact Prod.Lex.left _ _ (Nat.lt_succ_self _)
  | passChild =>
    refine Prod.Lex.right _ (Prod.Lex.right _ ?_)
    exact Nat.add_lt_add_right (Nat.lt_succ_self _) _
  | @enterChild _ _ _ child _ _ known _ new =>
    have fewer := g.unmarked_insert_lt .active (known child (.head _)) new
    exact Prod.Lex.right _ (Prod.Lex.left _ _ fewer)
  | @leave _ marks symbol _ _ =>
    rcases (unmarked_insert_le g marks symbol .done).lt_or_eq with fewer | same
    · exact Prod.Lex.right _ (Prod.Lex.left _ _ fewer)
    · refine Prod.Lex.right _ ?_
      rw [same]
      exact Prod.Lex.right _ (Nat.lt_add_of_pos_left (Nat.succ_pos _))

/-! ## What the search answers -/

/-- The path is a chain of unit rules, its last symbol first. -/
theorem isChain_of_followed {marks : Marks} {top : Option Symbol} {path : List (Frame g)}
    (h : Followed marks top path) :
    (path.map Frame.symbol).IsChain fun child parent => g.UnitEdge parent child := by
  induction path generalizing top with
  | nil => exact .nil
  | cons frame path ih =>
    obtain ⟨-, -, below⟩ := h
    refine List.isChain_cons.mpr ⟨?_, ih below⟩
    intro parent mem
    cases path with
    | nil => nomatch mem
    | cons next path =>
      cases mem
      exact below.1 _ rfl

/-- An active child stands on the path once, and the path from there on leads back to it. -/
theorem exists_of_meets {state : SearchState g} (inv : Searching state.marks none state.path)
    {child : Symbol} (meets : state.Meets child) :
    ∃ before after, pathSymbols state.path = before ++ child :: after ∧
      (pathSymbols state.path).findIdx? (· == child) = some before.length ∧
      g.IsUnitCycle (child :: after ++ [child]) := by
  obtain ⟨active, frame, path, path_eq, next⟩ := meets
  have mem : child ∈ pathSymbols state.path := by
    rw [pathSymbols, List.mem_reverse]
    exact (inv.active child).mp active
  obtain ⟨before, after, whole⟩ := List.append_of_mem mem
  have distinct : (before ++ child :: after).Nodup := by
    rw [← whole, pathSymbols, List.nodup_reverse]
    exact inv.nodup
  have edges : (before ++ child :: after).IsChain g.UnitEdge := by
    rw [← whole, pathSymbols, List.isChain_reverse]
    exact isChain_of_followed inv.followed
  have absent : child ∉ before := fun h =>
    (List.nodup_append.mp distinct).2.2 child h child (.head after) rfl
  refine ⟨before, after, whole, ?_, isUnitCycle_of_path ?_ ?_⟩
  · have skipped : before.findIdx? (· == child) = none := by
      rw [List.findIdx?_eq_none_iff]
      intro other other_mem
      rw [beq_eq_false_iff_ne]
      rintro rfl
      exact absent other_mem
    rw [whole, List.findIdx?_append, skipped, List.findIdx?_cons]
    simp
  · refine (edges.suffix ⟨before, rfl⟩).append (.singleton child) ?_
    intro last last_mem other other_mem
    cases other_mem
    have top : (pathSymbols state.path).getLast? = some frame.symbol := by
      rw [pathSymbols, List.getLast?_reverse, path_eq]
      rfl
    rw [whole, List.getLast?_append_of_ne_nil _ (List.cons_ne_nil child after)] at top
    cases top.symm.trans last_mem
    exact inv.edges frame (path_eq ▸ .head path) child (List.mem_of_mem_head? next)
  · exact (List.nodup_append.mp distinct).2.1

/-! ## Runs of the search -/

theorem searching_step {before after : SearchState g} (step : SearchStep before after)
    (inv : Searching before.marks none before.path) :
    Searching after.marks none after.path := by
  cases step with
  | passHead => exact inv
  | enterHead new => exact searching_enter (searching_head inv _) (by simpa using new)
  | passChild done => exact searching_skip (searching_next inv) done
  | enterChild new => exact searching_enter (searching_next inv) new
  | leave => exact searching_pop inv

theorem searching_of_reaches {state : SearchState g}
    (run : ReflTransGen SearchStep (.start g) state) : Searching state.marks none state.path := by
  induction run with
  | refl => exact searching_empty
  | tail _ step inv => exact searching_step step inv

/-- The steps from here on lead to the answer. -/
def SearchState.Finds (state : SearchState g) (answer : Option (List Symbol)) : Prop :=
  Leads SearchStep state (·.Answers answer)

/-- The steps from here on lead to what a part of the search returns, with `heads` left to do. -/
def SearchState.Returns (state : SearchState g) (heads : List Symbol) :
    Except (List Symbol) Marks → Prop
  | .ok marks => ReflTransGen SearchStep state ⟨heads, marks, []⟩
  | .error cycle => state.Finds (some cycle)

theorem returns_of_reaches {before after : SearchState g} {heads : List Symbol}
    {result : Except (List Symbol) Marks} (run : ReflTransGen SearchStep before after)
    (returns : after.Returns heads result) : before.Returns heads result := by
  cases result with
  | ok marks => exact run.trans returns
  | error cycle => exact leads_of_reaches run returns

theorem follow_returns (heads : List Symbol) (marks : Marks) (path : List (Frame g)) :
    SearchState.Returns ⟨heads, marks, path⟩ heads (g.follow marks path) := by
  fun_induction g.follow marks path with
  | case1 marks => exact .refl
  | case2 marks symbol known path ih => exact returns_of_reaches (.single .leave) ih
  | case3 marks symbol child rest known path next done ih =>
    exact returns_of_reaches (.single (.passChild done)) ih
  | case4 marks symbol child rest known path next active =>
    exact ⟨_, .refl, child, ⟨active, _, path, rfl, rfl⟩, rfl⟩
  | case5 marks symbol child rest known path next new ih =>
    exact returns_of_reaches (.single (.enterChild new)) ih

theorem explore_returns (head : Symbol) (heads : List Symbol) (marks : Marks) :
    SearchState.Returns (g := g) ⟨head :: heads, marks, []⟩ heads (g.explore marks head) := by
  unfold explore
  split
  · next known => exact .single (.passHead (Std.TreeMap.contains_iff_mem.mp known))
  · next new =>
    have enter : SearchStep (g := g) ⟨head :: heads, marks, []⟩
        ⟨heads, marks.insert head .active, [.enter g head]⟩ := .enterHead (by simpa using new)
    exact returns_of_reaches (.single enter) (follow_returns _ _ _)

theorem foldlM_explore_returns (heads : List Symbol) (marks : Marks) :
    SearchState.Returns (g := g) ⟨heads, marks, []⟩ [] (heads.foldlM g.explore marks) := by
  induction heads generalizing marks with
  | nil => exact .refl
  | cons head heads ih =>
    have first := explore_returns (g := g) head heads marks
    rw [List.foldlM_cons]
    cases result : g.explore marks head with
    | error cycle =>
      rw [result] at first
      exact first
    | ok next =>
      rw [result] at first
      exact returns_of_reaches first (ih next)

/-- The steps of the search lead to the cycle that is returned, or to the end. -/
theorem start_finds (g : Grammar) : (SearchState.start g).Finds g.unitCycle? := by
  have returns := foldlM_explore_returns (g := g) g.unitHeads ∅
  unfold unitCycle?
  cases result : g.unitHeads.foldlM g.explore (∅ : Marks) with
  | error cycle =>
    rw [result] at returns
    exact returns
  | ok marks =>
    rw [result] at returns
    exact ⟨_, returns, rfl, rfl⟩

/-! ## The whole search -/

theorem isUnitCycle_of_unitCycle? {cycle : List Symbol} (h : g.unitCycle? = some cycle) :
    g.IsUnitCycle cycle := by
  obtain ⟨last, run, answers⟩ := start_finds g
  rw [h] at answers
  obtain ⟨child, meets, rfl⟩ := answers
  obtain ⟨before, after, whole, found, simple⟩ := exists_of_meets (searching_of_reaches run) meets
  rw [closeCycle, found, Option.getD_some, whole, List.drop_left]
  exact simple

/-- The search comes to an end. It answers that there is no cycle exactly if there is none, and the
cycle that it answers with is a simple one: an active child is always found on the path. -/
theorem search_for_cycle (g : Grammar) :
    Terminates (SearchStep (g := g)) ∧ (SearchState.start g).Finds g.unitCycle? ∧
      (g.unitCycle? = none ↔ ∀ symbol, ¬ TransGen g.UnitEdge symbol symbol) ∧
      (∀ cycle, g.unitCycle? = some cycle → g.IsUnitCycle cycle) ∧
      ∀ state, ReflTransGen SearchStep (.start g) state → ∀ child, state.Meets child →
        ∃ i, (pathSymbols state.path).findIdx? (· == child) = some i := by
  refine ⟨terminates_searchStep g, start_finds g, unitCycle?_eq_none_iff g,
    fun _ => isUnitCycle_of_unitCycle?, fun state run child meets => ?_⟩
  obtain ⟨before, -, -, found, -⟩ := exists_of_meets (searching_of_reaches run) meets
  exact ⟨before.length, found⟩

end ChartParser.Grammar
