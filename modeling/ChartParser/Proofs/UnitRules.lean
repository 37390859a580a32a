import ChartParser.Grammar.UnitCycle
import ChartParser.Proofs.Rule
import ChartParser.Proofs.RuleIndex

/-! # Unit rules

The search for a cycle of unit rules finds one exactly when there is one. Without a cycle every
symbol has a height, which is what the unit rules above it can still climb.
-/

namespace ChartParser.Grammar

open Relation

variable {g : Grammar}

/-- `parent` becomes the non-terminal `child` by a unit rule. -/
def UnitEdge (g : Grammar) (parent child : Symbol) : Prop :=
  child.isNonterm = true ∧ ∃ rule ∈ g.rules, rule.head = parent ∧ rule.body = [child]

/-- Unit rules do not lead from a symbol back to itself. -/
def UnitAcyclic (g : Grammar) : Prop := ∀ symbol, ¬ TransGen g.UnitEdge symbol symbol

theorem mem_unitChildren {parent child : Symbol} :
    child ∈ g.unitChildren parent ↔ g.UnitEdge parent child := by
  simp only [unitChildren, rulesFor, List.mem_filterMap, List.mem_filter, beq_iff_eq,
    Rule.unaryNonterm?_eq_some]
  constructor
  · rintro ⟨rule, ⟨mem, head⟩, kind, body⟩
    exact ⟨kind, rule, mem, head, body⟩
  · rintro ⟨kind, rule, mem, head, body⟩
    exact ⟨rule, ⟨mem, head⟩, kind, body⟩

theorem mem_unitHeads {g : Grammar} {parent : Symbol} :
    parent ∈ g.unitHeads ↔ ∃ child, g.UnitEdge parent child := by
  simp only [unitHeads, Std.TreeSet.mem_toList, Std.TreeSet.mem_ofList, List.contains_iff_mem,
    List.mem_map, List.mem_filter, Option.isSome_iff_exists, Rule.unaryNonterm?_eq_some]
  constructor
  · rintro ⟨rule, ⟨mem, child, kind, body⟩, head⟩
    exact ⟨child, kind, rule, mem, head, body⟩
  · rintro ⟨child, kind, rule, mem, head, body⟩
    exact ⟨rule, ⟨mem, child, kind, body⟩, head⟩

/-! ## The search for a cycle -/

/-- Every child of a symbol on the path is still to be followed, or done, or the next symbol of the
path. `top` is what the path leads to. -/
def Followed (marks : Marks) (top : Option Symbol) : List (Frame g) → Prop
  | [] => True
  | frame :: path =>
    (∀ symbol ∈ top, g.UnitEdge frame.symbol symbol) ∧
    (∀ child, g.UnitEdge frame.symbol child →
      child ∈ frame.rest ∨ marks[child]? = some .done ∨ top = some child) ∧
    Followed marks (some frame.symbol) path

/-- What holds after each step of the search, and when it turns to the symbol `top`. -/
structure Searching (marks : Marks) (top : Option Symbol) (path : List (Frame g)) : Prop where
  active : ∀ symbol : Symbol, marks[symbol]? = some .active ↔ symbol ∈ path.map Frame.symbol
  nodup : (path.map Frame.symbol).Nodup
  edges : ∀ frame ∈ path, ∀ child ∈ frame.rest, g.UnitEdge frame.symbol child
  followed : Followed marks top path
  closed : ∀ parent child : Symbol, marks[parent]? = some .done → g.UnitEdge parent child →
    marks[child]? = some .done
  acyclic : ∀ symbol : Symbol, marks[symbol]? = some .done → ¬ TransGen g.UnitEdge symbol symbol

theorem followed_mono {marks marks' : Marks} {top : Option Symbol} {path : List (Frame g)}
    (h : Followed marks top path)
    (grow : ∀ symbol : Symbol, marks[symbol]? = some .done → marks'[symbol]? = some .done) :
    Followed marks' top path := by
  induction path generalizing top with
  | nil => trivial
  | cons frame path ih =>
    obtain ⟨above, children, below⟩ := h
    refine ⟨above, fun child edge => ?_, ih below⟩
    rcases children child edge with h | h | h
    · exact .inl h
    · exact .inr (.inl (grow child h))
    · exact .inr (.inr h)

/-- A symbol that is done is no longer what the path leads to. -/
theorem followed_of_done {marks : Marks} {symbol : Symbol} {path : List (Frame g)}
    (h : Followed marks (some symbol) path) (done : marks[symbol]? = some .done) :
    Followed marks none path := by
  cases path with
  | nil => trivial
  | cons frame path =>
    obtain ⟨-, children, below⟩ := h
    refine ⟨by simp, fun child edge => ?_, below⟩
    rcases children child edge with h | h | h
    · exact .inl h
    · exact .inr (.inl h)
    · cases h
      exact .inr (.inl done)

/-- The symbols of the path lead to what is above them. -/
theorem transGen_of_followed {marks : Marks} {top : Symbol} {path : List (Frame g)}
    (h : Followed marks (some top) path) :
    ∀ symbol ∈ path.map Frame.symbol, TransGen g.UnitEdge symbol top := by
  induction path generalizing top with
  | nil => simp
  | cons frame path ih =>
    obtain ⟨above, -, below⟩ := h
    have last : g.UnitEdge frame.symbol top := above top rfl
    intro symbol mem
    rcases List.mem_cons.mp mem with rfl | mem
    · exact .single last
    · exact .tail (ih below symbol mem) last

theorem done_of_transGen {marks : Marks} {top : Option Symbol} {path : List (Frame g)}
    (inv : Searching marks top path) {parent child : Symbol} (done : marks[parent]? = some .done)
    (h : TransGen g.UnitEdge parent child) : marks[child]? = some .done := by
  induction h with
  | single edge => exact inv.closed _ _ done edge
  | tail _ edge ih => exact inv.closed _ _ ih edge

theorem exists_edge_of_transGen {parent child : Symbol} (h : TransGen g.UnitEdge parent child) :
    ∃ first, g.UnitEdge parent first ∧ (first = child ∨ TransGen g.UnitEdge first child) := by
  induction h with
  | single edge => exact ⟨_, edge, .inl rfl⟩
  | tail _ edge ih =>
    obtain ⟨first, start, rfl | h⟩ := ih
    · exact ⟨first, start, .inr (.single edge)⟩
    · exact ⟨first, start, .inr (.tail h edge)⟩

theorem getElem?_insert (marks : Marks) (symbol other : Symbol) (mark : Mark) :
    (marks.insert symbol mark)[other]? = if symbol = other then some mark else marks[other]? := by
  rw [Std.TreeMap.getElem?_insert]
  simp only [Std.compare_eq_iff_eq]

/-! ### Steps -/

theorem searching_empty : Searching (g := g) (∅ : Marks) none [] where
  active := by simp
  nodup := by simp
  edges := by simp
  followed := trivial
  closed := by simp
  acyclic := by simp

/-- The search turns to the next child of the last symbol on its path. -/
theorem searching_next {marks : Marks} {symbol child : Symbol} {rest : List Symbol} {known known'}
    {path : List (Frame g)} (inv : Searching marks none (⟨symbol, child :: rest, known⟩ :: path)) :
    Searching marks (some child) (⟨symbol, rest, known'⟩ :: path) := by
  obtain ⟨-, children, below⟩ := inv.followed
  refine { inv with edges := ?_, followed := ⟨?_, ?_, below⟩ }
  · intro frame mem other h
    rcases List.mem_cons.mp mem with rfl | mem
    · exact inv.edges _ (.head _) other (.tail child h)
    · exact inv.edges frame (.tail _ mem) other h
  · rintro other ⟨⟩
    exact inv.edges _ (.head _) child (.head rest)
  · intro other edge
    rcases children other edge with h | h | h
    · rcases List.mem_cons.mp h with rfl | h
      · exact .inr (.inr rfl)
      · exact .inl h
    · exact .inr (.inl h)
    · nomatch h

/-- Where no path is left, the search may turn to any symbol. -/
theorem searching_head {marks : Marks} (inv : Searching (g := g) marks none []) (symbol : Symbol) :
    Searching (g := g) marks (some symbol) [] :=
  { inv with followed := trivial }

/-- A symbol that is done need not be entered. -/
theorem searching_skip {marks : Marks} {symbol : Symbol} {path : List (Frame g)}
    (inv : Searching marks (some symbol) path) (done : marks[symbol]? = some .done) :
    Searching marks none path :=
  { inv with followed := followed_of_done inv.followed done }

/-- A symbol without a mark is entered. -/
theorem searching_enter {marks : Marks} {symbol : Symbol} {path : List (Frame g)}
    (inv : Searching marks (some symbol) path) (new : marks[symbol]? = none) :
    Searching (marks.insert symbol .active) none (.enter g symbol :: path) := by
  have old (other : Symbol) : (marks.insert symbol .active)[other]? = some .done ↔
      marks[other]? = some .done := by
    rw [getElem?_insert]
    split
    · next h => simp [← h, new]
    · rfl
  have apart : symbol ∉ path.map Frame.symbol := by
    intro h
    simpa [new] using (inv.active symbol).mpr h
  refine ⟨?_, List.nodup_cons.mpr ⟨apart, inv.nodup⟩, ?_, ⟨by simp, ?_, ?_⟩, ?_, ?_⟩
  · intro other
    rw [getElem?_insert]
    split
    · next h => simp [← h, Frame.enter]
    · next h => simpa [Frame.enter, Ne.symm h] using inv.active other
  · intro frame mem other h
    rcases List.mem_cons.mp mem with rfl | mem
    · exact mem_unitChildren.mp h
    · exact inv.edges frame mem other h
  · intro other edge
    exact .inl (mem_unitChildren.mpr edge)
  · exact followed_mono inv.followed fun other => (old other).mpr
  · intro parent other done edge
    exact (old other).mpr (inv.closed parent other ((old parent).mp done) edge)
  · intro other done
    exact inv.acyclic other ((old other).mp done)

/-- The last symbol of the path is done when it has no more children to follow. Its children are
done before it, so no cycle goes through it. -/
theorem searching_pop {marks : Marks} {symbol : Symbol} {known} {path : List (Frame g)}
    (inv : Searching marks none (⟨symbol, [], known⟩ :: path)) :
    Searching (marks.insert symbol .done) none path := by
  obtain ⟨-, children, below⟩ := inv.followed
  have children (child : Symbol) (edge : g.UnitEdge symbol child) :
      marks[child]? = some .done := by simpa using children child edge
  have here : marks[symbol]? = some .active := (inv.active symbol).mpr (.head _)
  have grow (other : Symbol) (h : marks[other]? = some .done) :
      (marks.insert symbol .done)[other]? = some .done := by
    rw [getElem?_insert]
    split
    · rfl
    · exact h
  obtain ⟨apart, nodup⟩ := List.nodup_cons.mp inv.nodup
  refine ⟨?_, nodup, fun frame h => inv.edges frame (.tail _ h), ?_, ?_, ?_⟩
  · intro other
    rw [getElem?_insert]
    split
    · next h =>
      subst h
      simpa using apart
    · next h => simpa [Ne.symm h] using inv.active other
  · exact followed_of_done (followed_mono below grow) (by simp)
  · intro parent child done edge
    apply grow
    rw [getElem?_insert] at done
    split at done
    · next h => exact children child (h ▸ edge)
    · exact inv.closed parent child done edge
  · intro other done
    rw [getElem?_insert] at done
    split at done
    · next h =>
      subst h
      intro cycle
      obtain ⟨child, edge, rfl | h⟩ := exists_edge_of_transGen cycle
      · simpa [here] using children child edge
      · simpa [here] using done_of_transGen inv (children child edge) h
    · exact inv.acyclic other done

/-! ### The whole search -/

/-- The cycle closes where the search meets an active child of the last symbol on its path. -/
def Closes (g : Grammar) (cycle : List Symbol) : Prop :=
  ∃ (marks : Marks) (frame : Frame g) (path : List (Frame g)) (child : Symbol),
    Searching marks none (frame :: path) ∧ g.UnitEdge frame.symbol child ∧
    marks[child]? = some .active ∧ cycle = closeCycle (pathSymbols (frame :: path)) child

/-- What a search from `marks` on ends with. -/
def SearchPost (g : Grammar) (marks : Marks) : Except (List Symbol) Marks → Prop
  | .ok marks' => Searching (g := g) marks' none [] ∧ ∀ symbol ∈ marks, symbol ∈ marks'
  | .error cycle => g.Closes cycle

theorem searchPost_mono {marks marks' : Marks} {result : Except (List Symbol) Marks}
    (grow : ∀ symbol ∈ marks, symbol ∈ marks') (h : g.SearchPost marks' result) :
    g.SearchPost marks result := by
  cases result with
  | error cycle => exact h
  | ok final => exact ⟨h.1, fun symbol mem => h.2 symbol (grow symbol mem)⟩

theorem mem_insert_of_mem (marks : Marks) (symbol : Symbol) (mark : Mark) :
    ∀ other ∈ marks, other ∈ marks.insert symbol mark := by
  intro other mem
  exact Std.TreeMap.mem_insert.mpr (.inr mem)

theorem follow_spec {marks : Marks} {path : List (Frame g)} (inv : Searching marks none path) :
    g.SearchPost marks (g.follow marks path) := by
  fun_induction g.follow marks path with
  | case1 marks => exact ⟨inv, fun _ mem => mem⟩
  | case2 marks symbol known path ih =>
    exact searchPost_mono (mem_insert_of_mem _ _ _) (ih (searching_pop inv))
  | case3 marks symbol child rest known path _ done ih =>
    exact ih (searching_skip (searching_next inv) done)
  | case4 marks symbol child rest known path next active =>
    have edge : g.UnitEdge symbol child := inv.edges _ (.head _) child (.head rest)
    exact ⟨marks, _, path, child, inv, edge, active, rfl⟩
  | case5 marks symbol child rest known path _ new ih =>
    exact searchPost_mono (mem_insert_of_mem _ _ _) (ih (searching_enter (searching_next inv) new))

theorem explore_spec {marks : Marks} (inv : Searching (g := g) marks none []) (symbol : Symbol) :
    g.SearchPost (marks.insert symbol .active) (g.explore marks symbol) := by
  unfold explore
  split
  · next known =>
    refine ⟨inv, fun other mem => ?_⟩
    rcases Std.TreeMap.mem_insert.mp mem with h | mem
    · rw [Std.compare_eq_iff_eq] at h
      rwa [← h]
    · exact mem
  · next new =>
    exact follow_spec (searching_enter (searching_head inv symbol) (by simpa using new))

theorem foldlM_explore_spec (symbols : List Symbol) {marks : Marks}
    (inv : Searching (g := g) marks none []) :
    match symbols.foldlM g.explore marks with
    | .ok marks' => Searching (g := g) marks' none [] ∧
        ∀ symbol, symbol ∈ symbols ∨ symbol ∈ marks → symbol ∈ marks'
    | .error cycle => g.Closes cycle := by
  induction symbols generalizing marks with
  | nil => exact ⟨inv, by simp⟩
  | cons symbol symbols ih =>
    have first := explore_spec inv symbol
    rw [List.foldlM_cons]
    cases h : g.explore marks symbol with
    | error cycle =>
      rw [h] at first
      exact first
    | ok next =>
      rw [h] at first
      have more := ih first.1
      simp only [bind, Except.bind]
      cases h' : symbols.foldlM g.explore next with
      | error cycle => simpa [h'] using more
      | ok final =>
        simp only [h'] at more
        refine ⟨more.1, fun other mem => more.2 other ?_⟩
        rw [List.mem_cons] at mem
        rcases mem with (rfl | mem) | mem
        · exact .inr (first.2 _ (by simp))
        · exact .inl mem
        · exact .inr (first.2 _ (mem_insert_of_mem _ _ _ _ mem))

theorem exists_cycle_of_closes {cycle : List Symbol} (h : g.Closes cycle) :
    ∃ symbol, TransGen g.UnitEdge symbol symbol := by
  obtain ⟨marks, frame, path, child, inv, edge, active, -⟩ := h
  obtain ⟨-, -, below⟩ := inv.followed
  refine ⟨child, ?_⟩
  rcases List.mem_cons.mp ((inv.active child).mp active) with rfl | mem
  · exact .single edge
  · exact .tail (transGen_of_followed below child mem) edge

theorem unitCycle?_eq_none_iff (g : Grammar) : g.unitCycle? = none ↔ g.UnitAcyclic := by
  have spec := foldlM_explore_spec g.unitHeads (searching_empty (g := g))
  unfold unitCycle?
  cases h : g.unitHeads.foldlM g.explore (∅ : Marks) with
  | error cycle =>
    rw [h] at spec
    obtain ⟨symbol, cycle⟩ := exists_cycle_of_closes spec
    simpa using fun acyclic => acyclic symbol cycle
  | ok marks =>
    rw [h] at spec
    obtain ⟨inv, heads⟩ := spec
    simp only [true_iff]
    intro symbol cycle
    obtain ⟨child, edge, -⟩ := exists_edge_of_transGen cycle
    -- Nothing is on the path in the end, so the mark of a head says that it is done.
    have mem := heads symbol (.inl (mem_unitHeads.mpr ⟨child, edge⟩))
    rw [Std.TreeMap.mem_iff_isSome_getElem?, Option.isSome_iff_exists] at mem
    obtain ⟨mark, mem⟩ := mem
    cases mark with
    | active => simpa using (inv.active symbol).mp mem
    | done => exact inv.acyclic symbol mem cycle

/-- Symbols that unit rules make of lower ones only are on no cycle. -/
theorem unitAcyclic_of_rank (rank : Symbol → Nat)
    (h : ∀ rule ∈ g.rules, ∀ child ∈ rule.unaryNonterm?, rank child < rank rule.head) :
    g.UnitAcyclic := by
  have step {parent child : Symbol} (edge : g.UnitEdge parent child) :
      rank child < rank parent := by
    obtain ⟨kind, rule, mem, rfl, body⟩ := edge
    exact h rule mem child (Rule.unaryNonterm?_eq_some.mpr ⟨kind, body⟩)
  have path {parent child : Symbol} (path : TransGen g.UnitEdge parent child) :
      rank child < rank parent := by
    induction path with
    | single edge => exact step edge
    | tail _ edge ih => exact Nat.lt_trans (step edge) ih
  exact fun symbol cycle => Nat.lt_irrefl _ (path cycle)

/-! ## Heights -/

/-- A chain of rules with one symbol in the body leads from `parent` down to `symbol`. -/
def Climbs (g : Grammar) : Symbol → Symbol → Prop :=
  TransGen fun symbol parent => parent ∈ g.unitParents symbol

theorem isNonterm_of_mem_unitParents {symbol parent : Symbol}
    (h : parent ∈ g.unitParents symbol) : parent.isNonterm = true := by
  obtain ⟨rule, mem, rfl, -⟩ := mem_unitParents.mp h
  exact (g.rules_valid rule mem).1

theorem unitEdge_of_mem_unitParents {symbol parent : Symbol} (kind : symbol.isNonterm = true)
    (h : parent ∈ g.unitParents symbol) : g.UnitEdge parent symbol :=
  ⟨kind, mem_unitParents.mp h⟩

theorem transGen_unitEdge_of_climbs {symbol parent : Symbol} (kind : symbol.isNonterm = true)
    (h : g.Climbs symbol parent) : parent.isNonterm = true ∧ TransGen g.UnitEdge parent symbol := by
  induction h with
  | single up =>
    exact ⟨isNonterm_of_mem_unitParents up, .single (unitEdge_of_mem_unitParents kind up)⟩
  | tail _ up ih =>
    have edge := unitEdge_of_mem_unitParents ih.1 up
    exact ⟨isNonterm_of_mem_unitParents up, TransGen.trans (.single edge) ih.2⟩

open Classical in
/-- A unit rule leads up to fewer heads than are above its body. -/
theorem countP_climbs_lt (acyclic : g.UnitAcyclic) {symbol parent : Symbol}
    (h : parent ∈ g.unitParents symbol) {heads : List Symbol} (mem : parent ∈ heads) :
    heads.countP (decide <| g.Climbs parent ·) < heads.countP (decide <| g.Climbs symbol ·) := by
  have up : g.Climbs symbol parent := .single h
  apply countP_lt_countP _ mem
  · simpa using up
  · have kind := isNonterm_of_mem_unitParents h
    simpa using fun cycle => acyclic parent (transGen_unitEdge_of_climbs kind cycle).2
  · intro other _ climb
    simp only [decide_eq_true_eq] at climb ⊢
    exact TransGen.trans up climb

open Classical in
/-- How many rules have a head that a chain of unit rules leads up to. -/
noncomputable def height (g : Grammar) (symbol : Symbol) : Nat :=
  g.rules.countP fun rule => decide (g.Climbs symbol rule.head)

open Classical in
theorem height_eq (g : Grammar) (symbol : Symbol) :
    g.height symbol = g.heads.countP (decide <| g.Climbs symbol ·) := by
  rw [height, heads, List.countP_map]
  rfl

theorem height_lt (acyclic : g.UnitAcyclic) {symbol parent : Symbol}
    (h : parent ∈ g.unitParents symbol) : g.height parent < g.height symbol := by
  obtain ⟨rule, mem, head, -⟩ := mem_unitParents.mp h
  rw [height_eq, height_eq]
  exact countP_climbs_lt acyclic h (List.mem_map.mpr ⟨rule, mem, head⟩)

end ChartParser.Grammar
