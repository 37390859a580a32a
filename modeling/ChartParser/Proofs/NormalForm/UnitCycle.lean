import ChartParser.Proofs.NormalForm.Normalize

/-! # Normalization and cycles of unit rules

The search for a cycle reads nothing but unit rules, and normalization leaves these as they are and
where they are. So it answers the same before and after.
-/

namespace ChartParser.Grammar

variable {g h : Grammar}

/-! ## What the search reads -/

/-- The unit rules, in order. -/
def unitRules (g : Grammar) : List Rule := g.rules.filter (·.unaryNonterm?.isSome)

theorem unitChildren_eq (g : Grammar) (symbol : Symbol) : g.unitChildren symbol =
    (g.unitRules.filter (·.head == symbol)).filterMap Rule.unaryNonterm? := by
  have kept (rules : List Rule) : rules.filterMap Rule.unaryNonterm? =
      (rules.filter (·.unaryNonterm?.isSome)).filterMap Rule.unaryNonterm? := by
    rw [List.filterMap_filter]
    congr 1
    funext rule
    cases rule.unaryNonterm? <;> rfl
  rw [unitChildren, rulesFor, kept, List.filter_filter, unitRules, List.filter_filter]
  simp only [Bool.and_comm]

/-- A frame without the fact that it carries. -/
def Frame.view (frame : Frame g) : Symbol × List Symbol := (frame.symbol, frame.rest)

theorem exists_frame_of_view {symbol : Symbol} {rest : List Symbol} {path : List (Frame g)}
    {path' : List (Frame h)}
    (frames : (symbol, rest) :: path.map Frame.view = path'.map Frame.view) :
    ∃ known more, path' = ⟨symbol, rest, known⟩ :: more ∧
      path.map Frame.view = more.map Frame.view := by
  obtain ⟨frame, more, rfl, view, others⟩ := List.map_eq_cons_iff.mp frames.symm
  cases view
  exact ⟨frame.known, more, rfl, others.symm⟩

theorem pathSymbols_congr {path : List (Frame g)} {path' : List (Frame h)}
    (frames : path.map Frame.view = path'.map Frame.view) :
    pathSymbols path = pathSymbols path' := by
  have symbols := congrArg (List.map Prod.fst) frames
  simp only [List.map_map] at symbols
  exact congrArg List.reverse symbols

theorem view_enter (same : g.unitChildren = h.unitChildren) (symbol : Symbol) :
    (Frame.enter g symbol).view = (Frame.enter h symbol).view :=
  congrArg (symbol, ·) (congrFun same symbol)

/-- What the search does with a child, as a function of the mark of the child. -/
theorem follow_child (marks : Marks) (symbol child : Symbol) (rest : List Symbol) (known)
    (path : List (Frame g)) :
    g.follow marks (⟨symbol, child :: rest, known⟩ :: path) =
      let next := ⟨symbol, rest, fun other mem => known other (.tail child mem)⟩ :: path
      match marks[child]? with
      | some .done => g.follow marks next
      | some .active => .error (closeCycle (pathSymbols next) child)
      | none => g.follow (marks.insert child .active) (.enter g child :: next) := by
  rw [follow]
  split <;> next mark => simp only [mark]

/-- The search goes the same way in two grammars with the same unit rules for each symbol. -/
theorem follow_congr (same : g.unitChildren = h.unitChildren) (marks : Marks)
    (path : List (Frame g)) : ∀ path' : List (Frame h),
      path.map Frame.view = path'.map Frame.view → g.follow marks path = h.follow marks path' := by
  fun_induction g.follow marks path with
  | case1 marks =>
    intro path' frames
    rw [List.map_eq_nil_iff.mp frames.symm, follow]
  | case2 marks symbol known path ih =>
    intro path' frames
    obtain ⟨-, more, rfl, others⟩ := exists_frame_of_view frames
    rw [ih more others, follow]
  | case3 marks symbol child rest known path next done ih =>
    intro path' frames
    obtain ⟨-, more, rfl, others⟩ := exists_frame_of_view frames
    rw [follow_child, done]
    exact ih _ (congrArg _ others)
  | case4 marks symbol child rest known path next active =>
    intro path' frames
    obtain ⟨-, more, rfl, others⟩ := exists_frame_of_view frames
    rw [follow_child, active]
    exact congrArg (fun symbols => Except.error (closeCycle symbols child))
      (pathSymbols_congr (congrArg _ others))
  | case5 marks symbol child rest known path next new ih =>
    intro path' frames
    obtain ⟨-, more, rfl, others⟩ := exists_frame_of_view frames
    rw [follow_child, new]
    exact ih _ (congrArg₂ List.cons (view_enter same child) (congrArg _ others))

theorem explore_congr (same : g.unitChildren = h.unitChildren) : g.explore = h.explore := by
  funext marks symbol
  have frames : [Frame.enter g symbol].map Frame.view = [Frame.enter h symbol].map Frame.view :=
    congrArg ([·]) (view_enter same symbol)
  rw [explore, explore, follow_congr same _ _ _ frames]

/-- The cycle depends on the unit rules and their order alone. -/
theorem unitCycle?_congr (same : g.unitRules = h.unitRules) : g.unitCycle? = h.unitCycle? := by
  have children : g.unitChildren = h.unitChildren := by
    funext symbol
    rw [unitChildren_eq, unitChildren_eq, same]
  have heads : g.unitHeads = h.unitHeads := by
    rw [unitHeads, unitHeads, ← unitRules, ← unitRules, same]
  rw [unitCycle?, unitCycle?, explore_congr children, heads]

/-! ## Normalized grammars -/

theorem make_eq_error (limit : Option Nat) (relaxed : g.violation? = none) {cycle : List Symbol}
    (found : g.unitCycle? = some cycle) : Parser.make g limit = .error (.unitCycle cycle) := by
  unfold Parser.make
  split
  · next violates =>
    rw [relaxed] at violates
    nomatch violates
  · split
    · next other =>
      rw [found] at other
      cases other
      rfl
    · next acyclic =>
      rw [found] at acyclic
      nomatch acyclic

/-- Normalization changes nothing about cycles of unit rules. So a parser of the normalized grammar
is refused for the cycle that the grammar has before, and for nothing else. -/
theorem unitCycle?_normalize (g : Grammar) :
    g.normalize.unitCycle? = g.unitCycle? ∧ ∀ limit,
      (∀ rule, Parser.make g.normalize limit ≠ .error (.nonconforming rule)) ∧
      (∀ cycle, Parser.make g.normalize limit = .error (.unitCycle cycle) ↔
        g.unitCycle? = some cycle) ∧
      ((∃ parser, Parser.make g.normalize limit = .ok parser) ↔ g.unitCycle? = none) := by
  have same : g.normalize.unitCycle? = g.unitCycle? := unitCycle?_congr (filter_unit_normalize g)
  refine ⟨same, fun limit => ?_⟩
  rw [← same]
  have relaxed := violation?_normalize g
  cases answer : g.normalize.unitCycle? with
  | none => simp [Parser.make_eq_ok limit relaxed answer]
  | some cycle => simp [make_eq_error limit relaxed answer]

end ChartParser.Grammar
