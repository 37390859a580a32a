import ChartParser.Proofs.SymbolChart
import ChartParser.Recognizer
import Mathlib.Logic.Function.Iterate

/-! # The recognizer decides what a grammar derives

The symbols of a span are those that derive its words. Each round of collecting is sound, and when
no round adds a symbol, all symbols that derive the words are there.
-/

namespace ChartParser.Recognizer

open Grammar

variable {g : Grammar}

/-- What is known of the words, the shorter spans and the symbols so far. -/
structure Sound (g : Grammar) (state : State) : Prop where
  size : state.chart.size = state.words.length
  within : state.span.Within state.words.length
  ready : state.chart.Ready (g.RightSymbols state.words) state.span
  found : ∀ symbol, state.found.contains symbol = true →
    symbol.isNonterm = true ∧ g.Derives symbol (state.span.slice state.words)

namespace State

variable {state : State}

/-- A span of the sentence that lies in the span for which symbols are collected. -/
def Inside (state : State) (start stop : Nat) : Prop :=
  state.span.start ≤ start ∧ start < stop ∧ stop ≤ state.span.stop

theorem within_of_inside (sound : Sound g state) {start stop : Nat}
    (inside : state.Inside start stop) : Span.Within state.words.length ⟨start, stop⟩ :=
  ⟨inside.2.1, Nat.le_trans inside.2.2 sound.within.2⟩

theorem covers_iff (sound : Sound g state) {start stop : Nat} (inside : state.Inside start stop)
    (symbol : Symbol) :
    state.covers start stop symbol = true ↔
      if symbol.isNonterm ∧ start = state.span.start ∧ stop = state.span.stop then
        state.found.contains symbol = true
      else g.Derives symbol (Span.slice ⟨start, stop⟩ state.words) := by
  have within := within_of_inside sound inside
  cases symbol with
  | term word =>
    simp only [covers, Symbol.isNonterm, Bool.false_eq_true, false_and, if_false, derives_term,
      Span.slice_eq_singleton within, Span.isWord, Bool.and_eq_true, beq_iff_eq]
  | nonterm name =>
    simp only [covers, Symbol.isNonterm, true_and]
    split
    · rfl
    · next part =>
      have shorter : stop - start < state.span.stop - state.span.start := by
        obtain ⟨first, proper, last⟩ := inside
        omega
      obtain ⟨symbols, symbols_eq, right⟩ := sound.ready ⟨start, stop⟩ (sound.size ▸ within) shorter
      simp [symbols_eq, right (.nonterm name), Symbol.isNonterm]

theorem derives_of_covers (sound : Sound g state) {start stop : Nat}
    (inside : state.Inside start stop) {symbol : Symbol}
    (h : state.covers start stop symbol = true) :
    g.Derives symbol (Span.slice ⟨start, stop⟩ state.words) := by
  rw [covers_iff sound inside] at h
  split at h
  · next whole =>
    obtain ⟨-, rfl, rfl⟩ := whole
    exact (sound.found symbol h).2
  · exact h

theorem derivesAll_of_coversAll (sound : Sound g state) {start stop : Nat} {body : List Symbol}
    (inside : state.Inside start stop) (h : state.coversAll start stop body = true) :
    g.DerivesAll body (Span.slice ⟨start, stop⟩ state.words) := by
  fun_induction state.coversAll start stop body with
  | case1 =>
    obtain ⟨-, proper, -⟩ := inside
    simp only [beq_iff_eq] at h
    omega
  | case2 start symbol => exact derivesAll_singleton.mpr (derives_of_covers sound inside h)
  | case3 start symbol next rest others ih =>
    obtain ⟨first, proper, last⟩ := inside
    rw [Bool.and_eq_true, List.any_eq_true] at h
    obtain ⟨-, cut, range, h⟩ := h
    rw [Bool.and_eq_true] at h
    rw [List.mem_range'_1] at range
    have left : state.Inside start cut := ⟨first, by omega, by omega⟩
    have right : state.Inside cut stop := ⟨by omega, by omega, last⟩
    rw [← Span.slice_append state.words (Nat.le_of_lt left.2.1) (Nat.le_of_lt right.2.1)]
    exact derivesAll_cons.mpr ⟨_, _, rfl, derives_of_covers sound left h.1, ih cut right h.2⟩

/-- Trees of a body cover the span if each of them covers its part. -/
theorem coversAll_of_parsesAll (sound : Sound g state) {start stop : Nat} {body : List Symbol}
    {trees : List Tree} (inside : state.Inside start stop)
    (h : g.ParsesAll body (Span.slice ⟨start, stop⟩ state.words) trees)
    (covered : ∀ tree ∈ trees, ∀ start' stop', state.Inside start' stop' →
      tree.tokens = Span.slice ⟨start', stop'⟩ state.words →
      state.covers start' stop' tree.symbol = true) :
    state.coversAll start stop body = true := by
  induction body generalizing start trees with
  | nil =>
    have total := Span.length_slice (within_of_inside sound inside)
    obtain ⟨-, proper, -⟩ := inside
    rw [(parsesAll_nil.mp h).1, List.length_nil] at total
    dsimp only at total
    omega
  | cons symbol rest ih =>
    cases rest with
    | nil =>
      obtain ⟨tree, rfl, parses⟩ := parsesAll_singleton.mp h
      exact parses.root ▸ covered tree (.head _) start stop inside parses.tokens
    | cons next rest =>
      have within := within_of_inside sound inside
      have total := Span.length_slice within
      obtain ⟨first, second, tree, more, both, rfl, parses, later⟩ := parsesAll_cons.mp h
      obtain ⟨first_eq, second_eq⟩ := Span.slice_eq_append within both
      have first_pos := List.length_pos_iff.mpr (ne_nil_of_derives ⟨tree, parses⟩)
      have second_long := length_le_of_derivesAll ⟨more, later⟩
      rw [both, List.length_append] at total
      obtain ⟨from_first, proper, to_last⟩ := inside
      simp only [List.length_cons] at first_eq second_eq total second_long
      have left : state.Inside start (start + first.length) := ⟨from_first, by omega, by omega⟩
      have right : state.Inside (start + first.length) stop := ⟨by omega, by omega, to_last⟩
      rw [coversAll, Bool.and_eq_true, List.any_eq_true, decide_eq_true_eq]
      refine ⟨by omega, start + first.length, ?_, ?_⟩
      · rw [List.mem_range'_1]
        omega
      · rw [Bool.and_eq_true]
        constructor
        · rw [← parses.root]
          exact covered tree (.head _) _ _ left (parses.tokens.trans first_eq.symm)
        · refine ih right (second_eq ▸ later) fun other mem => ?_
          exact covered other (.tail _ mem)

/-! ## Collecting -/

theorem mem_newHeads {head : Symbol} :
    head ∈ state.newHeads g ↔ ∃ rule ∈ g.rules, state.found.contains rule.head = false ∧
      state.coversAll state.span.start state.span.stop rule.body = true ∧ rule.head = head := by
  simp only [newHeads, List.mem_map, List.mem_filter, Bool.and_eq_true, Bool.not_eq_true',
    and_assoc]

theorem inside_span (sound : Sound g state) : state.Inside state.span.start state.span.stop :=
  ⟨Nat.le_refl _, sound.within.1, Nat.le_refl _⟩

theorem sound_insertMany (sound : Sound g state) {heads : List Symbol}
    (h : state.newHeads g = heads) :
    Sound g { state with found := state.found.insertMany heads } := by
  refine { sound with found := fun symbol mem => ?_ }
  rw [Std.TreeSet.contains_insertMany_list, Bool.or_eq_true, List.contains_iff_mem] at mem
  rcases mem with mem | mem
  · exact sound.found symbol mem
  · obtain ⟨rule, rule_mem, -, covered, rfl⟩ := mem_newHeads.mp (h ▸ mem)
    have kind := (g.rules_valid rule rule_mem).1
    have derives := derivesAll_of_coversAll sound (inside_span sound) covered
    exact ⟨kind, (derives_nonterm kind).mpr ⟨rule, rule_mem, rfl, derives⟩⟩

/-- When a round finds nothing new, the root of each derivation tree is there. -/
theorem found_of_parses (sound : Sound g state) (done : state.newHeads g = []) {tree : Tree}
    (kind : tree.symbol.isNonterm = true)
    (parses : g.Parses tree.symbol (state.span.slice state.words) tree) :
    state.found.contains tree.symbol = true := by
  induction tree with
  | node symbol children ih =>
    obtain ⟨rule, mem, rfl, children', same, h⟩ := (parses_nonterm kind).mp parses
    cases same
    have covered : state.coversAll state.span.start state.span.stop rule.body = true := by
      refine coversAll_of_parsesAll sound (inside_span sound) h ?_
      intro child child_mem start' stop' inside tokens
      have child_parses : g.Parses child.symbol (Span.slice ⟨start', stop'⟩ state.words) child :=
        ⟨h.derived child child_mem, rfl, tokens⟩
      -- A child with all of the words comes first, and a child with fewer is in the chart.
      rw [covers_iff sound inside]
      split
      · next whole =>
        obtain ⟨child_kind, rfl, rfl⟩ := whole
        exact ih child child_mem child_kind child_parses
      · exact ⟨child, child_parses⟩
    cases found : state.found.contains rule.head with
    | true => exact found
    | false =>
      have new := mem_newHeads.mpr ⟨rule, mem, found, covered, rfl⟩
      rw [done] at new
      nomatch new

theorem rightSymbols_saturate (sound : Sound g state) :
    g.RightSymbols state.words state.span (state.saturate g) := by
  fun_induction state.saturate g with
  | case1 state done =>
    intro symbol
    constructor
    · exact sound.found symbol
    · rintro ⟨kind, tree, parses⟩
      have root := parses.root
      subst root
      exact found_of_parses sound done kind parses
  | case2 state head more new ih => exact ih (sound_insertMany sound new)

/-! ## Rounds -/

/-- The state after one more round. -/
def round (g : Grammar) (state : State) : State :=
  { state with found := state.found.insertMany (state.newHeads g) }

/-- Each round but the last finds the head of a rule, so there are no more of them than heads to be
found. -/
theorem exists_rounds (g : Grammar) (state : State) : ∃ n ≤ state.missing g,
    ((round g)^[n] state).newHeads g = [] ∧ state.saturate g = ((round g)^[n] state).found := by
  fun_induction state.saturate g with
  | case1 state done => exact ⟨0, Nat.zero_le _, done, rfl⟩
  | case2 state head more new ih =>
    obtain ⟨n, few, done, same⟩ := ih
    have fewer := state.missing_insertMany_lt new
    have next : round g state = { state with found := state.found.insertMany (head :: more) } := by
      rw [round, new]
    refine ⟨n + 1, by omega, ?_, ?_⟩
    · rwa [Function.iterate_succ_apply, next]
    · rwa [Function.iterate_succ_apply, next]

end State

/-! ## Sentences -/

theorem chart_spec (g : Grammar) (words : List String) :
    (chart g words).size = words.length ∧
      (chart g words).Holds (g.RightSymbols words) (Span.all words.length) := by
  apply Chart.fill_spec
  intro chart span size within ready
  have sound : Sound g ⟨words, chart, span, ∅⟩ := ⟨size, within, ready, by simp⟩
  exact State.rightSymbols_saturate sound

/-- The recognizer accepts the sentences that the start symbol derives. -/
theorem recognizes_iff (g : Grammar) (words : List String) :
    recognizes g words = true ↔ g.Derives g.start words := by
  obtain ⟨size, holds⟩ := chart_spec g words
  rw [← contains_start_iff size holds, recognizes]
  cases (chart g words).get? ⟨0, words.length⟩ <;> rfl

/-- With any grammar the recognizer accepts the sentences that have a derivation tree, and none of
them is empty. The rounds of a span come to an end, whatever is known before. -/
theorem recognizes_iff_derives (g : Grammar) (words : List String) :
    (recognizes g words = true ↔ words ≠ [] ∧ g.Derives g.start words) ∧
      ∀ state : State, ∃ n ≤ g.rules.length, ((State.round g)^[n] state).newHeads g = [] ∧
        state.saturate g = ((State.round g)^[n] state).found := by
  constructor
  · rw [recognizes_iff]
    constructor
    · exact fun derives => ⟨ne_nil_of_derives derives, derives⟩
    · exact And.right
  · intro state
    obtain ⟨n, few, ends⟩ := state.exists_rounds g
    exact ⟨n, Nat.le_trans few List.countP_le_length, ends⟩

end ChartParser.Recognizer
