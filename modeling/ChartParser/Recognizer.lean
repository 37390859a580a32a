import ChartParser.Chart
import ChartParser.Grammar.Basic
import ChartParser.Proofs.Count

/-! # Recognition with any grammar

Bodies may have any length and shape, and unit rules may form cycles. Each span collects symbols
until no rule adds one.
-/

namespace ChartParser.Recognizer

/-- What is known while the symbols of a span are collected. -/
structure State where
  words : List String
  /-- The symbols of all shorter spans. -/
  chart : Chart (Std.TreeSet Symbol)
  span : Span
  /-- The symbols of `span` so far. -/
  found : Std.TreeSet Symbol

namespace State

/-- The symbol covers the words from `start` to `stop`. -/
def covers (state : State) (start stop : Nat) : Symbol → Bool
  | .term name => stop == start + 1 && state.words[start]? == some name
  | symbol@(.nonterm _) =>
    if start = state.span.start ∧ stop = state.span.stop then state.found.contains symbol
    else (state.chart.get? ⟨start, stop⟩).any (·.contains symbol)

/-- The symbols of a body cover the words from `start` to `stop`, one after another. -/
def coversAll (state : State) (start stop : Nat) : List Symbol → Bool
  | [] => start == stop
  | [symbol] => state.covers start stop symbol
  | symbol :: next :: rest =>
    let others := rest.length + 1
    stop - start ≥ others + 1
      && (List.range' (start + 1) (stop - others - start)).any fun cut =>
        state.covers start cut symbol && state.coversAll cut stop (next :: rest)

/-- The heads that are not found yet and have a body that covers the span. -/
def newHeads (state : State) (g : Grammar) : List Symbol :=
  (g.rules.filter fun rule =>
    !state.found.contains rule.head
      && state.coversAll state.span.start state.span.stop rule.body).map Rule.head

/-- How many rules have a head that is not found yet. -/
def missing (state : State) (g : Grammar) : Nat :=
  g.rules.countP fun rule => !state.found.contains rule.head

theorem missing_insertMany_lt (state : State) {g : Grammar} {head : Symbol} {more : List Symbol}
    (h : state.newHeads g = head :: more) :
    missing { state with found := state.found.insertMany (head :: more) } g < state.missing g := by
  have mem : head ∈ state.newHeads g := by simp [h]
  obtain ⟨rule, hrule, rfl⟩ := List.mem_map.mp mem
  obtain ⟨hmem, hnew⟩ := List.mem_filter.mp hrule
  rw [Bool.and_eq_true] at hnew
  refine countP_lt_countP ?_ hmem hnew.1 (by simp)
  intro other _ h
  rw [Std.TreeSet.contains_insertMany_list] at h
  simp_all

/-- Collects symbols until a round adds none. -/
def saturate (state : State) (g : Grammar) : Std.TreeSet Symbol :=
  match _h : state.newHeads g with
  | [] => state.found
  | head :: more =>
    saturate { state with found := state.found.insertMany (head :: more) } g
termination_by state.missing g
decreasing_by exact state.missing_insertMany_lt _h

end State

/-- The symbols of a span. -/
def symbolsFor (g : Grammar) (words : List String) (chart : Chart (Std.TreeSet Symbol))
    (span : Span) : Std.TreeSet Symbol :=
  State.saturate ⟨words, chart, span, ∅⟩ g

/-- The symbols of all spans of a sentence. -/
def chart (g : Grammar) (words : List String) : Chart (Std.TreeSet Symbol) :=
  Chart.fill (symbolsFor g words) (Span.all words.length) (.empty words.length)

/-- The start symbol derives the sentence. -/
def recognizes (g : Grammar) (words : List String) : Bool :=
  match (chart g words).get? ⟨0, words.length⟩ with
  | some symbols => symbols.contains g.start
  | none => false

end ChartParser.Recognizer
