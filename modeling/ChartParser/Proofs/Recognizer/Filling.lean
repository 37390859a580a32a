import ChartParser.Grammar.Samples
import ChartParser.Proofs.Chart.Filling
import ChartParser.Proofs.Recognizer
import ChartParser.Proofs.Recognizer.Matching

/-! # How the table of the recognizer is filled

The recognizer tries the rules in rounds, one after the other, and each match looks at the table. It
is a machine here that ends with the same answer. Wherever it stands, its matches are exact and look
at nothing but words of the sentence and entries that are settled.
-/

namespace ChartParser.Recognizer

open Relation

variable {g : Grammar} {words : List String} {span : Span}

/-! ## Symbols of a span -/

/-- Where the rounds of a span stand. -/
structure Sweep where
  /-- The symbols found in the rounds before. -/
  found : Std.TreeSet Symbol
  /-- The heads that this round has found, in order. -/
  heads : List Symbol
  /-- The rules whose turn in this round is still to come. -/
  rules : List Rule

/-- Nothing is found yet. -/
def Sweep.start (g : Grammar) : Sweep := ⟨∅, [], g.rules⟩

/-- The symbols of the span, once a round has found nothing. -/
def Sweep.done? (sweep : Sweep) : Option (Std.TreeSet Symbol) :=
  match sweep.rules, sweep.heads with
  | [], [] => some sweep.found
  | _, _ => none

/-- One step: a rule is passed over or its body is matched, or a new round begins. -/
inductive SweepStep (g : Grammar) (words : List String) (span : Span) :
    Sweep → List (Span × Std.TreeSet Symbol) → Sweep → Prop
  | known {found : Std.TreeSet Symbol} {heads : List Symbol} {rule : Rule} {rules : List Rule} :
      found.contains rule.head = true →
      SweepStep g words span ⟨found, heads, rule :: rules⟩ [] ⟨found, heads, rules⟩
  | tried {found : Std.TreeSet Symbol} {heads : List Symbol} {rule : Rule} {rules : List Rule}
      (entry : Span → Std.TreeSet Symbol) : found.contains rule.head = false →
      SweepStep g words span ⟨found, heads, rule :: rules⟩
        (View.reads ⟨words, span, found, entry⟩ span.start span.stop rule.body)
        ⟨found, if (View.seq ⟨words, span, found, entry⟩ span.start span.stop rule.body).answer then
          heads ++ [rule.head] else heads, rules⟩
  | again {found : Std.TreeSet Symbol} {head : Symbol} {more : List Symbol} :
      SweepStep g words span ⟨found, head :: more, []⟩ []
        ⟨found.insertMany (head :: more), [], g.rules⟩

theorem sweepStep_unique {sweep next next' : Sweep} {reads reads' : List (Span × Std.TreeSet Symbol)}
    (one : SweepStep g words span sweep reads next) (two : SweepStep g words span sweep reads' next')
    (same : ∀ read ∈ reads, ∀ read' ∈ reads', read.1 = read'.1 → read.2 = read'.2) :
    reads = reads' ∧ next = next' := by
  cases one with
  | known old =>
    cases two with
    | known => exact ⟨rfl, rfl⟩
    | tried entry new => nomatch old.symm.trans new
  | tried entry new =>
    cases two with
    | known old => nomatch old.symm.trans new
    | tried entry' =>
      obtain ⟨trace, reads⟩ := seq_eq_of_reads same
      rw [trace]
      exact ⟨reads, rfl⟩
  | again =>
    cases two
    exact ⟨rfl, rfl⟩

/-- The work of the recognizer on its table. -/
def sweepWorker (g : Grammar) (words : List String) : Worker (Std.TreeSet Symbol) Sweep where
  blank := ∅
  start _ := .start g
  Step := SweepStep g words
  done? := Sweep.done?
  unique := sweepStep_unique
  stuck done step := by cases step <;> nomatch done

/-! ## The result -/

variable {state : State}

/-- What is left of a round finds the heads that are not found yet and have a body that matches. -/
theorem run_rules (rules : List Rule) (heads : List Symbol) :
    ReflTransGen ((sweepWorker g state.words).StepIn state.chart state.span)
      ⟨state.found, heads, rules⟩
      ⟨state.found, heads ++ (rules.filter fun rule => !state.found.contains rule.head &&
        state.coversAll state.span.start state.span.stop rule.body).map Rule.head, []⟩ := by
  induction rules generalizing heads with
  | nil => simpa using .refl
  | cons rule rules ih =>
    cases known : state.found.contains rule.head with
    | true =>
      rw [List.filter_cons_of_neg (by simp [known])]
      exact .head ⟨[], .known known, List.forall_mem_nil _⟩ (ih heads)
    | false =>
      have answer := answer_seq state state.span.start state.span.stop rule.body
      have step : (sweepWorker g state.words).StepIn state.chart state.span
          ⟨state.found, heads, rule :: rules⟩ _ :=
        ⟨_, .tried (state.chart.look ∅) known, by simp [View.reads, sweepWorker]⟩
      refine .head step ?_
      change (View.seq ⟨_, _, _, _⟩ _ _ _).answer = _ at answer
      cases covers : state.coversAll state.span.start state.span.stop rule.body with
      | true =>
        have rest := ih (heads ++ [rule.head])
        rw [List.append_assoc, List.singleton_append] at rest
        rw [List.filter_cons_of_pos (by simp [known, covers]), List.map_cons, answer, covers]
        exact rest
      | false =>
        rw [List.filter_cons_of_neg (by simp [covers]), answer, covers]
        exact ih heads

/-- A round finds the new heads. -/
theorem run_round (g : Grammar) (state : State) :
    ReflTransGen ((sweepWorker g state.words).StepIn state.chart state.span)
      ⟨state.found, [], g.rules⟩ ⟨state.found, state.newHeads g, []⟩ :=
  run_rules g.rules []

/-- The rounds come to an end with the symbols of the span. -/
theorem run_rounds (g : Grammar) (state : State) :
    ReflTransGen ((sweepWorker g state.words).StepIn state.chart state.span)
      ⟨state.found, [], g.rules⟩ ⟨state.saturate g, [], []⟩ := by
  fun_induction state.saturate g with
  | case1 state done => exact done ▸ run_round g state
  | case2 state head more new ih =>
    have round := run_round g state
    rw [new] at round
    exact round.trans (.head ⟨[], .again, List.forall_mem_nil _⟩ ih)

theorem sweepWorker_makes (g : Grammar) (words : List String) (chart : Chart (Std.TreeSet Symbol))
    (span : Span) :
    (sweepWorker g words).Makes (ε := Empty) (fun _ _ => False) chart span (.start g)
      (.ok (symbolsFor g words chart span)) :=
  ⟨_, run_rounds g ⟨words, chart, span, ∅⟩, rfl⟩

/-! ## What the steps keep -/

/-- The entries that are read are those of shorter spans. -/
theorem sweepWorker_keeps (g : Grammar) (words : List String) :
    (sweepWorker g words).Keeps words.length (fun _ _ => True) fun _ _ => True where
  start _ _ := trivial
  reads := by
    rintro span sweep reads next within - (_ | ⟨entry, _⟩ | _) read mem
    · nomatch mem
    · obtain ⟨part, part_mem, rfl⟩ := List.mem_map.mp mem
      exact safe_seq within (Nat.le_refl _) within.1 (Nat.le_refl _) _ _ (mem_parts_iff.mp part_mem)
    · nomatch mem
  step _ _ _ _ := trivial
  done _ _ _ := trivial

/-! ## Sentences -/

/-- The steps of the recognizer. In the end it looks at the symbols of all words. -/
def RecognizeStep (g : Grammar) (words : List String) : Filling (Std.TreeSet Symbol) Sweep →
    Filling (Std.TreeSet Symbol) Sweep → Prop :=
  FillStep (sweepWorker g words) .read

/-- The answer that the recognizer ends with in this phase. -/
def recognized? (g : Grammar) : Phase (Std.TreeSet Symbol) Sweep → Option Bool
  | .between => some false
  | .working _ _ => none
  | .ended symbols => some (symbols.contains g.start)

/-- The machine fills the table of the recognizer and ends with its answer. -/
theorem recognizes_settles (g : Grammar) (words : List String) :
    Settles (RecognizeStep g words) (.start words.length) fun last =>
      last.Wrote (chart g words) ∧ recognized? g last.phase = some (recognizes g words) := by
  have size : (chart g words).size = words.length := (chart_spec g words).1
  have settles : Settles (RecognizeStep g words) (.start words.length) fun last =>
      last.Wrote (chart g words) ∧ last.Result (ε := Empty) (sweepWorker g words)
        (fun _ _ => False) (chart g words, none) :=
    Filling.settles_fill (sweepWorker_keeps g words) (.inr rfl) (sweepWorker_makes g words)
  obtain ⟨ends, last, run, stuck, wrote, result⟩ := settles
  refine ⟨ends, last, run, stuck, wrote, ?_⟩
  unfold recognizes
  rcases result with ⟨none, phase⟩ | ⟨-, phase⟩
  · rw [phase, Chart.get?_of_size_eq_zero _ none]
    rfl
  · rw [size] at phase
    simp only [phase, recognized?, Chart.look, sweepWorker]
    cases (chart g words).get? ⟨0, words.length⟩ <;> simp

/-- Wherever the recognizer stands in its work on a span, a body matches if cuts divide the words
into pieces that its symbols cover. To find out, no number is taken from a smaller one, the words
looked at are words of the sentence, and the entries looked at are those of shorter spans, with the
symbols that they have in the end. -/
theorem matches_exactly (g : Grammar) (words : List String) :
    Settles (RecognizeStep g words) (.start words.length)
        (fun last => last.Wrote (chart g words) ∧
          recognized? g last.phase = some (recognizes g words)) ∧
      ∀ filling span sweep, ReflTransGen (RecognizeStep g words) (.start words.length) filling →
        filling.phase = .working span sweep →
        filling.Tidy words.length ∧ span.Within words.length ∧
        ∀ body : List Symbol,
          let state : State := ⟨words, filling.chart, span, sweep.found⟩
          let trace := state.view.seq span.start span.stop body
          (state.coversAll span.start span.stop body = true ↔
            state.Divides span.start span.stop body) ∧
          trace.answer = state.coversAll span.start span.stop body ∧
          (∀ act ∈ trace.acts, act.Safe words.length span) ∧
          ∀ part, .entry part ∈ trace.acts → ∃ symbols,
            filling.chart.get? part = some symbols ∧ (chart g words).get? part = some symbols := by
  have settles := recognizes_settles g words
  refine ⟨settles, fun filling span sweep run phase => ?_⟩
  obtain ⟨chart, log, todo, _⟩ := filling
  cases phase
  have steady := Filling.steady_of_reaches (sweepWorker_keeps g words) (.inr rfl) run
  have within := Filling.within_of_working steady
  refine ⟨Filling.tidy_of_steady steady, within, fun body => ?_⟩
  intro state trace
  have safe : ∀ act ∈ trace.acts, act.Safe words.length span :=
    safe_seq within (Nat.le_refl _) within.1 (Nat.le_refl _) body
  refine ⟨State.coversAll_iff_divides within.1, answer_seq state span.start span.stop body, safe,
    fun part looked => ?_⟩
  obtain ⟨part_within, shorter⟩ := safe _ looked
  obtain ⟨symbols, set⟩ :=
    Access.mem_written.mp (Span.mem_of_shorter steady.turns.symm part_within shorter)
  refine ⟨symbols, ?_, ?_⟩
  · exact (Access.get?_eq_some_iff steady.records (Filling.untaken_of_working steady)
      part_within).mpr set
  · obtain ⟨-, last, ended, stuck, wrote, -⟩ := settles
    exact Filling.get?_of_write run ended stuck wrote ((chart_spec g words).1 ▸ part_within) set

/-- Two words one after the other, when the table has what is known of each of them. -/
theorem matches_exactly_parens : ∃ g, Sample.parens = .ok g ∧
    ∃ filling : Filling (Std.TreeSet Symbol) Sweep,
      ReflTransGen (RecognizeStep g ["x", "x"]) (.start 2) filling ∧
      filling.phase = .working ⟨0, 2⟩ (.start g) ∧
      (State.coversAll ⟨["x", "x"], filling.chart, ⟨0, 2⟩, ∅⟩ 0 2 [.nonterm "E", .nonterm "E"] = true ↔
        State.Divides ⟨["x", "x"], filling.chart, ⟨0, 2⟩, ∅⟩ 0 2 [.nonterm "E", .nonterm "E"]) ∧
      ∃ symbols, filling.chart.get? ⟨0, 1⟩ = some symbols ∧
        (chart g ["x", "x"]).get? ⟨0, 1⟩ = some symbols := by
  obtain ⟨g, built⟩ : ∃ g, Sample.parens = .ok g := ⟨_, rfl⟩
  have makes := sweepWorker_makes g ["x", "x"]
  obtain ⟨log, first⟩ := run_of_makes (makes (.empty 2) ⟨0, 1⟩) [] [⟨1, 2⟩, ⟨0, 2⟩]
  obtain ⟨log', second⟩ := run_of_makes (makes _ ⟨1, 2⟩) log [⟨0, 2⟩]
  have run : ReflTransGen (RecognizeStep g ["x", "x"]) (.start 2) _ :=
    (first.trans second).tail .begin
  obtain ⟨-, -, conclusion⟩ := (matches_exactly g ["x", "x"]).2 _ _ _ run rfl
  obtain ⟨exact, -, -, settled⟩ := conclusion [.nonterm "E", .nonterm "E"]
  refine ⟨g, built, _, run, rfl, exact, settled ⟨0, 1⟩ ?_⟩
  exact .tail _ (.tail _ (Trace.mem_acts_proceed (Trace.mem_acts_proceed (.head _))))

end ChartParser.Recognizer
