import ChartParser.Proofs.Parser.Gathering
import ChartParser.Proofs.Parser.Membership

/-! # How the charts of the parser are filled

Parsing and testing membership both fill a chart span by span. Each is a machine here that ends with
the same answer. In all of its states the chart has been used in order, and the cells of trees are
sound.
-/

namespace ChartParser.Parser

open Grammar Relation

variable {g : Grammar} {limit : Option Nat} {words : List String} {span : Span}

/-! ## Symbols of a span -/

/-- Where the work on the symbols of a span stands. -/
structure Survey where
  heads : List Symbol
  /-- Left roots whose right roots are still to be looked up at a cut. -/
  lefts : List (Nat × Symbol)
  cuts : List Nat

namespace Survey

def start (g : Grammar) (words : List String) (span : Span) : Survey :=
  if span.isWord then ⟨(words[span.start]?.map (wordHeads g)).getD [], [], []⟩
  else ⟨[], [], span.cuts⟩

/-- All symbols of the span, once every pair has been looked at. -/
def done? (g : Grammar) : Survey → Option (Std.TreeSet Symbol)
  | ⟨heads, [], []⟩ => some (unitClosure g heads)
  | _ => none

end Survey

/-- The heads of rules for a left root and any of the right roots. -/
def headsFor (g : Grammar) (leftRoot : Symbol) (right : Std.TreeSet Symbol) : List Symbol :=
  right.toList.flatMap fun rightRoot => (g.rulesProducing [leftRoot, rightRoot]).map Rule.head

/-- One step: the left cell at a cut is read, or the right cell for one of the left roots. -/
inductive SurveyStep (g : Grammar) (span : Span) :
    Survey → List (Span × Std.TreeSet Symbol) → Survey → Prop
  | left {heads : List Symbol} {cut : Nat} {cuts : List Nat} {left : Std.TreeSet Symbol} :
      SurveyStep g span ⟨heads, [], cut :: cuts⟩ [(⟨span.start, cut⟩, left)]
        ⟨heads, left.toList.map fun root => (cut, root), cuts⟩
  | right {heads : List Symbol} {cut : Nat} {root : Symbol} {lefts : List (Nat × Symbol)}
      {cuts : List Nat} {right : Std.TreeSet Symbol} :
      SurveyStep g span ⟨heads, (cut, root) :: lefts, cuts⟩ [(⟨cut, span.stop⟩, right)]
        ⟨heads ++ headsFor g root right, lefts, cuts⟩

theorem surveyStep_unique {survey next next' : Survey}
    {reads reads' : List (Span × Std.TreeSet Symbol)} (one : SurveyStep g span survey reads next)
    (two : SurveyStep g span survey reads' next')
    (same : ∀ read ∈ reads, ∀ read' ∈ reads', read.1 = read'.1 → read.2 = read'.2) :
    reads = reads' ∧ next = next' := by
  cases one <;> cases two <;> obtain rfl := same _ (.head _) _ (.head _) rfl <;> exact ⟨rfl, rfl⟩

/-- The work of the membership test on its sets of symbols. -/
def symbolWorker (g : Grammar) (words : List String) : Worker (Std.TreeSet Symbol) Survey where
  blank := ∅
  start := Survey.start g words
  Step := SurveyStep g
  done? := Survey.done? g
  unique := surveyStep_unique
  stuck done step := by cases step <;> nomatch done

/-! ## The result -/

variable {chart : Chart (Std.TreeSet Symbol)}

/-- The heads at a cut. -/
def cutHeads (g : Grammar) (chart : Chart (Std.TreeSet Symbol)) (span : Span) (cut : Nat) :
    List Symbol :=
  pairHeads g (chart.look ∅ ⟨span.start, cut⟩) (chart.look ∅ ⟨cut, span.stop⟩)

theorem spanHeads_eq (g : Grammar) (chart : Chart (Std.TreeSet Symbol)) (span : Span) :
    spanHeads g chart span = span.cuts.flatMap (cutHeads g chart span) := by
  refine List.flatMap_congr fun cut _ => ?_
  unfold cutHeads Chart.look
  cases chart.get? ⟨span.start, cut⟩ with
  | none => simp [pairHeads]
  | some left => cases chart.get? ⟨cut, span.stop⟩ <;> simp [pairHeads]

theorem run_lefts (cut : Nat) (lefts heads : List Symbol) (cuts : List Nat) :
    ReflTransGen ((symbolWorker g words).StepIn chart span)
      ⟨heads, lefts.map fun root => (cut, root), cuts⟩
      ⟨heads ++ lefts.flatMap fun root => headsFor g root (chart.look ∅ ⟨cut, span.stop⟩), [],
        cuts⟩ := by
  induction lefts generalizing heads with
  | nil => simpa using .refl
  | cons root lefts ih =>
    have rest := ih (heads ++ headsFor g root (chart.look ∅ ⟨cut, span.stop⟩))
    rw [List.append_assoc] at rest
    exact .head ⟨_, .right, by simp [symbolWorker]⟩ rest

theorem run_cuts (cuts : List Nat) (heads : List Symbol) :
    ReflTransGen ((symbolWorker g words).StepIn chart span) ⟨heads, [], cuts⟩
      ⟨heads ++ cuts.flatMap (cutHeads g chart span), [], []⟩ := by
  induction cuts generalizing heads with
  | nil => simpa using .refl
  | cons cut cuts ih =>
    have rest := ih (heads ++ cutHeads g chart span cut)
    rw [List.append_assoc] at rest
    exact .head ⟨_, .left, by simp [symbolWorker]⟩ ((run_lefts cut _ heads cuts).trans rest)

theorem symbolWorker_makes (g : Grammar) (words : List String)
    (chart : Chart (Std.TreeSet Symbol)) (span : Span) :
    (symbolWorker g words).Makes (ε := Empty) (fun _ _ => False) chart span (.start g words span)
      (.ok (symbolsFor g words chart span)) := by
  unfold symbolsFor Survey.start
  split
  · exact ⟨_, .refl, rfl⟩
  · have run : ReflTransGen ((symbolWorker g words).StepIn chart span) ⟨[], [], span.cuts⟩
        ⟨[] ++ span.cuts.flatMap (cutHeads g chart span), [], []⟩ := run_cuts span.cuts []
    rw [List.nil_append, ← spanHeads_eq] at run
    exact ⟨_, run, rfl⟩

/-! ## What the steps keep -/

/-- All that is still to be looked at are cuts of the span. -/
structure Survey.Sound (span : Span) (survey : Survey) : Prop where
  lefts : ∀ left ∈ survey.lefts, left.1 ∈ span.cuts
  cuts : ∀ cut ∈ survey.cuts, cut ∈ span.cuts

theorem symbolWorker_keeps (g : Grammar) (words : List String) :
    (symbolWorker g words).Keeps words.length (fun _ _ => True)
      fun span survey => survey.Sound span where
  start span _ := by
    change (Survey.start g words span).Sound span
    unfold Survey.start
    split
    · exact ⟨by simp, by simp⟩
    · exact ⟨by simp, fun _ => id⟩
  reads := by
    rintro span survey reads next ⟨proper, inside⟩ sound (_ | _) read mem
    · obtain ⟨after, before⟩ := Span.mem_cuts.mp (sound.cuts _ (.head _))
      rw [List.mem_singleton.mp mem]
      dsimp only [Span.Within]
      omega
    · obtain ⟨after, before⟩ := Span.mem_cuts.mp (sound.lefts _ (.head _))
      rw [List.mem_singleton.mp mem]
      dsimp only [Span.Within] at *
      omega
  step := by
    rintro span survey reads next - sound (_ | _) -
    · obtain ⟨here, later⟩ := List.forall_mem_cons.mp sound.cuts
      exact ⟨by simpa using fun _ _ => here, later⟩
    · exact ⟨(List.forall_mem_cons.mp sound.lefts).2, sound.cuts⟩
  done _ _ _ := trivial

/-! ## Sentences -/

/-- The steps of parsing. The cell of all words is taken out in the end. -/
def ParseStep (g : Grammar) (limit : Option Nat) (words : List String) :
    Filling Cell Task → Filling Cell Task → Prop :=
  FillStep (treeWorker g limit words) .take

/-- The steps of the membership test. -/
def AcceptStep (g : Grammar) (words : List String) : Filling (Std.TreeSet Symbol) Survey →
    Filling (Std.TreeSet Symbol) Survey → Prop :=
  FillStep (symbolWorker g words) .read

/-- The answer that parsing ends with in this phase. -/
def trees? (g : Grammar) : Phase Cell Task → Option (Except ParseError (List Tree))
  | .between => some (.ok [])
  | .working _ (.exceeded _ error) => some (.error error)
  | .working _ _ => none
  | .ended cell => some (.ok (cell.treesOf g.start).toList)

/-- The answer that the membership test ends with in this phase. -/
def accepted? (g : Grammar) : Phase (Std.TreeSet Symbol) Survey → Option Bool
  | .between => some false
  | .working _ _ => none
  | .ended symbols => some (symbols.contains g.start)

theorem treesIn_eq_look (g : Grammar) (chart : Chart Cell) :
    treesIn g chart = ((chart.look .empty ⟨0, chart.size⟩).treesOf g.start).toList := by
  unfold treesIn Chart.look
  cases chart.get? ⟨0, chart.size⟩ with
  | none => rfl
  | some cell => rfl

/-- The machine fills the chart of the parser and ends with its answer. -/
theorem parse_settles (parser : Parser) (words : List String) :
    Settles (ParseStep parser.grammar parser.limit words) (.start words.length)
      fun last => last.Wrote (parser.chart words).1 ∧
        trees? parser.grammar last.phase = some (parser.parse words) := by
  have settles : Settles (ParseStep parser.grammar parser.limit words) (.start words.length)
      fun last => last.Wrote (parser.chart words).1 ∧
        last.Result (treeWorker parser.grammar parser.limit words) Task.Fails
          (parser.chart words) := by
    apply Filling.settles_fillUntil (treeWorker_keeps parser.relaxed parser.limit words) (.inl rfl)
      (treeWorker_makes parser words)
    rintro _ _ ⟨cell, rfl⟩
    exact ⟨rfl, nofun⟩
  obtain ⟨ends, last, run, stuck, wrote, result⟩ := settles
  refine ⟨ends, last, run, stuck, wrote, ?_⟩
  unfold parse
  generalize parser.chart words = filled at result
  obtain ⟨chart, error | error⟩ := filled
  · rcases result with ⟨none, phase⟩ | ⟨-, phase⟩
    · have unset := chart.get?_of_size_eq_zero none ⟨0, chart.size⟩
      simp [phase, trees?, treesIn, unset]
    · simp [phase, trees?, treesIn_eq_look, treeWorker]
  · obtain ⟨span, _, phase, cell, rfl⟩ := result
    rw [phase]
    rfl

/-- The machine fills the chart of the membership test and ends with its answer. -/
theorem accepts_settles (parser : Parser) (words : List String) :
    Settles (AcceptStep parser.grammar words) (.start words.length)
      fun last => last.Wrote (symbolChart parser.grammar words) ∧
        accepted? parser.grammar last.phase = some (parser.accepts words) := by
  have settles : Settles (AcceptStep parser.grammar words) (.start words.length)
      fun last => last.Wrote (symbolChart parser.grammar words) ∧
        last.Result (ε := Empty) (symbolWorker parser.grammar words) (fun _ _ => False)
          (symbolChart parser.grammar words, none) :=
    Filling.settles_fill (symbolWorker_keeps parser.grammar words) (.inr rfl)
      (symbolWorker_makes parser.grammar words)
  obtain ⟨ends, last, run, stuck, wrote, result⟩ := settles
  refine ⟨ends, last, run, stuck, wrote, ?_⟩
  have size : (symbolChart parser.grammar words).size = words.length :=
    (symbolChart_spec parser.relaxed words).1
  unfold accepts
  rcases result with ⟨none, phase⟩ | ⟨-, phase⟩
  · simp [phase, accepted?, Chart.get?_of_size_eq_zero _ none]
  · rw [size] at phase
    simp only [phase, accepted?, Chart.look, symbolWorker]
    cases (symbolChart parser.grammar words).get? ⟨0, words.length⟩ <;> simp

/-- Parsing and the membership test use their charts in order: within the table, reading only what
was set, setting each cell once, and taking out at most the cell of all words at the end. The cells
of trees describe the words of their spans all the time, and stored ones are within the limit. -/
theorem charts_tidy {parser : Parser} (made : make g limit = .ok parser) (words : List String) :
    (Settles (ParseStep g limit words) (.start words.length)
        (fun last => last.Wrote (parser.chart words).1 ∧
          trees? g last.phase = some (parser.parse words)) ∧
      ∀ state, ReflTransGen (ParseStep g limit words) (.start words.length) state →
        state.Tidy words.length ∧
        (∀ span cell, .write span cell ∈ state.log →
          cell.Describes (span.slice words) ∧ cell.Under limit) ∧
        ∀ span task, state.phase = .working span task →
          task.cell.Describes (span.slice words)) ∧
    Settles (AcceptStep g words) (.start words.length)
        (fun last => last.Wrote (symbolChart g words) ∧
          accepted? g last.phase = some (parser.accepts words)) ∧
      ∀ state, ReflTransGen (AcceptStep g words) (.start words.length) state →
        state.Tidy words.length := by
  obtain ⟨rfl, rfl⟩ := of_make_eq_ok made
  refine ⟨⟨parse_settles parser words, fun state run => ?_⟩, accepts_settles parser words,
    fun state run => ?_⟩
  · have steady := Filling.steady_of_reaches
      (treeWorker_keeps parser.relaxed parser.limit words) (.inl rfl) run
    refine ⟨Filling.tidy_of_steady steady, fun span cell mem => ?_, fun span task phase => ?_⟩
    · have stored := steady.cells span cell mem
      exact ⟨Cell.describes_of_counts stored.counts, stored.under⟩
    · exact Cell.describes_of_counts (counts_of_sound (steady.work span task phase))
  · exact Filling.tidy_of_steady
      (Filling.steady_of_reaches (symbolWorker_keeps parser.grammar words) (.inr rfl) run)

theorem charts_tidy_parens : ∃ g parser, Sample.parens = .ok g ∧
    make g.normalize (some 1) = .ok parser ∧
    ∃ last, ReflTransGen (ParseStep g.normalize (some 1) ["x", "x", "x"]) (.start 3) last ∧
      trees? g.normalize last.phase = some (parser.parse ["x", "x", "x"]) ∧ last.Tidy 3 := by
  obtain ⟨g, parser, built, made⟩ := exists_parser_parens (some 1)
  obtain ⟨⟨⟨-, last, run, -, -, answer⟩, states⟩, -⟩ := charts_tidy made ["x", "x", "x"]
  exact ⟨g, parser, built, made, last, run, answer, (states last run).1⟩

end ChartParser.Parser
