import ChartParser.Proofs.Chart.Access
import ChartParser.Proofs.Steps

/-! # Filling a chart step by step

A machine fills the slots of a chart in order and looks at the cell of all words last. How the cell
of one span comes about is left open. What the machine does with the chart is in its log.
-/

namespace ChartParser

open Relation

/-- How the cell of a span comes about. The work on it goes in steps, and a step depends on no cells
but those that it reads. -/
structure Worker (α ω : Type) where
  /-- What is in a slot that is not set. -/
  blank : α
  start : Span → ω
  Step : Span → ω → List (Span × α) → ω → Prop
  /-- The cell, once it is done. -/
  done? : ω → Option α
  unique : ∀ {span work reads next reads' next'}, Step span work reads next →
    Step span work reads' next' →
    (∀ read ∈ reads, ∀ read' ∈ reads', read.1 = read'.1 → read.2 = read'.2) →
    reads = reads' ∧ next = next'
  stuck : ∀ {span work cell reads next}, done? work = some cell → ¬ Step span work reads next

/-- What is going on. -/
inductive Phase (α ω : Type)
  | between
  | working (span : Span) (work : ω)
  /-- This was the cell of all words. -/
  | ended (cell : α)

/-- Where the filling of a chart stands. -/
structure Filling (α ω : Type) where
  chart : Chart α
  log : List (Access α)
  /-- The spans whose turn is still to come. -/
  todo : List Span
  phase : Phase α ω

variable {α ω ε : Type} {worker : Worker α ω} {final : Span → α → Access α} {n : Nat}

/-- No cell of a sentence of `n` words is set. -/
def Filling.start (n : Nat) : Filling α ω := ⟨.empty n, [], Span.all n, .between⟩

/-- One step: the work on the next span begins or goes on, or its cell is set. When all cells are
set, the final access gets the cell of all words, if there are any. -/
inductive FillStep (worker : Worker α ω) (final : Span → α → Access α) :
    Filling α ω → Filling α ω → Prop
  | begin {chart : Chart α} {log : List (Access α)} {span : Span} {todo : List Span} :
      FillStep worker final ⟨chart, log, span :: todo, .between⟩
        ⟨chart, log, todo, .working span (worker.start span)⟩
  | work {chart : Chart α} {log : List (Access α)} {todo : List Span} {span : Span} {work next : ω}
      {reads : List (Span × α)} : worker.Step span work reads next →
      (∀ read ∈ reads, read.2 = chart.look worker.blank read.1) →
      FillStep worker final ⟨chart, log, todo, .working span work⟩
        ⟨chart, log ++ Access.reading reads, todo, .working span next⟩
  | store {chart : Chart α} {log : List (Access α)} {todo : List Span} {span : Span} {work : ω}
      {cell : α} : worker.done? work = some cell →
      FillStep worker final ⟨chart, log, todo, .working span work⟩
        ⟨chart.set span cell, log ++ [.write span cell], todo, .between⟩
  | finish {chart : Chart α} {log : List (Access α)} {cell : α} : 0 < chart.size →
      cell = chart.look worker.blank ⟨0, chart.size⟩ →
      FillStep worker final ⟨chart, log, [], .between⟩
        ⟨(final ⟨0, chart.size⟩ cell).apply chart, log ++ [final ⟨0, chart.size⟩ cell], [],
          .ended cell⟩

/-! ## The end -/

theorem fillStep_unique (before after other : Filling α ω)
    (one : FillStep worker final before after) (two : FillStep worker final before other) : after = other := by
  cases one with
  | begin =>
    cases two
    rfl
  | work step found =>
    cases two with
    | work step' found' =>
      obtain ⟨rfl, rfl⟩ := worker.unique step step' fun read mem read' mem' same => by
        rw [found read mem, found' read' mem', same]
      rfl
    | store done => exact absurd step (worker.stuck done)
  | store done =>
    cases two with
    | work step => exact absurd step (worker.stuck done)
    | store done' =>
      cases done.symm.trans done'
      rfl
  | finish _ here =>
    cases two with
    | finish _ here' =>
      cases here.trans here'.symm
      rfl

/-- A step of the work, with cells of the chart. -/
def Worker.StepIn (worker : Worker α ω) (chart : Chart α) (span : Span) (work next : ω) : Prop :=
  ∃ reads, worker.Step span work reads next ∧
    ∀ read ∈ reads, read.2 = chart.look worker.blank read.1

theorem run_of_stepIn {chart : Chart α} {span : Span} {work next : ω}
    (run : ReflTransGen (worker.StepIn chart span) work next) (log : List (Access α))
    (todo : List Span) : ∃ log', ReflTransGen (FillStep worker final)
      ⟨chart, log, todo, .working span work⟩ ⟨chart, log', todo, .working span next⟩ := by
  induction run with
  | refl => exact ⟨log, .refl⟩
  | tail _ step ih =>
    obtain ⟨log', run⟩ := ih
    obtain ⟨reads, step, found⟩ := step
    exact ⟨_, run.tail (.work step found)⟩

/-- The work leads to the cell, or fails with the error. -/
def Worker.Makes (worker : Worker α ω) (fails : ω → ε → Prop) (chart : Chart α) (span : Span)
    (work : ω) : Except ε α → Prop
  | .ok cell => Leads (worker.StepIn chart span) work (worker.done? · = some cell)
  | .error error => Leads (worker.StepIn chart span) work (fails · error)

theorem makes_of_reaches {fails : ω → ε → Prop} {chart : Chart α} {span : Span} {before after : ω}
    {result : Except ε α} (run : ReflTransGen (worker.StepIn chart span) before after)
    (makes : worker.Makes fails chart span after result) :
    worker.Makes fails chart span before result := by
  cases result with
  | ok cell => exact leads_of_reaches run makes
  | error error => exact leads_of_reaches run makes

/-- Where the work on a span leads to its cell, the machine gets on to the next span. -/
theorem run_of_makes {fails : ω → ε → Prop} {chart : Chart α} {span : Span} {cell : α}
    (made : worker.Makes fails chart span (worker.start span) (.ok cell)) (log : List (Access α))
    (todo : List Span) : ∃ log', ReflTransGen (FillStep worker final)
      ⟨chart, log, span :: todo, .between⟩ ⟨chart.set span cell, log', todo, .between⟩ := by
  obtain ⟨work, run, done⟩ := made
  obtain ⟨log', run⟩ := run_of_stepIn run log todo
  exact ⟨_, .head .begin (run.tail (.store done))⟩

/-- The machine is where filling the chart has ended like this. -/
def Filling.At (fails : ω → ε → Prop) (state : Filling α ω) : Chart α × Option ε → Prop
  | (chart, none) => ∃ log, state = ⟨chart, log, [], .between⟩
  | (chart, some error) => ∃ log todo span work,
      state = ⟨chart, log, todo, .working span work⟩ ∧ fails work error

theorem fillUntil_leads {fails : ω → ε → Prop} {cellFor : Chart α → Span → Except ε α}
    (makes : ∀ chart span,
      worker.Makes fails chart span (worker.start span) (cellFor chart span))
    (spans : List Span) (chart : Chart α) (log : List (Access α)) :
    Leads (FillStep worker final) ⟨chart, log, spans, .between⟩
      (·.At fails (Chart.fillUntil cellFor spans chart)) := by
  induction spans generalizing chart log with
  | nil => exact ⟨_, .refl, log, rfl⟩
  | cons span spans ih =>
    have made := makes chart span
    rw [Chart.fillUntil]
    cases result : cellFor chart span with
    | error error =>
      rw [result] at made
      obtain ⟨work, run, failed⟩ := made
      obtain ⟨log', run⟩ := run_of_stepIn run log spans
      exact ⟨_, .head .begin run, log', spans, span, work, rfl, failed⟩
    | ok cell =>
      rw [result] at made
      obtain ⟨log', run⟩ := run_of_makes made log spans
      exact leads_of_reaches run (ih _ _)

/-! ## What a run keeps -/

/-- The work on a span reads parts of the span only, and as long as these are right, its states are
sound and the cell that it ends with is right. -/
structure Worker.Keeps (worker : Worker α ω) (n : Nat) (right : Span → α → Prop)
    (sound : Span → ω → Prop) : Prop where
  start : ∀ span, span.Within n → sound span (worker.start span)
  reads : ∀ {span work reads next}, span.Within n → sound span work →
    worker.Step span work reads next →
    ∀ read ∈ reads, read.1.Within n ∧ read.1.stop - read.1.start < span.stop - span.start
  step : ∀ {span work reads next}, span.Within n → sound span work →
    worker.Step span work reads next → (∀ read ∈ reads, right read.1 read.2) → sound span next
  done : ∀ {span work cell}, span.Within n → sound span work → worker.done? work = some cell →
    right span cell

namespace Filling

/-- The spans that are not set yet. -/
def unset (state : Filling α ω) : List Span :=
  match state.phase with
  | .working span _ => span :: state.todo
  | _ => state.todo

/-- What holds of every state of a run. -/
structure Steady (n : Nat) (right : Span → α → Prop) (sound : Span → ω → Prop)
    (state : Filling α ω) : Prop where
  records : Access.Records n state.log state.chart
  /-- The spans are set one after the other. -/
  turns : Access.written state.log ++ state.unset = Span.all n
  cells : ∀ span cell, .write span cell ∈ state.log → right span cell
  work : ∀ span work, state.phase = .working span work → sound span work
  ended : ∀ cell, state.phase = .ended cell → state.todo = []
  untaken : (∃ cell, state.phase = .ended cell) ∨ Access.Untaken state.log

variable {right : Span → α → Prop} {sound : Span → ω → Prop} {chart : Chart α}
variable {log : List (Access α)} {todo : List Span} {span : Span} {work : ω}

theorem steady_start (n : Nat) : Steady n right sound (.start n : Filling α ω) where
  records := Access.records_empty n
  turns := rfl
  cells _ _ mem := nomatch mem
  work _ _ phase := nomatch phase
  ended _ phase := nomatch phase
  untaken := .inr fun _ _ mem => nomatch mem

theorem within_of_working (steady : Steady n right sound ⟨chart, log, todo, .working span work⟩) :
    span.Within n := by
  rw [← Span.mem_all, ← steady.turns]
  simp [unset]

theorem untaken_of_working (steady : Steady n right sound ⟨chart, log, todo, .working span work⟩) :
    Access.Untaken log := by
  rcases steady.untaken with ⟨_, ended⟩ | untaken
  · nomatch ended
  · exact untaken

theorem write_mem_of_look {state : Filling α ω} (steady : Steady n right sound state)
    (untaken : Access.Untaken state.log) (within : span.Within n)
    (set : span ∈ Access.written state.log) (blank : α) :
    .write span (state.chart.look blank span) ∈ state.log := by
  obtain ⟨cell, mem⟩ := Access.mem_written.mp set
  have known := (Access.get?_eq_some_iff steady.records untaken within).mpr mem
  rwa [Chart.look_of_get? known]

theorem steady_work (keeps : worker.Keeps n right sound) {next : ω} {reads : List (Span × α)}
    (step : worker.Step span work reads next)
    (found : ∀ read ∈ reads, read.2 = chart.look worker.blank read.1)
    (steady : Steady n right sound ⟨chart, log, todo, .working span work⟩) :
    Steady n right sound ⟨chart, log ++ Access.reading reads, todo, .working span next⟩ := by
  have within := within_of_working steady
  have untaken := untaken_of_working steady
  have sound_work := steady.work span work rfl
  have earlier (read : Span × α) (mem : read ∈ reads) :
      read.1.Within n ∧ .write read.1 read.2 ∈ log := by
    obtain ⟨part_within, shorter⟩ := keeps.reads within sound_work step read mem
    have set := Span.mem_of_shorter steady.turns.symm part_within shorter
    exact ⟨part_within, found read mem ▸ write_mem_of_look steady untaken part_within set _⟩
  exact {
    records := Access.records_append_reading steady.records untaken earlier
    turns := by
      rw [Access.written_append_reading]
      exact steady.turns
    cells := by simpa only [Access.write_mem_append_reading] using steady.cells
    work := by
      rintro _ _ ⟨⟩
      exact keeps.step within sound_work step fun read mem => steady.cells _ _ (earlier read mem).2
    ended := nofun
    untaken := .inr (by simpa only [Access.Untaken, Access.take_mem_append_reading] using untaken) }

theorem steady_begin (keeps : worker.Keeps n right sound)
    (steady : Steady n right sound ⟨chart, log, span :: todo, .between⟩) :
    Steady n right sound ⟨chart, log, todo, .working span (worker.start span)⟩ := by
  have untaken : Access.Untaken log := steady.untaken.resolve_left (by simp)
  have within : span.Within n := by
    rw [← Span.mem_all, ← steady.turns]
    simp [unset]
  exact {
    records := steady.records
    turns := steady.turns
    cells := steady.cells
    work := by
      rintro _ _ ⟨⟩
      exact keeps.start span within
    ended := nofun
    untaken := .inr untaken }

theorem steady_store (keeps : worker.Keeps n right sound) {cell : α}
    (done : worker.done? work = some cell)
    (steady : Steady n right sound ⟨chart, log, todo, .working span work⟩) :
    Steady n right sound ⟨chart.set span cell, log ++ [.write span cell], todo, .between⟩ := by
  have within := within_of_working steady
  have untaken := untaken_of_working steady
  have turns : Access.written log ++ span :: todo = Span.all n := steady.turns
  have unwritten : span ∉ Access.written log := by
    have distinct := Span.nodup_all n
    rw [← turns, List.nodup_append] at distinct
    exact fun mem => distinct.2.2 span mem span (.head todo) rfl
  exact {
    records := Access.records_apply steady.records ⟨within, untaken, unwritten⟩
    turns := by
      rw [← turns]
      simp [Access.written, Access.written?, unset]
    cells := by
      intro other found mem
      rcases List.mem_append.mp mem with mem | mem
      · exact steady.cells other found mem
      · cases List.mem_singleton.mp mem
        exact keeps.done within (steady.work span work rfl) done
    work := nofun
    ended := nofun
    untaken := .inr (by simpa [Access.Untaken] using untaken) }

theorem steady_finish (gets : final = .take ∨ final = .read) {cell : α} (words : 0 < chart.size)
    (here : cell = chart.look worker.blank ⟨0, chart.size⟩)
    (steady : Steady n right sound ⟨chart, log, [], .between⟩) :
    Steady n right sound ⟨(final ⟨0, chart.size⟩ cell).apply chart,
      log ++ [final ⟨0, chart.size⟩ cell], [], .ended cell⟩ := by
  have untaken : Access.Untaken log := steady.untaken.resolve_left (by simp)
  have size : chart.size = n := steady.records.size
  have whole : Span.Within n ⟨0, chart.size⟩ := ⟨words, Nat.le_of_eq size⟩
  have all : Access.written log = Span.all n := by simpa [unset] using steady.turns
  have set : .write ⟨0, chart.size⟩ cell ∈ log :=
    here ▸ write_mem_of_look steady untaken whole (all ▸ Span.mem_all.mpr whole) _
  have legal : (final ⟨0, chart.size⟩ cell).Legal n log := by
    rcases gets with rfl | rfl
    · exact ⟨whole, untaken, by rw [size], set⟩
    · exact ⟨whole, untaken, set⟩
  exact {
    records := Access.records_apply steady.records legal
    turns := by
      rw [← all]
      rcases gets with rfl | rfl <;> simp [Access.written, Access.written?, unset]
    cells := by
      intro span found mem
      apply steady.cells span found
      rcases gets with rfl | rfl <;> simpa using mem
    work := by
      intro _ _ phase
      cases phase
    ended := fun _ _ => rfl
    untaken := .inl ⟨cell, rfl⟩ }

theorem steady_of_reaches (keeps : worker.Keeps n right sound)
    (gets : final = .take ∨ final = .read) {state : Filling α ω}
    (run : ReflTransGen (FillStep worker final) (.start n) state) :
    Steady n right sound state := by
  induction run with
  | refl => exact steady_start n
  | tail _ step steady =>
    cases step with
    | begin => exact steady_begin keeps steady
    | work step found => exact steady_work keeps step found steady
    | store done => exact steady_store keeps done steady
    | finish words here => exact steady_finish gets words here steady

/-- The accesses so far, and the chart that they have left. -/
structure Tidy (n : Nat) (state : Filling α ω) : Prop where
  slots : state.chart.slots.size = n * n
  inside : ∀ access ∈ state.log, access.span.Within n ∧ state.chart.slot access.span < n * n
  apart : ∀ span other : Span, span.Within n → other.Within n →
    state.chart.slot span = state.chart.slot other → span = other
  orderly : Access.Orderly n state.log
  /-- Spans are set in their order, each of them once. -/
  inOrder : Access.written state.log <+: Span.all n
  once : (Access.written state.log).Nodup
  complete : ∀ cell, state.phase = .ended cell → Access.written state.log = Span.all n
  /-- A slot holds what was written to it, unless that was taken out. -/
  held : ∀ span, span.Within n → ∀ cell, state.chart.get? span = some cell ↔
    .write span cell ∈ state.log ∧ ∀ taken, .take span taken ∉ state.log

theorem tidy_of_steady {state : Filling α ω} (steady : Steady n right sound state) :
    Tidy n state := by
  obtain ⟨size, orderly, held⟩ := steady.records
  have slots : state.chart.slots.size = n * n := by rw [state.chart.size_slots, size]
  have inOrder : Access.written state.log <+: Span.all n := ⟨_, steady.turns⟩
  exact {
    slots
    inside := by
      intro access mem
      obtain ⟨before, after, log_eq⟩ := List.append_of_mem mem
      obtain ⟨within, -⟩ := orderly before access after log_eq
      exact ⟨within, slots ▸ state.chart.slot_lt (size ▸ within)⟩
    apart := fun span other within within' =>
      state.chart.slot_inj (size ▸ within) (size ▸ within')
    orderly
    inOrder
    once := (Span.nodup_all n).sublist inOrder.sublist
    complete := by
      intro cell ended
      simpa [unset, ended, steady.ended cell ended] using steady.turns
    held }

/-! ## The result -/

/-- The cells of the chart are those that have been written. -/
def Wrote (chart : Chart α) (state : Filling α ω) : Prop :=
  ∀ span, span.Within chart.size → ∀ cell, chart.get? span = some cell ↔
    .write span cell ∈ state.log

theorem wrote_of_steady {state : Filling α ω} (steady : Steady n right sound state)
    (untaken : Access.Untaken state.log) : state.Wrote state.chart :=
  fun _ within _ => Access.get?_eq_some_iff steady.records untaken (steady.records.size ▸ within)

/-- Nothing is done after the cell of all words was looked at, or where there are no words. -/
def Result (worker : Worker α ω) (fails : ω → ε → Prop) (state : Filling α ω) :
    Chart α × Option ε → Prop
  | (chart, none) => chart.size = 0 ∧ state.phase = .between ∨
      0 < chart.size ∧ state.phase = .ended (chart.look worker.blank ⟨0, chart.size⟩)
  | (_, some error) => ∃ span work, state.phase = .working span work ∧ fails work error

/-- The machine sets the cells that filling the chart sets, and ends like it. -/
theorem settles_fillUntil {fails : ω → ε → Prop} {cellFor : Chart α → Span → Except ε α}
    (keeps : worker.Keeps n right sound) (gets : final = .take ∨ final = .read)
    (makes : ∀ chart span,
      worker.Makes fails chart span (worker.start span) (cellFor chart span))
    (gives_up : ∀ {work error}, fails work error →
      worker.done? work = none ∧ ∀ span reads next, ¬ worker.Step span work reads next) :
    Settles (FillStep worker final) (.start n) fun last =>
      last.Wrote (Chart.fillUntil cellFor (Span.all n) (.empty n)).1 ∧
        last.Result worker fails (Chart.fillUntil cellFor (Span.all n) (.empty n)) := by
  apply settles_of_leads fillStep_unique
  obtain ⟨state, run, reached⟩ := fillUntil_leads makes (Span.all n) (.empty n) []
  have steady : Steady n right sound state := steady_of_reaches keeps gets run
  generalize Chart.fillUntil cellFor (Span.all n) (.empty n) = filled at reached
  obtain ⟨chart, error | error⟩ := filled
  · obtain ⟨log, rfl⟩ := reached
    have wrote := wrote_of_steady steady (steady.untaken.resolve_left (by simp))
    rcases Nat.eq_zero_or_pos chart.size with none | some
    · refine ⟨_, run, ?_, wrote, .inl ⟨none, rfl⟩⟩
      rintro _ (_ | _ | _ | ⟨words, _⟩)
      omega
    · refine ⟨_, run.tail (.finish some rfl), nofun, fun span within cell => ?_, .inr ⟨some, rfl⟩⟩
      rw [wrote span within cell]
      rcases gets with rfl | rfl <;> simp
  · obtain ⟨log, todo, span, work, rfl, failed⟩ := reached
    obtain ⟨no_cell, no_step⟩ := gives_up failed
    refine ⟨_, run, ?_, wrote_of_steady steady (untaken_of_working steady), span, work, rfl, failed⟩
    rintro _ (_ | ⟨step, _⟩ | done | _)
    · exact no_step _ _ _ step
    · nomatch done.symm.trans no_cell

/-- Without errors, the machine sets the cells of the filled chart and then looks at the last one. -/
theorem settles_fill {cellFor : Chart α → Span → α} (keeps : worker.Keeps n right sound)
    (gets : final = .take ∨ final = .read)
    (makes : ∀ chart span, worker.Makes (ε := Empty) (fun _ _ => False) chart span
      (worker.start span) (.ok (cellFor chart span))) :
    Settles (FillStep worker final) (.start n) fun last =>
      last.Wrote (Chart.fill cellFor (Span.all n) (.empty n)) ∧
        last.Result (ε := Empty) worker (fun _ _ => False)
          (Chart.fill cellFor (Span.all n) (.empty n), none) := by
  have settles := settles_fillUntil keeps gets makes False.elim
  rwa [Chart.fillUntil_ok] at settles

/-! ## What is written stays -/

theorem log_isPrefix_of_reaches {before after : Filling α ω}
    (run : ReflTransGen (FillStep worker final) before after) : before.log <+: after.log := by
  induction run with
  | refl => exact List.prefix_rfl
  | tail _ step ih =>
    refine ih.trans ?_
    cases step with
    | begin => exact List.prefix_rfl
    | work => exact List.prefix_append _ _
    | store => exact List.prefix_append _ _
    | finish => exact List.prefix_append _ _

/-- A cell that is set is in the chart that the machine ends with. -/
theorem get?_of_write {state last : Filling α ω}
    (run : ReflTransGen (FillStep worker final) (.start n) state)
    (ended : ReflTransGen (FillStep worker final) (.start n) last)
    (stuck : ∀ next, ¬ FillStep worker final last next) (wrote : last.Wrote chart)
    (within : span.Within chart.size) {cell : α} (set : .write span cell ∈ state.log) :
    chart.get? span = some cell := by
  have onward := reaches_of_stuck fillStep_unique run ended stuck
  exact (wrote span within cell).mpr ((log_isPrefix_of_reaches onward).subset set)

end Filling

end ChartParser
