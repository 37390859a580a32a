import Mathlib.Logic.Relation
import Mathlib.Order.WellFounded

/-! # Runs of steps -/

namespace ChartParser

open Relation

variable {α : Type} {step : α → α → Prop}

/-- No run of steps goes on for ever. -/
def Terminates (step : α → α → Prop) : Prop :=
  ∀ run : Nat → α, ∃ n, ¬ step (run n) (run (n + 1))

/-- Steps that lower a measure come to an end. -/
theorem terminates_of_measure {β : Type} [WellFoundedRelation β] (measure : α → β)
    (lower : ∀ before after, step before after →
      WellFoundedRelation.rel (measure after) (measure before)) : Terminates step := by
  intro run
  -- The run takes no step from where the measure is least.
  obtain ⟨least, ⟨n, rfl⟩, min⟩ := WellFoundedRelation.wf.has_min
    (Set.range fun n => measure (run n)) ⟨_, 0, rfl⟩
  exact ⟨n, fun next => min _ ⟨n + 1, rfl⟩ (lower _ _ next)⟩

/-- No run of steps from `start` goes on for ever. -/
def TerminatesFrom (step : α → α → Prop) (start : α) : Prop :=
  ∀ run : Nat → α, run 0 = start → ∃ n, ¬ step (run n) (run (n + 1))

/-- Where no state has two next ones, a run that gets stuck is the only run. -/
theorem terminatesFrom_of_stuck {start last : α}
    (unique : ∀ before after other, step before after → step before other → after = other)
    (run : ReflTransGen step start last) (stuck : ∀ next, ¬ step last next) :
    TerminatesFrom step start := by
  induction run using ReflTransGen.head_induction_on with
  | refl =>
    rintro run rfl
    exact ⟨0, stuck _⟩
  | @head start next first _ ih =>
    rintro run rfl
    by_cases goes : step (run 0) (run 1)
    · obtain ⟨n, stops⟩ := ih (fun n => run (n + 1)) (unique _ _ _ goes first)
      exact ⟨n + 1, stops⟩
    · exact ⟨0, goes⟩

/-- Where no state has two next ones, every state of a run leads to where the run gets stuck. -/
theorem reaches_of_stuck {start state last : α}
    (unique : ∀ before after other, step before after → step before other → after = other)
    (run : ReflTransGen step start state) (ended : ReflTransGen step start last)
    (stuck : ∀ next, ¬ step last next) : ReflTransGen step state last := by
  have deterministic : Relator.RightUnique step := fun before after other => unique before after other
  rcases ReflTransGen.total_of_right_unique deterministic run ended with onward | back
  · exact onward
  · rcases ReflTransGen.cases_head back with rfl | ⟨next, step, -⟩
    · exact .refl
    · exact absurd step (stuck next)

/-- Some steps lead from `start` to a state with the property. -/
def Leads (step : α → α → Prop) (start : α) (goal : α → Prop) : Prop :=
  ∃ last, ReflTransGen step start last ∧ goal last

theorem leads_of_reaches {before after : α} {goal : α → Prop} (run : ReflTransGen step before after)
    (leads : Leads step after goal) : Leads step before goal := by
  obtain ⟨last, more, reached⟩ := leads
  exact ⟨last, run.trans more, reached⟩

/-- Where no run goes on for ever, some steps lead to where none goes on. -/
theorem leads_of_terminates (terminates : Terminates step) (start : α) :
    Leads step start fun last => ∀ next, ¬ step last next := by
  by_contra never
  -- Every state that is reached has a next one, so there is a run that goes on for ever.
  have more (reached : { last // ReflTransGen step start last }) :
      ∃ next : { last // ReflTransGen step start last }, step reached next := by
    by_contra stuck
    exact never ⟨reached, reached.2, fun next goes =>
      stuck ⟨⟨next, reached.2.tail goes⟩, goes⟩⟩
  choose next goes using more
  obtain ⟨n, stops⟩ := terminates fun n => (next^[n] ⟨start, .refl⟩).1
  rw [Function.iterate_succ_apply'] at stops
  exact stops (goes _)

/-- The steps come to an end, and they do so in a state with the property. -/
def Settles (step : α → α → Prop) (start : α) (goal : α → Prop) : Prop :=
  TerminatesFrom step start ∧
    Leads step start fun last => (∀ next, ¬ step last next) ∧ goal last

theorem settles_of_leads {start : α} {goal : α → Prop}
    (unique : ∀ before after other, step before after → step before other → after = other)
    (leads : Leads step start fun last => (∀ next, ¬ step last next) ∧ goal last) :
    Settles step start goal := by
  obtain ⟨last, run, stuck, reached⟩ := leads
  exact ⟨terminatesFrom_of_stuck unique run stuck, last, run, stuck, reached⟩

end ChartParser
