import ChartParser.Proofs.Chart

/-! # Accesses to a chart

A log of what is done with the slots of a chart. A cell is read only after it was set, it is set
once, and only the cell of all words is taken out again, after which nothing else happens.
-/

namespace ChartParser

variable {α : Type} {n : Nat}

namespace Chart

/-- The chart without the cell of a span. -/
def clear (chart : Chart α) (span : Span) : Chart α :=
  { chart with
    slots := chart.slots.setIfInBounds (chart.slot span) none
    size_slots := by simp [chart.size_slots] }

theorem get?_clear (chart : Chart α) {span other : Span} (h : span.Within chart.size)
    (h' : other.Within chart.size) :
    (chart.clear span).get? other = if span = other then none else chart.get? other :=
  chart.join_getElem?_setIfInBounds none h h'

/-- What a slot holds, with `blank` where no cell is set. -/
def look (chart : Chart α) (blank : α) (span : Span) : α := (chart.get? span).getD blank

theorem look_of_get? {chart : Chart α} {blank cell : α} {span : Span}
    (h : chart.get? span = some cell) : chart.look blank span = cell := by
  rw [look, h, Option.getD_some]

end Chart

/-! ## Logs -/

/-- What is done with the cell of a span. -/
inductive Access (α : Type)
  | read (span : Span) (cell : α)
  | write (span : Span) (cell : α)
  /-- The cell is taken out of its slot. -/
  | take (span : Span) (cell : α)

namespace Access

def span : Access α → Span
  | read span _ => span
  | write span _ => span
  | take span _ => span

/-- The chart after the access. -/
def apply (chart : Chart α) : Access α → Chart α
  | read _ _ => chart
  | write span cell => chart.set span cell
  | take span _ => chart.clear span

/-- The span whose cell is set. -/
def written? : Access α → Option Span
  | read _ _ => none
  | write span _ => some span
  | take _ _ => none

/-- The spans whose cells are set, in order. -/
def written (log : List (Access α)) : List Span := log.filterMap written?

/-- No cell has been taken out. -/
def Untaken (log : List (Access α)) : Prop := ∀ span cell, .take span cell ∉ log

/-- The access may come after those before it, where the chart is for `n` words. -/
def Legal (n : Nat) (before : List (Access α)) (access : Access α) : Prop :=
  access.span.Within n ∧ Untaken before ∧
    match access with
    | read span cell => .write span cell ∈ before
    | write span _ => span ∉ written before
    | take span cell => span = ⟨0, n⟩ ∧ .write span cell ∈ before

/-- Every access may come after those before it. -/
def Orderly (n : Nat) (log : List (Access α)) : Prop :=
  ∀ before access after, log = before ++ access :: after → access.Legal n before

variable {log : List (Access α)}

theorem mem_written {span : Span} : span ∈ written log ↔ ∃ cell, .write span cell ∈ log := by
  rw [written, List.mem_filterMap]
  constructor
  · rintro ⟨_ | ⟨_, cell⟩ | _, mem, same⟩
    · nomatch same
    · cases same
      exact ⟨cell, mem⟩
    · nomatch same
  · rintro ⟨cell, mem⟩
    exact ⟨_, mem, rfl⟩

theorem orderly_nil : Orderly n ([] : List (Access α)) := by
  intro before access after h
  simp at h

theorem orderly_concat {access : Access α} (orderly : Orderly n log) (legal : access.Legal n log) :
    Orderly n (log ++ [access]) := by
  intro before other after h
  rcases List.eq_nil_or_concat after with rfl | ⟨after, last, rfl⟩
  · obtain ⟨rfl, same⟩ := List.append_inj' h rfl
    cases same
    exact legal
  · rw [List.concat_eq_append, ← List.cons_append, ← List.append_assoc] at h
    exact orderly before other after (List.append_inj' h rfl).1

/-! ## The chart after a log -/

/-- The log is one of a chart of `n` words, and a slot holds what was written to it and not taken
out. -/
structure Records (n : Nat) (log : List (Access α)) (chart : Chart α) : Prop where
  size : chart.size = n
  orderly : Orderly n log
  held : ∀ span, span.Within n → ∀ cell, chart.get? span = some cell ↔
    .write span cell ∈ log ∧ ∀ taken, .take span taken ∉ log

variable {chart : Chart α} {span : Span} {cell : α}

theorem records_empty (n : Nat) : Records n [] (.empty n : Chart α) where
  size := rfl
  orderly := orderly_nil
  held span _ cell := by simp [Chart.get?_empty]

theorem get?_eq_some_iff (records : Records n log chart) (untaken : Untaken log)
    (within : span.Within n) : chart.get? span = some cell ↔ .write span cell ∈ log := by
  rw [records.held span within, and_iff_left (untaken span)]

theorem records_apply {access : Access α} (records : Records n log chart)
    (legal : access.Legal n log) : Records n (log ++ [access]) (access.apply chart) := by
  have ⟨within, untaken, allowed⟩ := legal
  have size := records.size
  refine ⟨?_, orderly_concat records.orderly legal, fun other other_within found => ?_⟩
  · cases access <;> exact size
  · have before : chart.get? other = some found ↔ .write other found ∈ log :=
      get?_eq_some_iff records untaken other_within
    cases access with
    | read span cell => simp [apply, before, untaken other _]
    | write span cell =>
      have new : .write span found ∉ log := fun mem => allowed (mem_written.mpr ⟨found, mem⟩)
      rw [apply, Chart.get?_set chart cell (size ▸ within) (size ▸ other_within)]
      split
      · next same =>
        subst same
        simp [new, untaken span _, eq_comm]
      · next apart => simp [before, untaken other _, Ne.symm apart]
    | take span cell =>
      rw [apply, Chart.get?_clear chart (size ▸ within) (size ▸ other_within)]
      split
      · next same =>
        have taken : .take other cell ∈ log ++ [.take span cell] := by simp [same]
        constructor
        · intro set
          cases set
        · rintro ⟨-, still⟩
          exact absurd taken (still cell)
      · next apart => simp [before, untaken other _, Ne.symm apart]

/-! ## Reads -/

/-- The accesses that read cells. -/
def reading (reads : List (Span × α)) : List (Access α) := reads.map fun read => .read read.1 read.2

variable {reads : List (Span × α)}

theorem written_append_reading (log : List (Access α)) (reads : List (Span × α)) :
    written (log ++ reading reads) = written log := by
  have none : (reading reads).filterMap written? = [] := by
    simp [reading, List.filterMap_eq_nil_iff, written?]
  rw [written, List.filterMap_append, none, List.append_nil, written]

theorem write_mem_append_reading :
    .write span cell ∈ log ++ reading reads ↔ .write span cell ∈ log := by
  simp [reading]

theorem take_mem_append_reading :
    .take span cell ∈ log ++ reading reads ↔ .take span cell ∈ log := by
  simp [reading]

/-- Cells that are set may be read as long as no cell has been taken out. -/
theorem records_append_reading (records : Records n log chart) (untaken : Untaken log)
    (found : ∀ read ∈ reads, read.1.Within n ∧ .write read.1 read.2 ∈ log) :
    Records n (log ++ reading reads) chart := by
  induction reads generalizing log with
  | nil => simpa [reading] using records
  | cons read reads ih =>
    obtain ⟨⟨within, mem⟩, later⟩ := List.forall_mem_cons.mp found
    have legal : Legal n log (.read read.1 read.2) := ⟨within, untaken, mem⟩
    rw [reading, List.map_cons, ← List.singleton_append, ← List.append_assoc]
    refine ih (records_apply records legal) ?_ fun other mem => ?_
    · simpa [Untaken] using untaken
    · exact ⟨(later other mem).1, List.mem_append_left _ (later other mem).2⟩

end Access

end ChartParser
