import ChartParser.Chart
import ChartParser.Proofs.Span

/-! # Filled charts

A cell may draw on the cells of all shorter spans. What it makes of correct ones is correct, and so
the whole chart is.
-/

namespace ChartParser.Chart

variable {α ε : Type}

/-- The spans of a list are set, each to a cell that is right for it. -/
def Holds (chart : Chart α) (right : Span → α → Prop) (spans : List Span) : Prop :=
  ∀ span ∈ spans, ∃ cell, chart.get? span = some cell ∧ right span cell

/-- All that is shorter than a span is set to a cell that is right for it. -/
def Ready (chart : Chart α) (right : Span → α → Prop) (span : Span) : Prop :=
  ∀ part : Span, part.Within chart.size → part.stop - part.start < span.stop - span.start →
    ∃ cell, chart.get? part = some cell ∧ right part cell

/-- Both parts at a cut of a span are shorter than the span. -/
theorem exists_parts {chart : Chart α} {right : Span → α → Prop} {n : Nat} {span : Span}
    (size : chart.size = n) (within : span.Within n) (ready : chart.Ready right span) {cut : Nat}
    (h : cut ∈ span.cuts) : ∃ first second, chart.get? ⟨span.start, cut⟩ = some first ∧
      chart.get? ⟨cut, span.stop⟩ = some second ∧
      right ⟨span.start, cut⟩ first ∧ right ⟨cut, span.stop⟩ second := by
  subst size
  obtain ⟨after, before⟩ := Span.mem_cuts.mp h
  have inside := within.2
  obtain ⟨first, first_eq, first_right⟩ := ready ⟨span.start, cut⟩
    ⟨after, Nat.le_trans (Nat.le_of_lt before) inside⟩ (by dsimp only; omega)
  obtain ⟨second, second_eq, second_right⟩ := ready ⟨cut, span.stop⟩ ⟨before, inside⟩
    (by dsimp only; omega)
  exact ⟨first, second, first_eq, second_eq, first_right, second_right⟩

theorem holds_set {chart : Chart α} {right : Span → α → Prop} {before : List Span} {span : Span}
    {cell : α} (h : chart.Holds right before) (within : span.Within chart.size)
    (known : ∀ other ∈ before, other.Within chart.size) (new : right span cell) :
    (chart.set span cell).Holds right (before ++ [span]) := by
  intro other mem
  rw [List.mem_append, List.mem_singleton] at mem
  have other_within : other.Within chart.size := by
    rcases mem with mem | rfl
    · exact known other mem
    · exact within
  rw [get?_set chart cell within other_within]
  split
  · next same => exact ⟨cell, rfl, same ▸ new⟩
  · next apart =>
    rcases mem with mem | rfl
    · exact h other mem
    · exact absurd rfl apart

/-- How filling the spans of `n` words ends: with a right cell for every span, or with the error of
a span after right cells for all spans before it. -/
def FillPost (n : Nat) (right : Span → α → Prop) (wrong : Span → ε → Prop) :
    Chart α × Option ε → Prop
  | (chart, none) => chart.size = n ∧ chart.Holds right (Span.all n)
  | (chart, some error) => ∃ before span after, Span.all n = before ++ span :: after ∧
      chart.size = n ∧ chart.Holds right before ∧ chart.Ready right span ∧ wrong span error

theorem fillUntil_spec {n : Nat} {cellFor : Chart α → Span → Except ε α}
    {right : Span → α → Prop} {wrong : Span → ε → Prop}
    (cell_right : ∀ (chart : Chart α) (span : Span) (cell : α), chart.size = n → span.Within n →
      chart.Ready right span → cellFor chart span = .ok cell → right span cell)
    (cell_wrong : ∀ (chart : Chart α) (span : Span) (error : ε), chart.size = n → span.Within n →
      chart.Ready right span → cellFor chart span = .error error → wrong span error) :
    FillPost n right wrong (fillUntil cellFor (Span.all n) (empty n)) := by
  have run (before rest : List Span) (chart : Chart α) (h : Span.all n = before ++ rest)
      (size : chart.size = n) (holds : chart.Holds right before) :
      FillPost n right wrong (fillUntil cellFor rest chart) := by
    induction rest generalizing before chart with
    | nil =>
      rw [List.append_nil] at h
      exact ⟨size, h ▸ holds⟩
    | cons span rest ih =>
      have within : span.Within n := Span.mem_all.mp (by simp [h])
      have ready : chart.Ready right span := by
        intro part part_within shorter
        exact holds part (Span.mem_of_shorter h (size ▸ part_within) shorter)
      rw [fillUntil]
      cases result : cellFor chart span with
      | error error =>
        exact ⟨before, span, rest, h, size, holds, ready,
          cell_wrong chart span error size within ready result⟩
      | ok cell =>
        refine ih (before ++ [span]) (chart.set span cell) (by simp [h]) size ?_
        refine holds_set holds (size ▸ within) (fun other mem => ?_)
          (cell_right chart span cell size within ready result)
        exact size ▸ Span.mem_all.mp (by simp [h, mem])
  exact run [] _ _ rfl rfl (by simp [Holds])

theorem fillUntil_ok (cellFor : Chart α → Span → α) (spans : List Span) (chart : Chart α) :
    fillUntil (ε := ε) (fun chart span => .ok (cellFor chart span)) spans chart =
      (fill cellFor spans chart, none) := by
  induction spans generalizing chart with
  | nil => rfl
  | cons span spans ih =>
    rw [fillUntil]
    exact ih _

theorem fill_spec {n : Nat} {cellFor : Chart α → Span → α} {right : Span → α → Prop}
    (cell_right : ∀ (chart : Chart α) (span : Span), chart.size = n → span.Within n →
      chart.Ready right span → right span (cellFor chart span)) :
    (fill cellFor (Span.all n) (empty n)).size = n ∧
      (fill cellFor (Span.all n) (empty n)).Holds right (Span.all n) := by
  have spec : FillPost (ε := Empty) n right (fun _ _ => False)
      (fillUntil (fun chart span => .ok (cellFor chart span)) (Span.all n) (empty n)) := by
    apply fillUntil_spec
    · intro chart span cell size within ready h
      exact Except.ok.inj h ▸ cell_right chart span size within ready
    · intro _ _ error
      nomatch error
  rwa [fillUntil_ok] at spec

theorem exists_of_holds {chart : Chart α} {right : Span → α → Prop} {n : Nat}
    (h : chart.Holds right (Span.all n)) {span : Span} (within : span.Within n) :
    ∃ cell, chart.get? span = some cell ∧ right span cell :=
  h span (Span.mem_all.mpr within)

end ChartParser.Chart
