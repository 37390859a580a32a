import ChartParser.Span

/-! # Charts

A chart has a slot for every span of a sentence. Slots are filled by increasing length of the span,
so that the cell of a span can draw on the cells of its parts.
-/

namespace ChartParser

/-- The cells of the spans of `size` words. -/
structure Chart (α : Type) where
  size : Nat
  slots : Array (Option α)
  size_slots : slots.size = size * size := by simp

namespace Chart

variable {α ε : Type}

/-- The chart without any cell. -/
def empty (size : Nat) : Chart α where
  size
  slots := .replicate (size * size) none

/-- The slot of a span. -/
def slot (chart : Chart α) (span : Span) : Nat := span.start * chart.size + (span.stop - 1)

/-- The cell of a span, once it is set. -/
def get? (chart : Chart α) (span : Span) : Option α := chart.slots[chart.slot span]?.join

/-- The chart with a cell for a span. -/
def set (chart : Chart α) (span : Span) (cell : α) : Chart α :=
  { chart with
    slots := chart.slots.setIfInBounds (chart.slot span) (some cell)
    size_slots := by simp [chart.size_slots] }

/-- Fills spans in order until one fails. -/
def fillUntil (cellFor : Chart α → Span → Except ε α) : List Span → Chart α → Chart α × Option ε
  | [], chart => (chart, none)
  | span :: more, chart =>
    match cellFor chart span with
    | .error error => (chart, some error)
    | .ok cell => fillUntil cellFor more (chart.set span cell)

/-- Fills spans in order. -/
def fill (cellFor : Chart α → Span → α) (spans : List Span) (chart : Chart α) : Chart α :=
  spans.foldl (fun chart span => chart.set span (cellFor chart span)) chart

/-! ## Slots -/

theorem get?_empty (size : Nat) (span : Span) : (empty size : Chart α).get? span = none := by
  unfold get? empty
  rw [Array.getElem?_replicate]
  split <;> rfl

theorem get?_of_size_eq_zero (chart : Chart α) (h : chart.size = 0) (span : Span) :
    chart.get? span = none := by
  have no_slots : chart.slots.size = 0 := by rw [chart.size_slots, h]
  rw [get?, Array.getElem?_eq_none (by omega)]
  rfl

/-- A span of the sentence has its slot in the chart. -/
theorem slot_lt (chart : Chart α) {span : Span} (h : span.Within chart.size) :
    chart.slot span < chart.slots.size := by
  obtain ⟨proper, within⟩ := h
  have row : span.start * chart.size + chart.size ≤ chart.size * chart.size := by
    rw [← Nat.succ_mul]
    exact Nat.mul_le_mul_right _ (by omega)
  rw [chart.size_slots, slot]
  omega

/-- Two spans of the sentence do not share a slot. -/
theorem slot_inj (chart : Chart α) {span other : Span} (h : span.Within chart.size)
    (h' : other.Within chart.size) (same : chart.slot span = chart.slot other) : span = other := by
  obtain ⟨start, stop⟩ := span
  obtain ⟨start', stop'⟩ := other
  simp only [Span.Within, slot] at h h' same
  have column : stop - 1 = stop' - 1 := by
    have := congrArg (· % chart.size) same
    simpa [Nat.mod_eq_of_lt (show stop - 1 < chart.size by omega),
      Nat.mod_eq_of_lt (show stop' - 1 < chart.size by omega)] using this
  have row : start = start' :=
    Nat.eq_of_mul_eq_mul_right (show 0 < chart.size by omega) (by omega)
  rw [row, show stop = stop' by omega]

/-- A change of one slot of the sentence changes no other. -/
theorem join_getElem?_setIfInBounds (chart : Chart α) {span other : Span} (content : Option α)
    (h : span.Within chart.size) (h' : other.Within chart.size) :
    (chart.slots.setIfInBounds (chart.slot span) content)[chart.slot other]?.join =
      if span = other then content else chart.get? other := by
  rw [get?, Array.getElem?_setIfInBounds]
  by_cases same : span = other
  · subst same
    simp [chart.slot_lt h]
  · have apart : chart.slot span ≠ chart.slot other := fun e => same (chart.slot_inj h h' e)
    simp [same, apart]

/-- A cell that is set is found again, and the other cells are as before. -/
theorem get?_set (chart : Chart α) {span other : Span} (cell : α) (h : span.Within chart.size)
    (h' : other.Within chart.size) :
    (chart.set span cell).get? other = if span = other then some cell else chart.get? other :=
  chart.join_getElem?_setIfInBounds (some cell) h h'

end Chart

end ChartParser
