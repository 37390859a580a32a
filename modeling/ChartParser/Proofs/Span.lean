import ChartParser.Span

/-! # Spans and the words that they hold -/

namespace ChartParser.Span

/-! ## The order of spans -/

theorem mem_all {n : Nat} {span : Span} : span ∈ all n ↔ span.Within n := by
  simp only [all, Within, List.mem_flatMap, List.mem_map, List.mem_range]
  constructor
  · rintro ⟨k, hk, start, hstart, rfl⟩
    dsimp only
    omega
  · rintro ⟨proper, within⟩
    obtain ⟨start, stop⟩ := span
    dsimp only at proper within
    refine ⟨stop - start - 1, by omega, start, by omega, ?_⟩
    rw [show start + (stop - start - 1) + 1 = stop by omega]

/-- Shorter spans come first, and spans of one length from left to right. -/
def Before (span other : Span) : Prop :=
  span.stop - span.start < other.stop - other.start ∨
    span.stop - span.start = other.stop - other.start ∧ span.start < other.start

theorem not_before_of_before {span other : Span} (h : span.Before other) : ¬ other.Before span := by
  unfold Before at h ⊢
  omega

theorem pairwise_all (n : Nat) : (all n).Pairwise Before := by
  rw [all, List.pairwise_flatMap]
  constructor
  · intro k _
    rw [List.pairwise_map]
    exact List.Pairwise.imp (fun less => by simp only [Before]; omega) List.pairwise_lt_range
  · apply List.Pairwise.imp _ List.pairwise_lt_range
    intro k l less a ha b hb
    obtain ⟨start, -, rfl⟩ := List.mem_map.mp ha
    obtain ⟨start', -, rfl⟩ := List.mem_map.mp hb
    simp only [Before]
    omega

theorem nodup_all (n : Nat) : (all n).Nodup := by
  apply (pairwise_all n).imp
  rintro span _ before rfl
  exact not_before_of_before before before

/-- When it is the turn of a span, the spans that have not had theirs come after it. -/
theorem eq_or_before {n : Nat} {span other : Span} {before after : List Span}
    (h : all n = before ++ span :: after) (within : other.Within n) (left : other ∉ before) :
    other = span ∨ span.Before other := by
  have mem : other ∈ before ++ span :: after := h ▸ mem_all.mpr within
  have sorted := pairwise_all n
  rw [h, List.pairwise_append] at sorted
  obtain ⟨-, sorted, -⟩ := sorted
  rcases List.mem_cons.mp ((List.mem_append.mp mem).resolve_left left) with same | mem
  · exact .inl same
  · exact .inr ((List.pairwise_cons.mp sorted).1 other mem)

theorem mem_of_shorter {n : Nat} {span other : Span} {before after : List Span}
    (h : all n = before ++ span :: after) (within : other.Within n)
    (shorter : other.stop - other.start < span.stop - span.start) : other ∈ before := by
  apply Classical.byContradiction
  intro left
  rcases eq_or_before h within left with rfl | later
  · omega
  · unfold Before at later
    omega

theorem mem_cuts {span : Span} {cut : Nat} :
    cut ∈ span.cuts ↔ span.start < cut ∧ cut < span.stop := by
  rw [cuts, List.mem_range'_1]
  omega

/-! ## Words -/

/-- The words that a span holds. -/
def slice (span : Span) (words : List String) : List String :=
  (words.drop span.start).take (span.stop - span.start)

theorem length_slice {span : Span} {words : List String} (h : span.Within words.length) :
    (span.slice words).length = span.stop - span.start := by
  obtain ⟨proper, within⟩ := h
  rw [slice, List.length_take, List.length_drop]
  omega

theorem one_lt_length_slice {span : Span} {words : List String} (h : span.Within words.length)
    (long : span.isWord = false) : 1 < (span.slice words).length := by
  rw [length_slice h]
  obtain ⟨proper, within⟩ := h
  simp only [isWord, beq_eq_false_iff_ne] at long
  omega

theorem slice_all (words : List String) : slice ⟨0, words.length⟩ words = words := by
  simp [slice]

theorem slice_word {span : Span} {words : List String} {word : String} (h : span.isWord = true)
    (hword : words[span.start]? = some word) : span.slice words = [word] := by
  obtain ⟨start, stop⟩ := span
  simp only [isWord, beq_iff_eq] at h hword
  subst h
  obtain ⟨lt, hword⟩ := List.getElem?_eq_some_iff.mp hword
  rw [slice, List.drop_eq_getElem_cons lt, hword]
  simp

theorem slice_eq_singleton {span : Span} {words : List String} {word : String}
    (within : span.Within words.length) :
    span.slice words = [word] ↔ span.isWord = true ∧ words[span.start]? = some word := by
  constructor
  · intro h
    have total := length_slice within
    rw [h, List.length_singleton] at total
    obtain ⟨proper, inside⟩ := within
    have single : span.isWord = true := beq_iff_eq.mpr (by omega)
    have here := List.getElem?_eq_getElem (Nat.lt_of_lt_of_le proper inside)
    rw [slice_word single here] at h
    exact ⟨single, by rw [here, List.singleton_inj.mp h]⟩
  · rintro ⟨single, here⟩
    exact slice_word single here

theorem slice_append (words : List String) {start cut stop : Nat} (first : start ≤ cut)
    (second : cut ≤ stop) :
    slice ⟨start, cut⟩ words ++ slice ⟨cut, stop⟩ words = slice ⟨start, stop⟩ words := by
  dsimp only [slice]
  rw [show stop - start = (cut - start) + (stop - cut) by omega, List.take_add, List.drop_drop,
    show start + (cut - start) = cut by omega]

/-- Two parts of the words of a span are the words of two spans. -/
theorem slice_eq_append {span : Span} {words first second : List String}
    (within : span.Within words.length) (h : span.slice words = first ++ second) :
    slice ⟨span.start, span.start + first.length⟩ words = first ∧
      slice ⟨span.start + first.length, span.stop⟩ words = second := by
  have total := length_slice within
  rw [h, List.length_append] at total
  obtain ⟨proper, within⟩ := within
  have fits : span.start + first.length ≤ span.stop := by omega
  have parts := slice_append words (Nat.le_add_right span.start first.length) fits
  rw [show slice ⟨span.start, span.stop⟩ words = span.slice words from rfl, h] at parts
  apply List.append_inj parts
  rw [slice, List.length_take, List.length_drop]
  dsimp only
  omega

end ChartParser.Span
