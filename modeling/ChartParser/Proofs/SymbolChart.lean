import ChartParser.Proofs.Chart
import ChartParser.Proofs.Derivation

/-! # Charts of symbols

A chart whose cells hold the symbols that derive the words of their spans decides whether the start
symbol derives the sentence.
-/

namespace ChartParser.Grammar

/-- The symbols are the non-terminals that derive the words of the span. -/
def RightSymbols (g : Grammar) (words : List String) (span : Span) (symbols : Std.TreeSet Symbol) :
    Prop :=
  ∀ symbol, symbols.contains symbol = true ↔
    symbol.isNonterm = true ∧ g.Derives symbol (span.slice words)

theorem contains_start_iff {g : Grammar} {words : List String} {chart : Chart (Std.TreeSet Symbol)}
    (size : chart.size = words.length)
    (holds : chart.Holds (g.RightSymbols words) (Span.all words.length)) :
    (chart.get? ⟨0, words.length⟩).any (·.contains g.start) = true ↔ g.Derives g.start words := by
  by_cases empty : words = []
  · subst empty
    rw [chart.get?_of_size_eq_zero size, Option.any_none]
    simp only [Bool.false_eq_true, false_iff]
    exact fun derives => ne_nil_of_derives derives rfl
  · have whole : Span.Within words.length ⟨0, words.length⟩ :=
      ⟨List.length_pos_iff.mpr empty, Nat.le_refl _⟩
    obtain ⟨symbols, symbols_eq, right⟩ := Chart.exists_of_holds holds whole
    rw [symbols_eq, Option.any_some, right, Span.slice_all]
    exact and_iff_right g.start_isNonterm

end ChartParser.Grammar
