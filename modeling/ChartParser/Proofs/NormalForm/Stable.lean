import ChartParser.Proofs.NormalForm.AddedHelpers
import Mathlib.Logic.Function.Iterate

/-! # Normalization is stable

A normalized grammar has relaxed Chomsky normal form, and a grammar that has it stays as it is.
What keeps the normalized grammar from Chomsky normal form are unit rules, and these come from the
grammar before.
-/

namespace ChartParser

/-! ## Chomsky normal form -/

theorem Rule.isNormal_iff_of_isRelaxed {rule : Rule} (relaxed : rule.isRelaxed = true) :
    rule.isNormal = true ↔ rule.unaryNonterm? = none := by
  unfold isNormal
  rcases isRelaxed_iff.mp relaxed with ⟨symbol, body⟩ | ⟨left, right, body, kinds⟩
  · have long : rule.isBinary = false := by simp [isBinary, body]
    cases symbol with
    | term word => simp [unaryTerm?, unaryNonterm?, body, Symbol.isTerm, Symbol.isNonterm]
    | nonterm name => simp [unaryTerm?, unaryNonterm?, body, long, Symbol.isTerm, Symbol.isNonterm]
  · have binary : rule.isBinary = true := isBinary_iff.mpr ⟨left, right, body, kinds⟩
    simp [unaryNonterm?, body, binary]

namespace Grammar

open NormalForm

variable {g : Grammar}

theorem isNormal_iff_of_isRelaxed (relaxed : g.isRelaxed = true) :
    g.isNormal = true ↔ g.rules.filter (·.unaryNonterm?.isSome) = [] := by
  unfold isNormal
  rw [List.all_eq_true, List.filter_eq_nil_iff]
  apply forall₂_congr
  intro rule mem
  rw [Rule.isNormal_iff_of_isRelaxed (isRelaxed_iff.mp relaxed rule mem)]
  simp

theorem filter_unit_eq_nil_iff : g.rules.filter (·.unaryNonterm?.isSome) = [] ↔
    ¬ ∃ rule ∈ g.rules, ∃ child, child.isNonterm = true ∧ rule.body = [child] := by
  simp [List.filter_eq_nil_iff, Option.isSome_iff_exists, Rule.unaryNonterm?_eq_some]

/-! ## Normalized grammars -/

theorem isRelaxed_normalize (g : Grammar) : g.normalize.isRelaxed = true := by
  unfold isRelaxed
  rw [violation?_normalize]
  rfl

/-- Normalization reaches relaxed Chomsky normal form and then changes nothing any more, not even
the table or the counter. It reaches Chomsky normal form exactly if there are no unit rules. -/
theorem normalize_stable (g : Grammar) :
    g.normalize.isRelaxed = true ∧
    (∀ n, normalize^[n] g.normalize = g.normalize) ∧
    (g.isRelaxed = true → g.normalize = g ∧ g.rewritten = g ∧ g.helperNumbers = []) ∧
    (g.normalize.isNormal = true ↔
      ¬ ∃ rule ∈ g.rules, ∃ child, child.isNonterm = true ∧ rule.body = [child]) := by
  have relaxed := isRelaxed_normalize g
  refine ⟨relaxed, ?_, fun here => ?_, ?_⟩
  · apply Function.iterate_fixed
    exact normalize_of_isRelaxed relaxed
  · refine ⟨normalize_of_isRelaxed here, rewritten_of_isRelaxed here, ?_⟩
    exact helperNumbers_of_isRelaxed here
  · rw [isNormal_iff_of_isRelaxed relaxed, filter_unit_normalize, filter_unit_eq_nil_iff]

end Grammar

end ChartParser
