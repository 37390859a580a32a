import ChartParser.Grammar.Samples
import ChartParser.Proofs.NormalForm.Normalize
import ChartParser.Proofs.Parser.Sentence
import ChartParser.Proofs.Recognizer

/-! # Normalization keeps trees and words

The normalized grammar derives the same words, and its trees unfold to those of the grammar before.
-/

namespace ChartParser.Grammar

variable {specs : List RuleSpec} {language : Option String} {g : Grammar}

/-! ## Words -/

/-- Normalization changes neither what a symbol derives nor what is recognized. -/
theorem derives_normalize (built : ofSpecs specs language = .ok g) :
    (∀ symbol, symbol.isNonterm = true → g.normalize.isHelper symbol = false →
      ∀ words, g.Derives symbol words ↔ g.normalize.Derives symbol words) ∧
    ∀ words, Recognizer.recognizes g words = Recognizer.recognizes g.normalize words := by
  have form := helperFormOf_normalize (declared_of_ofSpecs built)
  refine ⟨fun symbol _ plain words => derives_iff form plain, fun words => ?_⟩
  rw [Bool.eq_iff_iff, Recognizer.recognizes_iff, Recognizer.recognizes_iff, form.start]
  exact derives_iff form form.start_plain

/-- A long body with terminals, and two unit rules in a ring. -/
theorem derives_normalize_ring : ∃ g, declare [.publicRule "$S" ["(", "$S", ")"],
      .rule "$S" ["$A"], .rule "$A" ["$S"], .rule "$A" ["x"]] = .ok g ∧
    (∀ symbol, symbol.isNonterm = true → g.normalize.isHelper symbol = false →
      ∀ words, g.Derives symbol words ↔ g.normalize.Derives symbol words) ∧
    ∀ words, Recognizer.recognizes g words = Recognizer.recognizes g.normalize words := by
  unfold declare
  exact Exists.imp (fun _ built => ⟨built, derives_normalize built⟩) ⟨_, rfl⟩

/-- The parser of the normalized grammar accepts what is recognized before. -/
theorem accepts_normalize (built : ofSpecs specs language = .ok g) (acyclic : g.UnitAcyclic)
    (words : List String) :
    (g.normalize.accepts words).result = .ok (Recognizer.recognizes g words) := by
  have form := helperFormOf_normalize (declared_of_ofSpecs built)
  obtain ⟨answer, result, answer_iff⟩ :=
    result_accepts (violation?_normalize g) (unitAcyclic_normalize acyclic) words
  have same : answer = Recognizer.recognizes g words := by
    rw [Bool.eq_iff_iff, answer_iff, Recognizer.recognizes_iff, form.start,
      derives_iff form form.start_plain]
  rw [result, same]

theorem accepts_normalize_longMixed : ∃ g, Sample.longMixed = .ok g ∧ g.UnitAcyclic ∧
    (g.normalize.accepts ["a", "b", "b", "c", "d", "e"]).result =
      .ok (Recognizer.recognizes g ["a", "b", "b", "c", "d", "e"]) := by
  obtain ⟨g, built, none⟩ : ∃ g, Sample.longMixed = .ok g ∧
      ∀ rule ∈ g.rules, ∀ child ∈ rule.unaryNonterm?, 0 < 0 := ⟨_, rfl, by decide⟩
  have acyclic : g.UnitAcyclic := unitAcyclic_of_rank (fun _ => 0) none
  refine ⟨g, built, acyclic, ?_⟩
  unfold Sample.longMixed declare at built
  exact accepts_normalize built acyclic _

/-! ## Trees -/

/-- The trees of the normalized grammar unfold to the trees of the grammar before. -/
theorem unfold_parse_normalize (built : ofSpecs specs language = .ok g) (acyclic : g.UnitAcyclic)
    (words : List String) :
    ∃ trees, (g.normalize.parseWithin none words).result = .ok trees ∧
      ∀ tree, tree ∈ trees.map (Tree.unfoldHelpers g.normalize.isHelper) ↔
        g.Parses g.start words tree := by
  have form := helperFormOf_normalize (declared_of_ofSpecs built)
  obtain ⟨trees, result, mem_trees⟩ :=
    result_parseWithin_none (violation?_normalize g) (unitAcyclic_normalize acyclic) words
  refine ⟨trees, result, fun tree => ?_⟩
  simp only [List.mem_map, mem_trees, form.start]
  exact (parses_iff_exists_unfold form form.start_plain).symm

/-- Brackets of three symbols, one after another in more than one way. -/
theorem unfold_parse_normalize_parens : ∃ g, Sample.parens = .ok g ∧ g.UnitAcyclic ∧
    ∃ trees, (g.normalize.parseWithin none ["x", "(", "x", ")", "x"]).result = .ok trees ∧
      ∀ tree, tree ∈ trees.map (Tree.unfoldHelpers g.normalize.isHelper) ↔
        g.Parses g.start ["x", "(", "x", ")", "x"] tree := by
  obtain ⟨g, built, none⟩ : ∃ g, Sample.parens = .ok g ∧
      ∀ rule ∈ g.rules, ∀ child ∈ rule.unaryNonterm?, 0 < 0 := ⟨_, rfl, by decide⟩
  have acyclic : g.UnitAcyclic := unitAcyclic_of_rank (fun _ => 0) none
  refine ⟨g, built, acyclic, ?_⟩
  unfold Sample.parens declare at built
  exact unfold_parse_normalize built acyclic _

end ChartParser.Grammar
