import ChartParser.Parser.Sentence
import ChartParser.Proofs.Parser.Membership

/-! # Questions to a grammar that has a parser -/

namespace ChartParser.Grammar

variable {g : Grammar}

theorem result_ask {α : Type} (relaxed : g.violation? = none) (acyclic : g.UnitAcyclic)
    (limit : Option Nat) (answer : Parser → Except ParseError α) (events : Parser → List Event) :
    ∃ parser : Parser, parser.grammar = g ∧ parser.limit = limit ∧
      (g.ask limit answer events).result = answer parser := by
  have none := (unitCycle?_eq_none_iff g).mpr acyclic
  refine ⟨⟨g, limit, relaxed, none⟩, rfl, rfl, ?_⟩
  rw [ask, Parser.make_eq_ok limit relaxed none]

/-- Without a limit, a grammar that has a parser finds the derivation trees of a sentence. -/
theorem result_parseWithin_none (relaxed : g.violation? = none) (acyclic : g.UnitAcyclic)
    (words : List String) : ∃ trees, (g.parseWithin none words).result = .ok trees ∧
      ∀ tree, tree ∈ trees ↔ g.Parses g.start words tree := by
  obtain ⟨parser, rfl, unlimited, result⟩ :=
    result_ask relaxed acyclic none (·.parse words) (·.parseEvents words)
  obtain ⟨trees, trees_eq⟩ := Parser.exists_parse_eq_ok unlimited words
  exact ⟨trees, result.trans trees_eq, (Parser.trees_of_parse trees_eq).2⟩

theorem result_acceptsWithin (relaxed : g.violation? = none) (acyclic : g.UnitAcyclic)
    (limit : Option Nat) (words : List String) :
    ∃ answer, (g.acceptsWithin limit words).result = .ok answer ∧
      (answer = true ↔ g.Derives g.start words) := by
  obtain ⟨parser, rfl, -, result⟩ := result_ask relaxed acyclic limit
    (fun parser => .ok (parser.accepts words)) fun _ => []
  exact ⟨parser.accepts words, result, Parser.accepts_iff parser words⟩

/-- A grammar that has a parser accepts what its start symbol derives. -/
theorem result_accepts (relaxed : g.violation? = none) (acyclic : g.UnitAcyclic)
    (words : List String) : ∃ answer, (g.accepts words).result = .ok answer ∧
      (answer = true ↔ g.Derives g.start words) := by
  unfold accepts
  split
  · next empty =>
    refine ⟨false, rfl, ?_⟩
    simp only [Bool.false_eq_true, false_iff]
    exact fun derives => ne_nil_of_derives derives (List.isEmpty_iff.mp empty)
  · exact result_acceptsWithin relaxed acyclic (some Parser.defaultLimit) words

end ChartParser.Grammar
