import ChartParser.Grammar.Declaration
import ChartParser.Grammar.RuleFile
import ChartParser.Proofs.NormalForm.Normalize

/-! # How grammars come about

A grammar is declared or read, and may then be normalized. What declared grammars have and
normalization keeps is true of all grammars. Each of them carries the index of its rules.
-/

namespace ChartParser.Grammar

/-- The grammars that are declared or read, and then normalized any number of times. -/
inductive Made : Grammar → Prop
  | ofSpecs {specs language g} (built : Grammar.ofSpecs specs language = .ok g) : Made g
  | ofRuleFile {text g} (read : Grammar.ofRuleFile text = .ok g) : Made g
  | declare {declarations g} (built : Grammar.declare declarations = .ok g) : Made g
  | normalize {g} (made : Made g) : Made g.normalize

variable {g : Grammar}

theorem exists_specs_of_ofRuleFile {text : String} (read : ofRuleFile text = .ok g) :
    ∃ specs language, ofSpecs specs language = .ok g := by
  unfold ofRuleFile at read
  split at read
  · nomatch read
  · next file _ => exact ⟨file.rules, file.language, read⟩

/-- A file and declarations in code are lists of rules, too. -/
theorem Made.induct {P : Grammar → Prop}
    (built : ∀ {specs language g}, Grammar.ofSpecs specs language = .ok g → P g)
    (kept : ∀ {g : Grammar}, P g → P g.normalize) (made : g.Made) : P g := by
  induction made with
  | ofSpecs made => exact built made
  | ofRuleFile read =>
    obtain ⟨specs, language, made⟩ := exists_specs_of_ofRuleFile read
    exact built made
  | declare made =>
    unfold Grammar.declare at made
    exact built made
  | normalize _ ih => exact kept ih

/-! ## The index -/

/-- The index leads to all rules with a body, in their order, and to nothing else. One pass over the
rules would make the same entries. -/
theorem index_exact (g : Grammar) (body : List Symbol) :
    g.rulesProducing body = g.rules.filter (·.body == body) ∧
    (g.index.positions body).map (g.rules[·]?) = (g.rulesProducing body).map some ∧
    (∀ positions, g.index.byBody[body]? = some positions →
      ∀ i ∈ positions, i < g.rules.length) ∧
    g.index.byBody[body]? = (RuleIndex.inOrder g.rules).byBody[body]? := by
  have producing := rulesProducing_eq_filter g body
  refine ⟨producing, ?_, fun positions stored i mem => ?_, ?_⟩
  · rw [producing, g.index_eq, RuleIndex.map_positions_ofRules]
  · rw [g.index_eq] at stored
    obtain ⟨rule, here, -⟩ := RuleIndex.exists_rule_of_stored stored mem
    exact (List.getElem?_eq_some_iff.mp here).1
  · rw [g.index_eq, RuleIndex.getElem?_inOrder]

/-- Two rules with the same body, which normalization leaves apart from each other. -/
theorem index_exact_shared : ∃ g, declare [.rule "$A" ["$B"], .publicRule "$S" ["a", "$B", "b"],
      .rule "$B" ["b"], .labeledRule "$S" ["$B"] "again"] = .ok g ∧ g.normalize.Made ∧
    g.normalize.rulesProducing [.nonterm "B"] =
      [⟨.nonterm "A", [.nonterm "B"], none⟩,
        ⟨.nonterm "S", [.nonterm "B"], some (.term "again")⟩] := by
  obtain ⟨g, built, found⟩ : ∃ g, declare [.rule "$A" ["$B"], .publicRule "$S" ["a", "$B", "b"],
        .rule "$B" ["b"], .labeledRule "$S" ["$B"] "again"] = .ok g ∧
      g.normalize.rules.filter (·.body == [.nonterm "B"]) =
        [⟨.nonterm "A", [.nonterm "B"], none⟩,
          ⟨.nonterm "S", [.nonterm "B"], some (.term "again")⟩] := ⟨_, rfl, by decide⟩
  have made : g.normalize.Made := .normalize (.declare built)
  obtain ⟨producing, -⟩ := index_exact g.normalize [.nonterm "B"]
  exact ⟨g, built, made, producing.trans found⟩

end ChartParser.Grammar
