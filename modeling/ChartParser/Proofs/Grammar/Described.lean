import ChartParser.Proofs.Grammar.Made
import ChartParser.Proofs.NormalForm.AddedHelpers

/-! # The table describes the rules

The table of a grammar knows the texts of the symbols in its rules and no others, and it stores
under each text the symbol that the text stands for. Normalization replaces the rules and the table
at once, and neither loses a symbol.
-/

namespace ChartParser

namespace Grammar

variable {g : Grammar}

/-- The symbol is a head, stands in a body or is a label. -/
def Occurs (g : Grammar) (symbol : Symbol) : Prop := ∃ rule ∈ g.rules, symbol ∈ rule.symbols

structure Described (g : Grammar) : Prop where
  keys : ∀ text, text ∈ g.symbols.byText.keys ↔ ∃ symbol, g.Occurs symbol ∧ symbol.text = text
  stored : ∀ text ∈ g.symbols.byText.keys, g.symbols.get? text = some (.ofToken text)
  spelled : ∀ symbol, g.Occurs symbol → .ofToken symbol.text = symbol
  start : ∃ rule ∈ g.rules, rule.head = g.start
  plain : g.isHelper g.start = false

/-! ## Declared grammars -/

theorem occurs_of_ofSpecs {specs : List RuleSpec} {language : Option String}
    (built : ofSpecs specs language = .ok g) {symbol : Symbol} :
    g.Occurs symbol ↔ symbol ∈ (specs.flatMap RuleSpec.tokens).map .ofToken := by
  obtain ⟨rules, -⟩ := readSpecs_eq_ok_iff.mp (of_ofSpecs_eq_ok built).1
  have whole : g.rules.flatMap Rule.symbols = (specs.flatMap RuleSpec.tokens).map .ofToken := by
    rw [rules, List.flatMap_map, List.map_flatMap]
    simp only [RuleSpec.symbols_rule]
  rw [← whole, List.mem_flatMap]
  rfl

theorem described_of_ofSpecs {specs : List RuleSpec} {language : Option String}
    (built : ofSpecs specs language = .ok g) : g.Described := by
  obtain ⟨-, -, symbols, -⟩ := of_ofSpecs_eq_ok built
  have declared := declared_of_ofSpecs built
  refine ⟨fun text => ?_, ?_, fun symbol occurs => ?_, declared.start, declared.plain g.start⟩
  · simp only [occurs_of_ofSpecs built]
    rw [symbols, symbolsOf, SymbolTable.mem_keys_addAll]
    constructor
    · rintro (known | none)
      · exact known
      · simp [SymbolTable.empty] at none
    · exact .inl
  · rw [symbols, ← SymbolTable.consistent_iff]
    exact consistent_symbolsOf specs
  · obtain ⟨rule, mem, part⟩ := occurs
    exact spelled_of_mem_symbols built mem part

/-! ## Normalized grammars -/

/-- The labels of all rules, in order. -/
def labels (g : Grammar) : List Symbol := g.rules.flatMap (·.label.toList)

theorem occurs_iff {symbol : Symbol} :
    g.Occurs symbol ↔ symbol ∈ g.heads ∨ symbol ∈ g.bodySymbols ∨ symbol ∈ g.labels := by
  unfold Occurs heads bodySymbols labels Rule.symbols
  simp only [List.mem_map, List.mem_flatMap, List.mem_append, List.mem_cons]
  constructor
  · rintro ⟨rule, mem, (rfl | part) | label⟩
    · exact .inl ⟨rule, mem, rfl⟩
    · exact .inr (.inl ⟨rule, mem, part⟩)
    · exact .inr (.inr ⟨rule, mem, label⟩)
  · rintro (⟨rule, mem, rfl⟩ | ⟨rule, mem, part⟩ | ⟨rule, mem, label⟩)
    · exact ⟨rule, mem, .inl (.inl rfl)⟩
    · exact ⟨rule, mem, .inl (.inr part)⟩
    · exact ⟨rule, mem, .inr label⟩

theorem labels_normalize_eq (g : Grammar) : g.normalize.labels = g.labels := by
  unfold labels
  rw [rules_normalize_eq_rewrite, NormalForm.labels_rewrite]

/-- Normalization loses no symbol, and all that it adds are helpers. -/
theorem occurs_normalize {symbol : Symbol} :
    g.normalize.Occurs symbol ↔ g.Occurs symbol ∨ symbol ∈ g.added := by
  rw [occurs_iff, occurs_iff, (perm_heads_normalize g).mem_iff,
    (perm_bodySymbols_normalize g).mem_iff, labels_normalize_eq, List.mem_append, List.mem_append]
  tauto

theorem described_normalize (described : g.Described) : g.normalize.Described := by
  have spelled : ∀ symbol ∈ g.added, symbol.Spelled := by
    intro symbol mem
    obtain ⟨n, -, rfl⟩ := List.mem_map.mp mem
    exact spelled_nonterm _
  obtain ⟨rule, mem, head⟩ := described.start
  -- The rules and the table gain the same symbols, so neither runs ahead of the other.
  refine ⟨fun text => ?_, ?_, fun symbol occurs => ?_, ?_, ?_⟩
  · simp only [occurs_normalize, or_and_right, exists_or]
    rw [symbols_normalize, SymbolTable.mem_keys_addAll, described.keys, or_comm]
  · rw [symbols_normalize, ← SymbolTable.consistent_iff]
    exact SymbolTable.consistent_addAll (SymbolTable.consistent_iff.mpr described.stored) spelled
  · rcases occurs_normalize.mp occurs with before | helper
    · exact described.spelled symbol before
    · exact spelled symbol helper
  · rw [start_normalize, ← head]
    apply List.mem_map.mp
    rw [← heads, (perm_heads_normalize g).mem_iff]
    exact List.mem_append_left _ (List.mem_map_of_mem mem)
  · rw [start_normalize, ← Bool.not_eq_true, isHelper_normalize_iff_or]
    rintro (before | helper)
    · simp [described.plain] at before
    · have known : g.symbols.contains g.start = true := by
        rw [SymbolTable.contains_iff_mem_keys, described.keys]
        exact ⟨g.start, ⟨rule, mem, head ▸ .head _⟩, rfl⟩
      exact not_mem_added_of_known known helper

/-! ## All grammars -/

/-- However a grammar has come about, its table holds the symbols of its rules and nothing else, and
no two of these symbols share a text. The start symbol has a rule and is no helper. -/
theorem described_of_made (made : g.Made) : g.Described ∧
    (∀ symbol other, g.Occurs symbol → g.Occurs other → symbol.text = other.text →
      symbol = other) ∧
    ∀ rule ∈ g.rules, rule.head.isNonterm = true ∧ rule.body ≠ [] := by
  have described : g.Described := made.induct described_of_ofSpecs described_normalize
  refine ⟨described, fun symbol other occurs other_occurs same => ?_, g.rules_valid⟩
  calc symbol
    _ = .ofToken symbol.text := (described.spelled symbol occurs).symm
    _ = .ofToken other.text := by rw [same]
    _ = other := described.spelled other other_occurs

/-- A label takes the name of the first helper, and normalization passes it by. -/
theorem described_of_made_label : ∃ g,
    declare [.publicRule "$S" ["a", "$S"], .labeledRule "$S" ["a"] "$_H0"] = .ok g ∧
      g.normalize.symbols.byText.keys = ["$S", "$_H0", "$_H1", "a"] ∧ g.normalize.Described := by
  obtain ⟨g, built, keys⟩ : ∃ g,
      declare [.publicRule "$S" ["a", "$S"], .labeledRule "$S" ["a"] "$_H0"] = .ok g ∧
        g.normalize.symbols.byText.keys = ["$S", "$_H0", "$_H1", "a"] := ⟨_, rfl, by decide⟩
  obtain ⟨described, -⟩ := described_of_made (.normalize (.declare built))
  exact ⟨g, built, keys, described⟩

end Grammar

end ChartParser
