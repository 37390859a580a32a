import ChartParser.Grammar.Build
import ChartParser.Proofs.Forall2
import ChartParser.Proofs.Rule
import ChartParser.Proofs.Symbol.Table

/-! # What a declared grammar knows

A declared grammar knows the texts of all its symbols, and none of them is a helper.
-/

namespace ChartParser

/-- The symbols of a rule, with its label. -/
def Rule.symbols (rule : Rule) : List Symbol := rule.head :: rule.body ++ rule.label.toList

/-- The rule that the declaration stands for, valid or not. -/
def RuleSpec.rule (spec : RuleSpec) : Rule :=
  ⟨.ofToken spec.head, spec.body.map .ofToken, spec.label.map .ofToken⟩

theorem RuleSpec.toRule_eq_ok {spec : RuleSpec} {rule : Rule} :
    spec.toRule = .ok rule ↔ rule.Valid ∧ rule = spec.rule :=
  Rule.make_eq_ok

theorem RuleSpec.symbols_rule (spec : RuleSpec) :
    spec.rule.symbols = spec.tokens.map .ofToken := by
  cases label : spec.label <;> simp [rule, Rule.symbols, tokens, label]

theorem RuleSpec.symbols_of_toRule {spec : RuleSpec} {rule : Rule} (h : spec.toRule = .ok rule) :
    rule.symbols = spec.tokens.map .ofToken := by
  rw [(toRule_eq_ok.mp h).2, symbols_rule]

/-- The declaration is a valid rule, and it is public only if it is for the start symbol. -/
structure RuleSpec.Fits (start : Symbol) (spec : RuleSpec) : Prop where
  valid : spec.rule.Valid
  start : spec.isPublic = true → spec.rule.head = start

namespace Grammar

/-! ## Declarations that are accepted -/

/-- A start symbol that is known stays, and all later public rules are for it. -/
theorem start_of_readSpecs {specs : List RuleSpec} {start : Symbol} {final : Option Symbol}
    {rules : List Rule} (h : readSpecs (some start) specs = .ok (final, rules)) :
    final = some start ∧ ∀ spec ∈ specs, spec.Fits start := by
  induction specs generalizing rules with
  | nil =>
    cases h
    exact ⟨rfl, by simp⟩
  | cons spec specs ih =>
    obtain ⟨rule, next, more, hrule, hnext, hmore, rfl⟩ := readSpecs_cons_eq_ok h
    obtain ⟨valid, rfl⟩ := RuleSpec.toRule_eq_ok.mp hrule
    obtain ⟨rfl, head⟩ : next = some start ∧ (spec.isPublic = true → spec.rule.head = start) := by
      unfold declareStart at hnext
      split at hnext
      · dsimp only at hnext
        split at hnext
        · next same => exact ⟨(Except.ok.inj hnext).symm, fun _ => same.symm⟩
        · nomatch hnext
      · next hidden => exact ⟨(Except.ok.inj hnext).symm, fun shown => absurd shown hidden⟩
    obtain ⟨rfl, others⟩ := ih hmore
    exact ⟨rfl, List.forall_mem_cons.mpr ⟨⟨valid, head⟩, others⟩⟩

theorem fits_of_readSpecs {specs : List RuleSpec} {start : Symbol} {rules : List Rule}
    (h : readSpecs none specs = .ok (some start, rules)) :
    (∀ spec ∈ specs, spec.Fits start) ∧ ∃ spec ∈ specs, spec.isPublic = true := by
  induction specs generalizing rules with
  | nil => nomatch h
  | cons spec specs ih =>
    obtain ⟨rule, next, more, hrule, hnext, hmore, rfl⟩ := readSpecs_cons_eq_ok h
    obtain ⟨valid, rfl⟩ := RuleSpec.toRule_eq_ok.mp hrule
    unfold declareStart at hnext
    split at hnext
    · next shown =>
      cases hnext
      obtain ⟨same, others⟩ := start_of_readSpecs hmore
      cases same
      exact ⟨List.forall_mem_cons.mpr ⟨⟨valid, fun _ => rfl⟩, others⟩, spec, .head _, shown⟩
    · next hidden =>
      cases hnext
      obtain ⟨others, first, mem, shown⟩ := ih hmore
      refine ⟨List.forall_mem_cons.mpr ⟨⟨valid, ?_⟩, others⟩, first, .tail _ mem, shown⟩
      exact fun shown => absurd shown hidden

theorem readSpecs_of_fits {specs : List RuleSpec} {start : Symbol} {first : Option Symbol}
    (fits : ∀ spec ∈ specs, spec.Fits start) (known : first = none ∨ first = some start) :
    readSpecs first specs = .ok (if specs.any RuleSpec.isPublic then some start else first,
      specs.map RuleSpec.rule) := by
  induction specs generalizing first with
  | nil => rfl
  | cons spec specs ih =>
    obtain ⟨⟨valid, head⟩, fits⟩ := List.forall_mem_cons.mp fits
    have made := RuleSpec.toRule_eq_ok.mpr ⟨valid, rfl⟩
    have next : declareStart first spec.isPublic spec.rule.head =
        .ok (if spec.isPublic then some start else first) := by
      unfold declareStart
      cases shown : spec.isPublic with
      | true => rcases known with rfl | rfl <;> simp [head shown]
      | false => rfl
    have next_known : (if spec.isPublic then some start else first) = none ∨
        (if spec.isPublic then some start else first) = some start := by
      split
      · exact .inr rfl
      · exact known
    rw [readSpecs, made]
    simp only [Except.mapError, bind, Except.bind, next, ih fits next_known]
    rw [List.any_cons]
    cases spec.isPublic <;> cases specs.any RuleSpec.isPublic <;> rfl

/-- All declarations must be valid, and those that are public declare the start symbol. -/
theorem readSpecs_eq_ok_iff {specs : List RuleSpec} {start : Symbol} {rules : List Rule} :
    readSpecs none specs = .ok (some start, rules) ↔
      rules = specs.map RuleSpec.rule ∧ (∀ spec ∈ specs, spec.Fits start) ∧
        ∃ spec ∈ specs, spec.isPublic = true := by
  have accepted (fits : ∀ spec ∈ specs, spec.Fits start)
      (shown : ∃ spec ∈ specs, spec.isPublic = true) :
      readSpecs none specs = .ok (some start, specs.map RuleSpec.rule) := by
    rw [readSpecs_of_fits fits (.inl rfl), if_pos (List.any_eq_true.mpr shown)]
  constructor
  · intro h
    obtain ⟨fits, shown⟩ := fits_of_readSpecs h
    rw [accepted fits shown] at h
    cases h
    exact ⟨rfl, fits, shown⟩
  · rintro ⟨rfl, fits, shown⟩
    exact accepted fits shown

/-- The rules are the declared ones, and the start symbol is the head of one of them. -/
theorem rules_of_readSpecs {specs : List RuleSpec} {start : Symbol} {rules : List Rule}
    (h : readSpecs none specs = .ok (some start, rules)) :
    List.Forall₂ (fun spec rule => spec.toRule = .ok rule) specs rules ∧
      ∃ rule ∈ rules, rule.head = start := by
  obtain ⟨rfl, fits, first, mem, shown⟩ := readSpecs_eq_ok_iff.mp h
  refine ⟨?_, first.rule, List.mem_map_of_mem mem, (fits first mem).start shown⟩
  rw [List.forall₂_map_right_iff, List.forall₂_same]
  exact fun spec mem => RuleSpec.toRule_eq_ok.mpr ⟨(fits spec mem).valid, rfl⟩

/-! ## Grammars -/

theorem consistent_symbolsOf (specs : List RuleSpec) : (symbolsOf specs).Consistent :=
  SymbolTable.consistent_addTokens SymbolTable.consistent_empty (specs.flatMap RuleSpec.tokens)

theorem of_ofSpecs_eq_ok {specs : List RuleSpec} {language : Option String} {g : Grammar}
    (h : ofSpecs specs language = .ok g) :
    readSpecs none specs = .ok (some g.start, g.rules) ∧ g.language = language ∧
      g.symbols = symbolsOf specs ∧ g.counter = 0 ∧ g.helpers = ∅ := by
  unfold ofSpecs at h
  split at h
  · nomatch h
  · nomatch h
  · next start rules read =>
    cases h
    exact ⟨read, rfl, rfl, rfl, rfl⟩

theorem exists_ofSpecs_eq_ok {specs : List RuleSpec} {start : Symbol} {rules : List Rule}
    (read : readSpecs none specs = .ok (some start, rules)) (language : Option String) :
    ∃ g, ofSpecs specs language = .ok g ∧
      g.rules = rules ∧ g.start = start ∧ g.language = language := by
  unfold ofSpecs
  split
  · next failed =>
    rw [read] at failed
    nomatch failed
  · next failed =>
    rw [read] at failed
    nomatch failed
  · next found =>
    rw [read] at found
    cases found
    exact ⟨_, rfl, rfl, rfl, rfl⟩

/-- Valid declarations make a grammar if some of them are public and these have the same head. -/
theorem exists_ofSpecs_iff {specs : List RuleSpec} {language : Option String}
    (valid : ∀ spec ∈ specs, spec.rule.Valid) : (∃ g, ofSpecs specs language = .ok g) ↔
      ∃ head, (∃ spec ∈ specs, spec.isPublic = true) ∧
        ∀ spec ∈ specs, spec.isPublic = true → spec.head = head := by
  constructor
  · rintro ⟨g, made⟩
    obtain ⟨read, -⟩ := of_ofSpecs_eq_ok made
    obtain ⟨-, fits, shown⟩ := readSpecs_eq_ok_iff.mp read
    refine ⟨g.start.text, shown, fun spec mem isPublic => ?_⟩
    rw [← (fits spec mem).start isPublic]
    exact (Symbol.text_ofToken spec.head).symm
  · rintro ⟨head, shown, same⟩
    have read : readSpecs none specs = .ok (some (.ofToken head), specs.map RuleSpec.rule) := by
      have fits (spec : RuleSpec) (mem : spec ∈ specs) : spec.Fits (.ofToken head) :=
        ⟨valid spec mem, fun isPublic => congrArg Symbol.ofToken (same spec mem isPublic)⟩
      exact readSpecs_eq_ok_iff.mpr ⟨rfl, fits, shown⟩
    obtain ⟨g, made, -⟩ := exists_ofSpecs_eq_ok read language
    exact ⟨g, made⟩

theorem spelled_of_mem_symbols {specs : List RuleSpec} {language : Option String} {g : Grammar}
    (built : ofSpecs specs language = .ok g) {rule : Rule} (mem : rule ∈ g.rules)
    {symbol : Symbol} (part : symbol ∈ rule.symbols) : symbol.Spelled := by
  obtain ⟨declared, -⟩ := rules_of_readSpecs (of_ofSpecs_eq_ok built).1
  obtain ⟨spec, -, made⟩ := exists_left_of_forall₂ declared mem
  rw [RuleSpec.symbols_of_toRule made] at part
  obtain ⟨token, -, rfl⟩ := List.mem_map.mp part
  exact spelled_ofToken token

/-- What holds of a grammar before normalization. -/
structure Declared (g : Grammar) : Prop where
  plain : ∀ symbol, g.isHelper symbol = false
  known : ∀ rule ∈ g.rules, ∀ symbol ∈ rule.symbols, g.symbols.contains symbol = true
  start : ∃ rule ∈ g.rules, rule.head = g.start

theorem declared_of_ofSpecs {specs : List RuleSpec} {language : Option String} {g : Grammar}
    (h : ofSpecs specs language = .ok g) : g.Declared := by
  obtain ⟨read, -, symbols, -, helpers⟩ := of_ofSpecs_eq_ok h
  obtain ⟨declared, start⟩ := rules_of_readSpecs read
  refine ⟨fun symbol => ?_, fun rule mem symbol symbol_mem => ?_, ?_⟩
  · rw [isHelper, helpers]
    rfl
  · obtain ⟨spec, spec_mem, hrule⟩ := exists_left_of_forall₂ declared mem
    rw [symbols, symbolsOf, SymbolTable.contains_addAll]
    rw [RuleSpec.symbols_of_toRule hrule, List.mem_map] at symbol_mem
    obtain ⟨token, token_mem, rfl⟩ := symbol_mem
    refine .inl ⟨_, ?_, rfl⟩
    exact List.mem_map_of_mem (List.mem_flatMap.mpr ⟨spec, spec_mem, token_mem⟩)
  · exact start

end Grammar

end ChartParser
