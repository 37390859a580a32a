import ChartParser.Grammar.Samples
import ChartParser.Proofs.Grammar.Build
import ChartParser.Proofs.Search
import ChartParser.Proofs.SententialForm

/-! # Warnings

The search over rules finds the non-terminals of the sentential forms. So a grammar is built with a
warning for each rule that no sentential form can use, and for each non-terminal that nothing can
replace.
-/

namespace ChartParser

theorem logEntries_warn (events : List Event) :
    logEntries .warn events = (events.filter (·.level = .warn)).map Event.entry := by
  unfold logEntries
  congr 1
  apply List.filter_congr
  intro event _
  cases event.level <;> rfl

namespace Grammar

open Relation Search

variable {g : Grammar} {form : List Symbol} {symbol head : Symbol}

/-! ## Non-terminals in sentential forms -/

theorem mem_successors : symbol ∈ g.successors head ↔
    symbol.isNonterm = true ∧ ∃ rule ∈ g.rules, rule.head = head ∧ symbol ∈ rule.body := by
  unfold successors rulesFor
  simp only [List.mem_filter, List.mem_flatMap, beq_iff_eq, and_assoc]
  exact and_comm

theorem mem_reachable : symbol ∈ g.reachable ↔ LeadsTo g.successors g.start symbol := by
  -- Only heads have successors, so there are no more levels than rules.
  have complete : ∀ head, g.successors head ≠ [] → head ∈ g.heads := by
    intro head some
    obtain ⟨symbol, edge⟩ := List.exists_mem_of_ne_nil _ some
    obtain ⟨-, rule, mem, rfl, -⟩ := mem_successors.mp edge
    exact List.mem_map_of_mem mem
  unfold reachable
  rw [mem_reached complete (by simp [heads])]
  simp

theorem leadsTo_of_sententialForm (derived : g.SententialForm form) :
    ∀ symbol ∈ form, symbol.isNonterm = true → LeadsTo g.successors g.start symbol := by
  induction derived with
  | refl =>
    intro symbol mem _
    obtain rfl := List.mem_singleton.mp mem
    exact .refl
  | tail _ step ih =>
    -- A symbol of the new form has been there before, or it is new and the head of the rule was.
    obtain ⟨before, after, mem⟩ := step
    intro symbol here kind
    simp only [List.mem_append] at here
    rcases here with left | new | right
    · exact ih symbol (by simp [left]) kind
    · have path := ih _ (by simp) (g.rules_valid _ mem).1
      exact path.tail (mem_successors.mpr ⟨kind, _, mem, rfl, new⟩)
    · exact ih symbol (by simp [right]) kind

theorem exists_sententialForm (path : LeadsTo g.successors g.start symbol) :
    ∃ before after, g.SententialForm (before ++ symbol :: after) := by
  induction path with
  | refl => exact ⟨[], [], .refl⟩
  | tail _ edge ih =>
    obtain ⟨before, after, derived⟩ := ih
    obtain ⟨-, rule, mem, rfl, part⟩ := mem_successors.mp edge
    obtain ⟨front, back, body⟩ := List.append_of_mem part
    have longer : g.SententialForm (before ++ (rule.body ++ after)) :=
      derived.tail (.rule before after mem)
    rw [body] at longer
    exact ⟨before ++ front, back ++ after, by simpa using longer⟩

theorem mem_reachable_iff (kind : symbol.isNonterm = true) :
    symbol ∈ g.reachable ↔ ∃ before after, g.SententialForm (before ++ symbol :: after) := by
  rw [mem_reachable]
  constructor
  · exact exists_sententialForm
  · rintro ⟨before, after, derived⟩
    exact leadsTo_of_sententialForm derived symbol (by simp) kind

/-! ## Warnings -/

theorem mem_undefinedSymbols : symbol ∈ g.undefinedSymbols ↔
    symbol.isNonterm = true ∧ symbol ∈ g.bodySymbols ∧ symbol ∉ g.heads := by
  unfold undefinedSymbols
  simp only [List.mem_filter, Std.TreeSet.mem_toList, mem_nonterminals, Bool.not_eq_true',
    List.contains_eq_mem, decide_eq_false_iff_not]
  tauto

theorem pairwise_undefinedSymbols (g : Grammar) :
    g.undefinedSymbols.Pairwise (compare · · = .lt) :=
  Std.TreeSet.ordered_toList.sublist List.filter_sublist

open scoped Classical in
theorem unreachableRules_eq (g : Grammar) : g.unreachableRules = g.rules.filter fun rule =>
    ¬ ∃ before after, g.SententialForm (before ++ rule.head :: after) := by
  unfold unreachableRules
  apply List.filter_congr
  intro rule mem
  rw [Bool.eq_iff_iff]
  simp [← mem_reachable_iff (g.rules_valid rule mem).1, ← Std.TreeSet.contains_iff_mem]

theorem filter_buildEvents (g : Grammar) : g.buildEvents.filter (·.level = .warn) =
    g.undefinedSymbols.map .undefined ++ g.unreachableRules.map (.unreachable · g.start) := by
  have undefined : ∀ event ∈ g.undefinedSymbols.map Event.undefined, event.level = .warn := by
    simp [Event.level]
  have unreachable : ∀ event ∈ g.unreachableRules.map (Event.unreachable · g.start),
      event.level = .warn := by
    simp [Event.level]
  unfold buildEvents
  rw [List.cons_append, List.filter_cons_of_neg (by simp [Event.level]), List.filter_append,
    List.filter_eq_self.mpr (by simpa using undefined),
    List.filter_eq_self.mpr (by simpa using unreachable)]

open scoped Classical in
/-- The warnings about declared rules: first the non-terminals without a rule, in ascending order,
and then the rules for what is in no sentential form. A log of warnings shows these and no more. -/
theorem warnings_of_ofSpecs {specs : List RuleSpec} {language : Option String}
    (built : ofSpecs specs language = .ok g) : g.rules = specs.map RuleSpec.rule ∧
    (∃ undefined : List Symbol, undefined.Pairwise (compare · · = .lt) ∧
      (∀ symbol, symbol ∈ undefined ↔
        symbol.isNonterm = true ∧ symbol ∈ g.bodySymbols ∧ symbol ∉ g.heads) ∧
      g.buildEvents.filter (·.level = .warn) = undefined.map .undefined ++
        (g.rules.filter fun rule =>
          ¬ ∃ before after, g.SententialForm (before ++ rule.head :: after)).map
            (.unreachable · g.start)) ∧
    logEntries .warn g.buildEvents = (g.buildEvents.filter (·.level = .warn)).map Event.entry := by
  obtain ⟨rules, -⟩ := readSpecs_eq_ok_iff.mp (of_ofSpecs_eq_ok built).1
  refine ⟨rules, ⟨g.undefinedSymbols, pairwise_undefinedSymbols g, fun _ => mem_undefinedSymbols,
    ?_⟩, logEntries_warn _⟩
  rw [filter_buildEvents, unreachableRules_eq]

/-- No sentential form has a noun, although there are rules for nouns, one of them twice. -/
theorem warnings_of_ofSpecs_misspelled : ∃ g, Sample.misspelled = .ok g ∧
    logEntries .warn g.buildEvents = ["WARN Non-terminal $Adj is used but has no rules.",
      "WARN Non-terminal $Noun is used but has no rules.",
      "WARN Rule `$N = duck;` is unreachable from $S.",
      "WARN Rule `$N = $Adj $N;` is unreachable from $S.",
      "WARN Rule `$N = duck;` is unreachable from $S."] ∧
    ¬ ∃ before after, g.SententialForm (before ++ .nonterm "N" :: after) := by
  obtain ⟨g, built, start, undefined, unreachable⟩ : ∃ g, Sample.misspelled = .ok g ∧
      g.start = .nonterm "S" ∧ g.undefinedSymbols = [.nonterm "Adj", .nonterm "Noun"] ∧
      g.unreachableRules = [⟨.nonterm "N", [.term "duck"], none⟩,
        ⟨.nonterm "N", [.nonterm "Adj", .nonterm "N"], none⟩,
        ⟨.nonterm "N", [.term "duck"], none⟩] := ⟨_, rfl, rfl, by decide, by decide⟩
  have declared := built
  unfold Sample.misspelled declare at declared
  obtain ⟨-, ⟨others, -, -, warnings⟩, log⟩ := warnings_of_ofSpecs declared
  refine ⟨g, built, ?_, ?_⟩
  · rw [log, filter_buildEvents, undefined, unreachable, start]
    decide
  · have warned : Event.unreachable ⟨.nonterm "N", [.term "duck"], none⟩ g.start ∈
        g.buildEvents.filter (·.level = .warn) := by
      rw [filter_buildEvents, unreachable]
      simp
    rw [warnings] at warned
    simp only [List.mem_append, List.mem_map, List.mem_filter, reduceCtorEq, and_false,
      exists_false, false_or] at warned
    obtain ⟨rule, ⟨-, absent⟩, same⟩ := warned
    cases same
    simpa using absent

end Grammar

end ChartParser
