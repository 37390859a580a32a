import ChartParser.Grammar.Declaration
import ChartParser.Proofs.NormalForm.Lots
import ChartParser.Proofs.NormalForm.Parts
import Mathlib.Algebra.GroupWithZero.Nat

/-! # Helpers are new and used once

Normalization adds as many helpers as the bodies need. Their names are the free ones of the grammar
before, and each helper stands once among the heads and once in the bodies.
-/

namespace ChartParser

/-- One helper for each terminal of a body with several symbols, and one for each symbol of a body
but two. -/
def Rule.helpersNeeded (rule : Rule) : Nat :=
  (if 2 ≤ rule.body.length then rule.body.countP Symbol.isTerm else 0) + (rule.body.length - 2)

theorem NormalForm.helperCount_eq_sum (rules : List Rule) :
    helperCount rules = (rules.map Rule.helpersNeeded).sum := by
  induction rules with
  | nil => rfl
  | cons rule rules ih =>
    have terms : (liftedTerms rule).length =
        if 2 ≤ rule.body.length then rule.body.countP Symbol.isTerm else 0 := by
      rw [List.countP_eq_length_filter]
      exact apply_ite List.length _ _ _
    rw [List.map_cons, List.sum_cons, ← ih, Rule.helpersNeeded, ← terms, helperCount, helperCount,
      liftCount, List.flatMap_cons, List.length_append, splitCount, liftCount]
    omega

namespace Grammar

open NormalForm

/-- `h` is `g` with helpers in its rules. The helpers are new, and each of them has one rule and one
use. -/
structure AddsHelpers (g h : Grammar) : Prop where
  /-- No symbol of the grammar before is a helper, labels included. -/
  fresh : ∀ helper, h.isHelper helper = true →
    helper ≠ g.start ∧ ∀ rule ∈ g.rules, helper ∉ rule.symbols
  labels : ∀ rule ∈ h.rules, ∀ label ∈ rule.label, h.isHelper label = false
  heads : ∀ helper, h.isHelper helper = true → h.heads.count helper = 1
  bodies : ∀ helper, h.isHelper helper = true → h.bodySymbols.count helper = 1
  /-- The helpers are the ones below the counter whose texts were not known. -/
  names : ∀ symbol, h.isHelper symbol = true ↔
    ∃ i < h.counter, symbol = helperSymbol i ∧ g.symbols.contains (helperSymbol i) = false
  size : h.helpers.size = (g.rules.map Rule.helpersNeeded).sum
  rules : h.rules.length = g.rules.length + h.helpers.size
  terminals : ∀ symbol, symbol ∈ h.terminals ↔ symbol ∈ g.terminals
  nonterminals : ∀ symbol, symbol ∈ h.nonterminals ↔
    symbol ∈ g.nonterminals ∨ h.isHelper symbol = true
  disjoint : ∀ symbol ∈ g.nonterminals, h.isHelper symbol = false

variable {g : Grammar}

theorem isRelaxed_iff : g.isRelaxed = true ↔ ∀ rule ∈ g.rules, rule.isRelaxed = true := by
  unfold isRelaxed
  rw [Option.isNone_iff_eq_none, violation?_eq_none_iff]

/-! ## The helpers in order -/

/-- The helpers that normalization adds, in the order in which it draws them. -/
def added (g : Grammar) : List Symbol := (List.range (helperCount g.rules)).map g.nthHelper

theorem nodup_added (g : Grammar) : g.added.Nodup :=
  List.nodup_range.map fun _ _ => nthHelper_inj

theorem added_eq_map_helperNumbers (g : Grammar) : g.added = g.helperNumbers.map helperSymbol := by
  rw [added, helperNumbers, SymbolTable.freeNumbers_eq_map, List.map_map]
  rfl

theorem helperCount_of_isRelaxed (relaxed : g.isRelaxed = true) : helperCount g.rules = 0 := by
  have perm : ((rewrite g.nthHelper g.rules).map Rule.head).Perm (g.heads ++ g.added) :=
    perm_heads_rewrite g.rules
  rw [rewrite_of_isRelaxed (isRelaxed_iff.mp relaxed)] at perm
  simpa [heads, added] using perm.length_eq

/-! ## Without the early exit -/

/-- What both passes make of the grammar, even if it has the form already. -/
def rewritten (g : Grammar) : Grammar where
  start := g.start
  rules := rewrite g.nthHelper g.rules
  language := g.language
  symbols := g.symbols.addAll (g.helperNumbers.map helperSymbol)
  counter := g.helperNumbers.getLast?.elim g.counter (· + 1)
  helpers := g.helpers.insertMany (g.helperNumbers.map helperSymbol)
  index := .ofRules (rewrite g.nthHelper g.rules)
  start_isNonterm := g.start_isNonterm
  rules_valid := rewrite_valid (fun _ => rfl) g.rules_valid
  index_eq := rfl

theorem helperNumbers_of_isRelaxed (relaxed : g.isRelaxed = true) : g.helperNumbers = [] := by
  unfold helperNumbers
  rw [helperCount_of_isRelaxed relaxed]
  rfl

theorem rewritten_of_isRelaxed (relaxed : g.isRelaxed = true) : g.rewritten = g := by
  have rules : rewrite g.nthHelper g.rules = g.rules :=
    rewrite_of_isRelaxed (isRelaxed_iff.mp relaxed)
  have helpers : g.helpers.insertMany ([] : List Symbol) = g.helpers := Std.TreeSet.insertMany_nil
  unfold rewritten
  simp only [rules, helperNumbers_of_isRelaxed relaxed, List.map_nil, helpers, ← g.index_eq]
  rfl

/-- The early exit skips nothing. -/
theorem normalize_eq_rewritten (g : Grammar) : g.normalize = g.rewritten := by
  cases long : g.isRelaxed with
  | true => rw [normalize_of_isRelaxed long, rewritten_of_isRelaxed long]
  | false =>
    unfold normalize rewritten
    simp only [long, Bool.false_eq_true, if_false, supply_eq]

theorem rules_normalize_eq_rewrite (g : Grammar) :
    g.normalize.rules = rewrite g.nthHelper g.rules := by
  rw [normalize_eq_rewritten]
  rfl

/-! ## Heads, bodies and helpers -/

theorem perm_heads_normalize (g : Grammar) : g.normalize.heads.Perm (g.heads ++ g.added) := by
  rw [heads, rules_normalize_eq_rewrite]
  exact perm_heads_rewrite g.rules

theorem perm_bodySymbols_normalize (g : Grammar) :
    g.normalize.bodySymbols.Perm (g.bodySymbols ++ g.added) := by
  rw [bodySymbols, rules_normalize_eq_rewrite]
  exact perm_bodies_rewrite g.rules

theorem length_rules_normalize (g : Grammar) :
    g.normalize.rules.length = g.rules.length + helperCount g.rules := by
  have lengths := (perm_heads_normalize g).length_eq
  simpa [heads, added] using lengths

/-- The symbols that a grammar knows are not among the helpers that normalization adds. -/
theorem not_mem_added_of_known {symbol : Symbol} (known : g.symbols.contains symbol = true) :
    symbol ∉ g.added := by
  intro mem
  obtain ⟨n, -, rfl⟩ := List.mem_map.mp mem
  simp [contains_nthHelper] at known

theorem isHelper_normalize_iff_or {symbol : Symbol} :
    g.normalize.isHelper symbol = true ↔ g.isHelper symbol = true ∨ symbol ∈ g.added := by
  have helpers : g.normalize.helpers = g.helpers.insertMany g.added := by
    rw [normalize_eq_rewritten, added_eq_map_helperNumbers]
    rfl
  rw [isHelper, helpers, Std.TreeSet.contains_insertMany_list, Bool.or_eq_true,
    List.contains_iff_mem]
  rfl

theorem isHelper_normalize_iff (declared : g.Declared) {symbol : Symbol} :
    g.normalize.isHelper symbol = true ↔ symbol ∈ g.added := by
  rw [isHelper_normalize_iff_or, declared.plain]
  simp

/-! ## Names -/

theorem symbols_normalize (g : Grammar) :
    g.normalize.symbols = g.symbols.addAll g.added := by
  rw [normalize_eq_rewritten, added_eq_map_helperNumbers]
  rfl

theorem counter_normalize (g : Grammar) :
    g.normalize.counter = g.helperNumbers.getLast?.elim g.counter (· + 1) := by
  rw [normalize_eq_rewritten]
  rfl

theorem isHelper_normalize_iff_free (declared : g.Declared) (counter : g.counter = 0)
    (symbol : Symbol) : g.normalize.isHelper symbol = true ↔
      ∃ i < g.normalize.counter, symbol = helperSymbol i ∧
        g.symbols.contains (helperSymbol i) = false := by
  rw [isHelper_normalize_iff declared, added_eq_map_helperNumbers, counter_normalize, List.mem_map]
  simp only [helperNumbers, SymbolTable.freeNumbers_spec.2, SymbolTable.Free, counter]
  constructor
  · rintro ⟨i, ⟨free, -, below⟩, rfl⟩
    exact ⟨i, below, rfl, free⟩
  · rintro ⟨i, below, rfl, free⟩
    exact ⟨i, ⟨free, Nat.zero_le i, below⟩, rfl⟩

theorem size_helpers_normalize (declared : g.Declared) :
    g.normalize.helpers.size = helperCount g.rules := by
  have same : g.normalize.helpers.toList.Perm g.added := by
    apply (List.perm_ext_iff_of_nodup ?_ (nodup_added g)).mpr
    · intro symbol
      rw [← isHelper_normalize_iff declared, Std.TreeSet.mem_toList]
      rfl
    · exact Std.TreeSet.distinct_toList.imp fun apart same => apart (Std.compare_eq_iff_eq.mpr same)
  rw [← Std.TreeSet.length_toList, same.length_eq, added, List.length_map, List.length_range]

/-! ## Symbols -/

theorem not_mem_symbols_of_isHelper (declared : g.Declared) {helper : Symbol}
    (h : g.normalize.isHelper helper = true) : ∀ rule ∈ g.rules, helper ∉ rule.symbols := by
  intro rule mem part
  have plain := plain_of_known declared (declared.known rule mem helper part)
  rw [h] at plain
  nomatch plain

theorem not_mem_heads_of_isHelper (declared : g.Declared) {helper : Symbol}
    (h : g.normalize.isHelper helper = true) : helper ∉ g.heads := by
  intro mem
  obtain ⟨rule, rule_mem, rfl⟩ := List.mem_map.mp mem
  exact not_mem_symbols_of_isHelper declared h rule rule_mem (.head _)

theorem not_mem_bodySymbols_of_isHelper (declared : g.Declared) {helper : Symbol}
    (h : g.normalize.isHelper helper = true) : helper ∉ g.bodySymbols := by
  intro mem
  obtain ⟨rule, rule_mem, part⟩ := List.mem_flatMap.mp mem
  exact not_mem_symbols_of_isHelper declared h rule rule_mem (by simp [Rule.symbols, part])

/-- A helper is once among the added symbols, and nowhere among those before. -/
theorem count_helper (declared : g.Declared) {helper : Symbol}
    (h : g.normalize.isHelper helper = true) {before after : List Symbol}
    (perm : after.Perm (before ++ g.added)) (new : helper ∉ before) : after.count helper = 1 := by
  have once := List.count_eq_one_of_mem (nodup_added g) ((isHelper_normalize_iff declared).mp h)
  rw [perm.count_eq, List.count_append, List.count_eq_zero_of_not_mem new, once]

theorem isNonterm_of_mem_added {symbol : Symbol} (mem : symbol ∈ g.added) :
    symbol.isNonterm = true := by
  obtain ⟨n, -, rfl⟩ := List.mem_map.mp mem
  rfl

theorem terminals_normalize (symbol : Symbol) :
    symbol ∈ g.normalize.terminals ↔ symbol ∈ g.terminals := by
  rw [mem_terminals, mem_terminals, (perm_bodySymbols_normalize g).mem_iff, List.mem_append]
  constructor
  · rintro ⟨before | helper, kind⟩
    · exact ⟨before, kind⟩
    · have nonterm := isNonterm_of_mem_added helper
      cases symbol with
      | term name => nomatch nonterm
      | nonterm name => nomatch kind
  · exact fun ⟨before, kind⟩ => ⟨.inl before, kind⟩

theorem nonterminals_normalize (symbol : Symbol) :
    symbol ∈ g.normalize.nonterminals ↔ symbol ∈ g.nonterminals ∨ symbol ∈ g.added := by
  rw [mem_nonterminals, mem_nonterminals, (perm_heads_normalize g).mem_iff,
    (perm_bodySymbols_normalize g).mem_iff, List.mem_append, List.mem_append]
  constructor
  · rintro ((head | helper) | ⟨part | helper, kind⟩)
    · exact .inl (.inl head)
    · exact .inr helper
    · exact .inl (.inr ⟨part, kind⟩)
    · exact .inr helper
  · rintro ((head | ⟨part, kind⟩) | helper)
    · exact .inl (.inl head)
    · exact .inr ⟨.inl part, kind⟩
    · exact .inl (.inr helper)

theorem labels_normalize (declared : g.Declared) : ∀ rule ∈ g.normalize.rules,
    ∀ label ∈ rule.label, g.normalize.isHelper label = false := by
  have before : ∀ rule ∈ g.rules, rule.Parts (fun _ => True) (fun _ => True)
      fun label => g.normalize.isHelper label = false := by
    intro rule mem
    refine ⟨trivial, fun _ _ => trivial, fun label labeled => ?_⟩
    exact plain_of_known declared
      (declared.known rule mem label (by simp [Rule.symbols, Option.mem_def.mp labeled]))
  exact fun rule mem => (parts_normalize (fun _ => ⟨trivial, trivial⟩) before rule mem).label

/-! ## Normalized grammars -/

variable {specs : List RuleSpec} {language : Option String}

/-- Normalization adds helpers that are new, each of them with one rule and one use, and no more of
them than the bodies need. -/
theorem addsHelpers_normalize (built : ofSpecs specs language = .ok g) :
    g.AddsHelpers g.normalize := by
  have declared := declared_of_ofSpecs built
  obtain ⟨-, -, -, counter, -⟩ := of_ofSpecs_eq_ok built
  have size := size_helpers_normalize declared
  constructor
  case fresh =>
    intro helper h
    refine ⟨?_, not_mem_symbols_of_isHelper declared h⟩
    rintro rfl
    obtain ⟨rule, mem, head⟩ := declared.start
    exact not_mem_heads_of_isHelper declared h (head ▸ List.mem_map_of_mem mem)
  case labels => exact labels_normalize declared
  case heads =>
    intro helper h
    exact count_helper declared h (perm_heads_normalize g) (not_mem_heads_of_isHelper declared h)
  case bodies =>
    intro helper h
    exact count_helper declared h (perm_bodySymbols_normalize g)
      (not_mem_bodySymbols_of_isHelper declared h)
  case names => exact isHelper_normalize_iff_free declared counter
  case size => rw [size, helperCount_eq_sum]
  case rules => rw [size, length_rules_normalize]
  case terminals => exact terminals_normalize
  case nonterminals =>
    intro symbol
    rw [isHelper_normalize_iff declared]
    exact nonterminals_normalize symbol
  case disjoint =>
    intro symbol mem
    rw [← Bool.not_eq_true]
    intro h
    rcases mem_nonterminals.mp mem with head | ⟨part, -⟩
    · exact not_mem_heads_of_isHelper declared h head
    · exact not_mem_bodySymbols_of_isHelper declared h part

/-- Names of helpers are taken by a head and by a label. -/
theorem addsHelpers_normalize_gaps : ∃ g,
    declare [.publicRule "$S" ["a", "$_H1", "b", "$S"], .rule "$S" ["$_H1"],
      .labeledRule "$_H1" ["(", "$S"] "$_H3"] = .ok g ∧ g.AddsHelpers g.normalize := by
  unfold declare
  exact Exists.imp (fun _ built => ⟨built, addsHelpers_normalize built⟩) ⟨_, rfl⟩

end Grammar

end ChartParser
