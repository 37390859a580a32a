import ChartParser.Grammar.Samples
import ChartParser.NormalForm.Normalize
import ChartParser.Parser.Basic
import ChartParser.Proofs.Grammar.Build
import ChartParser.Proofs.NormalForm.Expansion
import ChartParser.Proofs.NormalForm.Rewrite
import ChartParser.Proofs.NormalForm.Supply
import ChartParser.Proofs.UnitRules

/-! # The normalized grammar

The helpers of a normalized grammar are new, each of them has one rule, and the bodies that they
stand for are those of the grammar before. Unit rules are the same as before.
-/

namespace ChartParser.Grammar

open NormalForm

/-! ## Bodies with helpers -/

section Bodies

variable {h : Grammar} {fresh : Nat → Symbol}

/-- The rules are rules of the grammar for helpers. -/
def Owns (h : Grammar) (rules : List Rule) : Prop :=
  ∀ rule ∈ rules, rule ∈ h.rules ∧ h.isHelper rule.head = true

theorem expands_liftBody {i : Nat} {body : List Symbol}
    (plain : ∀ symbol ∈ body, h.isHelper symbol = false)
    (owns : h.Owns (termRules fresh i (body.filter Symbol.isTerm))) :
    h.Expands (liftBody fresh i body) body := by
  induction body generalizing i with
  | nil => exact .nil
  | cons symbol rest ih =>
    obtain ⟨symbol_plain, rest_plain⟩ := List.forall_mem_cons.mp plain
    rw [liftBody]
    split
    · next kind =>
      rw [List.filter_cons_of_pos kind, termRules] at owns
      obtain ⟨⟨mem, helper⟩, rest_owns⟩ := List.forall_mem_cons.mp owns
      exact .expand mem helper (.keep symbol_plain .nil) (ih rest_plain rest_owns)
    · next kind =>
      rw [List.filter_cons_of_neg kind] at owns
      exact .keep symbol_plain (ih rest_plain owns)

theorem expands_liftRule {i : Nat} {rule : Rule}
    (plain : ∀ symbol ∈ rule.body, h.isHelper symbol = false)
    (owns : h.Owns (termRules fresh i (liftedTerms rule))) :
    h.Expands (liftRule fresh i rule).body rule.body := by
  unfold liftRule
  unfold liftedTerms at owns
  split
  · next long =>
    rw [if_pos long] at owns
    exact expands_liftBody plain owns
  · exact expands_self plain

theorem expands_chainBody {i : Nat} {body expanded : List Symbol}
    (owns : h.Owns (chainTail fresh i body)) (expands : h.Expands body expanded) :
    h.Expands (chainBody fresh i body) expanded := by
  induction body generalizing i expanded with
  | nil => exact expands
  | cons first rest ih =>
    match rest with
    | [] | [_] => exact expands
    | second :: third :: rest =>
      rw [chainTail, splitBody_eq] at owns
      obtain ⟨⟨mem, helper⟩, tail_owns⟩ := List.forall_mem_cons.mp owns
      obtain ⟨before, after, rfl, one, later⟩ := expands_cons.mp expands
      refine expands_cons.mpr ⟨before, after, rfl, one, ?_⟩
      rw [← List.append_nil after]
      exact .expand mem helper (ih tail_owns later) .nil

theorem forall₂_cutRules {i j : Nat} {rules : List Rule}
    (plain : ∀ rule ∈ rules, ∀ symbol ∈ rule.body, h.isHelper symbol = false)
    (terms : h.Owns (termRules fresh i (rules.flatMap liftedTerms)))
    (tails : h.Owns (tailRules fresh j (liftRules fresh i rules))) :
    List.Forall₂ (fun rule cut => cut.head = rule.head ∧ cut.label = rule.label ∧
      h.Expands cut.body rule.body) rules (cutRules fresh j (liftRules fresh i rules)) := by
  induction rules generalizing i j with
  | nil => exact .nil
  | cons rule rules ih =>
    obtain ⟨rule_plain, rules_plain⟩ := List.forall_mem_cons.mp plain
    rw [List.flatMap_cons, termRules_append] at terms
    obtain ⟨rule_terms, rules_terms⟩ := List.forall_mem_append.mp terms
    rw [liftRules, tailRules] at tails
    obtain ⟨rule_tails, rules_tails⟩ := List.forall_mem_append.mp tails
    refine .cons ⟨head_liftRule i rule, label_liftRule i rule, ?_⟩
      (ih rules_plain rules_terms rules_tails)
    exact expands_chainBody rule_tails (expands_liftRule rule_plain rule_terms)

end Bodies

/-! ## Helpers -/

variable {g : Grammar}

/-- The helper that normalization draws as number `n`. -/
def nthHelper (g : Grammar) (n : Nat) : Symbol :=
  helperSymbol (g.symbols.freeNumber g.counter n)

theorem nthHelper_inj {m n : Nat} (h : g.nthHelper m = g.nthHelper n) : m = n :=
  SymbolTable.freeNumber_inj (helperSymbol_inj h)

theorem contains_nthHelper (g : Grammar) (n : Nat) : g.symbols.contains (g.nthHelper n) = false :=
  SymbolTable.free_freeNumber g.counter n

theorem supply_eq (g : Grammar) : g.supply g.helperNumbers.toArray = g.nthHelper := by
  funext n
  rw [supply, helperNumbers, SymbolTable.freeNumbers_eq_map, List.getElem?_toArray,
    List.getElem?_map]
  by_cases drawn : n < helperCount g.rules
  · rw [List.getElem?_range drawn]
    rfl
  · rw [List.getElem?_eq_none (by simpa using drawn)]
    rfl

theorem rules_normalize (long : g.isRelaxed = false) :
    g.normalize.rules = rewrite g.nthHelper g.rules := by
  rw [← supply_eq, normalize]
  simp [long]

theorem start_normalize (g : Grammar) : g.normalize.start = g.start := by
  unfold normalize
  split <;> rfl

theorem language_normalize (g : Grammar) : g.normalize.language = g.language := by
  unfold normalize
  split <;> rfl

theorem isHelper_normalize (declared : g.Declared) (long : g.isRelaxed = false) {symbol : Symbol} :
    g.normalize.isHelper symbol = true ↔
      ∃ n < helperCount g.rules, g.nthHelper n = symbol := by
  have none : g.helpers.contains symbol = false := declared.plain symbol
  have helpers : g.normalize.helpers =
      g.helpers.insertMany (g.helperNumbers.map helperSymbol) := by
    simp [normalize, long]
  rw [isHelper, helpers, Std.TreeSet.contains_insertMany_list, none, Bool.false_or,
    List.contains_iff_mem, helperNumbers, SymbolTable.freeNumbers_eq_map, List.map_map]
  simp only [List.mem_map, List.mem_range]
  rfl

theorem plain_of_known (declared : g.Declared) {symbol : Symbol}
    (known : g.symbols.contains symbol = true) : g.normalize.isHelper symbol = false := by
  cases long : g.isRelaxed with
  | true =>
    rw [normalize, if_pos long]
    exact declared.plain symbol
  | false =>
    rw [← Bool.not_eq_true, isHelper_normalize declared long]
    rintro ⟨n, -, rfl⟩
    simp [contains_nthHelper] at known

theorem head_plain (declared : g.Declared) {rule : Rule} (mem : rule ∈ g.rules) :
    g.normalize.isHelper rule.head = false :=
  plain_of_known declared (declared.known rule mem _ (by simp [Rule.symbols]))

theorem body_plain (declared : g.Declared) {rule : Rule} (mem : rule ∈ g.rules) :
    ∀ symbol ∈ rule.body, g.normalize.isHelper symbol = false := fun symbol symbol_mem =>
  plain_of_known declared (declared.known rule mem symbol (by simp [Rule.symbols, symbol_mem]))

theorem normalize_of_isRelaxed (relaxed : g.isRelaxed = true) : g.normalize = g := if_pos relaxed

/-! ## Rules for helpers -/

/-- The heads of the normalized rules tell those for helpers from the others. -/
theorem filter_rules_normalize (declared : g.Declared) (long : g.isRelaxed = false) :
    g.normalize.rules.filter (fun rule => !g.normalize.isHelper rule.head) =
        wholeRules g.nthHelper g.rules ∧
      g.normalize.rules.filter (fun rule => g.normalize.isHelper rule.head) =
        helperRules g.nthHelper g.rules := by
  have heads (rule : Rule) (mem : rule ∈ g.rules) : (!g.normalize.isHelper rule.head) = true := by
    simp [head_plain declared mem]
  have helpers (n : Nat) (drawn : n < helperCount g.rules) :
      (!g.normalize.isHelper (g.nthHelper n)) = false := by
    simp [(isHelper_normalize declared long).mpr ⟨n, drawn, rfl⟩]
  rw [rules_normalize long]
  simpa using filter_rewrite (p := (!g.normalize.isHelper ·)) heads helpers

/-- Normalization cuts the bodies of a declared grammar up by helpers. -/
theorem helperFormOf_normalize (declared : g.Declared) : g.normalize.HelperFormOf g := by
  have start_plain : g.normalize.isHelper g.start = false := by
    obtain ⟨rule, mem, head⟩ := declared.start
    exact head ▸ head_plain declared mem
  cases long : g.isRelaxed with
  | true =>
    rw [normalize_of_isRelaxed long] at start_plain ⊢
    have all : g.rules.filter (fun rule => !g.isHelper rule.head) = g.rules :=
      List.filter_eq_self.mpr fun rule _ => by simp [declared.plain]
    refine ⟨rfl, start_plain, fun word => declared.plain _, ?_, ?_⟩
    · intro rule _ other _ helper
      simp [declared.plain] at helper
    · rw [all, List.forall₂_same]
      exact fun rule mem => ⟨rfl, rfl, expands_self fun symbol _ => declared.plain symbol⟩
  | false =>
    obtain ⟨cuts, helpers⟩ := filter_rules_normalize declared long
    have owns : g.normalize.Owns (helperRules g.nthHelper g.rules) := by
      rw [← helpers]
      exact fun rule mem => List.mem_filter.mp mem
    obtain ⟨tails, terms⟩ := List.forall_mem_append.mp owns
    refine ⟨start_normalize g, start_plain, fun word => ?_, ?_, ?_⟩
    · rw [← Bool.not_eq_true, isHelper_normalize declared long]
      rintro ⟨n, -, h⟩
      nomatch h
    · intro rule mem other other_mem helper head
      have distinct := nodup_head_helperRules (fun _ _ => nthHelper_inj (g := g)) g.rules
      rw [← helpers] at distinct
      refine List.inj_on_of_nodup_map distinct ?_ ?_ head
      · exact List.mem_filter.mpr ⟨other_mem, head ▸ helper⟩
      · exact List.mem_filter.mpr ⟨mem, helper⟩
    · rw [cuts]
      exact forall₂_cutRules (fun rule mem => body_plain declared mem) terms tails

/-! ## The normal form -/

theorem violation?_normalize (g : Grammar) : g.normalize.violation? = none := by
  cases long : g.isRelaxed with
  | true =>
    rw [normalize_of_isRelaxed long]
    exact Option.isNone_iff_eq_none.mp long
  | false =>
    rw [violation?_eq_none_iff, rules_normalize long]
    exact fun rule mem => isRelaxed_of_mem_rewrite (fun _ => rfl) g.rules_valid mem

theorem filter_unit_normalize (g : Grammar) :
    g.normalize.rules.filter (·.unaryNonterm?.isSome) =
      g.rules.filter (·.unaryNonterm?.isSome) := by
  cases long : g.isRelaxed with
  | true => rw [normalize_of_isRelaxed long]
  | false => rw [rules_normalize long, filter_unit_rewrite]

theorem unitEdge_normalize (g : Grammar) : g.normalize.UnitEdge = g.UnitEdge := by
  have from_filter (g : Grammar) (parent child : Symbol) : g.UnitEdge parent child ↔
      ∃ rule ∈ g.rules.filter (·.unaryNonterm?.isSome), rule.head = parent ∧
        rule.unaryNonterm? = some child := by
    simp only [UnitEdge, List.mem_filter, Option.isSome_iff_exists, Rule.unaryNonterm?_eq_some]
    constructor
    · rintro ⟨kind, rule, mem, head, body⟩
      exact ⟨rule, ⟨mem, child, kind, body⟩, head, kind, body⟩
    · rintro ⟨rule, ⟨mem, -⟩, head, kind, body⟩
      exact ⟨kind, rule, mem, head, body⟩
  funext parent child
  rw [from_filter, from_filter, filter_unit_normalize]

theorem unitAcyclic_normalize (acyclic : g.UnitAcyclic) : g.normalize.UnitAcyclic := by
  unfold UnitAcyclic
  rwa [unitEdge_normalize]

theorem exists_make_normalize (acyclic : g.UnitAcyclic) (limit : Option Nat) :
    ∃ parser, Parser.make g.normalize limit = .ok parser := by
  have none := (unitCycle?_eq_none_iff g.normalize).mpr (unitAcyclic_normalize acyclic)
  exact ⟨_, Parser.make_eq_ok limit (violation?_normalize g) none⟩

theorem exists_parser_parens (limit : Option Nat) :
    ∃ g parser, Sample.parens = .ok g ∧ Parser.make g.normalize limit = .ok parser := by
  obtain ⟨g, built, none⟩ : ∃ g, Sample.parens = .ok g ∧
      ∀ rule ∈ g.rules, ∀ child ∈ rule.unaryNonterm?, 0 < 0 := ⟨_, rfl, by decide⟩
  obtain ⟨parser, made⟩ := exists_make_normalize (unitAcyclic_of_rank (fun _ => 0) none) limit
  exact ⟨g, parser, built, made⟩

end ChartParser.Grammar
