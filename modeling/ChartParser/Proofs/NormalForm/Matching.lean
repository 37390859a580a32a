import ChartParser.Proofs.NormalForm.AddedHelpers
import ChartParser.Proofs.Renaming

/-! # Grammars with the same rules use helpers alike

What becomes of a rule depends on its head, its body and its helpers only. So where two grammars
have the same rules, but for their order and labels, a renaming of the helpers takes the one
normalized grammar to the other.
-/

namespace ChartParser

namespace NormalForm

variable {fresh fresh' : Nat → Symbol} {rename : Symbol → Symbol}

/-! ## One rule -/

theorem map_liftBody {i i' : Nat} {body : List Symbol}
    (fixed : ∀ symbol ∈ body, rename symbol = symbol)
    (helpers : ((List.range' i (body.filter Symbol.isTerm).length).map fresh).map rename =
      (List.range' i' (body.filter Symbol.isTerm).length).map fresh') :
    (liftBody fresh i body).map rename = liftBody fresh' i' body := by
  induction body generalizing i i' with
  | nil => rfl
  | cons symbol rest ih =>
    obtain ⟨first_fixed, fixed⟩ := List.forall_mem_cons.mp fixed
    rw [liftBody, liftBody]
    split
    · next kind =>
      rw [List.filter_cons_of_pos kind, List.length_cons, List.range'_succ,
        List.range'_succ] at helpers
      obtain ⟨first, later⟩ := List.cons.inj helpers
      rw [List.map_cons, first, ih fixed later]
    · next kind =>
      rw [List.filter_cons_of_neg kind] at helpers
      rw [List.map_cons, first_fixed, ih fixed helpers]

theorem map_shape_splitBody {i i' : Nat} {head head' : Symbol} {label : Option Symbol}
    (label' : Option Symbol) {body : List Symbol} (heads : rename head = head')
    (helpers : ((List.range' i (body.length - 2)).map fresh).map rename =
      (List.range' i' (body.length - 2)).map fresh') :
    (splitBody fresh i head label body).map (Rule.renamedShape rename) =
      (splitBody fresh' i' head' label' (body.map rename)).map Rule.shape := by
  fun_induction splitBody fresh i head label body generalizing i' head' label' with
  | case1 i head label first second third rest ih =>
    have count : (first :: second :: third :: rest).length - 2 =
        ((second :: third :: rest).length - 2) + 1 := by simp
    rw [count, List.range'_succ, List.range'_succ] at helpers
    obtain ⟨here, later⟩ := List.cons.inj helpers
    rw [List.map_cons, ih none here later]
    simp only [splitBody, Rule.renamedShape, Rule.shape, List.map_cons, List.map_nil, heads, here]
  | case2 i head label body short =>
    subst heads
    match body with
    | [] | [_] | [_, _] => rfl
    | first :: second :: third :: rest => exact absurd rfl (short first second third rest)

theorem map_shape_termRules {i i' : Nat} {symbols : List Symbol}
    (fixed : ∀ symbol ∈ symbols, rename symbol = symbol)
    (helpers : ((List.range' i symbols.length).map fresh).map rename =
      (List.range' i' symbols.length).map fresh') :
    (termRules fresh i symbols).map (Rule.renamedShape rename) =
      (termRules fresh' i' symbols).map Rule.shape := by
  induction symbols generalizing i i' with
  | nil => rfl
  | cons symbol rest ih =>
    obtain ⟨first_fixed, fixed⟩ := List.forall_mem_cons.mp fixed
    rw [List.length_cons, List.range'_succ, List.range'_succ] at helpers
    obtain ⟨here, later⟩ := List.cons.inj helpers
    rw [termRules, termRules, List.map_cons, List.map_cons, ih fixed later]
    simp only [Rule.renamedShape, Rule.shape, List.map_cons, List.map_nil, here, first_fixed]

/-! ## Lots -/

/-- The lots are for rules of the same shape. The renaming takes the helpers of the one lot to those
of the other, in order, and it changes no symbol of the rule. -/
structure Takes (rename : Symbol → Symbol) (fresh fresh' : Nat → Symbol) (lot lot' : Lot) :
    Prop where
  shape : lot.rule.shape = lot'.rule.shape
  helpers : (lot.numbers.map fresh).map rename = lot'.numbers.map fresh'
  head : rename lot.rule.head = lot.rule.head
  body : ∀ symbol ∈ lot.rule.body, rename symbol = symbol

theorem length_numbers_of_shape {lot lot' : Lot} (shape : lot.rule.shape = lot'.rule.shape) :
    lot.numbers.length = lot'.numbers.length := by
  obtain ⟨-, body⟩ := Prod.mk.inj shape
  simp only [Lot.numbers, liftedTerms, List.length_append, List.length_range', body]

theorem map_body_liftRule {rule rule' : Rule} {i i' : Nat} (body : rule.body = rule'.body)
    (fixed : ∀ symbol ∈ rule.body, rename symbol = symbol)
    (helpers : ((List.range' i (liftedTerms rule).length).map fresh).map rename =
      (List.range' i' (liftedTerms rule).length).map fresh') :
    (liftRule fresh i rule).body.map rename = (liftRule fresh' i' rule').body := by
  unfold liftRule
  unfold liftedTerms at helpers
  rw [← body]
  split
  · next long =>
    rw [if_pos long] at helpers
    exact map_liftBody fixed helpers
  · rw [← body]
    exact (List.map_congr_left fixed).trans (List.map_id rule.body)

theorem mem_body_of_mem_liftedTerms {rule : Rule} {symbol : Symbol}
    (mem : symbol ∈ liftedTerms rule) : symbol ∈ rule.body := by
  unfold liftedTerms at mem
  split at mem
  · exact List.mem_of_mem_filter mem
  · nomatch mem

theorem map_shape_rules {lot lot' : Lot} (takes : Takes rename fresh fresh' lot lot') :
    (lot.rules fresh).map (Rule.renamedShape rename) = (lot'.rules fresh').map Rule.shape := by
  obtain ⟨head, body⟩ := Prod.mk.inj takes.shape
  have lifted : liftedTerms lot'.rule = liftedTerms lot.rule := by
    rw [liftedTerms, liftedTerms, body]
  have helpers := takes.helpers
  rw [Lot.numbers, Lot.numbers, lifted, ← body] at helpers
  simp only [List.map_append] at helpers
  obtain ⟨terms, chain⟩ := List.append_inj helpers (by simp)
  have fixed : ∀ symbol ∈ liftedTerms lot.rule, rename symbol = symbol :=
    fun symbol mem => takes.body symbol (mem_body_of_mem_liftedTerms mem)
  rw [Lot.rules, Lot.rules, List.map_append, List.map_append, lifted,
    map_shape_termRules fixed terms, ← map_body_liftRule body takes.body terms]
  rw [← length_body_liftRule lot.terms lot.rule] at chain
  rw [map_shape_splitBody _ (takes.head.trans head) chain]

theorem exists_pairs_lots {rules others : List Rule}
    (shapes : (rules.map Rule.shape).Perm (others.map Rule.shape)) :
    ∃ pairs : List (Lot × Lot), pairs.map Prod.fst = lots rules ∧
      (pairs.map Prod.snd).Perm (lots others) ∧
      ∀ pair ∈ pairs, pair.1.rule.shape = pair.2.rule.shape := by
  rw [← map_rule_lots rules, ← map_rule_lots others, List.map_map, List.map_map] at shapes
  exact exists_pairs_of_perm shapes

end NormalForm

namespace Grammar

open NormalForm

variable {g other : Grammar}

/-- The renaming takes the helpers for each rule of the one grammar to the helpers for a rule of the
same shape. It keeps helpers apart and changes no other symbol. -/
structure MatchesHelpers (rename : Symbol → Symbol) (g other : Grammar) : Prop where
  added : ∀ helper ∈ g.added, rename helper ∈ other.added
  apart : ∀ helper ∈ g.added, ∀ helper' ∈ g.added, rename helper = rename helper' →
    helper = helper'
  fixed : ∀ symbol ∉ g.added, rename symbol = symbol
  lots : ∀ lot ∈ lots g.rules, ∃ lot' ∈ lots other.rules, lot.rule.shape = lot'.rule.shape ∧
    (lot.numbers.map g.nthHelper).map rename = lot'.numbers.map other.nthHelper

theorem exists_matchesHelpers
    (shapes : (g.rules.map Rule.shape).Perm (other.rules.map Rule.shape)) :
    ∃ rename, MatchesHelpers rename g other := by
  obtain ⟨pairs, firsts, seconds, same⟩ := exists_pairs_lots shapes
  have lengths : ∀ pair ∈ pairs, (pair.1.numbers.map g.nthHelper).length =
      (pair.2.numbers.map other.nthHelper).length := by
    intro pair mem
    rw [List.length_map, List.length_map, length_numbers_of_shape (same pair mem)]
  have source : (pairs.flatMap fun pair => pair.1.numbers.map g.nthHelper).Perm g.added := by
    rw [← List.flatMap_map Prod.fst fun lot : Lot => lot.numbers.map g.nthHelper, firsts]
    exact perm_helpers_lots _ _
  have target : (pairs.flatMap fun pair => pair.2.numbers.map other.nthHelper).Perm
      other.added := by
    rw [← List.flatMap_map Prod.snd fun lot : Lot => lot.numbers.map other.nthHelper]
    exact (seconds.flatMap_right _).trans (perm_helpers_lots _ _)
  have total : (pairs.flatMap fun pair => pair.1.numbers.map g.nthHelper).length =
      (pairs.flatMap fun pair => pair.2.numbers.map other.nthHelper).length := by
    rw [List.length_flatMap, List.length_flatMap, List.map_congr_left lengths]
  -- The pairs list every helper of either grammar once, so one map takes the one list to the other.
  obtain ⟨rename, taken, fixed⟩ := exists_map_eq (source.nodup_iff.mpr (nodup_added g)) total
  have each := map_eq_of_map_flatMap_eq lengths taken
  have distinct := target.nodup_iff.mpr (nodup_added other)
  rw [← taken] at target distinct
  refine ⟨rename, fun helper mem => ?_, fun helper mem helper' mem' => ?_, fun symbol absent => ?_,
    fun lot mem => ?_⟩
  · exact target.subset (List.mem_map_of_mem (source.mem_iff.mpr mem))
  · exact List.inj_on_of_nodup_map distinct (source.mem_iff.mpr mem) (source.mem_iff.mpr mem')
  · exact fixed symbol fun mem => absent (source.mem_iff.mp mem)
  · rw [← firsts] at mem
    obtain ⟨pair, pair_mem, rfl⟩ := List.mem_map.mp mem
    exact ⟨pair.2, seconds.subset (List.mem_map_of_mem pair_mem), same pair pair_mem,
      each pair pair_mem⟩

theorem mem_rules_normalize_iff {rule : Rule} : rule ∈ g.normalize.rules ↔
    ∃ lot ∈ lots g.rules, rule ∈ lot.rules g.nthHelper := by
  rw [rules_normalize_eq_rewrite, (perm_rewrite g.rules).mem_iff, List.mem_flatMap]

theorem exists_image {rename : Symbol → Symbol} (alike : MatchesHelpers rename g other)
    (declared : g.Declared) {rule : Rule} (mem : rule ∈ g.normalize.rules) :
    ∃ image ∈ other.normalize.rules, image.shape = rule.renamedShape rename := by
  obtain ⟨lot, lot_mem, mem⟩ := mem_rules_normalize_iff.mp mem
  obtain ⟨lot', lot'_mem, shape, helpers⟩ := alike.lots lot lot_mem
  have whole : lot.rule ∈ g.rules := map_rule_lots g.rules ▸ List.mem_map_of_mem lot_mem
  have fixed : ∀ symbol ∈ lot.rule.symbols, rename symbol = symbol := fun symbol symbol_mem =>
    alike.fixed symbol (not_mem_added_of_known (declared.known _ whole symbol symbol_mem))
  have takes : Takes rename g.nthHelper other.nthHelper lot lot' := by
    refine ⟨shape, helpers, fixed _ (.head _), fun symbol symbol_mem => fixed symbol ?_⟩
    simp [Rule.symbols, symbol_mem]
  have image := List.mem_map_of_mem mem (f := Rule.renamedShape rename)
  rw [map_shape_rules takes] at image
  obtain ⟨image, image_mem, image_shape⟩ := List.mem_map.mp image
  exact ⟨image, mem_rules_normalize_iff.mpr ⟨lot', lot'_mem, image_mem⟩, image_shape⟩

theorem not_mem_added_of_mem_heads (declared : g.Declared) {head : Symbol} (mem : head ∈ g.heads) :
    head ∉ g.added := fun helper =>
  not_mem_heads_of_isHelper declared ((isHelper_normalize_iff declared).mpr helper) mem

/-- A renaming of the helpers takes the one normalized grammar to the other. -/
theorem exists_renames (declared : g.Declared) (declared' : other.Declared)
    (shapes : (g.rules.map Rule.shape).Perm (other.rules.map Rule.shape)) :
    ∃ rename, Renames rename g.normalize other.normalize ∧
      ∀ head ∈ g.heads, rename head = head := by
  obtain ⟨rename, alike⟩ := exists_matchesHelpers shapes
  have fixed : ∀ head ∈ g.heads, rename head = head := fun head mem =>
    alike.fixed head (not_mem_added_of_mem_heads declared mem)
  have heads : g.heads ⊆ other.heads := by
    have perm := shapes.map Prod.fst
    rw [List.map_map, List.map_map] at perm
    exact perm.subset
  have apart : ∀ head ∈ g.heads, ∀ helper ∈ g.added, rename head ≠ rename helper := by
    intro head mem helper helper_mem same
    rw [fixed head mem] at same
    exact not_mem_added_of_mem_heads declared' (heads mem) (same ▸ alike.added helper helper_mem)
  have split (rule : Rule) (mem : rule ∈ g.normalize.rules) :
      rule.head ∈ g.heads ∨ rule.head ∈ g.added :=
    List.mem_append.mp ((perm_heads_normalize g).subset (List.mem_map_of_mem mem))
  refine ⟨rename, ⟨fun symbol => ?_, fun rule mem => exists_image alike declared mem, ?_⟩, fixed⟩
  · by_cases helper : symbol ∈ g.added
    · have nonterm := isNonterm_of_mem_added helper
      have nonterm' := isNonterm_of_mem_added (alike.added symbol helper)
      rw [Symbol.isNonterm_eq_isNone, Option.isNone_iff_eq_none] at nonterm nonterm'
      rw [nonterm, nonterm']
    · rw [alike.fixed symbol helper]
  · intro rule mem rule' mem' same
    rcases split rule mem with plain | helper <;> rcases split rule' mem' with plain' | helper'
    · rwa [fixed _ plain, fixed _ plain'] at same
    · exact absurd same (apart _ plain _ helper')
    · exact absurd same.symm (apart _ plain' _ helper)
    · exact alike.apart _ helper _ helper' same

end Grammar

end ChartParser
