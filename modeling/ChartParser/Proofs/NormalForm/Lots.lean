import ChartParser.Proofs.NormalForm.Rewrite
import Mathlib.Data.List.Perm.Basic

/-! # Lots of helpers

Rewriting goes rule by rule: it draws numbers for the terminals of a body and numbers for its chain,
and what becomes of a rule depends on nothing else. So the rewritten rules have the heads and the
bodies of the given ones, and every helper once among the heads and once among the bodies.
-/

namespace ChartParser.NormalForm

/-- A rule with its helpers: those from number `terms` on are for the terminals that move out of it,
and those from number `chain` on are for its chain. -/
structure Lot where
  rule : Rule
  terms : Nat
  chain : Nat

namespace Lot

/-- The numbers of the helpers. -/
def numbers (lot : Lot) : List Nat :=
  List.range' lot.terms (liftedTerms lot.rule).length ++
    List.range' lot.chain (lot.rule.body.length - 2)

/-- What becomes of the rule. -/
def rules (fresh : Nat → Symbol) (lot : Lot) : List Rule :=
  splitBody fresh lot.chain lot.rule.head lot.rule.label (liftRule fresh lot.terms lot.rule).body ++
    termRules fresh lot.terms (liftedTerms lot.rule)

end Lot

/-- The rules with their helpers, where those for terminals start with number `i` and those for
chains with number `j`. -/
def lotsFrom (i j : Nat) : List Rule → List Lot
  | [] => []
  | rule :: rules =>
    ⟨rule, i, j⟩ :: lotsFrom (i + (liftedTerms rule).length) (j + (rule.body.length - 2)) rules

/-- The rules with the helpers that rewriting draws for them. -/
def lots (rules : List Rule) : List Lot := lotsFrom 0 (liftCount rules) rules

variable {fresh : Nat → Symbol} {rules : List Rule}

/-! ## All lots -/

theorem map_rule_lotsFrom (i j : Nat) (rules : List Rule) :
    (lotsFrom i j rules).map Lot.rule = rules := by
  induction rules generalizing i j with
  | nil => rfl
  | cons rule rules ih => rw [lotsFrom, List.map_cons, ih]

theorem map_rule_lots (rules : List Rule) : (lots rules).map Lot.rule = rules :=
  map_rule_lotsFrom _ _ rules

theorem perm_numbers_lotsFrom (i j : Nat) (rules : List Rule) :
    ((lotsFrom i j rules).flatMap Lot.numbers).Perm
      (List.range' i (liftCount rules) ++ List.range' j (splitCount rules)) := by
  induction rules generalizing i j with
  | nil => exact .refl _
  | cons rule rules ih =>
    have terms : List.range' i (liftCount (rule :: rules)) =
        List.range' i (liftedTerms rule).length ++
          List.range' (i + (liftedTerms rule).length) (liftCount rules) := by
      rw [List.range'_append_1, liftCount, liftCount, List.flatMap_cons, List.length_append]
    rw [lotsFrom, List.flatMap_cons, Lot.numbers, terms, splitCount, ← List.range'_append_1,
      List.append_assoc, List.append_assoc]
    refine .append_left _ ((List.Perm.append_left _ (ih _ _)).trans ?_)
    exact List.perm_append_comm_assoc _ _ _

/-- No number is drawn twice, and none is left out. -/
theorem perm_numbers_lots (rules : List Rule) :
    ((lots rules).flatMap Lot.numbers).Perm (List.range (helperCount rules)) := by
  have all : List.range (helperCount rules) =
      List.range' 0 (liftCount rules) ++ List.range' (liftCount rules) (splitCount rules) := by
    rw [List.range_eq_range', helperCount, ← List.range'_append_1, Nat.zero_add]
  rw [all]
  exact perm_numbers_lotsFrom _ _ rules

theorem perm_rules_lotsFrom (i j : Nat) (rules : List Rule) :
    (splitRules fresh j (liftRules fresh i rules) ++
      termRules fresh i (rules.flatMap liftedTerms)).Perm
      ((lotsFrom i j rules).flatMap (Lot.rules fresh)) := by
  induction rules generalizing i j with
  | nil => exact .refl _
  | cons rule rules ih =>
    rw [liftRules, splitRules, length_body_liftRule, head_liftRule, label_liftRule,
      List.flatMap_cons, termRules_append, lotsFrom, List.flatMap_cons, Lot.rules,
      List.append_assoc, List.append_assoc]
    refine .append_left _ ((List.perm_append_comm_assoc _ _ _).trans ?_)
    exact .append_left _ (ih _ _)

theorem perm_rewrite (rules : List Rule) :
    (rewrite fresh rules).Perm ((lots rules).flatMap (Lot.rules fresh)) := by
  rw [rewrite_eq]
  exact perm_rules_lotsFrom _ _ rules

/-- The helpers of all lots are those that rewriting draws. -/
theorem perm_helpers_lots (fresh : Nat → Symbol) (rules : List Rule) :
    ((lots rules).flatMap fun lot => lot.numbers.map fresh).Perm
      ((List.range (helperCount rules)).map fresh) := by
  rw [← List.map_flatMap]
  exact (perm_numbers_lots rules).map fresh

/-- What each lot has of the symbols of its rule and of its helpers, all rules have. -/
theorem perm_flatMap_rewrite {parts : Rule → List Symbol}
    (each : ∀ lot : Lot, ((lot.rules fresh).flatMap parts).Perm
      (parts lot.rule ++ lot.numbers.map fresh)) (rules : List Rule) :
    ((rewrite fresh rules).flatMap parts).Perm
      (rules.flatMap parts ++ (List.range (helperCount rules)).map fresh) := by
  have whole : (lots rules).flatMap (fun lot => parts lot.rule) = rules.flatMap parts := by
    rw [← List.flatMap_map, map_rule_lots]
  calc List.Perm ((rewrite fresh rules).flatMap parts)
        (((lots rules).flatMap (Lot.rules fresh)).flatMap parts) :=
        (perm_rewrite rules).flatMap_right parts
    _ = (lots rules).flatMap fun lot => (lot.rules fresh).flatMap parts := List.flatMap_assoc
    List.Perm _ ((lots rules).flatMap fun lot => parts lot.rule ++ lot.numbers.map fresh) :=
        List.Perm.flatMap_left _ fun lot _ => each lot
    List.Perm _ (((lots rules).flatMap fun lot => parts lot.rule) ++
        (lots rules).flatMap fun lot => lot.numbers.map fresh) :=
        (List.flatMap_append_perm _ _ _).symm
    List.Perm _ (rules.flatMap parts ++ (List.range (helperCount rules)).map fresh) :=
        whole ▸ List.Perm.append_left _ (perm_helpers_lots fresh rules)

/-! ## Heads -/

theorem perm_heads_lot (lot : Lot) : ((lot.rules fresh).flatMap fun rule => [rule.head]).Perm
    ([lot.rule.head] ++ lot.numbers.map fresh) := by
  have heads : (lot.rules fresh).flatMap (fun rule => [rule.head]) = lot.rule.head ::
      ((List.range' lot.chain (lot.rule.body.length - 2)).map fresh ++
        (List.range' lot.terms (liftedTerms lot.rule).length).map fresh) := by
    rw [← List.map_eq_flatMap, Lot.rules, List.map_append, splitBody_eq, List.map_cons,
      map_head_chainTail, map_head_termRules, length_body_liftRule, List.cons_append]
  rw [heads, Lot.numbers, List.map_append]
  exact .cons _ List.perm_append_comm

/-- The heads are those of the given rules and each helper once. -/
theorem perm_heads_rewrite (rules : List Rule) : ((rewrite fresh rules).map Rule.head).Perm
    (rules.map Rule.head ++ (List.range (helperCount rules)).map fresh) := by
  rw [List.map_eq_flatMap (l := rewrite fresh rules), List.map_eq_flatMap (l := rules)]
  exact perm_flatMap_rewrite perm_heads_lot rules

/-! ## Bodies -/

theorem perm_bodies_splitBody (i : Nat) (head : Symbol) (label : Option Symbol)
    (body : List Symbol) : ((splitBody fresh i head label body).flatMap Rule.body).Perm
      (body ++ (List.range' i (body.length - 2)).map fresh) := by
  fun_induction splitBody fresh i head label body with
  | case1 i head label first second third rest ih =>
    have count : (first :: second :: third :: rest).length - 2 =
        ((second :: third :: rest).length - 2) + 1 := by simp
    rw [List.flatMap_cons, count, List.range'_succ, List.map_cons, List.cons_append,
      List.cons_append, List.cons_append, List.nil_append]
    exact .cons _ ((ih.cons _).trans List.perm_middle.symm)
  | case2 i head label body short =>
    have none : body.length - 2 = 0 := by
      rcases body with _ | ⟨first, _ | ⟨second, _ | ⟨third, rest⟩⟩⟩
      · rfl
      · rfl
      · rfl
      · exact absurd rfl (short first second third rest)
    rw [none, List.flatMap_singleton]
    simp

theorem perm_liftBody (i : Nat) (body : List Symbol) :
    (liftBody fresh i body ++ body.filter Symbol.isTerm).Perm
      (body ++ (List.range' i (body.filter Symbol.isTerm).length).map fresh) := by
  induction body generalizing i with
  | nil => exact .refl _
  | cons symbol rest ih =>
    rw [liftBody]
    split
    · next kind =>
      rw [List.filter_cons_of_pos kind, List.length_cons, List.range'_succ, List.map_cons,
        List.cons_append, List.cons_append]
      -- The terminal and its helper change places.
      calc List.Perm
            (fresh i :: (liftBody fresh (i + 1) rest ++ symbol :: rest.filter Symbol.isTerm))
            (fresh i :: symbol :: (liftBody fresh (i + 1) rest ++ rest.filter Symbol.isTerm)) :=
            .cons _ List.perm_middle
        List.Perm _ (symbol :: fresh i :: (rest ++
            (List.range' (i + 1) (rest.filter Symbol.isTerm).length).map fresh)) :=
            (List.Perm.swap _ _ _).trans (.cons _ (.cons _ (ih (i + 1))))
        List.Perm _ (symbol :: (rest ++ fresh i ::
            (List.range' (i + 1) (rest.filter Symbol.isTerm).length).map fresh)) :=
            .cons _ List.perm_middle.symm
    · next kind =>
      rw [List.filter_cons_of_neg kind, List.cons_append, List.cons_append]
      exact .cons _ (ih i)

theorem perm_body_liftRule (i : Nat) (rule : Rule) :
    ((liftRule fresh i rule).body ++ liftedTerms rule).Perm
      (rule.body ++ (List.range' i (liftedTerms rule).length).map fresh) := by
  unfold liftRule liftedTerms
  split
  · exact perm_liftBody i rule.body
  · exact .refl _

theorem flatMap_body_termRules (i : Nat) (symbols : List Symbol) :
    (termRules fresh i symbols).flatMap Rule.body = symbols := by
  induction symbols generalizing i with
  | nil => rfl
  | cons symbol rest ih => rw [termRules, List.flatMap_cons, ih, List.singleton_append]

theorem perm_bodies_lot (lot : Lot) : ((lot.rules fresh).flatMap Rule.body).Perm
    (lot.rule.body ++ lot.numbers.map fresh) := by
  rw [Lot.rules, List.flatMap_append, flatMap_body_termRules, Lot.numbers, List.map_append,
    ← List.append_assoc]
  have chain : ((splitBody fresh lot.chain lot.rule.head lot.rule.label
      (liftRule fresh lot.terms lot.rule).body).flatMap Rule.body).Perm
      ((liftRule fresh lot.terms lot.rule).body ++
        (List.range' lot.chain (lot.rule.body.length - 2)).map fresh) := by
    rw [← length_body_liftRule lot.terms lot.rule]
    exact perm_bodies_splitBody _ _ _ _
  calc List.Perm ((splitBody fresh lot.chain lot.rule.head lot.rule.label
          (liftRule fresh lot.terms lot.rule).body).flatMap Rule.body ++ liftedTerms lot.rule)
        ((liftRule fresh lot.terms lot.rule).body ++
          (List.range' lot.chain (lot.rule.body.length - 2)).map fresh ++ liftedTerms lot.rule) :=
        chain.append_right _
    List.Perm _ ((liftRule fresh lot.terms lot.rule).body ++ liftedTerms lot.rule ++
        (List.range' lot.chain (lot.rule.body.length - 2)).map fresh) := by
      rw [List.append_assoc, List.append_assoc]
      exact .append_left _ List.perm_append_comm
    List.Perm _ _ := (perm_body_liftRule lot.terms lot.rule).append_right _

/-- The bodies have the symbols of the given ones and each helper once. -/
theorem perm_bodies_rewrite (rules : List Rule) : ((rewrite fresh rules).flatMap Rule.body).Perm
    (rules.flatMap Rule.body ++ (List.range (helperCount rules)).map fresh) :=
  perm_flatMap_rewrite perm_bodies_lot rules

end ChartParser.NormalForm
