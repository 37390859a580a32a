import ChartParser.Proofs.Derivation
import Mathlib.Logic.Relation

/-! # Sentential forms

A sentential form comes from the start symbol when symbols are replaced by the bodies of rules for
them, one after another. The forms of words alone are the words that have derivation trees.
-/

namespace ChartParser.Grammar

open Relation

variable {g : Grammar} {form next : List Symbol} {words : List String}

/-- A symbol is replaced by the body of a rule for it. -/
inductive Rewrites (g : Grammar) : List Symbol → List Symbol → Prop
  | rule {rule : Rule} (before after : List Symbol) : rule ∈ g.rules →
      Rewrites g (before ++ rule.head :: after) (before ++ (rule.body ++ after))

def SententialForm (g : Grammar) (form : List Symbol) : Prop :=
  ReflTransGen g.Rewrites [g.start] form

/-! ## From forms to trees -/

theorem derivesAll_words (words : List String) : g.DerivesAll (words.map .term) words := by
  induction words with
  | nil => exact ⟨[], parsesAll_nil.mpr ⟨rfl, rfl⟩⟩
  | cons word words ih => exact derivesAll_cons.mpr ⟨[word], words, rfl, derives_term.mpr rfl, ih⟩

theorem derivesAll_of_rewrites (step : g.Rewrites form next) (h : g.DerivesAll next words) :
    g.DerivesAll form words := by
  cases step with
  | @rule rule before after mem =>
    obtain ⟨first, others, rfl, left, h⟩ := derivesAll_append.mp h
    obtain ⟨second, third, rfl, middle, right⟩ := derivesAll_append.mp h
    have head := (derives_nonterm (g.rules_valid rule mem).1).mpr ⟨rule, mem, rfl, middle⟩
    exact derivesAll_append.mpr
      ⟨first, _, rfl, left, derivesAll_cons.mpr ⟨second, third, rfl, head, right⟩⟩

theorem derivesAll_of_rewritten (steps : ReflTransGen g.Rewrites form next)
    (h : g.DerivesAll next words) : g.DerivesAll form words := by
  induction steps using ReflTransGen.head_induction_on with
  | refl => exact h
  | head step _ ih => exact derivesAll_of_rewrites step ih

/-! ## From trees to forms -/

theorem rewritten_around (before after : List Symbol) (steps : ReflTransGen g.Rewrites form next) :
    ReflTransGen g.Rewrites (before ++ (form ++ after)) (before ++ (next ++ after)) := by
  apply steps.lift (fun form => before ++ (form ++ after))
  rintro _ _ ⟨front, back, mem⟩
  simpa [Function.onFun] using Rewrites.rule (before ++ front) (back ++ after) mem

theorem rewritten_all {trees : List Tree}
    (each : ∀ tree ∈ trees, ReflTransGen g.Rewrites [tree.symbol] (tree.tokens.map .term)) :
    ReflTransGen g.Rewrites (trees.map Tree.symbol) ((trees.flatMap Tree.tokens).map .term) := by
  induction trees with
  | nil => exact .refl
  | cons tree trees ih =>
    obtain ⟨first, others⟩ := List.forall_mem_cons.mp each
    have here := rewritten_around [] (trees.map Tree.symbol) first
    have later := rewritten_around (tree.tokens.map .term) [] (ih others)
    rw [List.append_nil, List.append_nil] at later
    rw [List.flatMap_cons, List.map_append]
    exact here.trans later

theorem rewritten_of_derivedBy {tree : Tree} (derived : tree.DerivedBy g) :
    ReflTransGen g.Rewrites [tree.symbol] (tree.tokens.map .term) := by
  induction derived with
  | leaf word =>
    rw [Tree.tokens_leaf]
    exact .refl
  | @node rule children mem roots _ ih =>
    have nonempty : children ≠ [] := by
      rintro rfl
      exact (g.rules_valid rule mem).2 roots.symm
    have start := Rewrites.rule [] [] mem
    have rest := rewritten_all ih
    rw [Tree.tokens_node _ nonempty]
    rw [List.nil_append, List.append_nil, ← roots] at start
    exact .head start rest

/-- Words are a sentential form if and only if the start symbol has a derivation tree for them. -/
theorem sententialForm_words_iff :
    g.SententialForm (words.map .term) ↔ g.Derives g.start words := by
  constructor
  · intro steps
    exact derivesAll_singleton.mp (derivesAll_of_rewritten steps (derivesAll_words words))
  · rintro ⟨tree, derived, root, rfl⟩
    rw [SententialForm, ← root]
    exact rewritten_of_derivedBy derived

end ChartParser.Grammar
