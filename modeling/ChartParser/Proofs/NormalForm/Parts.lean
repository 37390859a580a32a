import ChartParser.Proofs.NormalForm.Normalize

/-! # Parts of rewritten rules

Rewriting moves symbols from rule to rule. What holds of all heads, all symbols of bodies or all
labels stays true if it holds of helpers.
-/

namespace ChartParser

/-- What holds of the head, of the symbols of the body and of the label. -/
structure Rule.Parts (P Q R : Symbol → Prop) (rule : Rule) : Prop where
  head : P rule.head
  body : ∀ symbol ∈ rule.body, Q symbol
  label : ∀ label ∈ rule.label, R label

variable {P Q R : Symbol → Prop}

namespace NormalForm

variable {fresh : Nat → Symbol} {rules : List Rule}

theorem forall_mem_liftBody (helpers : ∀ n, Q (fresh n)) {i : Nat} {body : List Symbol}
    (h : ∀ symbol ∈ body, Q symbol) : ∀ symbol ∈ liftBody fresh i body, Q symbol := by
  induction body generalizing i with
  | nil => exact h
  | cons symbol rest ih =>
    obtain ⟨first, others⟩ := List.forall_mem_cons.mp h
    rw [liftBody]
    split
    · exact List.forall_mem_cons.mpr ⟨helpers i, ih others⟩
    · exact List.forall_mem_cons.mpr ⟨first, ih others⟩

theorem parts_liftRules (helpers : ∀ n, Q (fresh n)) {i : Nat}
    (h : ∀ rule ∈ rules, rule.Parts P Q R) :
    ∀ rule ∈ liftRules fresh i rules, rule.Parts P Q R := by
  induction rules generalizing i with
  | nil => exact h
  | cons rule rules ih =>
    obtain ⟨first, others⟩ := List.forall_mem_cons.mp h
    refine List.forall_mem_cons.mpr ⟨?_, ih others⟩
    unfold liftRule
    split
    · exact ⟨first.head, forall_mem_liftBody helpers first.body, first.label⟩
    · exact first

theorem parts_termRules (helpers : ∀ n, P (fresh n)) {i : Nat} {symbols : List Symbol}
    (h : ∀ symbol ∈ symbols, Q symbol) : ∀ rule ∈ termRules fresh i symbols, rule.Parts P Q R := by
  induction symbols generalizing i with
  | nil => simp [termRules]
  | cons symbol rest ih =>
    obtain ⟨first, others⟩ := List.forall_mem_cons.mp h
    exact List.forall_mem_cons.mpr ⟨⟨helpers i, by simpa using first, by simp⟩, ih others⟩

theorem parts_splitBody (helpers : ∀ n, P (fresh n) ∧ Q (fresh n)) {i : Nat} {head : Symbol}
    {label : Option Symbol} {body : List Symbol} (whole : Rule.Parts P Q R ⟨head, body, label⟩) :
    ∀ rule ∈ splitBody fresh i head label body, rule.Parts P Q R := by
  fun_induction splitBody fresh i head label body with
  | case1 i head label first second third rest ih =>
    obtain ⟨first_body, others⟩ := List.forall_mem_cons.mp whole.body
    have head_rule : Rule.Parts P Q R ⟨head, [first, fresh i], label⟩ :=
      ⟨whole.head, by simpa using ⟨first_body, (helpers i).2⟩, whole.label⟩
    exact List.forall_mem_cons.mpr ⟨head_rule, ih ⟨(helpers i).1, others, by simp⟩⟩
  | case2 => simpa using whole

theorem parts_splitRules (helpers : ∀ n, P (fresh n) ∧ Q (fresh n)) {i : Nat}
    (h : ∀ rule ∈ rules, rule.Parts P Q R) :
    ∀ rule ∈ splitRules fresh i rules, rule.Parts P Q R := by
  induction rules generalizing i with
  | nil => simp [splitRules]
  | cons rule rules ih =>
    obtain ⟨first, others⟩ := List.forall_mem_cons.mp h
    rw [splitRules]
    exact List.forall_mem_append.mpr ⟨parts_splitBody helpers first, ih others⟩

theorem parts_rewrite (helpers : ∀ n, P (fresh n) ∧ Q (fresh n))
    (h : ∀ rule ∈ rules, rule.Parts P Q R) : ∀ rule ∈ rewrite fresh rules, rule.Parts P Q R := by
  apply parts_splitRules helpers
  refine List.forall_mem_append.mpr ⟨parts_liftRules (fun n => (helpers n).2) h, ?_⟩
  refine parts_termRules (fun n => (helpers n).1) fun symbol mem => ?_
  obtain ⟨rule, rule_mem, mem⟩ := List.mem_flatMap.mp mem
  unfold liftedTerms at mem
  split at mem
  · exact (h rule rule_mem).body symbol (List.mem_filter.mp mem).1
  · nomatch mem

/-! ## Labels -/

theorem labels_splitBody (i : Nat) (head : Symbol) (label : Option Symbol) (body : List Symbol) :
    (splitBody fresh i head label body).flatMap (·.label.toList) = label.toList := by
  fun_induction splitBody fresh i head label body with
  | case1 i head label first second third rest ih =>
    rw [List.flatMap_cons, ih]
    simp
  | case2 => simp

theorem labels_splitRules (i : Nat) (rules : List Rule) :
    (splitRules fresh i rules).flatMap (·.label.toList) = rules.flatMap (·.label.toList) := by
  induction rules generalizing i with
  | nil => rfl
  | cons rule rules ih =>
    rw [splitRules, List.flatMap_append, labels_splitBody, ih, List.flatMap_cons]

theorem labels_liftRules (i : Nat) (rules : List Rule) :
    (liftRules fresh i rules).flatMap (·.label.toList) = rules.flatMap (·.label.toList) := by
  induction rules generalizing i with
  | nil => rfl
  | cons rule rules ih =>
    rw [liftRules, List.flatMap_cons, ih, label_liftRule, List.flatMap_cons]

theorem labels_termRules (i : Nat) (symbols : List Symbol) :
    (termRules fresh i symbols).flatMap (·.label.toList) = [] := by
  induction symbols generalizing i with
  | nil => rfl
  | cons symbol rest ih =>
    rw [termRules, List.flatMap_cons, ih]
    rfl

/-- No label is lost, added or moved past another. -/
theorem labels_rewrite (rules : List Rule) :
    (rewrite fresh rules).flatMap (·.label.toList) = rules.flatMap (·.label.toList) := by
  rw [rewrite_eq, List.flatMap_append, labels_splitRules, labels_liftRules, labels_termRules,
    List.append_nil]

end NormalForm

theorem Grammar.parts_normalize {g : Grammar}
    (helpers : ∀ i, P (helperSymbol i) ∧ Q (helperSymbol i))
    (h : ∀ rule ∈ g.rules, rule.Parts P Q R) : ∀ rule ∈ g.normalize.rules, rule.Parts P Q R := by
  cases long : g.isRelaxed with
  | true => rwa [normalize_of_isRelaxed long]
  | false =>
    rw [rules_normalize long]
    exact NormalForm.parts_rewrite (fun n => helpers _) h

end ChartParser
