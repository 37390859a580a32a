import ChartParser.Grammar.Declaration
import ChartParser.NormalForm.Restore
import ChartParser.Proofs.NormalForm.Normalize

/-! # Normalization can be undone

Every helper of a normalized grammar heads one rule, and that rule comes after the rules in whose
bodies the helper stands. So replacing helpers comes to an end, and it ends with the rules before
normalization.
-/

namespace ChartParser

/-! ## Helpers head later rules -/

/-- Marked symbols of a body head rules further down. -/
def Layered (marked : Symbol → Bool) : List Rule → Prop
  | [] => True
  | rule :: rules =>
    (∀ symbol ∈ rule.body, marked symbol = true → symbol ∈ rules.map Rule.head) ∧
      Layered marked rules

theorem mem_heads_of_layered {marked : Symbol → Bool} {rules : List Rule} {rule : Rule}
    {symbol : Symbol} (layered : Layered marked rules) (mem : rule ∈ rules)
    (part : symbol ∈ rule.body) (mark : marked symbol = true) : symbol ∈ rules.map Rule.head := by
  induction rules with
  | nil => nomatch mem
  | cons first rules ih =>
    obtain ⟨first_layered, others⟩ := layered
    refine List.mem_cons_of_mem _ ?_
    rcases List.mem_cons.mp mem with rfl | mem
    · exact first_layered symbol part mark
    · exact ih others mem

theorem layered_of_plain {marked : Symbol → Bool} {rules : List Rule}
    (plain : ∀ rule ∈ rules, ∀ symbol ∈ rule.body, marked symbol = false) :
    Layered marked rules := by
  induction rules with
  | nil => trivial
  | cons rule rules ih =>
    obtain ⟨first, others⟩ := List.forall_mem_cons.mp plain
    refine ⟨fun symbol mem mark => ?_, ih others⟩
    simp [first symbol mem] at mark

namespace NormalForm

variable {fresh : Nat → Symbol} {marked : Symbol → Bool} {more : List Rule}

theorem head_mem_splitBody (i : Nat) (head : Symbol) (label : Option Symbol) (body : List Symbol) :
    head ∈ (splitBody fresh i head label body).map Rule.head := by
  simp [splitBody_eq]

theorem layered_splitBody {i : Nat} {head : Symbol} {label : Option Symbol} {body : List Symbol}
    (later : ∀ symbol ∈ body, marked symbol = true → symbol ∈ more.map Rule.head)
    (layered : Layered marked more) :
    Layered marked (splitBody fresh i head label body ++ more) := by
  fun_induction splitBody fresh i head label body with
  | case1 i head label first second third rest ih =>
    obtain ⟨first_later, others⟩ := List.forall_mem_cons.mp later
    rw [List.cons_append]
    refine ⟨fun symbol mem mark => ?_, ih others⟩
    rw [List.map_append, List.mem_append]
    rcases List.mem_pair.mp mem with rfl | rfl
    · exact .inr (first_later mark)
    · exact .inl (head_mem_splitBody _ _ _ _)
  | case2 => exact ⟨later, layered⟩

theorem layered_splitRules {i : Nat} {rules : List Rule}
    (later : ∀ rule ∈ rules, ∀ symbol ∈ rule.body, marked symbol = true →
      symbol ∈ more.map Rule.head)
    (layered : Layered marked more) : Layered marked (splitRules fresh i rules ++ more) := by
  induction rules generalizing i with
  | nil => exact layered
  | cons rule rules ih =>
    obtain ⟨first, others⟩ := List.forall_mem_cons.mp later
    rw [splitRules, List.append_assoc]
    refine layered_splitBody (fun symbol mem mark => ?_) (ih others)
    rw [List.map_append]
    exact List.mem_append_right _ (first symbol mem mark)

theorem mem_heads_of_mem_liftBody {i : Nat} {body : List Symbol}
    (plain : ∀ symbol ∈ body, marked symbol = false) {symbol : Symbol}
    (mem : symbol ∈ liftBody fresh i body) (mark : marked symbol = true) :
    symbol ∈ (termRules fresh i (body.filter Symbol.isTerm)).map Rule.head := by
  induction body generalizing i with
  | nil => nomatch mem
  | cons first rest ih =>
    obtain ⟨first_plain, others⟩ := List.forall_mem_cons.mp plain
    rw [liftBody] at mem
    split at mem
    · next kind =>
      rw [List.filter_cons_of_pos kind, termRules, List.map_cons]
      rcases List.mem_cons.mp mem with rfl | mem
      · exact .head _
      · exact .tail _ (ih others mem)
    · next kind =>
      rw [List.filter_cons_of_neg kind]
      rcases List.mem_cons.mp mem with rfl | mem
      · simp [first_plain] at mark
      · exact ih others mem

theorem mem_heads_of_mem_liftRules {i : Nat} {rules : List Rule}
    (plain : ∀ rule ∈ rules, ∀ symbol ∈ rule.body, marked symbol = false) :
    ∀ rule ∈ liftRules fresh i rules, ∀ symbol ∈ rule.body, marked symbol = true →
      symbol ∈ (termRules fresh i (rules.flatMap liftedTerms)).map Rule.head := by
  induction rules generalizing i with
  | nil => simp [liftRules]
  | cons rule rules ih =>
    obtain ⟨first_plain, others⟩ := List.forall_mem_cons.mp plain
    rw [liftRules, List.forall_mem_cons, List.flatMap_cons, termRules_append, List.map_append]
    constructor
    · intro symbol mem mark
      apply List.mem_append_left
      unfold liftRule at mem
      unfold liftedTerms
      split at mem
      · next long =>
        rw [if_pos long]
        exact mem_heads_of_mem_liftBody first_plain mem mark
      · simp [first_plain symbol mem] at mark
    · intro lifted lifted_mem symbol mem mark
      exact List.mem_append_right _ (ih others lifted lifted_mem symbol mem mark)

theorem layered_rewrite {rules : List Rule}
    (plain : ∀ rule ∈ rules, ∀ symbol ∈ rule.body, marked symbol = false) :
    Layered marked (rewrite fresh rules) := by
  rw [rewrite_eq]
  apply layered_splitRules (mem_heads_of_mem_liftRules plain)
  apply layered_of_plain
  intro rule mem symbol part
  obtain ⟨word, word_mem, body⟩ := exists_of_mem_termRules mem
  obtain ⟨whole, whole_mem, word_mem⟩ := List.mem_flatMap.mp word_mem
  rw [body, List.mem_singleton] at part
  subst part
  refine plain whole whole_mem symbol ?_
  unfold liftedTerms at word_mem
  split at word_mem
  · exact (List.mem_filter.mp word_mem).1
  · nomatch word_mem

/-! ## Rules for helpers have no labels -/

theorem label_of_mem_splitBody {i : Nat} {head : Symbol} {label : Option Symbol}
    {body : List Symbol} (unlabeled : label = none) :
    ∀ rule ∈ splitBody fresh i head label body, rule.label = none := by
  fun_induction splitBody fresh i head label body with
  | case1 i head label first second third rest ih =>
    exact List.forall_mem_cons.mpr ⟨unlabeled, ih rfl⟩
  | case2 => simpa using unlabeled

theorem label_of_mem_termRules (i : Nat) (symbols : List Symbol) :
    ∀ rule ∈ termRules fresh i symbols, rule.label = none := by
  induction symbols generalizing i with
  | nil => simp [termRules]
  | cons symbol rest ih => exact List.forall_mem_cons.mpr ⟨rfl, ih _⟩

theorem label_of_mem_tailRules (i : Nat) (rules : List Rule) :
    ∀ rule ∈ tailRules fresh i rules, rule.label = none := by
  induction rules generalizing i with
  | nil => simp [tailRules]
  | cons rule rules ih =>
    rw [tailRules]
    refine List.forall_mem_append.mpr ⟨?_, ih _⟩
    unfold chainTail
    split
    · exact label_of_mem_splitBody rfl
    · simp

theorem label_of_mem_helperRules (rules : List Rule) :
    ∀ rule ∈ helperRules fresh rules, rule.label = none :=
  List.forall_mem_append.mpr ⟨label_of_mem_tailRules _ _, label_of_mem_termRules _ _⟩

theorem exists_mem_helperRules {n : Nat} {rules : List Rule} (drawn : n < helperCount rules) :
    ∃ rule ∈ helperRules fresh rules, rule.head = fresh n := by
  rw [← List.mem_map, map_head_helperRules]
  apply List.mem_map_of_mem
  rw [List.mem_append, List.mem_range'_1, List.mem_range'_1]
  unfold helperCount at drawn
  omega

end NormalForm

theorem filter_head_eq_singleton {rules : List Rule} (distinct : (rules.map Rule.head).Nodup)
    {rule : Rule} (mem : rule ∈ rules) : rules.filter (·.head == rule.head) = [rule] := by
  have only : ∀ other ∈ rules, (other.head == rule.head) = (other == rule) := by
    intro other other_mem
    rw [Bool.eq_iff_iff, beq_iff_eq, beq_iff_eq]
    exact ⟨List.inj_on_of_nodup_map distinct other_mem mem, congrArg Rule.head⟩
  rw [List.filter_congr only, List.filter_beq, List.count_eq_one_of_mem (.of_map _ distinct) mem]
  rfl

namespace Grammar

open NormalForm

variable {g h : Grammar}

/-! ## Replacing helpers -/

/-- Every helper heads one rule. -/
def Singles (h : Grammar) : Prop :=
  ∀ helper, h.isHelper helper = true → ∃ rule, h.rulesFor helper = [rule]

theorem replaceHelper_head (singles : h.Singles) {rule : Rule} (mem : rule ∈ h.rules)
    (helper : h.isHelper rule.head = true) : h.replaceHelper rule.head = rule.body := by
  obtain ⟨only, single⟩ := singles rule.head helper
  have here : rule ∈ h.rulesFor rule.head := by simp [rulesFor, mem]
  rw [single, List.mem_singleton] at here
  rw [replaceHelper, if_pos helper, single, here]

theorem replaceHelper_plain {symbol : Symbol} (plain : h.isHelper symbol = false) :
    h.replaceHelper symbol = [symbol] := by
  simp [replaceHelper, plain]

theorem expands_append {body rest expanded : List Symbol} {first : List Symbol}
    (one : h.Expands body first) (later : h.Expands rest expanded) :
    h.Expands (body ++ rest) (first ++ expanded) := by
  induction one with
  | nil => exact later
  | keep plain _ ih => exact .keep plain ih
  | expand mem helper one _ _ ih =>
    rw [List.append_assoc]
    exact .expand mem helper one ih

/-- A round replaces each helper by a body that stands for the same symbols. -/
theorem expands_flatMap_replaceHelper (singles : h.Singles) {body expanded : List Symbol}
    (expands : h.Expands body expanded) : h.Expands (body.flatMap h.replaceHelper) expanded := by
  induction expands with
  | nil => exact .nil
  | keep plain _ ih =>
    rw [List.flatMap_cons, replaceHelper_plain plain]
    exact .keep plain ih
  | expand mem helper one _ _ ih =>
    rw [List.flatMap_cons, replaceHelper_head singles mem helper]
    exact expands_append one ih

theorem expands_replaceHelpers (singles : h.Singles) (rounds : Nat) {body expanded : List Symbol}
    (expands : h.Expands body expanded) : h.Expands (h.replaceHelpers rounds body) expanded := by
  induction rounds generalizing body with
  | zero => exact expands
  | succ rounds ih =>
    unfold replaceHelpers
    split
    · exact ih (expands_flatMap_replaceHelper singles expands)
    · exact expands

theorem eq_of_expands {body expanded : List Symbol} (expands : h.Expands body expanded)
    (plain : ∀ symbol ∈ body, h.isHelper symbol = false) : body = expanded := by
  induction expands with
  | nil => rfl
  | keep _ _ ih =>
    rw [ih (List.forall_mem_cons.mp plain).2]
  | expand _ helper =>
    have := (List.forall_mem_cons.mp plain).1
    simp [helper] at this

/-- A round leads from helpers that head some rules to helpers that head later ones. -/
theorem mem_heads_of_mem_replaceHelper (singles : h.Singles) {rule : Rule} {rules : List Rule}
    (sub : rule :: rules ⊆ h.rules) (layered : Layered h.isHelper (rule :: rules))
    {whole part : Symbol} (head : h.isHelper whole = true → whole ∈ (rule :: rules).map Rule.head)
    (mem : part ∈ h.replaceHelper whole) (helper : h.isHelper part = true) :
    part ∈ rules.map Rule.head := by
  cases plain : h.isHelper whole with
  | false =>
    rw [replaceHelper_plain plain, List.mem_singleton] at mem
    simp [mem, plain] at helper
  | true =>
    obtain ⟨first_layered, others⟩ := layered
    obtain ⟨owner, owner_mem, rfl⟩ := List.mem_map.mp (head plain)
    rw [replaceHelper_head singles (sub owner_mem) plain] at mem
    rcases List.mem_cons.mp owner_mem with rfl | owner_mem
    · exact first_layered part mem helper
    · exact mem_heads_of_layered others owner_mem mem helper

/-- With a round for each rule that may still be used, all helpers are replaced. -/
theorem plain_replaceHelpers (singles : h.Singles) {rules : List Rule} (sub : rules ⊆ h.rules)
    (layered : Layered h.isHelper rules) {body : List Symbol}
    (heads : ∀ symbol ∈ body, h.isHelper symbol = true → symbol ∈ rules.map Rule.head) :
    ∀ symbol ∈ h.replaceHelpers rules.length body, h.isHelper symbol = false := by
  induction rules generalizing body with
  | nil =>
    intro symbol mem
    rw [← Bool.not_eq_true]
    intro helper
    nomatch heads symbol mem helper
  | cons rule rules ih =>
    rw [List.length_cons, replaceHelpers]
    split
    · apply ih (List.subset_of_cons_subset sub) layered.2
      intro part mem helper
      obtain ⟨whole, whole_mem, mem⟩ := List.mem_flatMap.mp mem
      exact mem_heads_of_mem_replaceHelper singles sub layered (heads whole whole_mem) mem helper
    · next none => simpa using none

theorem replaceHelpers_eq (singles : h.Singles) (layered : Layered h.isHelper h.rules) {rule : Rule}
    (mem : rule ∈ h.rules) {expanded : List Symbol} (expands : h.Expands rule.body expanded) :
    h.replaceHelpers h.rules.length rule.body = expanded := by
  apply eq_of_expands (expands_replaceHelpers singles _ expands)
  apply plain_replaceHelpers singles (List.Subset.refl _) layered
  intro symbol part helper
  exact mem_heads_of_layered layered mem part helper

theorem restoredRules_eq (form : h.HelperFormOf g) (singles : h.Singles)
    (layered : Layered h.isHelper h.rules) : h.restoredRules = g.rules := by
  apply map_eq_of_forall₂ form.rules
  rintro rule cut mem ⟨head, label, expands⟩
  rw [replaceHelpers_eq singles layered (List.mem_filter.mp mem).1 expands, head, label]

/-! ## Normalized grammars -/

theorem layered_normalize (declared : g.Declared) :
    Layered g.normalize.isHelper g.normalize.rules := by
  cases long : g.isRelaxed with
  | true =>
    rw [normalize_of_isRelaxed long]
    exact layered_of_plain fun _ _ symbol _ => declared.plain symbol
  | false =>
    rw [rules_normalize long]
    exact layered_rewrite fun rule mem => body_plain declared mem

/-- A helper heads one rule, which has no label. -/
theorem exists_rulesFor_helper (declared : g.Declared) {helper : Symbol}
    (h : g.normalize.isHelper helper = true) :
    ∃ rule, g.normalize.rulesFor helper = [rule] ∧ rule.label = none := by
  cases long : g.isRelaxed with
  | true =>
    rw [normalize_of_isRelaxed long, declared.plain] at h
    nomatch h
  | false =>
    have own : g.normalize.rulesFor helper =
        (helperRules g.nthHelper g.rules).filter (·.head == helper) := by
      rw [← (filter_rules_normalize declared long).2, List.filter_filter, rulesFor]
      apply List.filter_congr
      intro rule _
      by_cases same : rule.head = helper
      · simp [same, h]
      · simp [same]
    obtain ⟨n, drawn, rfl⟩ := (isHelper_normalize declared long).mp h
    obtain ⟨rule, mem, head⟩ : ∃ rule ∈ helperRules g.nthHelper g.rules,
        rule.head = g.nthHelper n := exists_mem_helperRules drawn
    refine ⟨rule, ?_, label_of_mem_helperRules g.rules rule mem⟩
    rw [own, ← head]
    exact filter_head_eq_singleton (nodup_head_helperRules (fun _ _ => nthHelper_inj) g.rules) mem

variable {specs : List RuleSpec} {language : Option String}

/-- Replacing helpers leads from the normalized grammar back to its rules before, with their order
and their labels. -/
theorem restoredRules_normalize (built : ofSpecs specs language = .ok g) :
    g.normalize.restoredRules = g.rules ∧
      (∀ rule ∈ g.normalize.restoredRules, ∀ symbol ∈ rule.body,
        g.normalize.isHelper symbol = false) ∧
      (∀ helper, g.normalize.isHelper helper = true →
        ∃ rule, g.normalize.rulesFor helper = [rule] ∧ rule.label = none) ∧
      g.normalize.start = g.start ∧ g.normalize.language = g.language := by
  have declared := declared_of_ofSpecs built
  have singles : g.normalize.Singles := by
    intro helper h
    obtain ⟨rule, single, -⟩ := exists_rulesFor_helper declared h
    exact ⟨rule, single⟩
  have restored := restoredRules_eq (helperFormOf_normalize declared) singles
    (layered_normalize declared)
  refine ⟨restored, ?_, fun helper h => exists_rulesFor_helper declared h, start_normalize g,
    language_normalize g⟩
  rw [restored]
  exact fun rule mem => body_plain declared mem

/-- Two long bodies that share terminals, one of them with a label. -/
theorem restoredRules_normalize_calls : ∃ g,
    declare [.publicRule "$S" ["$A"], .labeledRule "$A" ["f", "(", "$A", ",", "$A", ")"] "call",
      .rule "$A" ["(", "$S", ")"], .labeledRule "$A" ["x"] "name"] = .ok g ∧
    g.normalize.restoredRules = g.rules ∧
      (∀ rule ∈ g.normalize.restoredRules, ∀ symbol ∈ rule.body,
        g.normalize.isHelper symbol = false) ∧
      (∀ helper, g.normalize.isHelper helper = true →
        ∃ rule, g.normalize.rulesFor helper = [rule] ∧ rule.label = none) ∧
      g.normalize.start = g.start ∧ g.normalize.language = g.language := by
  unfold declare
  exact Exists.imp (fun _ built => ⟨built, restoredRules_normalize built⟩) ⟨_, rfl⟩

end Grammar

end ChartParser
