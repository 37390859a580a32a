import ChartParser.NormalForm.Rewrite
import ChartParser.Proofs.Rule
import Mathlib.Data.List.Nodup

/-! # What rewriting makes of rules

Each rule becomes one rule with the same head and label, and rules for helpers. The rules for
helpers follow the numbers in the supply, so each helper has one.
-/

namespace ChartParser.NormalForm

variable {fresh : Nat → Symbol}

/-! ## Chains -/

variable (fresh) in
/-- The body of the first rule in a chain. -/
def chainBody (i : Nat) : List Symbol → List Symbol
  | first :: _ :: _ :: _ => [first, fresh i]
  | body => body

variable (fresh) in
/-- The other rules in a chain, which are rules for helpers. -/
def chainTail (i : Nat) : List Symbol → List Rule
  | _ :: second :: third :: rest => splitBody fresh (i + 1) (fresh i) none (second :: third :: rest)
  | _ => []

theorem splitBody_eq (i : Nat) (head : Symbol) (label : Option Symbol) (body : List Symbol) :
    splitBody fresh i head label body =
      ⟨head, chainBody fresh i body, label⟩ :: chainTail fresh i body := by
  match body with
  | [] | [_] | [_, _] | _ :: _ :: _ :: _ => rfl

theorem map_head_chainTail (i : Nat) (body : List Symbol) :
    (chainTail fresh i body).map Rule.head = (List.range' i (body.length - 2)).map fresh := by
  induction body generalizing i with
  | nil => rfl
  | cons first rest ih =>
    match rest with
    | [] | [_] => rfl
    | second :: third :: rest =>
      have count : (first :: second :: third :: rest).length - 2 =
          ((second :: third :: rest).length - 2) + 1 := by simp
      rw [chainTail, splitBody_eq, List.map_cons, ih, count, List.range'_succ, List.map_cons]

variable (fresh) in
/-- The first rules of all chains. -/
def cutRules (i : Nat) : List Rule → List Rule
  | [] => []
  | rule :: rules =>
    { rule with body := chainBody fresh i rule.body } :: cutRules (i + (rule.body.length - 2)) rules

variable (fresh) in
/-- The other rules of all chains. -/
def tailRules (i : Nat) : List Rule → List Rule
  | [] => []
  | rule :: rules => chainTail fresh i rule.body ++ tailRules (i + (rule.body.length - 2)) rules

theorem map_head_tailRules (i : Nat) (rules : List Rule) :
    (tailRules fresh i rules).map Rule.head = (List.range' i (splitCount rules)).map fresh := by
  induction rules generalizing i with
  | nil => rfl
  | cons rule rules ih =>
    rw [tailRules, List.map_append, map_head_chainTail, ih, ← List.map_append, List.range'_append_1,
      splitCount]

theorem splitRules_append (i : Nat) (rules more : List Rule) :
    splitRules fresh i (rules ++ more) =
      splitRules fresh i rules ++ splitRules fresh (i + splitCount rules) more := by
  induction rules generalizing i with
  | nil => rfl
  | cons rule rules ih =>
    rw [List.cons_append, splitRules, splitRules, ih, List.append_assoc, splitCount,
      Nat.add_assoc]

theorem exists_of_mem_chainTail {i : Nat} {body : List Symbol} {rule : Rule}
    (mem : rule ∈ chainTail fresh i body) :
    ∃ n, i ≤ n ∧ n < i + (body.length - 2) ∧ fresh n = rule.head := by
  have head_mem := List.mem_map_of_mem mem (f := Rule.head)
  rw [map_head_chainTail] at head_mem
  obtain ⟨n, range, head⟩ := List.mem_map.mp head_mem
  rw [List.mem_range'_1] at range
  exact ⟨n, range.1, range.2, head⟩

theorem filter_of_forall_not {p : Symbol → Bool} {rules : List Rule}
    (h : ∀ rule ∈ rules, p rule.head = false) :
    rules.filter (fun rule => p rule.head) = [] ∧
      rules.filter (fun rule => !p rule.head) = rules := by
  rw [List.filter_eq_nil_iff, List.filter_eq_self]
  constructor
  · intro rule mem
    simp [h rule mem]
  · intro rule mem
    simp [h rule mem]

/-- A property of heads that no helper has tells the first rules of the chains from the others. -/
theorem filter_splitRules {p : Symbol → Bool} {rules : List Rule} {i : Nat}
    (heads : ∀ rule ∈ rules, p rule.head = true)
    (helpers : ∀ n, i ≤ n → n < i + splitCount rules → p (fresh n) = false) :
    (splitRules fresh i rules).filter (fun rule => p rule.head) = cutRules fresh i rules ∧
      (splitRules fresh i rules).filter (fun rule => !p rule.head) = tailRules fresh i rules := by
  induction rules generalizing i with
  | nil => exact ⟨rfl, rfl⟩
  | cons rule rules ih =>
    obtain ⟨first, others⟩ := List.forall_mem_cons.mp heads
    rw [splitCount] at helpers
    obtain ⟨cuts, tails⟩ := ih (i := i + (rule.body.length - 2)) others fun n lower upper =>
      helpers n (by omega) (by omega)
    have tail_heads (other : Rule) (mem : other ∈ chainTail fresh i rule.body) :
        p other.head = false := by
      obtain ⟨n, lower, upper, head⟩ := exists_of_mem_chainTail mem
      exact head ▸ helpers n lower (by omega)
    obtain ⟨none, all⟩ := filter_of_forall_not tail_heads
    rw [splitRules, splitBody_eq, cutRules, tailRules, List.filter_append, List.filter_append, cuts,
      tails]
    simp [first, none, all]

/-! ## Rules for terminals -/

theorem map_head_termRules (i : Nat) (symbols : List Symbol) :
    (termRules fresh i symbols).map Rule.head = (List.range' i symbols.length).map fresh := by
  induction symbols generalizing i with
  | nil => rfl
  | cons symbol rest ih =>
    rw [termRules, List.map_cons, ih, List.length_cons, List.range'_succ, List.map_cons]

theorem termRules_append (i : Nat) (symbols more : List Symbol) :
    termRules fresh i (symbols ++ more) =
      termRules fresh i symbols ++ termRules fresh (i + symbols.length) more := by
  induction symbols generalizing i with
  | nil => rfl
  | cons symbol rest ih =>
    rw [List.cons_append, termRules, termRules, ih, List.cons_append, List.length_cons]
    congr 3
    omega

/-- A rule for a terminal is a chain of its own. -/
theorem splitRules_termRules (i j : Nat) (symbols : List Symbol) :
    splitRules fresh j (termRules fresh i symbols) = termRules fresh i symbols := by
  induction symbols generalizing i with
  | nil => rfl
  | cons symbol rest ih =>
    rw [termRules, splitRules]
    exact congrArg _ (ih (i + 1))

theorem length_body_liftRule (i : Nat) (rule : Rule) :
    (liftRule fresh i rule).body.length = rule.body.length := by
  unfold liftRule
  split
  · exact length_liftBody fresh i rule.body
  · rfl

theorem splitCount_liftRules (i : Nat) (rules : List Rule) :
    splitCount (liftRules fresh i rules) = splitCount rules := by
  induction rules generalizing i with
  | nil => rfl
  | cons rule rules ih =>
    rw [liftRules, splitCount, splitCount, length_body_liftRule, ih]

theorem rewrite_eq (rules : List Rule) :
    rewrite fresh rules = splitRules fresh (liftCount rules) (liftRules fresh 0 rules) ++
      termRules fresh 0 (rules.flatMap liftedTerms) := by
  rw [rewrite, lift, splitRules_append, splitRules_termRules]

theorem head_liftRule (i : Nat) (rule : Rule) : (liftRule fresh i rule).head = rule.head := by
  unfold liftRule
  split <;> rfl

theorem label_liftRule (i : Nat) (rule : Rule) : (liftRule fresh i rule).label = rule.label := by
  unfold liftRule
  split <;> rfl

theorem map_head_liftRules (i : Nat) (rules : List Rule) :
    (liftRules fresh i rules).map Rule.head = rules.map Rule.head := by
  induction rules generalizing i with
  | nil => rfl
  | cons rule rules ih =>
    rw [liftRules, List.map_cons, List.map_cons, ih, head_liftRule]

/-! ## Rules with their own heads and rules for helpers -/

variable (fresh) in
/-- The rules that keep the heads and labels of the given ones. -/
def wholeRules (rules : List Rule) : List Rule :=
  cutRules fresh (liftCount rules) (liftRules fresh 0 rules)

variable (fresh) in
/-- The rules for helpers. -/
def helperRules (rules : List Rule) : List Rule :=
  tailRules fresh (liftCount rules) (liftRules fresh 0 rules) ++
    termRules fresh 0 (rules.flatMap liftedTerms)

theorem map_head_helperRules (rules : List Rule) :
    (helperRules fresh rules).map Rule.head =
      (List.range' (liftCount rules) (splitCount rules) ++ List.range' 0 (liftCount rules)).map
        fresh := by
  rw [helperRules, List.map_append, map_head_tailRules, map_head_termRules, splitCount_liftRules,
    ← List.map_append, liftCount]

theorem nodup_head_helperRules (inj : ∀ m n, fresh m = fresh n → m = n) (rules : List Rule) :
    ((helperRules fresh rules).map Rule.head).Nodup := by
  rw [map_head_helperRules]
  apply List.Nodup.map inj
  refine List.Nodup.append List.nodup_range' List.nodup_range' ?_
  intro n tail term
  rw [List.mem_range'_1] at tail term
  omega

/-- A property of heads that no helper has tells the rules with their own heads from the others. -/
theorem filter_rewrite {p : Symbol → Bool} {rules : List Rule}
    (heads : ∀ rule ∈ rules, p rule.head = true)
    (helpers : ∀ n < helperCount rules, p (fresh n) = false) :
    (rewrite fresh rules).filter (fun rule => p rule.head) = wholeRules fresh rules ∧
      (rewrite fresh rules).filter (fun rule => !p rule.head) = helperRules fresh rules := by
  have lifted (rule : Rule) (mem : rule ∈ liftRules fresh 0 rules) : p rule.head = true := by
    have head_mem := List.mem_map_of_mem mem (f := Rule.head)
    rw [map_head_liftRules] at head_mem
    obtain ⟨whole, whole_mem, head⟩ := List.mem_map.mp head_mem
    exact head ▸ heads whole whole_mem
  have chains (n : Nat) (_ : liftCount rules ≤ n)
      (upper : n < liftCount rules + splitCount (liftRules fresh 0 rules)) :
      p (fresh n) = false := by
    rw [splitCount_liftRules] at upper
    exact helpers n upper
  have terms (rule : Rule) (mem : rule ∈ termRules fresh 0 (rules.flatMap liftedTerms)) :
      p rule.head = false := by
    have head_mem := List.mem_map_of_mem mem (f := Rule.head)
    rw [map_head_termRules] at head_mem
    obtain ⟨n, range, head⟩ := List.mem_map.mp head_mem
    rw [List.mem_range'_1] at range
    exact head ▸ helpers n (by simp only [helperCount, liftCount]; omega)
  obtain ⟨none, all⟩ := filter_of_forall_not terms
  obtain ⟨cuts, tails⟩ := filter_splitRules lifted chains
  rw [rewrite_eq, List.filter_append, List.filter_append, cuts, tails, none, all]
  exact ⟨List.append_nil _, rfl⟩

/-! ## The normal form is reached -/

theorem isTerm_of_mem_liftedTerms {rules : List Rule} {symbol : Symbol}
    (mem : symbol ∈ rules.flatMap liftedTerms) : symbol.isTerm = true := by
  obtain ⟨rule, -, mem⟩ := List.mem_flatMap.mp mem
  unfold liftedTerms at mem
  split at mem
  · exact (List.mem_filter.mp mem).2
  · nomatch mem

theorem isNonterm_of_mem_liftBody (nonterm : ∀ n, (fresh n).isNonterm = true) {i : Nat}
    {body : List Symbol} {symbol : Symbol} (mem : symbol ∈ liftBody fresh i body) :
    symbol.isNonterm = true := by
  induction body generalizing i with
  | nil => nomatch mem
  | cons first rest ih =>
    rw [liftBody] at mem
    split at mem
    · rcases List.mem_cons.mp mem with rfl | mem
      · exact nonterm i
      · exact ih mem
    · next kind =>
      rcases List.mem_cons.mp mem with rfl | mem
      · cases symbol with
        | term name => exact absurd rfl kind
        | nonterm name => rfl
      · exact ih mem

theorem isRelaxed_of_mem_splitBody (nonterm : ∀ n, (fresh n).isNonterm = true) {i : Nat}
    {head : Symbol} {label : Option Symbol} {body : List Symbol} (nonempty : body ≠ [])
    (lifted : 1 < body.length → ∀ symbol ∈ body, symbol.isNonterm = true) {rule : Rule}
    (mem : rule ∈ splitBody fresh i head label body) : rule.isRelaxed = true := by
  fun_induction splitBody fresh i head label body with
  | case1 i head label first second third rest ih =>
    obtain ⟨first_kind, others⟩ := List.forall_mem_cons.mp (lifted (by simp))
    rcases List.mem_cons.mp mem with rfl | mem
    · exact Rule.isRelaxed_iff.mpr (.inr ⟨first, fresh i, rfl, first_kind, nonterm i⟩)
    · exact ih (by simp) (fun _ => others) mem
  | case2 i head label body short =>
    cases List.mem_singleton.mp mem
    rcases body with _ | ⟨left, _ | ⟨right, _ | ⟨third, rest⟩⟩⟩
    · exact absurd rfl nonempty
    · exact Rule.isRelaxed_iff.mpr (.inl ⟨left, rfl⟩)
    · have kinds := lifted (by simp)
      exact Rule.isRelaxed_iff.mpr
        (.inr ⟨left, right, rfl, kinds left (by simp), kinds right (by simp)⟩)
    · exact absurd rfl (short left right third rest)

theorem exists_of_mem_splitRules {i : Nat} {rules : List Rule} {rule : Rule}
    (mem : rule ∈ splitRules fresh i rules) :
    ∃ j, ∃ whole ∈ rules, rule ∈ splitBody fresh j whole.head whole.label whole.body := by
  induction rules generalizing i with
  | nil => nomatch mem
  | cons first rules ih =>
    rw [splitRules] at mem
    rcases List.mem_append.mp mem with mem | mem
    · exact ⟨i, first, .head _, mem⟩
    · obtain ⟨j, whole, whole_mem, mem⟩ := ih mem
      exact ⟨j, whole, .tail _ whole_mem, mem⟩

theorem exists_of_mem_liftRules {i : Nat} {rules : List Rule} {rule : Rule}
    (mem : rule ∈ liftRules fresh i rules) :
    ∃ j, ∃ whole ∈ rules, rule = liftRule fresh j whole := by
  induction rules generalizing i with
  | nil => nomatch mem
  | cons first rules ih =>
    rw [liftRules] at mem
    rcases List.mem_cons.mp mem with rfl | mem
    · exact ⟨i, first, .head _, rfl⟩
    · obtain ⟨j, whole, whole_mem, lifted⟩ := ih mem
      exact ⟨j, whole, .tail _ whole_mem, lifted⟩

theorem exists_of_mem_termRules {i : Nat} {symbols : List Symbol} {rule : Rule}
    (mem : rule ∈ termRules fresh i symbols) : ∃ symbol ∈ symbols, rule.body = [symbol] := by
  induction symbols generalizing i with
  | nil => nomatch mem
  | cons first rest ih =>
    rw [termRules] at mem
    rcases List.mem_cons.mp mem with rfl | mem
    · exact ⟨first, .head _, rfl⟩
    · obtain ⟨symbol, symbol_mem, body⟩ := ih mem
      exact ⟨symbol, .tail _ symbol_mem, body⟩

theorem isRelaxed_of_mem_rewrite (nonterm : ∀ n, (fresh n).isNonterm = true) {rules : List Rule}
    (valid : ∀ rule ∈ rules, rule.Valid) {rule : Rule} (mem : rule ∈ rewrite fresh rules) :
    rule.isRelaxed = true := by
  rw [rewrite_eq] at mem
  rcases List.mem_append.mp mem with mem | mem
  · obtain ⟨_, lifted, lifted_mem, mem⟩ := exists_of_mem_splitRules mem
    have nonempty := (liftRules_valid fresh 0 valid lifted lifted_mem).2
    refine isRelaxed_of_mem_splitBody nonterm nonempty (fun long symbol symbol_mem => ?_) mem
    obtain ⟨j, whole, -, rfl⟩ := exists_of_mem_liftRules lifted_mem
    rw [length_body_liftRule] at long
    rw [liftRule, if_pos long] at symbol_mem
    exact isNonterm_of_mem_liftBody nonterm symbol_mem
  · obtain ⟨symbol, -, body⟩ := exists_of_mem_termRules mem
    exact Rule.isRelaxed_iff.mpr (.inl ⟨symbol, body⟩)

/-! ## Rules in the normal form stay -/

theorem liftedTerms_of_isRelaxed {rule : Rule} (relaxed : rule.isRelaxed = true) :
    liftedTerms rule = [] := by
  unfold liftedTerms
  rcases Rule.isRelaxed_iff.mp relaxed with ⟨symbol, body⟩ | ⟨left, right, body, left_kind, kind⟩
  · simp [body]
  · cases left <;> cases right <;> simp_all [Symbol.isNonterm, Symbol.isTerm]

theorem liftBody_of_filter_eq_nil {i : Nat} {body : List Symbol}
    (none : body.filter Symbol.isTerm = []) : liftBody fresh i body = body := by
  induction body generalizing i with
  | nil => rfl
  | cons symbol rest ih =>
    obtain ⟨plain, others⟩ := List.forall_mem_cons.mp (List.filter_eq_nil_iff.mp none)
    rw [liftBody, if_neg plain, ih (List.filter_eq_nil_iff.mpr others)]

theorem liftRule_of_isRelaxed {rule : Rule} (relaxed : rule.isRelaxed = true) (i : Nat) :
    liftRule fresh i rule = rule := by
  have none := liftedTerms_of_isRelaxed relaxed
  unfold liftedTerms at none
  unfold liftRule
  split
  · next long =>
    rw [if_pos long] at none
    rw [liftBody_of_filter_eq_nil none]
  · rfl

theorem chain_of_isRelaxed {rule : Rule} (relaxed : rule.isRelaxed = true) (i : Nat) :
    chainBody fresh i rule.body = rule.body ∧ chainTail fresh i rule.body = [] := by
  rcases Rule.isRelaxed_iff.mp relaxed with ⟨symbol, body⟩ | ⟨left, right, body, -⟩
  · rw [body]
    exact ⟨rfl, rfl⟩
  · rw [body]
    exact ⟨rfl, rfl⟩

theorem liftRules_of_isRelaxed {rules : List Rule}
    (relaxed : ∀ rule ∈ rules, rule.isRelaxed = true) (i : Nat) :
    liftRules fresh i rules = rules := by
  induction rules generalizing i with
  | nil => rfl
  | cons rule rules ih =>
    obtain ⟨first, others⟩ := List.forall_mem_cons.mp relaxed
    rw [liftRules, liftRule_of_isRelaxed first, ih others]

theorem splitRules_of_isRelaxed {rules : List Rule}
    (relaxed : ∀ rule ∈ rules, rule.isRelaxed = true) (i : Nat) :
    splitRules fresh i rules = rules := by
  induction rules generalizing i with
  | nil => rfl
  | cons rule rules ih =>
    obtain ⟨first, others⟩ := List.forall_mem_cons.mp relaxed
    obtain ⟨body, tail⟩ : chainBody fresh i rule.body = rule.body ∧
        chainTail fresh i rule.body = [] := chain_of_isRelaxed first i
    rw [splitRules, splitBody_eq, body, tail, ih others, List.singleton_append]

theorem rewrite_of_isRelaxed {rules : List Rule} (relaxed : ∀ rule ∈ rules, rule.isRelaxed = true) :
    rewrite fresh rules = rules := by
  have none : rules.flatMap liftedTerms = [] :=
    List.flatMap_eq_nil_iff.mpr fun rule mem => liftedTerms_of_isRelaxed (relaxed rule mem)
  rw [rewrite_eq, liftRules_of_isRelaxed relaxed, splitRules_of_isRelaxed relaxed, none, termRules,
    List.append_nil]

/-! ## Unit rules stay -/

theorem unaryNonterm?_of_long {rule : Rule} (long : 1 < rule.body.length) :
    rule.unaryNonterm? = none := by
  rw [Option.eq_none_iff_forall_ne_some]
  intro child unit
  simp [(Rule.unaryNonterm?_eq_some.mp unit).2] at long

theorem filter_unit_splitBody (i : Nat) (head : Symbol) (label : Option Symbol)
    (body : List Symbol) :
    (splitBody fresh i head label body).filter (·.unaryNonterm?.isSome) =
      [⟨head, body, label⟩].filter (·.unaryNonterm?.isSome) := by
  fun_induction splitBody fresh i head label body with
  | case1 i head label first second third rest ih =>
    rw [List.filter_cons_of_neg (by simp [Rule.unaryNonterm?]), ih]
    simp [Rule.unaryNonterm?]
  | case2 => rfl

theorem filter_unit_splitRules (i : Nat) (rules : List Rule) :
    (splitRules fresh i rules).filter (·.unaryNonterm?.isSome) =
      rules.filter (·.unaryNonterm?.isSome) := by
  induction rules generalizing i with
  | nil => rfl
  | cons rule rules ih =>
    rw [splitRules, List.filter_append, filter_unit_splitBody, ih, ← List.filter_append]
    rfl

theorem filter_unit_liftRules (i : Nat) (rules : List Rule) :
    (liftRules fresh i rules).filter (·.unaryNonterm?.isSome) =
      rules.filter (·.unaryNonterm?.isSome) := by
  induction rules generalizing i with
  | nil => rfl
  | cons rule rules ih =>
    rw [liftRules]
    by_cases long : 1 < rule.body.length
    · have lifted : (liftRule fresh i rule).unaryNonterm? = none :=
        unaryNonterm?_of_long (by rwa [length_body_liftRule])
      rw [List.filter_cons_of_neg (by simp [lifted]), ih,
        List.filter_cons_of_neg (by simp [unaryNonterm?_of_long long])]
    · rw [liftRule, if_neg long, List.filter_cons, ih, List.filter_cons]

/-- The unit rules are the same as before, in the same order. -/
theorem filter_unit_rewrite (rules : List Rule) :
    (rewrite fresh rules).filter (·.unaryNonterm?.isSome) =
      rules.filter (·.unaryNonterm?.isSome) := by
  have none : (termRules fresh 0 (rules.flatMap liftedTerms)).filter
      (·.unaryNonterm?.isSome) = [] := by
    rw [List.filter_eq_nil_iff]
    intro rule mem
    obtain ⟨symbol, symbol_mem, body⟩ := exists_of_mem_termRules mem
    have kind := isTerm_of_mem_liftedTerms symbol_mem
    cases symbol with
    | term name => simp [Rule.unaryNonterm?, body, Symbol.isNonterm]
    | nonterm name => nomatch kind
  rw [rewrite_eq, List.filter_append, filter_unit_splitRules, filter_unit_liftRules, none,
    List.append_nil]

end ChartParser.NormalForm
