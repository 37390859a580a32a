import ChartParser.Proofs.NormalForm.Matching
import ChartParser.Proofs.Parser.Sentence

/-! # The order of rules and their labels do not matter

Grammars with the same rules, but for their order and labels, have the same trees. Their normalized
grammars use other helpers, but every span has as many trees with the one as with the other.
-/

namespace ChartParser

/-- The declaration without its line and label. -/
def RuleSpec.unlabeled (spec : RuleSpec) : RuleSpec := { spec with line := 0, label := none }

namespace Grammar

/-- The start symbols are the same, and so are the rules, but for their order and labels. -/
structure Reordered (g other : Grammar) : Prop where
  start : g.start = other.start
  shapes : (g.rules.map Rule.shape).Perm (other.rules.map Rule.shape)

variable {g other : Grammar} {words : List String}

/-! ## Declarations -/

variable {specs others : List RuleSpec} {language : Option String}

theorem fits_of_unlabeled_eq {start : Symbol} {spec spec' : RuleSpec}
    (same : spec.unlabeled = spec'.unlabeled) (fits : spec.Fits start) : spec'.Fits start := by
  obtain ⟨line, isPublic, head, body, label⟩ := spec
  obtain ⟨line', isPublic', head', body', label'⟩ := spec'
  simp only [RuleSpec.unlabeled, RuleSpec.mk.injEq, true_and, and_true] at same
  obtain ⟨rfl, rfl, rfl⟩ := same
  exact ⟨fits.valid, fits.start⟩

theorem map_shape_unlabeled (specs : List RuleSpec) : (specs.map RuleSpec.rule).map Rule.shape =
    (specs.map RuleSpec.unlabeled).map fun spec => spec.rule.shape := by
  rw [List.map_map, List.map_map]
  rfl

/-- Declarations are accepted in every order and with any labels. -/
theorem exists_reordered (built : ofSpecs specs language = .ok g)
    (perm : (specs.map RuleSpec.unlabeled).Perm (others.map RuleSpec.unlabeled)) :
    ∃ other, ofSpecs others language = .ok other ∧ Reordered g other := by
  obtain ⟨rules, fits, first, first_mem, shown⟩ := readSpecs_eq_ok_iff.mp (of_ofSpecs_eq_ok built).1
  have read : readSpecs none others = .ok (some g.start, others.map RuleSpec.rule) := by
    refine readSpecs_eq_ok_iff.mpr ⟨rfl, fun spec mem => ?_, ?_⟩
    · obtain ⟨spec', mem', same⟩ :=
        List.mem_map.mp (perm.symm.subset (List.mem_map_of_mem mem))
      exact fits_of_unlabeled_eq same (fits spec' mem')
    · obtain ⟨spec, mem, same⟩ := List.mem_map.mp (perm.subset (List.mem_map_of_mem first_mem))
      exact ⟨spec, mem, (congrArg RuleSpec.isPublic same).trans shown⟩
  obtain ⟨other, built', rules', start', -⟩ := exists_ofSpecs_eq_ok read language
  refine ⟨other, built', start'.symm, ?_⟩
  rw [rules, rules', map_shape_unlabeled, map_shape_unlabeled]
  exact perm.map _

/-! ## Trees of the grammars -/

theorem reordered_symm (reordered : Reordered g other) : Reordered other g :=
  ⟨reordered.start.symm, reordered.shapes.symm⟩

theorem exists_rule_of_reordered (reordered : Reordered g other) {rule : Rule}
    (mem : rule ∈ g.rules) : ∃ rule' ∈ other.rules, rule'.head = rule.head ∧
      rule'.body = rule.body := by
  obtain ⟨rule', mem', shape⟩ :=
    List.mem_map.mp (reordered.shapes.subset (List.mem_map_of_mem mem))
  obtain ⟨head, body⟩ := Prod.mk.inj shape
  exact ⟨rule', mem', head, body⟩

theorem unitAcyclic_of_reordered (reordered : Reordered g other) (acyclic : g.UnitAcyclic) :
    other.UnitAcyclic := by
  have edge (parent child : Symbol) (h : other.UnitEdge parent child) :
      g.UnitEdge parent child := by
    obtain ⟨kind, rule, mem, rfl, body⟩ := h
    obtain ⟨rule', mem', head, body'⟩ := exists_rule_of_reordered (reordered_symm reordered) mem
    exact ⟨kind, rule', mem', head, body'.trans body⟩
  exact fun symbol cycle => acyclic symbol (Relation.TransGen.mono edge symbol symbol cycle)

theorem derivedBy_of_reordered (reordered : Reordered g other) {tree : Tree}
    (derived : tree.DerivedBy g) : tree.DerivedBy other := by
  induction derived with
  | leaf word => exact .leaf word
  | @node rule children mem roots _ ih =>
    obtain ⟨rule', mem', head, body⟩ := exists_rule_of_reordered reordered mem
    rw [← head]
    exact .node mem' (roots.trans body.symm) ih

theorem parses_iff_of_reordered (reordered : Reordered g other) {symbol : Symbol} {tree : Tree} :
    g.Parses symbol words tree ↔ other.Parses symbol words tree := by
  have one (h h' : Grammar) (reordered : Reordered h h') (parses : h.Parses symbol words tree) :
      h'.Parses symbol words tree :=
    ⟨derivedBy_of_reordered reordered parses.derived, parses.root, parses.tokens⟩
  exact ⟨one _ _ reordered, one _ _ (reordered_symm reordered)⟩

/-! ## Trees of the normalized grammars -/

theorem forest_normalize_encard_eq (declared : g.Declared) (declared' : other.Declared)
    (reordered : Reordered g other) (words : List String) (span : Span) :
    (g.normalize.forest words span).encard = (other.normalize.forest words span).encard := by
  obtain ⟨rename, renames, -⟩ := exists_renames declared declared' reordered.shapes
  obtain ⟨rename', renames', -⟩ := exists_renames declared' declared reordered.shapes.symm
  exact le_antisymm (forest_encard_le renames words span) (forest_encard_le renames' words span)

theorem parses_normalize_encard_le (declared : g.Declared) (declared' : other.Declared)
    (reordered : Reordered g other) (words : List String) :
    {tree | g.normalize.Parses g.start words tree}.encard ≤
      {tree | other.normalize.Parses other.start words tree}.encard := by
  obtain ⟨rename, renames, fixed⟩ := exists_renames declared declared' reordered.shapes
  obtain ⟨rule, mem, head⟩ := declared.start
  have start : rename g.start = other.start := by
    rw [← head, fixed _ (List.mem_map_of_mem mem), head, reordered.start]
  exact start ▸ parses_encard_le renames g.start words

theorem parses_normalize_encard_eq (declared : g.Declared) (declared' : other.Declared)
    (reordered : Reordered g other) (words : List String) :
    {tree | g.normalize.Parses g.start words tree}.encard =
      {tree | other.normalize.Parses other.start words tree}.encard :=
  le_antisymm (parses_normalize_encard_le declared declared' reordered words)
    (parses_normalize_encard_le declared' declared (reordered_symm reordered) words)

/-! ## Parsing -/

/-- Either the same span has too many trees, or there are as many trees, and they unfold to the same
trees. -/
def ParsesAlike (h other : Grammar) (limit : Option Nat) (words : List String) : Prop :=
  (∃ span most, limit = some most ∧
    (h.parseWithin limit words).result = .error (.overLimit span most) ∧
    (other.parseWithin limit words).result = .error (.overLimit span most)) ∨
  ∃ trees others, (h.parseWithin limit words).result = .ok trees ∧
    (other.parseWithin limit words).result = .ok others ∧ trees.length = others.length ∧
    ∀ tree, tree ∈ trees.map (Tree.unfoldHelpers h.isHelper) ↔
      tree ∈ others.map (Tree.unfoldHelpers other.isHelper)

theorem mem_unfold_iff (declared : g.Declared) {parser : Parser}
    (grammar : parser.grammar = g.normalize) {trees : List Tree}
    (result : parser.parse words = .ok trees) {tree : Tree} :
    tree ∈ trees.map (Tree.unfoldHelpers g.normalize.isHelper) ↔ g.Parses g.start words tree := by
  have form := helperFormOf_normalize declared
  have mem_trees := (Parser.trees_of_parse result).2
  rw [grammar, form.start] at mem_trees
  simp only [List.mem_map, mem_trees]
  exact (parses_iff_exists_unfold form form.start_plain).symm

theorem parsesAlike_normalize (declared : g.Declared) (declared' : other.Declared)
    (reordered : Reordered g other) (acyclic : g.UnitAcyclic) (limit : Option Nat)
    (words : List String) : ParsesAlike g.normalize other.normalize limit words := by
  obtain ⟨parser, grammar, limited, result⟩ := result_ask (violation?_normalize g)
    (unitAcyclic_normalize acyclic) limit (·.parse words) (·.parseEvents words)
  obtain ⟨parser', grammar', limited', result'⟩ := result_ask (violation?_normalize other)
    (unitAcyclic_normalize (unitAcyclic_of_reordered reordered acyclic)) limit (·.parse words)
    (·.parseEvents words)
  have sizes (span : Span) : (parser'.grammar.forest words span).encard =
      (parser.grammar.forest words span).encard := by
    rw [grammar, grammar', forest_normalize_encard_eq declared declared' reordered]
  rcases Parser.parse_of_encard_eq (limited'.trans limited.symm) sizes with
    ⟨span, most, limit_eq, h, h'⟩ | ⟨trees, others, h, h'⟩
  · exact .inl ⟨span, most, limited ▸ limit_eq, result.trans h, result'.trans h'⟩
  · refine .inr ⟨trees, others, result.trans h, result'.trans h', ?_, fun tree => ?_⟩
    · have size := Parser.encard_parses_of_parse h
      have size' := Parser.encard_parses_of_parse h'
      rw [grammar, start_normalize, parses_normalize_encard_eq declared declared' reordered,
        ← start_normalize other, ← grammar', size'] at size
      exact_mod_cast size.symm
    · rw [mem_unfold_iff declared grammar h, mem_unfold_iff declared' grammar' h',
        parses_iff_of_reordered reordered, reordered.start]

theorem accepts_normalize_reordered (declared : g.Declared) (declared' : other.Declared)
    (reordered : Reordered g other) (acyclic : g.UnitAcyclic) (limit : Option Nat)
    (words : List String) :
    ∃ answer, (g.normalize.acceptsWithin limit words).result = .ok answer ∧
      (other.normalize.acceptsWithin limit words).result = .ok answer := by
  have acyclic' := unitAcyclic_of_reordered reordered acyclic
  have form := helperFormOf_normalize declared
  have form' := helperFormOf_normalize declared'
  obtain ⟨answer, result, answer_iff⟩ :=
    result_acceptsWithin (violation?_normalize g) (unitAcyclic_normalize acyclic) limit words
  obtain ⟨answer', result', answer'_iff⟩ :=
    result_acceptsWithin (violation?_normalize other) (unitAcyclic_normalize acyclic') limit words
  have same : answer = answer' := by
    rw [Bool.eq_iff_iff, answer_iff, answer'_iff, form.start, form'.start,
      ← derives_iff form form.start_plain, ← derives_iff form' form'.start_plain, Derives, Derives,
      reordered.start]
    simp only [parses_iff_of_reordered reordered]
  exact ⟨answer, result, same ▸ result'⟩

/-- Rules in another order and with other labels, even labels like helpers, parse every sentence
alike. -/
theorem parse_reordered (built : ofSpecs specs language = .ok g) (acyclic : g.UnitAcyclic)
    (perm : (specs.map RuleSpec.unlabeled).Perm (others.map RuleSpec.unlabeled)) :
    ∃ other, ofSpecs others language = .ok other ∧ ∀ limit words,
      ParsesAlike g.normalize other.normalize limit words ∧
      ∃ answer, (g.normalize.acceptsWithin limit words).result = .ok answer ∧
        (other.normalize.acceptsWithin limit words).result = .ok answer := by
  obtain ⟨other, built', reordered⟩ := exists_reordered built perm
  have declared := declared_of_ofSpecs built
  have declared' := declared_of_ofSpecs built'
  exact ⟨other, built', fun limit words =>
    ⟨parsesAlike_normalize declared declared' reordered acyclic limit words,
      accepts_normalize_reordered declared declared' reordered acyclic limit words⟩⟩

/-- The rules are turned around, and a label takes the name of a helper. -/
theorem parse_reordered_turned : ∃ g, declare [.publicRule "$S" ["a", "$S", "b"],
      .labeledRule "$S" ["$A"] "unit", .rule "$A" ["c"]] = .ok g ∧ g.UnitAcyclic ∧
    ∃ other, declare [.labeledRule "$A" ["c"] "$_H0", .rule "$S" ["$A"],
      .publicRule "$S" ["a", "$S", "b"]] = .ok other ∧ ∀ limit words,
      ParsesAlike g.normalize other.normalize limit words ∧
      ∃ answer, (g.normalize.acceptsWithin limit words).result = .ok answer ∧
        (other.normalize.acceptsWithin limit words).result = .ok answer := by
  obtain ⟨g, built, rank⟩ : ∃ g, declare [.publicRule "$S" ["a", "$S", "b"],
        .labeledRule "$S" ["$A"] "unit", .rule "$A" ["c"]] = .ok g ∧
      ∀ rule ∈ g.rules, ∀ child ∈ rule.unaryNonterm?,
        (if child = .nonterm "A" then 0 else 1) < if rule.head = .nonterm "A" then 0 else 1 :=
    ⟨_, rfl, by decide⟩
  have acyclic : g.UnitAcyclic := unitAcyclic_of_rank _ rank
  refine ⟨g, built, acyclic, ?_⟩
  unfold declare at built ⊢
  exact parse_reordered built acyclic (by decide)

end Grammar

end ChartParser
