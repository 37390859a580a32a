import ChartParser.Grammar.Samples
import ChartParser.Proofs.NormalForm.Normalize
import ChartParser.Proofs.Parser.Limit
import ChartParser.Proofs.Parser.Sentence

/-! # Unfolding keeps trees apart

A helper stands for a fixed part of one body, so the children that are left after unfolding tell
where the part of each helper begins and ends. Two trees with helpers unfold to the same tree only
if two rules cut the same body up.
-/

namespace ChartParser.Grammar

variable {g h : Grammar} {words : List String}

/-! ## Trees with the same parts -/

/-- A helper has one rule, so a body stands for one list of symbols. -/
theorem expands_unique (form : h.HelperFormOf g) {body first second : List Symbol}
    (one : h.Expands body first) (other : h.Expands body second) : first = second := by
  induction one generalizing second with
  | nil =>
    cases other
    rfl
  | @keep symbol rest expanded plain _ ih =>
    obtain ⟨part, others, rfl, symbol_part, later⟩ := expands_cons.mp other
    rw [eq_of_expands_plain plain symbol_part, ih later, List.singleton_append]
  | @expand rule rest part expanded mem helper _ _ ih ih' =>
    obtain ⟨other_part, others, rfl, head_part, later⟩ := expands_cons.mp other
    obtain ⟨owner, owner_mem, head, body⟩ := expands_helper helper head_part
    cases form.single rule mem owner owner_mem helper head
    rw [ih body, ih' later]

/-- What stands for a derivation tree has the symbols that its root stands for. -/
theorem symbols_splice (form : h.HelperFormOf g) {tree : Tree} (derived : tree.DerivedBy h)
    {expanded : List Symbol} (expands : h.Expands [tree.symbol] expanded) :
    (tree.splice h.isHelper).map Tree.symbol = expanded :=
  (parsesAll_splice form derived expands).roots

theorem symbols_spliceAll (form : h.HelperFormOf g) {trees : List Tree}
    (derived : ∀ tree ∈ trees, tree.DerivedBy h) {expanded : List Symbol}
    (expands : h.Expands (trees.map Tree.symbol) expanded) :
    (Tree.spliceAll h.isHelper trees).map Tree.symbol = expanded :=
  (parsesAll_spliceAll (fun tree mem _ => parsesAll_splice form (derived tree mem)) expands).roots

/-- The tree is determined by its root and by what stands for it. -/
def Determined (h : Grammar) (tree : Tree) : Prop :=
  ∀ other : Tree, other.DerivedBy h → tree.symbol = other.symbol →
    ∀ expanded, h.Expands [tree.symbol] expanded →
      tree.splice h.isHelper = other.splice h.isHelper → tree = other

/-- Symbols stand for as many symbols in the one list as in the other, so what stands for the trees
is cut up at the same places. -/
theorem eq_of_spliceAll_eq (form : h.HelperFormOf g) {trees others : List Tree}
    (determined : ∀ tree ∈ trees, h.Determined tree)
    (derived : ∀ tree ∈ trees, tree.DerivedBy h) (derived' : ∀ other ∈ others, other.DerivedBy h)
    (roots : trees.map Tree.symbol = others.map Tree.symbol) {expanded : List Symbol}
    (expands : h.Expands (trees.map Tree.symbol) expanded)
    (same : Tree.spliceAll h.isHelper trees = Tree.spliceAll h.isHelper others) :
    trees = others := by
  induction trees generalizing others expanded with
  | nil => exact (List.map_eq_nil_iff.mp roots.symm).symm
  | cons tree trees ih =>
    obtain ⟨other, others, rfl, root, roots⟩ := List.map_eq_cons_iff.mp roots.symm
    obtain ⟨part, rest, rfl, one, later⟩ := expands_cons.mp expands
    obtain ⟨tree_determined, determined⟩ := List.forall_mem_cons.mp determined
    obtain ⟨tree_derived, derived⟩ := List.forall_mem_cons.mp derived
    obtain ⟨other_derived, derived'⟩ := List.forall_mem_cons.mp derived'
    have lengths : (tree.splice h.isHelper).length = (other.splice h.isHelper).length := by
      rw [← List.length_map Tree.symbol, symbols_splice form tree_derived one,
        ← List.length_map Tree.symbol, symbols_splice form other_derived (root.symm ▸ one)]
    rw [Tree.spliceAll, Tree.spliceAll] at same
    obtain ⟨first, more⟩ := List.append_inj same lengths
    rw [tree_determined other other_derived root.symm part one first,
      ih determined derived derived' roots.symm later more]

/-- Rules with the same head that stand for the same body have the same body. -/
def CutsOnce (h : Grammar) : Prop :=
  ∀ rule ∈ h.rules, ∀ other ∈ h.rules, h.isHelper rule.head = false → other.head = rule.head →
    ∀ expanded, h.Expands rule.body expanded → h.Expands other.body expanded →
      other.body = rule.body

theorem determined_of_derivedBy (form : h.HelperFormOf g) (once : h.CutsOnce) {tree : Tree}
    (derived : tree.DerivedBy h) : h.Determined tree := by
  induction derived with
  | leaf word =>
    intro other derived' root _ _ _
    exact (parses_term.mp ⟨derived', root.symm, rfl⟩).2.symm
  | @node rule children mem roots derived ih =>
    intro tree derived' root expanded expands same
    have kind := (h.rules_valid rule mem).1
    obtain ⟨other, other_mem, head, others, rfl, others_parse⟩ :=
      (parses_nonterm kind).mp ⟨derived', root.symm, rfl⟩
    have conclude (bodies : other.body = rule.body) {inner : List Symbol}
        (expands : h.Expands rule.body inner)
        (same : Tree.spliceAll h.isHelper children = Tree.spliceAll h.isHelper others) :
        Tree.node rule.head children = .node rule.head others := by
      rw [eq_of_spliceAll_eq form ih derived others_parse.derived
        (by rw [roots, others_parse.roots, bodies]) (roots ▸ expands) same]
    cases helper : h.isHelper rule.head with
    | true =>
      obtain ⟨owner, owner_mem, owner_head, inner⟩ := expands_helper helper expands
      cases form.single rule mem owner owner_mem helper owner_head
      cases form.single rule mem other other_mem helper head
      rw [Tree.splice_of_helper helper, Tree.splice_of_helper helper] at same
      exact conclude rfl inner same
    | false =>
      have kept {rule' : Rule} (mem' : rule' ∈ h.rules) (head' : rule'.head = rule.head) :
          rule' ∈ h.rules.filter fun rule => !h.isHelper rule.head :=
        List.mem_filter.mpr ⟨mem', by simp [head', helper]⟩
      obtain ⟨whole, -, -, -, body⟩ := exists_left_of_forall₂ form.rules (kept mem rfl)
      obtain ⟨whole', -, -, -, body'⟩ := exists_left_of_forall₂ form.rules (kept other_mem head)
      rw [Tree.splice_of_plain helper, Tree.splice_of_plain helper] at same
      have inner : Tree.spliceAll h.isHelper children = Tree.spliceAll h.isHelper others := by
        simpa [Tree.unfoldHelpers] using same
      have symbols : (Tree.spliceAll h.isHelper children).map Tree.symbol = whole.body :=
        symbols_spliceAll form derived (roots ▸ body)
      have symbols' : (Tree.spliceAll h.isHelper others).map Tree.symbol = whole'.body :=
        symbols_spliceAll form others_parse.derived (others_parse.roots ▸ body')
      have wholes : whole.body = whole'.body := by rw [← symbols, inner, symbols']
      have bodies := once rule mem other other_mem helper head whole.body body (wholes ▸ body')
      exact conclude bodies body inner

theorem unfoldHelpers_injOn (form : h.HelperFormOf g) (once : h.CutsOnce) (words : List String) :
    Set.InjOn (Tree.unfoldHelpers h.isHelper) {tree | h.Parses h.start words tree} := by
  rintro tree ⟨derived, root, -⟩ other ⟨derived', root', -⟩ same
  have plain := form.start ▸ form.start_plain
  apply determined_of_derivedBy form once derived other derived' (root.trans root'.symm) [h.start]
  · rw [root]
    exact .keep plain .nil
  · rw [Tree.splice_of_plain (root ▸ plain), Tree.splice_of_plain (root' ▸ plain), same]

/-! ## Normalized grammars -/

/-- No two rules outside of relaxed Chomsky normal form have the same head and the same body. -/
def LongRulesDistinct (g : Grammar) : Prop :=
  ((g.rules.filter fun rule => !rule.isRelaxed).map Rule.shape).Nodup

theorem forall₂_stays {fresh : Nat → Symbol} (i j : Nat) (rules : List Rule) :
    List.Forall₂ (fun rule cut => rule.isRelaxed = true → cut.body = rule.body) rules
      (NormalForm.cutRules fresh j (NormalForm.liftRules fresh i rules)) := by
  induction rules generalizing i j with
  | nil => exact .nil
  | cons rule rules ih =>
    refine .cons (fun relaxed => ?_) (ih _ _)
    rw [NormalForm.liftRule_of_isRelaxed relaxed]
    exact (NormalForm.chain_of_isRelaxed relaxed j).1

/-- A rule that is in the normal form already keeps its body. -/
theorem forall₂_stays_normalize (declared : g.Declared) :
    List.Forall₂ (fun rule cut => rule.isRelaxed = true → cut.body = rule.body) g.rules
      (g.normalize.rules.filter fun rule => !g.normalize.isHelper rule.head) := by
  cases long : g.isRelaxed with
  | true =>
    have all : g.rules.filter (fun rule => !g.isHelper rule.head) = g.rules :=
      List.filter_eq_self.mpr fun rule _ => by simp [declared.plain]
    rw [normalize_of_isRelaxed long, all, List.forall₂_same]
    exact fun _ _ _ => rfl
  | false =>
    rw [(filter_rules_normalize declared long).1]
    exact forall₂_stays _ _ _

theorem isRelaxed_congr {rule other : Rule} (same : rule.body = other.body) :
    rule.isRelaxed = other.isRelaxed := by
  rw [Rule.isRelaxed, Rule.isRelaxed, Rule.isUnary, Rule.isUnary, Rule.isBinary, Rule.isBinary,
    same]

theorem cutsOnce_normalize (declared : g.Declared) (distinct : g.LongRulesDistinct) :
    g.normalize.CutsOnce := by
  intro rule mem other other_mem plain head expanded expands expands'
  have form := helperFormOf_normalize declared
  have both := List.Forall₂.mp (fun _ _ one other => And.intro one other) form.rules
    (forall₂_stays_normalize declared)
  have kept : rule ∈ g.normalize.rules.filter fun rule => !g.normalize.isHelper rule.head :=
    List.mem_filter.mpr ⟨mem, by simp [plain]⟩
  have other_kept : other ∈ g.normalize.rules.filter fun rule => !g.normalize.isHelper rule.head :=
    List.mem_filter.mpr ⟨other_mem, by simp [head, plain]⟩
  obtain ⟨whole, -, whole', -, ⟨⟨whole_head, -, body⟩, stays⟩, ⟨⟨head', -, body'⟩, stays'⟩,
      apart⟩ := exists_partners_of_forall₂ both distinct kept other_kept
  have wholes : whole.body = whole'.body :=
    (expands_unique form body expands).trans (expands_unique form expands' body')
  have heads : whole.head = whole'.head := by rw [← whole_head, ← head, head']
  cases relaxed : whole.isRelaxed with
  | true =>
    rw [stays relaxed, stays' (isRelaxed_congr wholes ▸ relaxed), wholes]
  | false =>
    have relaxed' : whole'.isRelaxed = false := isRelaxed_congr wholes ▸ relaxed
    rw [apart (by simp [relaxed]) (by simp [relaxed']) (Prod.ext heads wholes)]

variable {specs : List RuleSpec} {language : Option String}

/-- Unless a long rule is declared twice, no two trees of the normalized grammar unfold to the same
tree, and there are as many of them as trees of the grammar before. -/
theorem unfold_injective_normalize (built : ofSpecs specs language = .ok g)
    (acyclic : g.UnitAcyclic) (distinct : g.LongRulesDistinct) (words : List String) :
    ∃ trees, (g.normalize.parseWithin none words).result = .ok trees ∧
      (∀ tree ∈ trees, ∀ other ∈ trees, tree.unfoldHelpers g.normalize.isHelper =
        other.unfoldHelpers g.normalize.isHelper → tree = other) ∧
      trees.length = {tree | g.Parses g.start words tree}.encard := by
  have declared := declared_of_ofSpecs built
  have form := helperFormOf_normalize declared
  have injective := unfoldHelpers_injOn form (cutsOnce_normalize declared distinct) words
  obtain ⟨parser, grammar, unlimited, result⟩ := result_ask (violation?_normalize g)
    (unitAcyclic_normalize acyclic) none (·.parse words) (·.parseEvents words)
  obtain ⟨trees, trees_eq⟩ := Parser.exists_parse_eq_ok unlimited words
  have mem_trees := (Parser.trees_of_parse trees_eq).2
  have size := Parser.encard_parses_of_parse trees_eq
  rw [grammar] at mem_trees size
  have image : Tree.unfoldHelpers g.normalize.isHelper ''
      {tree | g.normalize.Parses g.normalize.start words tree} =
        {tree | g.Parses g.start words tree} := by
    ext tree
    rw [form.start]
    exact (parses_iff_exists_unfold form form.start_plain).symm
  refine ⟨trees, result.trans trees_eq, fun tree mem other other_mem => ?_, ?_⟩
  · exact injective ((mem_trees tree).mp mem) ((mem_trees other).mp other_mem)
  · rw [← size, ← image, injective.encard_image]

/-- A rule in the normal form is declared twice, and two long rules share a body. -/
theorem unfold_injective_normalize_repeated : ∃ g,
    declare [.publicRule "$S" ["$A", "$S", "b"], .rule "$A" ["$A", "$S", "b"],
      .publicRule "$S" ["a"], .publicRule "$S" ["a"], .rule "$A" ["a"]] = .ok g ∧ g.UnitAcyclic ∧
    g.LongRulesDistinct ∧
    ∃ trees, (g.normalize.parseWithin none ["a", "a", "b", "a", "b"]).result = .ok trees ∧
      (∀ tree ∈ trees, ∀ other ∈ trees, tree.unfoldHelpers g.normalize.isHelper =
        other.unfoldHelpers g.normalize.isHelper → tree = other) ∧
      trees.length = {tree | g.Parses g.start ["a", "a", "b", "a", "b"] tree}.encard := by
  obtain ⟨g, built, none, distinct⟩ : ∃ g,
      declare [.publicRule "$S" ["$A", "$S", "b"], .rule "$A" ["$A", "$S", "b"],
        .publicRule "$S" ["a"], .publicRule "$S" ["a"], .rule "$A" ["a"]] = .ok g ∧
      (∀ rule ∈ g.rules, ∀ child ∈ rule.unaryNonterm?, 0 < 0) ∧ g.LongRulesDistinct :=
    ⟨_, rfl, by decide, by unfold LongRulesDistinct; decide⟩
  have acyclic : g.UnitAcyclic := unitAcyclic_of_rank (fun _ => 0) none
  refine ⟨g, built, acyclic, distinct, ?_⟩
  unfold declare at built
  exact unfold_injective_normalize built acyclic distinct _

end ChartParser.Grammar
