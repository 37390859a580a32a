import ChartParser.Event
import ChartParser.Grammar.Basic
import ChartParser.Grammar.Error
import ChartParser.Proofs.Except
import ChartParser.Rule.Spec
import ChartParser.Search

/-! # Building grammars from declared rules -/

namespace ChartParser.Grammar

/-! ## Rules and start symbol -/

/-- The start symbol after a rule with this head. All public heads must agree. -/
def declareStart (start : Option Symbol) (isPublic : Bool) (head : Symbol) :
    Except GrammarError (Option Symbol) :=
  if isPublic then
    match start with
    | none => .ok (some head)
    | some first => if first = head then .ok start else .error (.ambiguousStart first head)
  else .ok start

/-- The start symbol and the rules of a list of declarations, where the public rules before it
declare `start`. The first fault in the list is reported. -/
def readSpecs (start : Option Symbol) :
    List RuleSpec → Except GrammarError (Option Symbol × List Rule)
  | [] => .ok (start, [])
  | spec :: specs => do
    let rule ← spec.toRule.mapError (.malformedRule spec.line)
    let start ← declareStart start spec.isPublic rule.head
    let (final, rules) ← readSpecs start specs
    return (final, rule :: rules)

theorem declareStart_eq_ok {start : Option Symbol} {isPublic : Bool} {head : Symbol}
    {result : Option Symbol} (h : declareStart start isPublic head = .ok result) :
    result = start ∨ result = some head := by
  unfold declareStart at h
  split at h
  · split at h
    · exact .inr (Except.ok.inj h).symm
    · split at h
      · exact .inl (Except.ok.inj h).symm
      · nomatch h
  · exact .inl (Except.ok.inj h).symm

theorem readSpecs_cons_eq_ok {start final : Option Symbol} {spec : RuleSpec}
    {specs : List RuleSpec} {rules : List Rule}
    (h : readSpecs start (spec :: specs) = .ok (final, rules)) :
    ∃ rule next more, spec.toRule = .ok rule ∧
      declareStart start spec.isPublic rule.head = .ok next ∧
      readSpecs next specs = .ok (final, more) ∧ rules = rule :: more := by
  rw [readSpecs] at h
  obtain ⟨rule, hrule, h⟩ := bind_eq_ok.mp h
  obtain ⟨next, hnext, h⟩ := bind_eq_ok.mp h
  obtain ⟨⟨_, more⟩, hmore, h⟩ := bind_eq_ok.mp h
  cases h
  exact ⟨rule, next, more, mapError_eq_ok.mp hrule, hnext, hmore, rfl⟩

/-- The rules that are read are valid, and a start symbol that they declare is a non-terminal. -/
theorem readSpecs_valid {specs : List RuleSpec} {start final : Option Symbol} {rules : List Rule}
    (h : readSpecs start specs = .ok (final, rules)) :
    (∀ rule ∈ rules, rule.Valid) ∧ (final = start ∨ final.any Symbol.isNonterm) := by
  induction specs generalizing start rules with
  | nil =>
    cases h
    simp
  | cons spec specs ih =>
    obtain ⟨rule, next, more, hrule, hnext, hmore, rfl⟩ := readSpecs_cons_eq_ok h
    have valid : rule.Valid := Rule.valid_of_make hrule
    obtain ⟨valid_more, hfinal⟩ := ih hmore
    refine ⟨List.forall_mem_cons.mpr ⟨valid, valid_more⟩, ?_⟩
    rcases hfinal with rfl | hfinal
    · rcases declareStart_eq_ok hnext with rfl | rfl
      · exact .inl rfl
      · exact .inr valid.1
    · exact .inr hfinal

/-- The table of all tokens that the declarations mention. -/
def symbolsOf (specs : List RuleSpec) : SymbolTable :=
  SymbolTable.empty.addAll ((specs.flatMap RuleSpec.tokens).map .ofToken)

/-- The grammar that a list of rules declares. -/
def ofSpecs (specs : List RuleSpec) (language : Option String) : Except GrammarError Grammar :=
  match h : readSpecs none specs with
  | .error error => .error error
  | .ok (none, _) => .error .missingStart
  | .ok (some start, rules) =>
    .ok {
      start, rules, language
      symbols := symbolsOf specs
      counter := 0
      helpers := ∅
      index := .ofRules rules
      start_isNonterm := by simpa using (readSpecs_valid h).2
      rules_valid := (readSpecs_valid h).1
      index_eq := rfl }

/-! ## Rules that no sentence can use -/

/-- The non-terminals in the bodies of the rules for `head`. -/
def successors (g : Grammar) (head : Symbol) : List Symbol :=
  ((g.rulesFor head).flatMap Rule.body).filter Symbol.isNonterm

/-- The non-terminals that the start symbol leads to. -/
def reachable (g : Grammar) : Std.TreeSet Symbol :=
  Search.reached g.successors (g.rules.length + 1) [g.start]

/-- The non-terminals that have no rules, in ascending order. -/
def undefinedSymbols (g : Grammar) : List Symbol :=
  g.nonterminals.toList.filter fun symbol => !g.heads.contains symbol

/-- The rules whose head the start symbol does not lead to. -/
def unreachableRules (g : Grammar) : List Rule :=
  let reachable := g.reachable
  g.rules.filter fun rule => !reachable.contains rule.head

/-- What building the grammar reports. -/
def buildEvents (g : Grammar) : List Event :=
  .built g.rules.length g.start
    :: g.undefinedSymbols.map .undefined
    ++ g.unreachableRules.map (.unreachable · g.start)

end ChartParser.Grammar
