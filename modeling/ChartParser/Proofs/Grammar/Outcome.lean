import ChartParser.Grammar.Draft
import ChartParser.Proofs.Grammar.Build
import Mathlib.Data.List.Induction

/-! # Which declarations make a grammar

A list of declarations makes a grammar if no declaration in it offends and one of them is public.
What offends first is reported. A declaration that is no rule offends anywhere, and one that is
public offends after another public one with a different head.
-/

namespace ChartParser

theorem Symbol.ofToken_inj {token other : String} (same : ofToken token = ofToken other) :
    token = other := by
  rw [← text_ofToken token, same, text_ofToken]

theorem Symbol.isNonterm_ofToken (token : String) :
    (ofToken token).isNonterm = true ↔ token.toList.head? = some '$' := by
  unfold ofToken
  split
  · next name h => simp [h, isNonterm]
  · next h =>
    cases chars : token.toList with
    | nil => simp [isNonterm]
    | cons c name =>
      have plain : c ≠ '$' := fun mark => h name (mark ▸ chars)
      simp [isNonterm, plain]

namespace RuleSpec

/-- The head is written as a non-terminal. -/
def Marked (spec : RuleSpec) : Prop := spec.head.toList.head? = some '$'

/-- What is wrong with one of the declarations `specs`. -/
inductive Offends (specs : List RuleSpec) (spec : RuleSpec) : GrammarError → Prop
  | head (plain : ¬ spec.Marked) :
    Offends specs spec (.malformedRule spec.line (.terminalHead (.ofToken spec.head)))
  | body (marked : spec.Marked) (empty : spec.body = []) :
    Offends specs spec (.malformedRule spec.line (.emptyBody (.ofToken spec.head)))
  | start {first : RuleSpec} (marked : spec.Marked) (nonempty : spec.body ≠ [])
    (shown : spec.isPublic = true) (leads : specs.find? (·.isPublic) = some first)
    (apart : first.head ≠ spec.head) :
    Offends specs spec (.ambiguousStart (.ofToken first.head) (.ofToken spec.head))

variable {spec : RuleSpec}

theorem valid_rule_iff : spec.rule.Valid ↔ spec.Marked ∧ spec.body ≠ [] := by
  unfold Rule.Valid Marked
  simp [rule, Symbol.isNonterm_ofToken]

theorem toRule_eq_error_iff {fault : RuleFault} : spec.toRule = .error fault ↔
    ¬ spec.Marked ∧ fault = .terminalHead (.ofToken spec.head) ∨
      spec.Marked ∧ spec.body = [] ∧ fault = .emptyBody (.ofToken spec.head) := by
  have kind : (Symbol.ofToken spec.head).isTerm = true ↔ ¬ spec.Marked := by
    unfold Marked
    rw [← Symbol.isNonterm_ofToken]
    cases Symbol.ofToken spec.head <;> simp [Symbol.isTerm, Symbol.isNonterm]
  unfold toRule Rule.make
  split
  · next plain => simp [kind.mp plain, eq_comm]
  · next marked =>
    rw [kind, not_not] at marked
    split
    · next empty =>
      rw [List.isEmpty_iff, List.map_eq_nil_iff] at empty
      simp [marked, empty, eq_comm]
    · next nonempty =>
      rw [List.isEmpty_iff, List.map_eq_nil_iff] at nonempty
      simp [marked, nonempty]

theorem Offends.of_find? {specs others : List RuleSpec} {error : GrammarError}
    (offends : spec.Offends specs error) (same : spec.isPublic = true →
      specs.find? (·.isPublic) = others.find? (·.isPublic)) : spec.Offends others error := by
  cases offends with
  | head plain => exact .head plain
  | body marked empty => exact .body marked empty
  | start marked nonempty shown leads apart =>
    exact .start marked nonempty shown (same shown ▸ leads) apart

/-- What comes after a declaration does not matter for it. -/
theorem offends_append {past : List RuleSpec} (mem : spec ∈ past) (more : List RuleSpec)
    {error : GrammarError} : spec.Offends (past ++ more) error ↔ spec.Offends past error := by
  have same (shown : spec.isPublic = true) :
      (past ++ more).find? (·.isPublic) = past.find? (·.isPublic) := by
    have found : (past.find? (·.isPublic)).isSome = true :=
      List.find?_isSome.mpr ⟨spec, mem, shown⟩
    rw [List.find?_append, Option.or_of_isSome found]
  exact ⟨fun offends => offends.of_find? same, fun offends => offends.of_find? (same · |>.symm)⟩

end RuleSpec

namespace Grammar

theorem declareStart_eq_error_iff {start : Option Symbol} {isPublic : Bool} {head : Symbol}
    {error : GrammarError} : declareStart start isPublic head = .error error ↔
      isPublic = true ∧ ∃ first, start = some first ∧ first ≠ head ∧
        error = .ambiguousStart first head := by
  unfold declareStart
  cases isPublic with
  | false => simp
  | true =>
    cases start with
    | none => simp
    | some first => by_cases same : first = head <;> simp [same, eq_comm (b := error)]

theorem start_of_declareStart {start next : Option Symbol} {isPublic : Bool} {head : Symbol}
    (h : declareStart start isPublic head = .ok next) :
    next = start.or (if isPublic then some head else none) := by
  unfold declareStart at h
  cases isPublic with
  | false => simpa using h.symm
  | true =>
    cases start with
    | none => simpa using h.symm
    | some first => by_cases same : first = head <;> simp_all

end Grammar

/-! ## One declaration -/

namespace Draft

open RuleSpec

/-- The draft after declarations that do not offend. -/
def ofPast (past : List RuleSpec) : Draft :=
  ⟨Grammar.symbolsOf past, (past.find? (·.isPublic)).map (.ofToken ·.head),
    past.map RuleSpec.rule⟩

/-- The table does not get in the way: a declaration is read as if it were the first. -/
theorem add_of_consistent {draft : Draft} (consistent : draft.symbols.Consistent)
    (spec : RuleSpec) : draft.add spec = (do
      let rule ← spec.toRule.mapError (.malformedRule spec.line)
      let start ← Grammar.declareStart draft.start spec.isPublic rule.head
      return ⟨draft.symbols.addAll (spec.tokens.map .ofToken), start, draft.rules ++ [rule]⟩) := by
  have head := spelled_ofToken spec.head
  have after_head := SymbolTable.consistent_add consistent head
  have after_body := SymbolTable.consistent_addTokens after_head spec.body
  have label : (spec.label.toList.map Symbol.ofToken).head? = spec.label.map .ofToken := by
    cases spec.label <;> rfl
  have table : ((draft.symbols.add (.ofToken spec.head)).addAll (spec.body.map .ofToken)).addAll
      (spec.label.toList.map .ofToken) = draft.symbols.addAll (spec.tokens.map .ofToken) := by
    rw [← SymbolTable.addAll_append, ← List.map_append]
    rfl
  unfold add
  simp only [SymbolTable.internToken_eq, SymbolTable.intern_of_consistent consistent head,
    SymbolTable.internTokens_of_consistent after_head,
    SymbolTable.internTokens_of_consistent after_body, label, table]
  rfl

theorem add_ofPast (past : List RuleSpec) (spec : RuleSpec) : (ofPast past).add spec = (do
      let rule ← spec.toRule.mapError (.malformedRule spec.line)
      let start ← Grammar.declareStart (ofPast past).start spec.isPublic rule.head
      return ⟨Grammar.symbolsOf (past ++ [spec]), start, past.map RuleSpec.rule ++ [rule]⟩) := by
  have table : (ofPast past).symbols.addAll (spec.tokens.map .ofToken) =
      Grammar.symbolsOf (past ++ [spec]) := by
    unfold ofPast Grammar.symbolsOf
    rw [← SymbolTable.addAll_append, ← List.map_append]
    simp
  rw [add_of_consistent (Grammar.consistent_symbolsOf past), table]
  rfl

variable {past : List RuleSpec} {spec : RuleSpec}

theorem add_ofPast_eq_error_iff {error : GrammarError} :
    (ofPast past).add spec = .error error ↔ spec.Offends (past ++ [spec]) error := by
  rw [add_ofPast, bind_eq_error, mapError_eq_error]
  constructor
  · rintro (⟨fault, failed, rfl⟩ | ⟨rule, made, failed⟩)
    · rcases toRule_eq_error_iff.mp failed with ⟨plain, rfl⟩ | ⟨marked, empty, rfl⟩
      · exact .head plain
      · exact .body marked empty
    · obtain ⟨valid, rfl⟩ := toRule_eq_ok.mp (mapError_eq_ok.mp made)
      obtain ⟨marked, nonempty⟩ := valid_rule_iff.mp valid
      rcases bind_eq_error.mp failed with failed | ⟨start, -, done⟩
      · obtain ⟨shown, head, started, apart, rfl⟩ := Grammar.declareStart_eq_error_iff.mp failed
        obtain ⟨first, leads, rfl⟩ := Option.map_eq_some_iff.mp started
        refine .start marked nonempty shown ?_ fun same => apart (congrArg Symbol.ofToken same)
        rw [List.find?_append, leads, Option.some_or]
      · nomatch done
  · intro offends
    cases offends with
    | head plain => exact .inl ⟨_, toRule_eq_error_iff.mpr (.inl ⟨plain, rfl⟩), rfl⟩
    | body marked empty =>
      exact .inl ⟨_, toRule_eq_error_iff.mpr (.inr ⟨marked, empty, rfl⟩), rfl⟩
    | @start first marked nonempty shown leads apart =>
      -- The declaration is public itself, but it is not the first that is.
      have earlier : past.find? (·.isPublic) = some first := by
        rw [List.find?_append, Option.or_eq_some_iff] at leads
        rcases leads with leads | ⟨-, here⟩
        · exact leads
        · simp only [List.find?_singleton, shown, if_true, Option.some.injEq] at here
          exact absurd (congrArg RuleSpec.head here.symm) apart
      have made := toRule_eq_ok.mpr ⟨valid_rule_iff.mpr ⟨marked, nonempty⟩, rfl⟩
      refine .inr ⟨_, mapError_eq_ok.mpr made, bind_eq_error.mpr (.inl ?_)⟩
      refine Grammar.declareStart_eq_error_iff.mpr ⟨shown, .ofToken first.head, ?_, ?_, rfl⟩
      · rw [ofPast, earlier, Option.map_some]
      · exact fun same => apart (Symbol.ofToken_inj same)

theorem eq_ofPast_of_add {next : Draft} (h : (ofPast past).add spec = .ok next) :
    next = ofPast (past ++ [spec]) := by
  rw [add_ofPast] at h
  obtain ⟨rule, made, h⟩ := bind_eq_ok.mp h
  obtain ⟨start, started, h⟩ := bind_eq_ok.mp h
  obtain ⟨-, rfl⟩ := toRule_eq_ok.mp (mapError_eq_ok.mp made)
  have start_eq : start = ((past ++ [spec]).find? (·.isPublic)).map (.ofToken ·.head) := by
    rw [Grammar.start_of_declareStart started, List.find?_append, Option.map_or]
    congr 1
    cases shown : spec.isPublic <;> simp [shown, rule]
  cases h
  rw [ofPast, start_eq, List.map_append]
  rfl

/-! ## All declarations -/

/-- Whatever declarations do not offend, the draft after them is known. -/
theorem foldlM_add_eq_ok_iff {draft : Draft} : past.foldlM add empty = .ok draft ↔
    (∀ spec ∈ past, ∀ error, ¬ spec.Offends past error) ∧ draft = ofPast past := by
  induction past using List.reverseRecOn generalizing draft with
  | nil =>
    rw [List.foldlM_nil]
    constructor
    · rintro ⟨⟩
      exact ⟨by simp, rfl⟩
    · rintro ⟨-, rfl⟩
      rfl
  | append_singleton past spec ih =>
    -- What offended before offends still, so only the last declaration is in question.
    have clean : (∀ other ∈ past ++ [spec], ∀ error, ¬ other.Offends (past ++ [spec]) error) ↔
        (∀ other ∈ past, ∀ error, ¬ other.Offends past error) ∧
          ∀ error, ¬ spec.Offends (past ++ [spec]) error := by
      rw [List.forall_mem_append, List.forall_mem_singleton]
      refine and_congr_left' (forall₂_congr fun other mem => ?_)
      simp only [offends_append mem]
    rw [List.foldlM_append, bind_eq_ok, clean]
    simp only [ih, List.foldlM_cons, List.foldlM_nil, bind_pure, ← add_ofPast_eq_error_iff]
    constructor
    · rintro ⟨-, ⟨before, rfl⟩, added⟩
      refine ⟨⟨before, fun error failed => ?_⟩, eq_ofPast_of_add added⟩
      rw [added] at failed
      nomatch failed
    · rintro ⟨⟨before, here⟩, rfl⟩
      refine ⟨_, ⟨before, rfl⟩, ?_⟩
      cases added : (ofPast past).add spec with
      | error error => exact absurd added (here error)
      | ok next => rw [eq_ofPast_of_add added]

/-- Where the declarations fail, the first that offends has failed. -/
theorem foldlM_add_eq_error_iff {specs : List RuleSpec} {error : GrammarError} :
    specs.foldlM add empty = .error error ↔ ∃ before spec after,
      specs = before ++ spec :: after ∧
        (∀ earlier ∈ before, ∀ fault, ¬ earlier.Offends specs fault) ∧
          spec.Offends specs error := by
  rw [foldlM_eq_error_iff]
  simp only [foldlM_add_eq_ok_iff]
  have here {before after : List RuleSpec} {spec : RuleSpec} :
      spec.Offends (before ++ spec :: after) error ↔ spec.Offends (before ++ [spec]) error := by
    rw [List.append_cons, offends_append (by simp)]
  constructor
  · rintro ⟨before, spec, after, -, rfl, ⟨clean, rfl⟩, failed⟩
    refine ⟨before, spec, after, rfl, fun earlier mem => ?_, ?_⟩
    · simpa only [offends_append mem] using clean earlier mem
    · exact here.mpr (add_ofPast_eq_error_iff.mp failed)
  · rintro ⟨before, spec, after, rfl, clean, offends⟩
    refine ⟨before, spec, after, _, rfl, ⟨fun earlier mem => ?_, rfl⟩, ?_⟩
    · simpa only [offends_append mem] using clean earlier mem
    · exact add_ofPast_eq_error_iff.mpr (here.mp offends)

theorem finish_ofPast_eq_error_iff {specs : List RuleSpec} {error : GrammarError} :
    (ofPast specs).finish = .error error ↔
      error = .missingStart ∧ ∀ spec ∈ specs, spec.isPublic = false := by
  have none : (ofPast specs).start = none ↔ ∀ spec ∈ specs, spec.isPublic = false := by
    simp [ofPast]
  unfold finish
  split
  · next missing =>
    rw [Except.error.injEq, eq_comm]
    exact (and_iff_left (none.mp missing)).symm
  · next start found =>
    rw [← none, found]
    simp

theorem foldlM_add (specs : List RuleSpec) {draft : Draft}
    (consistent : draft.symbols.Consistent) :
    specs.foldlM add draft = (Grammar.readSpecs draft.start specs).map fun (start, rules) =>
      ⟨draft.symbols.addAll ((specs.flatMap RuleSpec.tokens).map .ofToken), start,
        draft.rules ++ rules⟩ := by
  induction specs generalizing draft with
  | nil => simp [Grammar.readSpecs, Except.map, SymbolTable.addAll, pure, Except.pure]
  | cons spec specs ih =>
    rw [List.foldlM_cons, add_of_consistent consistent, Grammar.readSpecs]
    cases made : spec.toRule with
    | error fault => rfl
    | ok rule =>
      cases started : Grammar.declareStart draft.start spec.isPublic rule.head with
      | error error => simp [Except.mapError, bind, Except.bind, started, Except.map]
      | ok start =>
        have next := SymbolTable.consistent_addTokens consistent spec.tokens
        simp only [Except.mapError, bind, Except.bind, started, pure, Except.pure]
        rw [ih next]
        cases Grammar.readSpecs start specs with
        | error error => rfl
        | ok result =>
          simp [Except.map, List.flatMap_cons, List.map_append, SymbolTable.addAll_append]

/-- Reading the declarations one by one makes what the whole list makes. -/
theorem foldlM_add_empty (specs : List RuleSpec) :
    specs.foldlM add empty = (Grammar.readSpecs none specs).map fun (start, rules) =>
      ⟨Grammar.symbolsOf specs, start, rules⟩ :=
  foldlM_add specs SymbolTable.consistent_empty

end Draft

namespace Grammar

theorem map_ofSpecs (specs : List RuleSpec) (language : Option String) :
    (ofSpecs specs language).map (fun g => (g.start, g.rules, g.symbols)) =
      specs.foldlM Draft.add Draft.empty >>= Draft.finish := by
  have run := Draft.foldlM_add_empty specs
  unfold ofSpecs
  split
  · next failed =>
    rw [run, failed]
    rfl
  · next rules read =>
    rw [run, read]
    rfl
  · next start rules read =>
    rw [read] at run
    rw [run]
    rfl

theorem ofSpecs_eq_error_iff {specs : List RuleSpec} {language : Option String}
    {error : GrammarError} : ofSpecs specs language = .error error ↔
      (∃ before spec after, specs = before ++ spec :: after ∧
        (∀ earlier ∈ before, ∀ fault, ¬ earlier.Offends specs fault) ∧
          spec.Offends specs error) ∨
      (error = .missingStart ∧ (∀ spec ∈ specs, ∀ fault, ¬ spec.Offends specs fault) ∧
        ∀ spec ∈ specs, spec.isPublic = false) := by
  rw [← map_eq_error (f := fun g : Grammar => (g.start, g.rules, g.symbols)), map_ofSpecs,
    bind_eq_error, Draft.foldlM_add_eq_error_iff]
  refine or_congr_right ?_
  constructor
  · rintro ⟨draft, made, failed⟩
    obtain ⟨clean, rfl⟩ := Draft.foldlM_add_eq_ok_iff.mp made
    obtain ⟨rfl, hidden⟩ := Draft.finish_ofPast_eq_error_iff.mp failed
    exact ⟨rfl, clean, hidden⟩
  · rintro ⟨rfl, clean, hidden⟩
    refine ⟨_, Draft.foldlM_add_eq_ok_iff.mpr ⟨clean, rfl⟩, ?_⟩
    exact Draft.finish_ofPast_eq_error_iff.mpr ⟨rfl, hidden⟩

theorem exists_ofSpecs_eq_ok_iff {specs : List RuleSpec} {language : Option String} :
    (∃ g, ofSpecs specs language = .ok g) ↔
      (∀ spec ∈ specs, spec.Marked ∧ spec.body ≠ []) ∧
      (∃ spec ∈ specs, spec.isPublic = true) ∧
      ∀ spec ∈ specs, ∀ other ∈ specs, spec.isPublic = true → other.isPublic = true →
        spec.head = other.head := by
  constructor
  · rintro ⟨g, built⟩
    obtain ⟨-, fits, shown⟩ := readSpecs_eq_ok_iff.mp (of_ofSpecs_eq_ok built).1
    refine ⟨fun spec mem => RuleSpec.valid_rule_iff.mp (fits spec mem).valid, shown, ?_⟩
    intro spec mem other other_mem isPublic other_public
    apply Symbol.ofToken_inj
    exact ((fits spec mem).start isPublic).trans ((fits other other_mem).start other_public).symm
  · rintro ⟨formed, ⟨first, mem, shown⟩, same⟩
    have valid (spec : RuleSpec) (mem : spec ∈ specs) : spec.rule.Valid :=
      RuleSpec.valid_rule_iff.mpr (formed spec mem)
    refine (exists_ofSpecs_iff valid).mpr ⟨first.head, ⟨first, mem, shown⟩, ?_⟩
    exact fun spec spec_mem isPublic => same spec spec_mem first mem isPublic shown

/-- A list of declarations makes a grammar, with its rules in order, if all heads are marked, no
body is empty and there is one public head. Otherwise the first declaration that offends is
reported, or that none is public. Both are so when the declarations are read one by one. -/
theorem ofSpecs_outcome (specs : List RuleSpec) (language : Option String) :
    ((∃ g, ofSpecs specs language = .ok g) ↔
      (∀ spec ∈ specs, spec.Marked ∧ spec.body ≠ []) ∧
      (∃ spec ∈ specs, spec.isPublic = true) ∧
      ∀ spec ∈ specs, ∀ other ∈ specs, spec.isPublic = true → other.isPublic = true →
        spec.head = other.head) ∧
    (∀ g, ofSpecs specs language = .ok g → g.rules = specs.map RuleSpec.rule ∧
      g.language = language ∧
      ∀ spec ∈ specs, spec.isPublic = true → g.start = .ofToken spec.head) ∧
    (∀ error, ofSpecs specs language = .error error ↔
      (∃ before spec after, specs = before ++ spec :: after ∧
        (∀ earlier ∈ before, ∀ fault, ¬ earlier.Offends specs fault) ∧
          spec.Offends specs error) ∨
      (error = .missingStart ∧ (∀ spec ∈ specs, ∀ fault, ¬ spec.Offends specs fault) ∧
        ∀ spec ∈ specs, spec.isPublic = false)) ∧
    (ofSpecs specs language).map (fun g => (g.start, g.rules, g.symbols)) =
      specs.foldlM Draft.add Draft.empty >>= Draft.finish := by
  refine ⟨exists_ofSpecs_eq_ok_iff, fun g built => ?_, fun error => ofSpecs_eq_error_iff,
    map_ofSpecs specs language⟩
  obtain ⟨read, tag, -⟩ := of_ofSpecs_eq_ok built
  obtain ⟨rules, fits, -⟩ := readSpecs_eq_ok_iff.mp read
  exact ⟨rules, tag, fun spec mem shown => ((fits spec mem).start shown).symm⟩

/-- The second public head comes before the empty body. -/
example : ofSpecs [⟨1, true, "$S", ["$A"], none⟩, ⟨2, true, "$A", ["a"], none⟩,
    ⟨3, false, "$A", [], none⟩] none =
      .error (.ambiguousStart (.nonterm "S") (.nonterm "A")) := rfl

end Grammar

end ChartParser
