import ChartParser.Grammar.Samples
import ChartParser.Proofs.NormalForm.Parts
import ChartParser.Proofs.RuleFile.Writer
import ChartParser.Proofs.Symbol.Table

/-! # Writing a grammar and reading it again

All that is read from a rule file could be written again, and what is safe to write is read back.
So a grammar is read back exactly if it is safe.
-/

namespace ChartParser

open RuleFile

namespace Grammar

variable {g : Grammar}

/-! ## Reading -/

theorem textSafe_of_ofRuleFile {text : String} (h : ofRuleFile text = .ok g) : g.TextSafe := by
  unfold ofRuleFile at h
  split at h
  · nomatch h
  · next file read =>
    obtain ⟨specs, language, -⟩ := of_ofSpecs_eq_ok h
    have safe := textSafe_of_read read
    refine ⟨language ▸ safe.language, fun rule mem => ?_⟩
    obtain ⟨spec, spec_mem, made⟩ := exists_left_of_forall₂ (rules_of_readSpecs specs).1 mem
    rw [(Rule.make_eq_ok.mp made).2]
    exact safe.rules spec spec_mem

/-! ## Writing -/

/-- The lines of the rule file. -/
def fileLines (g : Grammar) : List (List Char) :=
  "#ABNF V1.0 utf-8;".toList ::
    (g.language.toList.map fun tag => "language ".toList ++ tag.toList ++ [';']) ++
      g.rules.map fun rule => lineChars (rule.head = g.start) rule

theorem toList_ruleLine (g : Grammar) (rule : Rule) : (g.ruleLine rule).toList =
    lineChars (rule.head = g.start) rule ++ ['\n'] := by
  have newline : "\n".toList = ['\n'] := rfl
  rw [ruleLine, String.toList_append, String.toList_append, toList_text, newline, lineChars,
    List.append_assoc (publicChars _)]
  unfold publicChars
  split <;> simp [*]

theorem toList_toRuleFile (g : Grammar) :
    g.toRuleFile.toList = g.fileLines.flatMap (· ++ ['\n']) := by
  have header : "#ABNF V1.0 utf-8;\n".toList = "#ABNF V1.0 utf-8;".toList ++ ['\n'] := by decide
  have tag_line (tag : String) : ("language " ++ tag ++ ";\n").toList =
      "language ".toList ++ tag.toList ++ [';'] ++ ['\n'] := by
    have ends : ";\n".toList = [';'] ++ ['\n'] := rfl
    rw [String.toList_append, String.toList_append, ends, ← List.append_assoc]
  have rules : (String.join (g.rules.map g.ruleLine)).toList =
      (g.rules.map fun rule => lineChars (rule.head = g.start) rule).flatMap
        (· ++ ['\n']) := by
    rw [String.toList_join, List.flatMap_map, List.flatMap_map]
    simp only [toList_ruleLine]
  -- Lean takes too long to prove the equation that `unfold` would use here.
  delta toRuleFile
  rw [String.toList_append, String.toList_append, rules, fileLines, List.flatMap_append,
    List.flatMap_cons, header]
  cases g.language with
  | none => rfl
  | some tag =>
    dsimp only
    rw [tag_line]
    simp only [Option.toList, List.map_cons, List.map_nil, List.flatMap_cons, List.flatMap_nil,
      List.append_nil]

theorem newline_fileLines (safe : g.TextSafe) : ∀ line ∈ g.fileLines, '\n' ∉ line := by
  refine List.forall_mem_append.mpr ⟨List.forall_mem_cons.mpr ⟨by decide, ?_⟩, ?_⟩
  · refine List.forall_mem_map.mpr fun tag mem => ?_
    have token := safe.language tag (Option.mem_toList.mp mem)
    exact (clean_language token).newline
  · refine List.forall_mem_map.mpr fun rule mem => ?_
    exact (clean_lineChars (safe.rules rule mem) (g.rules_valid rule mem) _).newline

/-! ## Reading what is written -/

/-- All symbols are what their texts stand for, and the start symbol has a rule. -/
structure Spelled (g : Grammar) : Prop where
  symbols : ∀ rule ∈ g.rules, rule.Parts Symbol.Spelled Symbol.Spelled Symbol.Spelled
  start : ∃ rule ∈ g.rules, rule.head = g.start

/-- The specs declare the rules, and those for the start symbol are public. -/
def Declares (start : Symbol) : List RuleSpec → List Rule → Prop :=
  List.Forall₂ fun spec rule =>
    spec.toRule = .ok rule ∧ spec.isPublic = decide (rule.head = start)

theorem map_ofToken_text {symbols : List Symbol} (h : ∀ symbol ∈ symbols, symbol.Spelled) :
    (symbols.map Symbol.text).map Symbol.ofToken = symbols := by
  rw [List.map_map]
  exact (List.map_congr_left h).trans (List.map_id symbols)

theorem toRule_written {rule : Rule} (valid : rule.Valid)
    (symbols : rule.Parts Symbol.Spelled Symbol.Spelled Symbol.Spelled) (line : Nat)
    (isPublic : Bool) :
    RuleSpec.toRule ⟨line, isPublic, rule.head.text, rule.body.map Symbol.text,
      rule.label.map Symbol.text⟩ = .ok rule := by
  refine Rule.make_eq_ok.mpr ⟨valid, ?_⟩
  have same : (rule.label.map Symbol.text).map Symbol.ofToken = rule.label := by
    cases written : rule.label with
    | none => rfl
    | some symbol => exact congrArg some (symbols.label symbol written)
  have head : Symbol.ofToken rule.head.text = rule.head := symbols.head
  dsimp only
  rw [head, map_ofToken_text symbols.body, same]

theorem readLines_written {start : Symbol} {rules : List Rule}
    (safe : ∀ rule ∈ rules, rule.TextSafe) (valid : ∀ rule ∈ rules, rule.Valid)
    (symbols : ∀ rule ∈ rules, rule.Parts Symbol.Spelled Symbol.Spelled Symbol.Spelled)
    (line : Nat) :
    ∃ specs, readLines line false (rules.map fun rule => lineChars (rule.head = start) rule) =
        .ok ⟨none, specs⟩ ∧
      Declares start specs rules := by
  induction rules generalizing line with
  | nil => exact ⟨[], rfl, .nil⟩
  | cons rule rules ih =>
    obtain ⟨rule_safe, safe⟩ := List.forall_mem_cons.mp safe
    obtain ⟨rule_valid, valid⟩ := List.forall_mem_cons.mp valid
    obtain ⟨rule_symbols, symbols⟩ := List.forall_mem_cons.mp symbols
    obtain ⟨specs, read, declares⟩ := ih safe valid symbols (line + 1)
    have made := toRule_written rule_valid rule_symbols line (rule.head = start)
    refine ⟨_ :: specs, ?_, .cons ⟨made, rfl⟩ declares⟩
    rw [List.map_cons, readLines, readItem_lineChars rule_safe rule_valid]
    simp only [Bool.false_and, read]
    rfl

theorem readSpecs_of_declares {start : Symbol} {specs : List RuleSpec} {rules : List Rule}
    (declares : Declares start specs rules) (known : ∃ rule ∈ rules, rule.head = start) :
    readSpecs none specs = .ok (some start, rules) := by
  refine readSpecs_eq_ok_iff.mpr ⟨?_, fun spec mem => ?_, ?_⟩
  · refine (map_eq_of_forall₂ declares.flip fun rule spec _ made => ?_).symm
    exact (RuleSpec.toRule_eq_ok.mp made.1).2.symm
  · obtain ⟨rule, -, made, marked⟩ := exists_right_of_forall₂ declares mem
    obtain ⟨valid, rfl⟩ := RuleSpec.toRule_eq_ok.mp made
    exact ⟨valid, fun shown => of_decide_eq_true (marked ▸ shown)⟩
  · obtain ⟨rule, mem, head⟩ := known
    obtain ⟨spec, spec_mem, -, marked⟩ := exists_left_of_forall₂ declares mem
    exact ⟨spec, spec_mem, marked.trans (decide_eq_true head)⟩

theorem read_toRuleFile (safe : g.TextSafe) (spelled : g.Spelled) :
    ∃ specs, RuleFile.read g.toRuleFile = .ok ⟨g.language, specs⟩ ∧
      Declares g.start specs g.rules := by
  have rules (line : Nat) : ∃ specs,
      readLines line false (g.rules.map fun rule => lineChars (rule.head = g.start) rule) =
        .ok ⟨none, specs⟩ ∧ Declares g.start specs g.rules :=
    readLines_written safe.rules g.rules_valid spelled.symbols line
  rw [RuleFile.read, toList_toRuleFile, Text.lines_flatMap (newline_fileLines safe), fileLines,
    List.cons_append, readLines, readItem_header]
  dsimp only
  cases language : g.language with
  | none =>
    obtain ⟨specs, read, declares⟩ := rules 2
    exact ⟨specs, congrArg (Except.map (·.addFirst 1 .header)) read, declares⟩
  | some tag =>
    obtain ⟨specs, read, declares⟩ := rules 3
    have tag_read := readItem_language (safe.language tag language) false
    have more : readLines 2 false (("language ".toList ++ tag.toList ++ [';']) ::
        g.rules.map fun rule => lineChars (rule.head = g.start) rule) =
          .ok ⟨some tag, specs⟩ := by
      rw [readLines, tag_read]
      exact congrArg (Except.map (·.addFirst 2 (.language tag))) read
    exact ⟨specs, congrArg (Except.map (·.addFirst 1 .header)) more, declares⟩

/-- The rule file of a grammar is read as the grammar exactly if all its texts are safe. -/
theorem rereads_iff_of_spelled (spelled : g.Spelled) : g.Rereads ↔ g.TextSafe := by
  constructor
  · rintro ⟨again, read, rules, -, language⟩
    obtain ⟨language_safe, rules_safe⟩ := textSafe_of_ofRuleFile read
    exact ⟨language ▸ language_safe, rules ▸ rules_safe⟩
  · intro safe
    obtain ⟨specs, read, declares⟩ := read_toRuleFile safe spelled
    have start := readSpecs_of_declares declares spelled.start
    obtain ⟨again, built, parts⟩ := exists_ofSpecs_eq_ok start g.language
    refine ⟨again, ?_, parts⟩
    rw [ofRuleFile, read]
    exact built

/-! ## Normalized grammars -/

theorem plain_of_mem_helperSymbol {i : Nat} {c : Char}
    (mem : c ∈ (helperSymbol i).text.toList) :
    Text.isBlank c = false ∧ c ∉ ['=', '\x7b', '|', '/'] := by
  have digits : (toString i).toList = Nat.toDigits 10 i := String.toList_ofList
  have kinds : c = '$' ∨ c = '_' ∨ c = 'H' ∨ c ∈ Nat.toDigits 10 i := by
    simpa [helperSymbol, Symbol.text, digits] using mem
  rcases kinds with rfl | rfl | rfl | digit
  · decide
  · decide
  · decide
  · have range := Char.isDigit_iff_toNat.mp (Nat.isDigit_of_mem_toDigits (by simp) (by simp) digit)
    constructor
    · have bounds : 48 ≤ c.toNat ∧ c.toNat ≤ 57 := range
      simp only [Text.isBlank, Text.inRanges, Text.blankRanges, List.any_cons, List.any_nil,
        Bool.or_false, Bool.or_eq_false_iff, Bool.and_eq_false_imp, decide_eq_true_eq,
        decide_eq_false_iff_not, not_le]
      omega
    · intro mark
      simp only [List.mem_cons, List.not_mem_nil, or_false] at mark
      rcases mark with rfl | rfl | rfl | rfl <;> exact absurd range (by decide)

theorem isToken_of_plain {marks cs : List Char} (nonempty : cs ≠ [])
    (known : marks ⊆ ['=', '\x7b', '|', '/'])
    (plain : ∀ c ∈ cs, Text.isBlank c = false ∧ c ∉ ['=', '\x7b', '|', '/']) :
    IsToken marks cs := by
  refine ⟨nonempty, fun c mem => ⟨(plain c mem).1, fun mark => (plain c mem).2 (known mark)⟩, ?_⟩
  intro slashes
  exact (plain '/' (slashes.subset (.head _))).2 (by simp)

theorem isToken_helperSymbol (i : Nat) :
    IsToken ['='] (helperSymbol i).name.toList ∧
      IsToken ['\x7b', '|'] (helperSymbol i).text.toList := by
  have whole : (helperSymbol i).text.toList = '$' :: (helperSymbol i).name.toList := by
    rw [helperSymbol, Symbol.text, String.toList_append]
    rfl
  have plain := fun c (mem : c ∈ (helperSymbol i).text.toList) => plain_of_mem_helperSymbol mem
  refine ⟨isToken_of_plain ?_ (by simp) fun c mem => plain c ?_,
    isToken_of_plain ?_ (by simp) plain⟩
  · simp [helperSymbol, Symbol.name]
  · exact whole ▸ List.mem_cons_of_mem _ mem
  · simp [whole]

theorem spelled_of_ofSpecs {specs : List RuleSpec} {language : Option String}
    (built : ofSpecs specs language = .ok g) : g.Spelled := by
  refine ⟨fun rule mem => ?_, (declared_of_ofSpecs built).start⟩
  have all : ∀ symbol ∈ rule.symbols, symbol.Spelled := fun symbol part =>
    spelled_of_mem_symbols built mem part
  obtain ⟨head, others⟩ := List.forall_mem_cons.mp all
  obtain ⟨body, label⟩ := List.forall_mem_append.mp others
  exact ⟨head, body, fun symbol mem => label symbol (Option.mem_toList.mpr mem)⟩

theorem spelled_normalize (declared : g.Declared) (spelled : g.Spelled) : g.normalize.Spelled := by
  refine ⟨parts_normalize (fun i => ⟨spelled_nonterm _, spelled_nonterm _⟩) spelled.symbols, ?_⟩
  have form := helperFormOf_normalize declared
  obtain ⟨rule, mem, head⟩ := spelled.start
  obtain ⟨cut, cut_mem, same, -⟩ := exists_right_of_forall₂ form.rules mem
  exact ⟨cut, (List.mem_filter.mp cut_mem).1, by rw [same, head, form.start]⟩

theorem textSafe_normalize (safe : g.TextSafe) : g.normalize.TextSafe := by
  have parts : ∀ rule ∈ g.rules, rule.Parts (fun head => IsToken ['='] head.name.toList)
      (fun symbol => IsToken ['\x7b', '|'] symbol.text.toList)
      (fun label => IsLabel label.text.toList) := by
    intro rule mem
    obtain ⟨head, body, label⟩ := safe.rules rule mem
    exact ⟨head, body, label⟩
  refine ⟨language_normalize g ▸ safe.language, fun rule mem => ?_⟩
  obtain ⟨head, body, label⟩ := parts_normalize isToken_helperSymbol parts rule mem
  exact ⟨head, body, label⟩

/-! ## The round trip -/

variable {specs : List RuleSpec} {language : Option String}

/-- A rule file says the same as the grammar that it was written for exactly if all texts of the
grammar are safe. Those of a grammar that was itself read are. -/
theorem rereads_iff_textSafe (built : ofSpecs specs language = .ok g) :
    (∀ h, h = g ∨ h = g.normalize → (h.Rereads ↔ h.TextSafe)) ∧
      ∀ text, ofRuleFile text = .ok g → g.Rereads ∧ g.normalize.Rereads := by
  have spelled := spelled_of_ofSpecs built
  have spelled_normal := spelled_normalize (declared_of_ofSpecs built) spelled
  constructor
  · rintro h (rfl | rfl)
    · exact rereads_iff_of_spelled spelled
    · exact rereads_iff_of_spelled spelled_normal
  · intro text read
    have safe := textSafe_of_ofRuleFile read
    exact ⟨(rereads_iff_of_spelled spelled).mpr safe,
      (rereads_iff_of_spelled spelled_normal).mpr (textSafe_normalize safe)⟩

/-- Marks of the format where they may stand in symbols and labels. -/
theorem rereads_iff_textSafe_marks : ∃ g,
    ofRuleFile "public $S = a; $B \x7bx = y\x7d; // note\n$B = \x7d #;\n" = .ok g ∧
      (∀ h, h = g ∨ h = g.normalize → (h.Rereads ↔ h.TextSafe)) ∧
      g.Rereads ∧ g.normalize.Rereads := by
  obtain ⟨text, text_eq⟩ :
      ∃ text, text = "public $S = a; $B \x7bx = y\x7d; // note\n$B = \x7d #;\n" := ⟨_, rfl⟩
  obtain ⟨file, g, read, built⟩ : ∃ file g, RuleFile.read text = .ok file ∧
      ofSpecs file.rules file.language = .ok g := by
    subst text_eq
    exact ⟨_, _, rfl, rfl⟩
  have whole : ofRuleFile text = .ok g := by
    rw [ofRuleFile, read]
    exact built
  obtain ⟨safe_iff, rereads⟩ := rereads_iff_textSafe built
  exact ⟨g, text_eq ▸ whole, safe_iff, rereads text whole⟩

end Grammar

end ChartParser
