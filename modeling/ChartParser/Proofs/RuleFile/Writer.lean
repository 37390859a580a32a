import ChartParser.Grammar.TextSafe
import ChartParser.Proofs.RuleFile.Format

/-! # Written lines are read back

A line of a safe rule has the format of the rule.
-/

namespace ChartParser.RuleFile

open Text

variable {cs marks : List Char} {tokens : List (List Char)} {rule : Rule}

/-! ## Tokens -/

theorem IsToken.isWord (token : IsToken marks cs) : IsWord marks cs :=
  ⟨token.nonempty, token.clear⟩

theorem IsToken.clean (token : IsToken marks cs) : Clean cs := by
  refine ⟨token.uncommented, fun mem => ?_⟩
  have blank := (token.clear '\n' mem).1
  nomatch blank

theorem IsLabel.clean (label : IsLabel cs) : Clean cs :=
  ⟨label.uncommented, fun mem => label.clear _ mem (by simp)⟩

/-- Tokens with a space before each. -/
theorem exists_spaced_flatMap (nonempty : tokens ≠ [])
    (h : ∀ token ∈ tokens, IsToken ['\x7b', '|'] token) :
    ∃ text, tokens.flatMap (' ' :: ·) = ' ' :: text ∧ Spaced text tokens := by
  induction tokens with
  | nil => exact absurd rfl nonempty
  | cons token more ih =>
    obtain ⟨first, others⟩ := List.forall_mem_cons.mp h
    cases more with
    | nil => exact ⟨token, by simp, .last first.isWord⟩
    | cons next more =>
      obtain ⟨text, whole, spaced⟩ := ih (List.cons_ne_nil _ _) others
      refine ⟨token ++ [' '] ++ text, ?_, .more first.isWord gap_space spaced⟩
      rw [List.flatMap_cons, whole]
      simp

theorem clean_flatMap (h : ∀ token ∈ tokens, Clean token) {back : List Char} (clean : Clean back)
    (apart : ∀ c ∈ back.head?, c ≠ '/') : Clean (tokens.flatMap (' ' :: ·) ++ back) := by
  induction tokens with
  | nil => exact clean
  | cons token more ih =>
    obtain ⟨first, others⟩ := List.forall_mem_cons.mp h
    rw [List.flatMap_cons, List.append_assoc, List.cons_append]
    refine clean_cons (clean_append first (ih others) ?_) (by decide)
    cases more with
    | nil => exact apart
    | cons next more => simp

/-! ## Statements -/

/-- A clean line that ends in `;` is its own content. -/
theorem content_statement {body : List Char} (clean : Clean (body ++ [';'])) (bare : Bare body)
    (nonempty : body ≠ []) : content (body ++ [';']) = body ++ [] ++ [';'] := by
  have ends : Bare (body ++ ([] ++ [';'])) :=
    bare_append bare (bare_of_any rfl) nonempty (List.cons_ne_nil _ _)
  rw [content, cutComment_of_uncommented clean.uncommented, List.append_nil]
  exact trim_of_bare ends

theorem readItem_header : readItem true "#ABNF V1.0 utf-8;".toList = .ok .header := by
  decide

theorem clean_language {tag : String} (token : IsToken [] tag.toList) :
    Clean ("language ".toList ++ tag.toList ++ [';']) := by
  have ended : Clean (tag.toList ++ [';']) :=
    clean_append token.clean ⟨by decide, by decide⟩ (by simp)
  have whole : Clean ("language".toList ++ ' ' :: (tag.toList ++ [';'])) :=
    clean_append ⟨by decide, by decide⟩ (clean_cons ended (by decide)) (by simp)
  simpa using whole

theorem readItem_language {tag : String} (token : IsToken [] tag.toList) (first : Bool) :
    readItem first ("language ".toList ++ tag.toList ++ [';']) = .ok (.language tag) := by
  have keyword : "language ".toList = "language".toList ++ [' '] := by decide
  have bare : Bare ("language".toList ++ ([' '] ++ tag.toList)) :=
    bare_append (bare_of_any rfl) token.isWord.bare (by decide) token.nonempty
  have clean := clean_language token
  rw [keyword, List.append_assoc "language".toList] at clean ⊢
  have format : LineFormat (first = true) ("language".toList ++ [' '] ++ tag.toList ++ [] ++ [';'])
      (.language (String.ofList tag.toList)) := .language gap_space token.isWord blanks_nil
  apply readItem_of_lineFormat
  rw [content_statement clean bare (by simp)]
  simpa using format

/-! ## Rules -/

/-- The label of a rule as it is written. -/
def labelChars : Option Symbol → List Char
  | some label => ' ' :: '\x7b' :: (label.text.toList ++ ['\x7d'])
  | none => []

/-- What is written after the equals sign of a rule. -/
def tailChars (rule : Rule) : List Char :=
  (rule.body.map (·.text.toList)).flatMap (' ' :: ·) ++ labelChars rule.label

/-- A written rule up to its semicolon. -/
def ruleChars (rule : Rule) : List Char :=
  rule.head.text.toList ++ ' ' :: '=' :: tailChars rule

theorem toList_text (rule : Rule) : rule.text.toList = ruleChars rule ++ [';'] := by
  unfold Rule.text ruleChars tailChars
  cases rule.label <;>
    simp [Rule.spaced, Rule.braced, labelChars, String.toList_join, List.flatMap_map]

theorem bodyFormat_written (safe : rule.TextSafe) (nonempty : rule.body ≠ []) :
    ∃ inside, tailChars rule = ' ' :: inside ∧
      BodyFormat inside (rule.body.map (·.text.toList)) (rule.label.map Symbol.text) := by
  have tokens : ∀ token ∈ rule.body.map (·.text.toList), IsToken ['\x7b', '|'] token :=
    List.forall_mem_map.mpr safe.body
  obtain ⟨symbols, whole, spaced⟩ := exists_spaced_flatMap (by simpa using nonempty) tokens
  unfold tailChars
  rw [whole]
  cases label : rule.label with
  | none => exact ⟨symbols, by simp [labelChars], .plain spaced⟩
  | some symbol =>
    have inside := safe.label symbol label
    have clear : ∀ c ∈ symbol.text.toList, c ≠ '\x7b' ∧ c ≠ '\x7d' := by
      intro c mem
      have := inside.clear c mem
      simp only [List.mem_cons, not_or] at this
      exact ⟨this.1, this.2.1⟩
    have format := BodyFormat.labeled spaced gap_space.blanks blanks_nil blanks_nil inside.nonempty
      inside.bare clear
    refine ⟨symbols ++ ' ' :: '\x7b' :: symbol.text.toList ++ ['\x7d'], by simp [labelChars], ?_⟩
    simpa using format

/-- The keyword before a public rule. -/
def publicChars (isPublic : Bool) : List Char := if isPublic then "public ".toList else []

/-- The text of a safe head is a token with a dollar sign in front. -/
theorem head_written (safe : rule.TextSafe) (valid : rule.Valid) :
    rule.head.text.toList = '$' :: rule.head.name.toList ∧
      IsToken ['='] rule.head.text.toList := by
  have whole : rule.head.text.toList = '$' :: rule.head.name.toList := by
    obtain ⟨kind, -⟩ := valid
    cases head : rule.head with
    | term name =>
      rw [head] at kind
      nomatch kind
    | nonterm name => simp [Symbol.text, Symbol.name]
  refine ⟨whole, ?_⟩
  rw [whole]
  refine ⟨by simp, List.forall_mem_cons.mpr ⟨by decide, safe.head.clear⟩, ?_⟩
  exact (clean_cons safe.head.clean (by decide)).uncommented

theorem ruleFormat_written (safe : rule.TextSafe) (valid : rule.Valid) (isPublic : Bool) :
    RuleFormat (publicChars isPublic ++ ruleChars rule) (.rule isPublic rule.head.text
      (rule.body.map Symbol.text) (rule.label.map Symbol.text)) := by
  obtain ⟨dollar, -⟩ := head_written safe valid
  obtain ⟨inside, tail, body_format⟩ := bodyFormat_written safe valid.2
  have keyword : Keyword (publicChars isPublic) isPublic := by
    cases isPublic with
    | false => exact .absent
    | true => exact .present gap_space
  have format :=
    RuleFormat.mk keyword safe.head.isWord gap_space.blanks gap_space.blanks body_format
  have head_eq : String.ofList ('$' :: rule.head.name.toList) = rule.head.text := by
    rw [← dollar, String.ofList_toList]
  have body_eq : (rule.body.map (·.text.toList)).map String.ofList = rule.body.map Symbol.text := by
    simp
  rw [head_eq, body_eq] at format
  unfold ruleChars
  rw [tail, dollar]
  simpa using format

/-- The line of a rule. -/
def lineChars (isPublic : Bool) (rule : Rule) : List Char :=
  publicChars isPublic ++ ruleChars rule ++ [';']

theorem clean_lineChars (safe : rule.TextSafe) (valid : rule.Valid) (isPublic : Bool) :
    Clean (lineChars isPublic rule) := by
  obtain ⟨dollar, head⟩ := head_written safe valid
  have label : Clean (labelChars rule.label ++ [';']) := by
    cases h : rule.label with
    | none => exact ⟨by decide, by decide⟩
    | some symbol =>
      have braced : Clean (symbol.text.toList ++ ['\x7d', ';']) :=
        clean_append (safe.label symbol h).clean ⟨by decide, by decide⟩ (by simp)
      have opened := clean_cons (clean_cons braced (by decide : '\x7b' ≠ '/' ∧ '\x7b' ≠ '\n'))
        (by decide : ' ' ≠ '/' ∧ ' ' ≠ '\n')
      simpa [labelChars] using opened
  have apart : ∀ c ∈ (labelChars rule.label ++ [';']).head?, c ≠ '/' := by
    cases rule.label <;> simp [labelChars]
  have tail : Clean (tailChars rule ++ [';']) := by
    rw [tailChars, List.append_assoc]
    refine clean_flatMap (List.forall_mem_map.mpr fun symbol mem => ?_) label apart
    exact (safe.body symbol mem).clean
  have whole : Clean (ruleChars rule ++ [';']) := by
    rw [ruleChars, List.append_assoc]
    exact clean_append head.clean (clean_cons (clean_cons tail (by decide)) (by decide)) (by simp)
  rw [lineChars, List.append_assoc]
  refine clean_append ?_ whole ?_
  · cases isPublic <;> exact ⟨by decide, by decide⟩
  · simp [ruleChars, dollar]

/-- The line of a rule is read back. -/
theorem readItem_lineChars (safe : rule.TextSafe) (valid : rule.Valid) (isPublic first : Bool) :
    readItem first (lineChars isPublic rule) =
      .ok (.rule isPublic rule.head.text
        (rule.body.map Symbol.text) (rule.label.map Symbol.text)) := by
  have format := ruleFormat_written safe valid isPublic
  obtain ⟨bare, -⟩ := bare_of_ruleFormat format
  apply readItem_of_lineFormat
  rw [lineChars, content_statement (clean_lineChars safe valid isPublic) bare (by simp [ruleChars])]
  exact .rule format blanks_nil

end ChartParser.RuleFile
