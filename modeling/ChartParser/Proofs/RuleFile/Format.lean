import ChartParser.Proofs.RuleFile.Reader
import ChartParser.RuleFile.Format

/-! # The reader accepts exactly the format

Each step of the reader accepts the texts of one part of the format, so a line is read if and only
if it has the format of an item.
-/

namespace ChartParser.RuleFile

open Text

variable {cs text : List Char} {words : List (List Char)} {label : Option String} {item : Item}

/-! ## Symbols -/

theorem blanks_nil : Blanks [] := List.forall_mem_nil _

theorem gap_space : Gap [' '] := ⟨List.forall_mem_singleton.mpr rfl, List.cons_ne_nil _ _⟩

theorem Blanks.absent (blank : Blanks cs) {mark : Char} (other : isBlank mark = false) :
    mark ∉ cs := by
  intro mem
  rw [blank mark mem] at other
  nomatch other

/-- White space at the start of a text is not from what starts without. -/
theorem gap_ne_nil {gap rest : List Char} {c : Char} (first : ∀ c ∈ rest.head?, isBlank c = false)
    (here : (gap ++ rest).head? = some c) (blank : isBlank c = true) : gap ≠ [] := by
  rintro rfl
  rw [first c here] at blank
  nomatch blank

theorem IsWord.bare {marks : List Char} (word : IsWord marks cs) : Bare cs :=
  bare_of_clear fun c mem => (word.clear c mem).1

theorem IsWord.absent {marks : List Char} (word : IsWord marks cs) {mark : Char}
    (mem : mark ∈ marks) : mark ∉ cs :=
  fun cs_mem => (word.clear mark cs_mem).2 mem

/-- A text that its marks do not keep from being a body is one. -/
theorem spaced_words (bare : Bare cs) (nonempty : cs ≠ [])
    (clear : ∀ c ∈ cs, c ∉ ['\x7b', '|']) : Spaced cs (Text.words cs) := by
  induction length : cs.length using Nat.strong_induction_on generalizing cs with
  | _ n ih =>
    obtain ⟨word, rest, rfl, word_nonempty, word_clear, apart⟩ := exists_word bare.1 nonempty
    have word_format : IsWord ['\x7b', '|'] word :=
      ⟨word_nonempty, fun c mem => ⟨word_clear c mem, clear c (List.mem_append_left _ mem)⟩⟩
    obtain ⟨gap, text, rfl, blank, first⟩ : ∃ gap text, rest = gap ++ text ∧ Blanks gap ∧
        ∀ c ∈ text.head?, isBlank c = false :=
      ⟨rest.takeWhile isBlank, rest.dropWhile isBlank, List.takeWhile_append_dropWhile.symm,
        fun c mem => List.mem_takeWhile_imp mem, not_isBlank_head_dropWhile rest⟩
    rw [words_append word_clear word_nonempty apart, words_append_of_blank blank]
    by_cases more : text = []
    · subst more
      have none : gap = [] := by
        rw [List.append_nil] at bare
        exact eq_nil_of_bare_append_right blank bare
      subst none
      rw [List.append_nil, List.append_nil]
      exact .last word_format
    · have here := List.head?_eq_some_head (List.append_ne_nil_of_right_ne_nil gap more)
      have gap_nonempty : gap ≠ [] := gap_ne_nil first here (apart _ here)
      have text_bare : Bare text := by
        refine ⟨first, fun c mem => bare.2 c ?_⟩
        rwa [← List.append_assoc, List.getLast?_append_of_ne_nil _ more]
      have shorter : text.length < n := by
        have := List.length_pos_iff.mpr word_nonempty
        simp only [List.length_append] at length
        omega
      rw [← List.append_assoc]
      refine .more word_format ⟨blank, gap_nonempty⟩ (ih _ shorter text_bare more ?_ rfl)
      exact fun c mem => clear c (List.mem_append_right _ (List.mem_append_right _ mem))

theorem bare_of_spaced (h : Spaced cs words) : Bare cs ∧ cs ≠ [] := by
  induction h with
  | last word => exact ⟨word.bare, word.nonempty⟩
  | more word gap _ ih =>
    rw [List.append_assoc]
    exact ⟨bare_append word.bare ih.1 word.nonempty ih.2, by simp [ih.2]⟩

theorem absent_of_spaced (h : Spaced cs words) : '\x7b' ∉ cs ∧ '|' ∉ cs := by
  induction h with
  | last word => exact ⟨word.absent (by simp), word.absent (by simp)⟩
  | more word gap _ ih =>
    simp only [List.mem_append, not_or]
    exact ⟨⟨⟨word.absent (by simp), gap.blanks.absent rfl⟩, ih.1⟩,
      ⟨word.absent (by simp), gap.blanks.absent rfl⟩, ih.2⟩

theorem words_of_spaced (h : Spaced cs words) : Text.words cs = words ∧ words ≠ [] := by
  refine ⟨?_, by cases h <;> simp⟩
  induction h with
  | @last word format =>
    have alone : Text.words (word ++ []) = [word] :=
      words_append (fun c mem => (format.clear c mem).1) format.nonempty (by simp)
    rwa [List.append_nil] at alone
  | @more word gap text words format blank _ ih =>
    rw [List.append_assoc, words_append (fun c mem => (format.clear c mem).1) format.nonempty,
      words_append_of_blank blank.blanks, ih]
    rw [List.head?_append_of_ne_nil _ blank.nonempty]
    exact fun c mem => blank.blanks c (List.mem_of_mem_head? mem)

/-! ## Bodies -/

theorem bodyFormat_of_readBody {symbols : List Char} (bare : Bare text)
    (read : readBody text = .ok (symbols, label)) (single : '|' ∉ symbols)
    (nonempty : Text.words symbols ≠ []) : BodyFormat text (Text.words symbols) label := by
  have symbols_nonempty : symbols ≠ [] := by
    rintro rfl
    exact nonempty rfl
  have clear (absent : '\x7b' ∉ symbols) : ∀ c ∈ symbols, c ∉ ['\x7b', '|'] := by
    intro c mem
    simp only [List.mem_cons, List.not_mem_nil, or_false, not_or]
    exact ⟨fun h => absent (h ▸ mem), fun h => single (h ▸ mem)⟩
  rcases readBody_eq_ok.mp read with
    ⟨absent, rfl, rfl⟩ | ⟨front, inner, inside, absent, rfl, inside_read, rfl, rfl⟩
  · exact .plain (spaced_words bare symbols_nonempty (clear absent))
  · obtain ⟨padded, rfl, ⟨label_nonempty, label_clear⟩, rfl⟩ := readLabel_eq_ok.mp inside_read
    obtain ⟨before, before_blank, front_eq⟩ := exists_trim_left bare
    obtain ⟨left, right, left_blank, right_blank, padded_eq⟩ := exists_trim padded
    have symbols_bare := bare_trim front
    have label_bare := bare_trim padded
    generalize trim front = symbols at *
    generalize trim padded = inside at *
    subst front_eq padded_eq
    rw [List.mem_append, not_or] at absent
    have format := BodyFormat.labeled
      (spaced_words symbols_bare symbols_nonempty (clear absent.1)) before_blank left_blank
      right_blank label_nonempty label_bare label_clear
    simpa using format

theorem readBody_of_bodyFormat (format : BodyFormat text words label) : ∃ symbols,
    readBody text = .ok (symbols, label) ∧ '|' ∉ symbols ∧ Text.words symbols = words ∧
      words ≠ [] := by
  cases format with
  | plain spaced =>
    obtain ⟨brace, bar⟩ := absent_of_spaced spaced
    exact ⟨text, readBody_eq_ok.mpr (.inl ⟨brace, rfl, rfl⟩), bar, words_of_spaced spaced⟩
  | @labeled symbols before left label right words spaced before_blank left_blank right_blank
      nonempty label_bare clear =>
    obtain ⟨brace, bar⟩ := absent_of_spaced spaced
    obtain ⟨symbols_bare, symbols_nonempty⟩ := bare_of_spaced spaced
    have front_trim := trim_append_right before_blank symbols_bare symbols_nonempty
    have label_trim : trim (left ++ label ++ right) = label := by
      rw [List.append_assoc]
      exact trim_append left_blank right_blank label_bare nonempty
    have inside_read : readLabel (left ++ label ++ right ++ ['\x7d']) =
        .ok (String.ofList label) := by
      refine readLabel_eq_ok.mpr ⟨left ++ label ++ right, rfl, ?_⟩
      rw [label_trim]
      exact ⟨⟨nonempty, clear⟩, rfl⟩
    refine ⟨symbols, readBody_eq_ok.mpr (.inr ⟨symbols ++ before,
      left ++ label ++ right ++ ['\x7d'], String.ofList label, ?_, by simp, inside_read,
      front_trim.symm, rfl⟩), bar, words_of_spaced spaced⟩
    rw [List.mem_append, not_or]
    exact ⟨brace, before_blank.absent rfl⟩

theorem bare_of_bodyFormat (format : BodyFormat cs words label) : Bare cs ∧ cs ≠ [] := by
  cases format with
  | plain spaced => exact bare_of_spaced spaced
  | @labeled symbols before left label right words spaced =>
    obtain ⟨bare, nonempty⟩ := bare_of_spaced spaced
    refine ⟨?_, by simp⟩
    have closed : Bare ['\x7d'] := bare_of_any rfl
    have whole : Bare (symbols ++ ((before ++ '\x7b' :: left ++ label ++ right) ++ ['\x7d'])) :=
      bare_append bare closed nonempty (List.cons_ne_nil _ _)
    simpa using whole

/-! ## Rules -/

/-- The rest of a rule after its keyword, if the rule has one. -/
def afterKeyword (text : List Char) : Bool × List Char :=
  (afterPublic? text).elim (false, text) (true, ·)

theorem keyword_of_afterKeyword {isPublic : Bool} {rest : List Char} (bare : Bare text)
    (h : afterKeyword text = (isPublic, rest)) :
    Bare rest ∧ ∃ keyword, Keyword keyword isPublic ∧ text = keyword ++ rest := by
  unfold afterKeyword at h
  cases found : afterPublic? text with
  | none =>
    rw [found] at h
    cases h
    exact ⟨bare, [], .absent, rfl⟩
  | some after =>
    rw [found] at h
    cases h
    obtain ⟨c, more, blank, rfl, rfl⟩ := afterPublic?_eq_some.mp found
    have rest_bare := bare_trim (c :: more)
    obtain ⟨gap, gap_blank, whole⟩ := exists_trim_right bare
    generalize trim (c :: more) = rest at *
    have gap_nonempty : gap ≠ [] := gap_ne_nil rest_bare.1 (by rw [← whole]; rfl) blank
    refine ⟨rest_bare, "public".toList ++ gap, .present ⟨gap_blank, gap_nonempty⟩, ?_⟩
    rw [whole, List.append_assoc]

theorem afterKeyword_of_keyword {keyword rest : List Char} {isPublic : Bool}
    (format : Keyword keyword isPublic) (bare : Bare rest) (starts : rest.head? = some '$') :
    afterKeyword (keyword ++ rest) = (isPublic, rest) := by
  obtain ⟨more, rfl⟩ := List.head?_eq_some_iff.mp starts
  unfold afterKeyword
  cases format with
  | absent => rfl
  | @present gap blank =>
    have found : afterPublic? ("public".toList ++ gap ++ '$' :: more) = some ('$' :: more) := by
      obtain ⟨c, gap, rfl⟩ := List.exists_cons_of_ne_nil blank.nonempty
      refine afterPublic?_eq_some.mpr
        ⟨c, gap ++ '$' :: more, blank.blanks c (.head gap), by simp, ?_⟩
      exact (trim_append_left blank.blanks bare (List.cons_ne_nil _ _)).symm
    rw [found]
    rfl

theorem ruleFormat_of_readRule (bare : Bare text) (read : readRule text = .ok item) :
    RuleFormat text item := by
  obtain ⟨isPublic, rest, head, tail, symbols, label, keyword_eq, parts, head_ok, body_read, single,
    nonempty, rfl⟩ := readRule_eq_ok.mp read
  obtain ⟨rest_bare, keyword, keyword_format, rfl⟩ := keyword_of_afterKeyword bare keyword_eq
  obtain ⟨absent, rfl⟩ := splitAtFirst_eq_some.mp parts
  obtain ⟨name, head_eq, name_nonempty, clear⟩ := isHead_iff.mp head_ok
  have body_format := bodyFormat_of_readBody (bare_trim tail) body_read single nonempty
  have tail_bare : Bare (head ++ ['='] ++ tail) := by simpa using rest_bare
  obtain ⟨before, before_blank, whole⟩ := exists_trim_left rest_bare
  obtain ⟨after, after_blank, whole'⟩ := exists_trim_right tail_bare
  rw [head_eq] at whole ⊢
  generalize trim tail = body at *
  subst whole whole'
  have name_format : IsWord ['='] name := by
    refine ⟨name_nonempty, fun c mem => ⟨clear c mem, ?_⟩⟩
    simp only [List.mem_append, List.mem_cons, not_or] at absent
    rw [List.mem_singleton]
    rintro rfl
    exact absent.1.2 mem
  have format := RuleFormat.mk keyword_format name_format before_blank after_blank body_format
  simpa using format

theorem bare_head {name : List Char} (format : IsWord ['='] name) : Bare ('$' :: name) :=
  bare_of_clear (List.forall_mem_cons.mpr ⟨rfl, fun c mem => (format.clear c mem).1⟩)

/-- A rule without its keyword has no white space at its ends. -/
theorem bare_afterKeyword {name body : List Char} (name_format : IsWord ['='] name)
    (body_format : BodyFormat body words label) (before after : List Char) :
    Bare ('$' :: name ++ before ++ '=' :: after ++ body) := by
  obtain ⟨body_bare, body_nonempty⟩ := bare_of_bodyFormat body_format
  have whole : Bare ('$' :: name ++ ((before ++ '=' :: after) ++ body)) :=
    bare_append (bare_head name_format) body_bare (List.cons_ne_nil _ _) body_nonempty
  simpa using whole

theorem readRule_of_ruleFormat (format : RuleFormat text item) : readRule text = .ok item := by
  cases format with
  | @mk keyword name before after body isPublic words label keyword_format name_format
      before_blank after_blank body_format =>
    obtain ⟨body_bare, body_nonempty⟩ := bare_of_bodyFormat body_format
    obtain ⟨symbols, read, single, rfl, nonempty⟩ := readBody_of_bodyFormat body_format
    have rest_bare := bare_afterKeyword name_format body_format before after
    have head_trim : trim ('$' :: name ++ before) = '$' :: name :=
      trim_append_right before_blank (bare_head name_format) (List.cons_ne_nil _ _)
    have body_trim : trim (after ++ body) = body :=
      trim_append_left after_blank body_bare body_nonempty
    refine readRule_eq_ok.mpr ⟨isPublic, '$' :: name ++ before ++ '=' :: after ++ body,
      '$' :: name ++ before, after ++ body, symbols, label, ?_, ?_, ?_, ?_, single, nonempty, ?_⟩
    · exact afterKeyword_of_keyword keyword_format rest_bare rfl
    · refine splitAtFirst_eq_some.mpr ⟨?_, by simp⟩
      rw [List.mem_append, List.mem_cons, not_or, not_or]
      exact ⟨⟨by decide, name_format.absent (by simp)⟩, before_blank.absent rfl⟩
    · rw [head_trim]
      exact isHead_iff.mpr ⟨name, rfl, name_format.nonempty,
        fun c mem => (name_format.clear c mem).1⟩
    · rw [body_trim, read]
    · rw [head_trim]

/-- A rule has no white space at its ends. It starts with the dollar sign of its head or with the
keyword. -/
theorem bare_of_ruleFormat (format : RuleFormat text item) :
    Bare text ∧ (text.head? = some '$' ∨ text.head? = some 'p') := by
  obtain ⟨keyword_format, name_format, -, -, body_format⟩ := format
  have rest_bare := bare_afterKeyword name_format body_format
  cases keyword_format with
  | absent => exact ⟨rest_bare _ _, .inl rfl⟩
  | present gap =>
    refine ⟨?_, .inr rfl⟩
    rw [List.append_assoc]
    exact bare_append (bare_of_any rfl) (rest_bare _ _) (by decide) (List.cons_ne_nil _ _)

/-! ## Lines -/

theorem isHeader_iff {line : List Char} : isHeader line = true ↔
    ∃ start rest, line = start ++ rest ∧ start.map Char.toLower = "#abnf".toList := by
  rw [isHeader, List.isPrefixOf_iff_prefix]
  constructor
  · rintro ⟨after, whole⟩
    obtain ⟨start, rest, rfl, start_eq, -⟩ := List.map_eq_append_iff.mp whole.symm
    exact ⟨start, rest, rfl, start_eq⟩
  · rintro ⟨start, rest, rfl, start_eq⟩
    rw [List.map_append, start_eq]
    exact List.prefix_append _ _

theorem eq_hash_of_toLower {c : Char} (lower : c.toLower = '#') : c = '#' := by
  unfold Char.toLower at lower
  split at lower
  · next upper =>
    have same := congrArg (·.val.toNat) lower
    simp only [ge_iff_le, UInt32.le_iff_toNat_le] at upper
    simp at same upper
    omega
  · exact lower

theorem exists_of_readLanguage {rest : List Char} (bare : Bare ("language".toList ++ rest))
    (read : readLanguage rest = .ok item) : ∃ gap tag, Blanks gap ∧ IsWord [] tag ∧
      rest = gap ++ tag ∧ item = .language (String.ofList tag) := by
  obtain ⟨⟨nonempty, clear⟩, rfl⟩ := readLanguage_eq_ok.mp read
  obtain ⟨gap, gap_blank, whole⟩ := exists_trim_right bare
  exact ⟨gap, trim rest, gap_blank, ⟨nonempty, fun c mem => ⟨clear c mem, by simp⟩⟩, whole, rfl⟩

/-- A line that is read has the format of its item, but that a tag may follow the keyword
`language` without white space. -/
theorem format_of_readItem {first : Bool} {line : List Char}
    (read : readItem first line = .ok item) : LineFormat (first = true) (content line) item ∨
      ∃ tag, item = .language tag ∧ GluedTag (content line) tag := by
  have bare : Bare (content line) := bare_trim _
  unfold readItem at read
  dsimp only at read
  generalize content line = text at *
  split at read
  · next empty =>
    cases read
    rw [List.head?_eq_none_iff.mp empty]
    exact .inl .blank
  · split at read
    · next header =>
      cases read
      rw [Bool.and_eq_true] at header
      obtain ⟨start, rest, rfl, start_eq⟩ := isHeader_iff.mp header.2
      exact .inl (.header header.1 start_eq)
    · nomatch read
  · split at read
    · next ends =>
      obtain ⟨front, rfl⟩ := List.getLast?_eq_some_iff.mp ends
      rw [List.dropLast_concat] at read
      obtain ⟨after, after_blank, front_eq⟩ := exists_trim_left bare
      have body_bare := bare_trim front
      generalize trim front = body at *
      subst front_eq
      split at read
      · next rest found =>
        rw [List.isPrefixOf?_eq_some_iff_append_eq] at found
        subst found
        obtain ⟨gap, tag, gap_blank, tag_format, rfl, rfl⟩ := exists_of_readLanguage body_bare read
        rw [← List.append_assoc]
        by_cases glued : gap = []
        · subst glued
          rw [List.append_nil]
          exact .inr ⟨_, rfl, .mk tag_format after_blank⟩
        · exact .inl (.language ⟨gap_blank, glued⟩ tag_format after_blank)
      · exact .inl (.rule (ruleFormat_of_readRule body_bare read) after_blank)
    · nomatch read

theorem glued_of_gluedTag {line : List Char} {tag : String} (glued : GluedTag line tag) :
    Glued line := by
  obtain @⟨tag, after, tag_format, -⟩ := glued
  obtain ⟨c, tag, rfl⟩ := List.exists_cons_of_ne_nil tag_format.nonempty
  exact ⟨c, tag ++ after ++ [';'], (tag_format.clear c (.head tag)).1, by simp⟩

theorem lineFormat_of_readItem {first : Bool} {line : List Char} (apart : ¬ Glued (content line))
    (read : readItem first line = .ok item) : LineFormat (first = true) (content line) item :=
  (format_of_readItem read).resolve_right fun ⟨_, _, glued⟩ => apart (glued_of_gluedTag glued)

/-- A tag is read with or without white space before it. -/
theorem readItem_of_language {line gap tag after : List Char}
    (whole : content line = "language".toList ++ gap ++ tag ++ after ++ [';'])
    (gap_blank : Blanks gap) (tag_format : IsWord [] tag) (after_blank : Blanks after)
    (first : Bool) : readItem first line = .ok (.language (String.ofList tag)) := by
  have keyword : Bare "language".toList := bare_of_any rfl
  have bare : Bare ("language".toList ++ (gap ++ tag)) :=
    bare_append keyword tag_format.bare (by decide) tag_format.nonempty
  have found : "language".toList.isPrefixOf? ("language".toList ++ (gap ++ tag)) =
      some (gap ++ tag) := List.isPrefixOf?_eq_some_iff_append_eq.mpr rfl
  have trimmed := trim_append_left gap_blank tag_format.bare tag_format.nonempty
  rw [List.append_assoc _ gap] at whole
  rw [readItem_of_content whole bare after_blank rfl (by decide), found]
  refine readLanguage_eq_ok.mpr ?_
  rw [trimmed]
  exact ⟨⟨tag_format.nonempty, fun c mem => (tag_format.clear c mem).1⟩, rfl⟩

theorem readItem_of_gluedTag {line : List Char} {tag : String}
    (glued : GluedTag (content line) tag) (first : Bool) :
    readItem first line = .ok (.language tag) := by
  generalize whole : content line = text at glued
  obtain ⟨tag_format, after_blank⟩ := glued
  rw [← List.append_nil "language".toList] at whole
  exact readItem_of_language whole blanks_nil tag_format after_blank first

theorem readItem_of_lineFormat {first : Bool} {line : List Char}
    (format : LineFormat (first = true) (content line) item) : readItem first line = .ok item := by
  generalize whole : content line = text at format
  cases format with
  | blank =>
    unfold readItem
    rw [whole]
    rfl
  | @header start rest is_first start_eq =>
    have header : isHeader (start ++ rest) = true := isHeader_iff.mpr ⟨start, rest, rfl, start_eq⟩
    obtain ⟨c, more, rfl, lower, -⟩ := List.map_eq_cons_iff.mp start_eq
    cases eq_hash_of_toLower lower
    unfold readItem
    rw [whole]
    simp only [List.cons_append, List.head?_cons]
    rw [if_pos]
    rw [is_first, Bool.true_and]
    exact header
  | @language gap tag after gap_format tag_format blank =>
    exact readItem_of_language whole gap_format.blanks tag_format blank first
  | @rule body after _ rule_format blank =>
    obtain ⟨bare, starts⟩ := bare_of_ruleFormat rule_format
    obtain ⟨c, starts, other, no_language⟩ : ∃ c, body.head? = some c ∧ c ≠ '#' ∧
        "language".toList.isPrefixOf? body = none := by
      rcases starts with starts | starts
      · obtain ⟨more, rfl⟩ := List.head?_eq_some_iff.mp starts
        exact ⟨'$', rfl, by decide, rfl⟩
      · obtain ⟨more, rfl⟩ := List.head?_eq_some_iff.mp starts
        exact ⟨'p', rfl, by decide, rfl⟩
    rw [readItem_of_content whole bare blank starts other, no_language]
    exact readRule_of_ruleFormat rule_format

/-- A line is read exactly if it has the format of what is read. -/
theorem readItem_eq_ok_iff {first : Bool} {line : List Char} (apart : ¬ Glued (content line)) :
    readItem first line = .ok item ↔ LineFormat (first = true) (content line) item :=
  ⟨lineFormat_of_readItem apart, readItem_of_lineFormat⟩

end ChartParser.RuleFile
