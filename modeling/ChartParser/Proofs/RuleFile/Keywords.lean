import ChartParser.Proofs.Grammar.Format

/-! # The keywords of rule files

The keyword `public` is a whole word. The keyword `language` is one too, unless a tag follows it
without white space: such a tag is read, although no word of the line is the keyword.
-/

namespace ChartParser.RuleFile

open Text

variable {text : String} {line i : Nat} {first : Bool} {lines : List (List Char)} {file : RuleFile}

/-- The line starts with the keyword and goes on without white space. -/
def GluedTo (keyword : String) (line : List Char) : Prop :=
  ∃ c rest, isBlank c = false ∧ line = keyword.toList ++ c :: rest

/-- Reading the text fails in this line or in one before it. -/
def FailsBy (text : String) (line : Nat) : Prop :=
  ∃ error, read text = .error error ∧ error.line ≤ line

/-! ## First words -/

theorem head?_words {word rest : List Char} (clear : ∀ c ∈ word, isBlank c = false)
    (nonempty : word ≠ []) (apart : ∀ c ∈ rest.head?, isBlank c = true) :
    (words (word ++ rest)).head? = some word := by
  rw [words_append clear nonempty apart]
  rfl

theorem head?_words_of_gap {keyword gap rest : List Char}
    (clear : ∀ c ∈ keyword, isBlank c = false) (nonempty : keyword ≠ []) (blank : Gap gap) :
    (words (keyword ++ (gap ++ rest))).head? = some keyword := by
  apply head?_words clear nonempty
  rw [List.head?_append_of_ne_nil _ blank.nonempty]
  exact fun c mem => blank.blanks c (List.mem_of_mem_head? mem)

/-- The first word starts as the text does. -/
theorem head?_of_head?_words {cs word : List Char} {c : Char} (starts : cs.head? = some c)
    (clear : isBlank c = false) (h : (words cs).head? = some word) : word.head? = some c := by
  have nonempty : cs ≠ [] := by
    rintro rfl
    nomatch starts
  obtain ⟨front, rest, rfl, front_nonempty, front_clear, apart⟩ :=
    exists_word (by simpa [starts] using clear) nonempty
  rw [head?_words front_clear front_nonempty apart] at h
  rw [← Option.some.inj h, ← starts, List.head?_append_of_ne_nil _ front_nonempty]

theorem head?_words_of_language {first : Prop} {line : List Char} {tag : String}
    (format : LineFormat first line (.language tag)) :
    (words line).head? = some "language".toList := by
  cases format with
  | @language gap tag after blank =>
    simp only [List.append_assoc]
    exact head?_words_of_gap (by simp; decide) (by decide) blank
  | rule format => nomatch format

/-- A rule is public exactly if the keyword is the first word of its line. -/
theorem isPublic_iff {first : Prop} {line : List Char} {isPublic : Bool} {head : String}
    {body : List String} {label : Option String}
    (format : LineFormat first line (.rule isPublic head body label)) :
    isPublic = true ↔ (words line).head? = some "public".toList := by
  cases format with
  | rule format =>
    obtain @⟨keyword, name, before, after, symbols, isPublic, _, _, keyword_format⟩ := format
    cases keyword_format with
    | absent =>
      simp only [Bool.false_eq_true, false_iff]
      intro public_first
      have dollar : "public".toList.head? = some '$' :=
        head?_of_head?_words (by simp) rfl public_first
      nomatch dollar
    | present blank =>
      simp only [List.append_assoc, true_iff]
      exact head?_words_of_gap (by simp; decide) (by decide) blank

/-! ## Glued keywords -/

theorem not_glued_of_gap {keyword gap more rest : List Char} {c : Char} (blank : Gap gap)
    (whole : keyword ++ (gap ++ more) = keyword ++ c :: rest) : isBlank c = true := by
  obtain ⟨space, gap, rfl⟩ := List.exists_cons_of_ne_nil blank.nonempty
  rw [List.append_cancel_left_eq, List.cons_append, List.cons.injEq] at whole
  exact whole.1 ▸ blank.blanks space (.head gap)

/-- White space follows the keyword with which a line starts. -/
theorem exists_gap_of_lineFormat {first : Prop} {line : List Char} {item : Item} {c : Char}
    (format : LineFormat first line item) (starts : line.head? = some c)
    (initial : c = 'l' ∨ c = 'p') : ∃ keyword gap rest, Gap gap ∧
      line = keyword ++ (gap ++ rest) ∧ keyword.head? = some c ∧
        (keyword = "language".toList ∨ keyword = "public".toList) := by
  cases format with
  | blank => nomatch starts
  | @header start rest _ start_eq =>
    obtain ⟨d, start, rfl, lower, -⟩ := List.map_eq_cons_iff.mp start_eq
    cases eq_hash_of_toLower lower
    cases starts
    rcases initial with other | other <;> nomatch other
  | @language gap tag after blank =>
    exact ⟨"language".toList, gap, tag ++ (after ++ [';']), blank, by simp only [List.append_assoc],
      starts, .inl rfl⟩
  | @rule _ after _ format =>
    obtain @⟨_, name, before, space, body, _, _, _, absent | @⟨gap, blank⟩⟩ := format
    · cases starts
      rcases initial with other | other <;> nomatch other
    · exact ⟨"public".toList, gap,
        ('$' :: name ++ before ++ '=' :: space ++ body) ++ (after ++ [';']), blank,
        by simp only [List.append_assoc], starts, .inr rfl⟩

/-- No format of a line allows a keyword that goes on without white space. -/
theorem not_lineFormat_of_gluedTo {first : Prop} {keyword : String} {line : List Char} {item : Item}
    (named : keyword = "language" ∨ keyword = "public") (glued : GluedTo keyword line) :
    ¬ LineFormat first line item := by
  intro format
  obtain ⟨c, rest, clear, rfl⟩ := glued
  suffices blank : isBlank c = true by simp [clear] at blank
  rcases named with rfl | rfl
  · obtain ⟨_, gap, more, blank, whole, starts, rfl | rfl⟩ :=
      exists_gap_of_lineFormat format rfl (.inl rfl)
    · exact not_glued_of_gap blank whole.symm
    · nomatch starts
  · obtain ⟨_, gap, more, blank, whole, starts, rfl | rfl⟩ :=
      exists_gap_of_lineFormat format rfl (.inr rfl)
    · nomatch starts
    · exact not_glued_of_gap blank whole.symm

/-! ## Files -/

/-- What a file says comes from its lines one by one. -/
theorem exists_items_of_readLines (h : readLines line first lines = .ok file) :
    ∃ items, file = collect line items ∧
      List.Forall₂ (fun text item => ∃ first, readItem first text = .ok item) lines items := by
  induction lines generalizing line first file with
  | nil =>
    cases h
    exact ⟨[], rfl, .nil⟩
  | cons text more ih =>
    rw [readLines] at h
    split at h
    · cases h
    · next item read =>
      cases rest : readLines (line + 1) (first && item == .blank) more with
      | error error =>
        rw [rest] at h
        cases h
      | ok file =>
        rw [rest] at h
        cases h
        obtain ⟨items, rfl, all⟩ := ih rest
        exact ⟨item :: items, addFirst_collect line item items, .cons ⟨first, read⟩ all⟩

/-- A line that cannot be read makes the file fail, unless an earlier line does. -/
theorem readLines_of_unreadable {text : List Char} (here : lines[i]? = some text)
    (unreadable : ∀ first item, readItem first text ≠ .ok item) :
    ∃ error, readLines line first lines = .error error ∧ error.line ≤ line + i := by
  induction lines generalizing line first i with
  | nil => nomatch here
  | cons head more ih =>
    rw [readLines]
    cases read : readItem first head with
    | error fault => exact ⟨_, rfl, Nat.le_add_right line i⟩
    | ok item =>
      cases i with
      | zero =>
        cases here
        exact absurd read (unreadable first item)
      | succ i =>
        obtain ⟨error, rest, le⟩ : ∃ error, readLines (line + 1) (first && item == .blank) more =
            .error error ∧ error.line ≤ line + 1 + i := ih here
        refine ⟨error, ?_, by omega⟩
        simp only [rest, Except.map]

/-- Each item of a file has the format of its line, or is a tag that is glued to its keyword. -/
theorem exists_formats_of_read {text : String} (h : read text = .ok file) :
    ∃ items, file = collect 1 items ∧ ∀ (i : Nat) (item : Item), items[i]? = some item →
      ∃ line first, (contents text)[i]? = some line ∧
        (LineFormat first line item ∨ ∃ tag, item = .language tag ∧ GluedTag line tag) := by
  obtain ⟨items, rfl, all⟩ := exists_items_of_readLines h
  refine ⟨items, rfl, fun i item known => ?_⟩
  obtain ⟨inside, rfl⟩ := List.getElem?_eq_some_iff.mp known
  have inside' : i < (lines text.toList).length := all.length_eq ▸ inside
  obtain ⟨first, read⟩ := all.get inside' inside
  refine ⟨content (lines text.toList)[i], first = true, ?_, format_of_readItem read⟩
  rw [contents, List.getElem?_map, List.getElem?_eq_getElem inside', Option.map_some]

theorem failsBy_of_unreadable {line : List Char} (here : (contents text)[i]? = some line)
    (unreadable : ∀ raw, content raw = line → ∀ first item, readItem first raw ≠ .ok item) :
    FailsBy text (i + 1) := by
  rw [contents, List.getElem?_map, Option.map_eq_some_iff] at here
  obtain ⟨raw, known, rfl⟩ := here
  rw [FailsBy, Nat.add_comm]
  exact readLines_of_unreadable known (unreadable raw rfl)

/-! ## Keywords -/

/-- A language may come after any lines. -/
theorem lineFormat_language {first second : Prop} {line : List Char} {tag : String}
    (format : LineFormat first line (.language tag)) : LineFormat second line (.language tag) := by
  cases format with
  | language gap tag after => exact .language gap tag after
  | rule format => nomatch format

theorem not_gluedTag_of_public {line : List Char} {tag : String} (glued : GluedTo "public" line) :
    ¬ GluedTag line tag := by
  intro tagged
  obtain ⟨_, _, -, rfl⟩ := glued
  obtain ⟨_, _, -, whole⟩ := glued_of_gluedTag tagged
  nomatch congrArg List.head? whole

theorem language_of_collect {items : List Item} {tag : String}
    (h : (collect line items).language = some tag) :
    ∃ i : Nat, items[i]? = some (.language tag) := by
  obtain ⟨item, mem, tag_eq⟩ := List.mem_filterMap.mp (List.mem_of_getLast? h)
  cases item with
  | language tag =>
    cases tag_eq
    exact List.mem_iff_getElem?.mp mem
  | blank | header | rule => nomatch tag_eq

theorem rule_of_collect {items : List Item} {spec : RuleSpec}
    (h : spec ∈ (collect line items).rules) : ∃ i : Nat, spec.line = line + i ∧
      items[i]? = some (.rule spec.isPublic spec.head spec.body spec.label) := by
  obtain ⟨⟨item, number⟩, mem, spec_eq⟩ := List.mem_filterMap.mp h
  obtain ⟨le, known⟩ := List.mk_mem_zipIdx_iff_le_and_getElem?_sub.mp mem
  cases item with
  | rule =>
    cases spec_eq
    exact ⟨number - line, (Nat.add_sub_cancel' le).symm, known⟩
  | blank | header | language => nomatch spec_eq

/-- What the keywords of a file say. A rule is public if the first word of its line is `public`. A
language stands in a line whose first word is `language`, or which is a tag glued to this keyword.
Lines with other glued keywords are not read. -/
theorem keywords_of_read (text : String) :
    (∀ file, read text = .ok file →
      (∀ tag, file.language = some tag → ∃ line ∈ contents text,
        LineFormat False line (.language tag) ∧
          (words line).head? = some "language".toList ∨ GluedTag line tag) ∧
      ∀ spec ∈ file.rules, ∃ i line, spec.line = 1 + i ∧ (contents text)[i]? = some line ∧
        (spec.isPublic = true ↔ (words line).head? = some "public".toList)) ∧
    (∀ i line, (contents text)[i]? = some line →
      (GluedTo "public" line → FailsBy text (i + 1)) ∧
      (GluedTo "language" line → FailsBy text (i + 1) ∨ ∃ tag, GluedTag line tag)) ∧
    ∀ raw tag, GluedTag (content raw) tag →
      ∀ first, readItem first raw = .ok (.language tag) := by
  refine ⟨fun file file_eq => ?_, fun i line here => ⟨fun glued => ?_, fun glued => ?_⟩,
    fun raw tag => readItem_of_gluedTag⟩
  · obtain ⟨items, rfl, formats⟩ := exists_formats_of_read file_eq
    refine ⟨fun tag last => ?_, fun spec mem => ?_⟩
    · obtain ⟨i, known⟩ := language_of_collect last
      obtain ⟨line, first, here, format | ⟨_, same, glued⟩⟩ := formats i _ known
      · exact ⟨line, List.mem_of_getElem? here,
          .inl ⟨lineFormat_language format, head?_words_of_language format⟩⟩
      · cases same
        exact ⟨line, List.mem_of_getElem? here, .inr glued⟩
    · obtain ⟨i, number, known⟩ := rule_of_collect mem
      obtain ⟨line, first, here, format | ⟨_, other, -⟩⟩ := formats i _ known
      · exact ⟨i, line, number, here, isPublic_iff format⟩
      · nomatch other
  · apply failsBy_of_unreadable here
    rintro raw rfl first item read
    rcases format_of_readItem read with format | ⟨tag, -, tagged⟩
    · exact not_lineFormat_of_gluedTo (.inr rfl) glued format
    · exact not_gluedTag_of_public glued tagged
  · by_cases tagged : ∃ tag, GluedTag line tag
    · exact .inr tagged
    · refine .inl (failsBy_of_unreadable here ?_)
      rintro raw rfl first item read
      rcases format_of_readItem read with format | ⟨tag, -, tag_glued⟩
      · exact not_lineFormat_of_gluedTo (.inl rfl) glued format
      · exact tagged ⟨tag, tag_glued⟩

/-- A symbol that starts with the keyword `public` is no public rule. -/
theorem keywords_of_read_glued_public : GluedTo "public" "publicS = a;".toList ∧
    FailsBy "language en;\npublicS = a;\npublic $S = a" 2 := by
  have glued : GluedTo "public" "publicS = a;".toList := ⟨'S', " = a;".toList, rfl, by decide⟩
  exact ⟨glued, ((keywords_of_read _).2.1 1 _ (by decide)).1 glued⟩

/-- A tag is glued to the keyword, and the line is read all the same. -/
theorem read_glued_language : (contents "languageen;\npublic $S = a;")[0]? =
      some "languageen;".toList ∧
    GluedTo "language" "languageen;".toList ∧
    (words "languageen;".toList).head? ≠ some "language".toList ∧
    read "languageen;\npublic $S = a;" = .ok ⟨some "en", [⟨2, true, "$S", ["a"], none⟩]⟩ ∧
    ¬ FailsBy "languageen;\npublic $S = a;" 1 := by
  have file_eq : read "languageen;\npublic $S = a;" =
      .ok ⟨some "en", [⟨2, true, "$S", ["a"], none⟩]⟩ := by decide
  refine ⟨by decide, ⟨'e', "n;".toList, rfl, by decide⟩, by decide, file_eq, ?_⟩
  rintro ⟨error, error_eq, -⟩
  rw [file_eq] at error_eq
  nomatch error_eq

end ChartParser.RuleFile
