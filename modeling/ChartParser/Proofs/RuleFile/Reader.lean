import Mathlib.Data.List.Chain
import ChartParser.Grammar.TextSafe
import ChartParser.Proofs.Except
import ChartParser.Proofs.Text.Pieces

/-! # What the reader returns

Each step of the reader succeeds on texts of one shape. All that it returns is a part of one line
without its comment, and it is cut at the marks that would not be read back.
-/

namespace ChartParser.RuleFile

open Text

variable {cs part text rest symbols : List Char} {item : Item}

/-! ## Comments -/

theorem uncommented_iff_isChain :
    Uncommented cs ↔ cs.IsChain fun a b => ¬ (a = '/' ∧ b = '/') := by
  rw [List.isChain_iff_forall_rel_of_append_cons_cons, Uncommented]
  constructor
  · rintro clean a b before after rfl ⟨rfl, rfl⟩
    exact clean ⟨before, after, by simp⟩
  · rintro apart ⟨before, after, rfl⟩
    exact apart (by simp : _ = before ++ '/' :: '/' :: after) ⟨rfl, rfl⟩

theorem cutComment_isPrefix (cs : List Char) : cutComment cs <+: cs := by
  induction cs with
  | nil => exact List.prefix_refl []
  | cons c cs ih =>
    unfold cutComment
    split
    · exact List.nil_prefix
    · exact List.cons_prefix_cons.mpr ⟨rfl, ih⟩

theorem uncommented_cutComment (cs : List Char) : Uncommented (cutComment cs) := by
  rw [uncommented_iff_isChain]
  induction cs with
  | nil => exact .nil
  | cons c cs ih =>
    unfold cutComment
    split
    · exact .nil
    · next none =>
      refine List.isChain_cons.mpr ⟨?_, ih⟩
      rintro b mem ⟨slash, rfl⟩
      obtain ⟨more, whole⟩ := cutComment_isPrefix cs
      apply none
      rw [← whole, List.head?_append, Option.mem_def.mp mem]
      exact ⟨slash, rfl⟩

theorem cutComment_of_uncommented (h : Uncommented cs) : cutComment cs = cs := by
  rw [uncommented_iff_isChain] at h
  induction cs with
  | nil => rfl
  | cons c cs ih =>
    obtain ⟨apart, rest⟩ := List.isChain_cons.mp h
    rw [cutComment, if_neg, ih rest]
    rintro ⟨slash, next⟩
    exact apart '/' next ⟨slash, rfl⟩

/-- A text from one line without its comment. -/
structure Clean (cs : List Char) : Prop where
  uncommented : Uncommented cs
  newline : '\n' ∉ cs

theorem Clean.mono (clean : Clean cs) (h : part <:+: cs) : Clean part :=
  ⟨fun slashes => clean.uncommented (slashes.trans h), fun mem => clean.newline (h.subset mem)⟩

theorem Clean.trim (clean : Clean cs) : Clean (trim cs) := clean.mono (trim_isInfix cs)

theorem clean_append {front back : List Char} (first : Clean front) (second : Clean back)
    (apart : ∀ c ∈ back.head?, c ≠ '/') : Clean (front ++ back) := by
  refine ⟨?_, by simp [first.newline, second.newline]⟩
  rw [uncommented_iff_isChain]
  refine List.isChain_append.mpr ⟨uncommented_iff_isChain.mp first.uncommented,
    uncommented_iff_isChain.mp second.uncommented, ?_⟩
  rintro a - b mem ⟨-, slash⟩
  exact apart b mem slash

theorem clean_cons {c : Char} (h : Clean cs) (plain : c ≠ '/' ∧ c ≠ '\n') : Clean (c :: cs) := by
  refine ⟨?_, by simp [h.newline, plain.2.symm]⟩
  rw [uncommented_iff_isChain]
  refine List.isChain_cons.mpr ⟨?_, uncommented_iff_isChain.mp h.uncommented⟩
  rintro b - ⟨slash, -⟩
  exact plain.1 slash

theorem Clean.parts {front back : List Char} {c : Char} (clean : Clean (front ++ c :: back)) :
    Clean front ∧ Clean back :=
  ⟨clean.mono (List.prefix_append front _).isInfix,
    clean.mono ((List.suffix_cons c back).trans (List.suffix_append front _)).isInfix⟩

theorem clean_content {line : List Char} (h : '\n' ∉ line) : Clean (content line) := by
  apply Clean.trim
  exact ⟨uncommented_cutComment line, fun mem => h ((cutComment_isPrefix line).subset mem)⟩

/-! ## Shapes that are read -/

theorem readLanguage_eq_ok : readLanguage text = .ok item ↔
    (trim text ≠ [] ∧ ∀ c ∈ trim text, isBlank c = false) ∧
      item = .language (String.ofList (trim text)) := by
  have good : ((trim text).isEmpty || (trim text).any isBlank) = false ↔
      trim text ≠ [] ∧ ∀ c ∈ trim text, isBlank c = false := by simp
  rw [← good]
  unfold readLanguage
  dsimp only
  split
  · next bad => rw [bad]; simp
  · next fine =>
    rw [Bool.not_eq_true] at fine
    rw [fine, Except.ok.injEq, eq_comm]
    simp

theorem afterPublic?_eq_some : afterPublic? text = some rest ↔
    ∃ c more, isBlank c = true ∧ text = "public".toList ++ c :: more ∧ rest = trim (c :: more) := by
  have found (more : List Char) : text = "public".toList ++ more ↔
      "public".toList.isPrefixOf? text = some more := by
    rw [List.isPrefixOf?_eq_some_iff_append_eq, eq_comm]
  simp only [found]
  unfold afterPublic?
  generalize "public".toList.isPrefixOf? text = after
  constructor
  · intro h
    split at h
    · next c more =>
      split at h
      · next blank => exact ⟨c, more, blank, rfl, (Option.some.inj h).symm⟩
      · nomatch h
    · nomatch h
  · rintro ⟨c, more, blank, rfl, rfl⟩
    simp [blank]

theorem isHead_iff : isHead text = true ↔
    ∃ name, text = '$' :: name ∧ name ≠ [] ∧ ∀ c ∈ name, isBlank c = false := by
  cases text with
  | nil => simp [isHead]
  | cons c name =>
    have parts : isHead (c :: name) = true ↔
        (c = '$' ∧ name ≠ []) ∧ isBlank c = false ∧ ∀ x ∈ name, isBlank x = false := by
      simp [isHead]
    rw [parts]
    constructor
    · rintro ⟨⟨rfl, named⟩, -, clear⟩
      exact ⟨name, rfl, named, clear⟩
    · rintro ⟨_, h, named, clear⟩
      cases h
      exact ⟨⟨rfl, named⟩, rfl, clear⟩

theorem readLabel_eq_ok {label : String} : readLabel text = .ok label ↔
    ∃ inner, text = inner ++ ['\x7d'] ∧ (trim inner ≠ [] ∧
      ∀ c ∈ trim inner, c ≠ '\x7b' ∧ c ≠ '\x7d') ∧ label = String.ofList (trim inner) := by
  have good (inner : List Char) : ((trim inner).isEmpty ||
      (trim inner).any fun c => c == '\x7b' || c == '\x7d') = false ↔
        trim inner ≠ [] ∧ ∀ c ∈ trim inner, c ≠ '\x7b' ∧ c ≠ '\x7d' := by simp
  simp only [← good]
  unfold readLabel
  split
  · next closed =>
    obtain ⟨inner, rfl⟩ := List.getLast?_eq_some_iff.mp closed
    simp only [List.dropLast_concat, List.append_cancel_right_eq, exists_eq_left']
    split
    · next bad => rw [bad]; simp
    · next fine =>
      rw [Bool.not_eq_true] at fine
      rw [fine, Except.ok.injEq, eq_comm]
      simp
  · next opened =>
    constructor
    · intro h
      nomatch h
    · rintro ⟨inner, rfl, -⟩
      simp at opened

theorem readBody_eq_ok {label : Option String} : readBody text = .ok (symbols, label) ↔
    ('\x7b' ∉ text ∧ symbols = text ∧ label = none) ∨
      ∃ front inner inside, '\x7b' ∉ front ∧ text = front ++ '\x7b' :: inner ∧
        readLabel inner = .ok inside ∧ symbols = trim front ∧ label = some inside := by
  unfold readBody
  split
  · next unlabeled =>
    have absent := splitAtFirst_eq_none.mp unlabeled
    constructor
    · intro h
      cases h
      exact .inl ⟨absent, rfl, rfl⟩
    · rintro (⟨-, rfl, rfl⟩ | ⟨front, inner, inside, -, rfl, -⟩)
      · rfl
      · simp at absent
  · next front inner found =>
    obtain ⟨absent, rfl⟩ := splitAtFirst_eq_some.mp found
    rw [bind_eq_ok]
    constructor
    · rintro ⟨inside, read, h⟩
      cases h
      exact .inr ⟨front, inner, inside, absent, rfl, read, rfl, rfl⟩
    · rintro (⟨other, -⟩ | ⟨front', inner', inside, absent', whole, read, rfl, rfl⟩)
      · simp at other
      · rw [splitAtFirst_eq_some.mpr ⟨absent', whole⟩] at found
        cases found
        exact ⟨inside, read, rfl⟩

theorem readRule_eq_ok : readRule text = .ok item ↔ ∃ isPublic rest head tail symbols label,
    (afterPublic? text).elim (false, text) (true, ·) = (isPublic, rest) ∧
    splitAtFirst '=' rest = some (head, tail) ∧ isHead (trim head) = true ∧
    readBody (trim tail) = .ok (symbols, label) ∧ '|' ∉ symbols ∧ words symbols ≠ [] ∧
    item = .rule isPublic (String.ofList (trim head)) ((words symbols).map String.ofList)
      label := by
  unfold readRule
  split
  next isPublic rest keyword =>
  have same : (afterPublic? text).elim (false, text) (true, ·) = (isPublic, rest) := by
    rw [← keyword]
    cases afterPublic? text <;> rfl
  rw [same]
  constructor
  · intro read
    split at read
    · next head tail parts =>
      dsimp only at read
      split at read
      · next isHead =>
        obtain ⟨⟨symbols, label⟩, body, read⟩ := bind_eq_ok.mp read
        dsimp only at read
        split at read
        · nomatch read
        · next single =>
          split at read
          · nomatch read
          · next nonempty =>
            cases read
            exact ⟨isPublic, rest, head, tail, symbols, label, rfl, parts, isHead, body,
              by simpa using single, by simpa using nonempty, rfl⟩
      · nomatch read
    · nomatch read
  · rintro ⟨_, _, head, tail, symbols, label, h, parts, isHead, body, single, nonempty, rfl⟩
    cases h
    simp only [parts, isHead, body, if_true]
    simp [bind, Except.bind, single, nonempty]
    rfl

/-- A line whose content ends in `;` is read by what stands before. -/
theorem readItem_of_content {line body after : List Char} {c : Char}
    (whole : content line = body ++ after ++ [';']) (bare : Bare body)
    (blank : ∀ c ∈ after, isBlank c = true) (starts : body.head? = some c) (other : c ≠ '#')
    (first : Bool) : readItem first line =
      ("language".toList.isPrefixOf? body).elim (readRule body) readLanguage := by
  have nonempty : body ≠ [] := by
    rintro rfl
    nomatch starts
  have head : (body ++ after ++ [';']).head? = some c := by
    rw [List.append_assoc, List.head?_append_of_ne_nil _ nonempty, starts]
  unfold readItem
  simp only [whole, head]
  rw [if_pos (by simp), List.dropLast_concat, trim_append_right blank bare nonempty]
  cases "language".toList.isPrefixOf? body <;> rfl

/-! ## Safe items -/

/-- What an item says could be written again. -/
def Item.TextSafe : Item → Prop
  | .blank | .header => True
  | .language tag => IsToken [] tag.toList
  | .rule _ head body label =>
    Rule.TextSafe ⟨.ofToken head, body.map .ofToken, label.map .ofToken⟩

theorem textSafe_of_readLanguage (clean : Clean text) (read : readLanguage text = .ok item) :
    item.TextSafe := by
  obtain ⟨⟨nonempty, clear⟩, rfl⟩ := readLanguage_eq_ok.mp read
  refine ⟨by simpa using nonempty, ?_, ?_⟩
  · simpa using clear
  · simpa using clean.trim.uncommented

theorem isLabel_of_readLabel {label : String} (clean : Clean text)
    (read : readLabel text = .ok label) : IsLabel label.toList := by
  obtain ⟨inner, rfl, ⟨nonempty, clear⟩, rfl⟩ := readLabel_eq_ok.mp read
  have inside : Clean (trim inner) := (clean.mono (List.prefix_append _ _).isInfix).trim
  rw [String.toList_ofList]
  refine ⟨nonempty, bare_trim inner, fun c mem => ?_, inside.uncommented⟩
  have newline : c ≠ '\n' := fun h => inside.newline (h ▸ mem)
  simp [clear c mem, newline]

theorem textSafe_of_readBody {label : Option String} (clean : Clean text)
    (read : readBody text = .ok (symbols, label)) (single : '|' ∉ symbols) :
    (∀ word ∈ words symbols, IsToken ['\x7b', '|'] word) ∧
      ∀ text ∈ label, IsLabel text.toList := by
  have symbols_spec : symbols <:+: text ∧ '\x7b' ∉ symbols ∧
      ∀ text ∈ label, IsLabel text.toList := by
    rcases readBody_eq_ok.mp read with
      ⟨absent, rfl, rfl⟩ | ⟨front, inner, inside, absent, rfl, inside_read, rfl, rfl⟩
    · exact ⟨List.infix_refl _, absent, by simp⟩
    · have front_part := trim_isInfix front
      refine ⟨front_part.trans (List.prefix_append _ _).isInfix,
        fun mem => absent (front_part.subset mem), ?_⟩
      rintro _ ⟨⟩
      exact isLabel_of_readLabel clean.parts.2 inside_read
  obtain ⟨symbols_part, absent, label_safe⟩ := symbols_spec
  refine ⟨fun word mem => ?_, label_safe⟩
  obtain ⟨nonempty, clear, word_part⟩ := mem_words mem
  refine ⟨nonempty, fun c c_mem => ⟨clear c c_mem, ?_⟩,
    (clean.mono (word_part.trans symbols_part)).uncommented⟩
  have other {mark : Char} (absent : mark ∉ symbols) : c ≠ mark :=
    fun h => absent (word_part.subset (h ▸ c_mem))
  simp [other absent, other single]

theorem textSafe_of_readRule (clean : Clean text) (read : readRule text = .ok item) :
    item.TextSafe := by
  obtain ⟨isPublic, rest, head, tail, symbols, label, keyword, parts, isHead, body, single,
    -, rfl⟩ := readRule_eq_ok.mp read
  have rest_part : rest <:+: text := by
    cases after : afterPublic? text with
    | none =>
      rw [after] at keyword
      cases keyword
      exact List.infix_refl _
    | some trimmed =>
      rw [after] at keyword
      cases keyword
      obtain ⟨c, more, -, rfl, rfl⟩ := afterPublic?_eq_some.mp after
      exact (trim_isInfix _).trans (List.suffix_append _ _).isInfix
  obtain ⟨absent, rfl⟩ := splitAtFirst_eq_some.mp parts
  obtain ⟨head_clean, tail_clean⟩ := (clean.mono rest_part).parts
  obtain ⟨name, head_eq, named, clear⟩ := isHead_iff.mp isHead
  have name_part : name <:+: head := by
    have whole := trim_isInfix head
    rw [head_eq] at whole
    exact (List.suffix_cons '$' name).isInfix.trans whole
  obtain ⟨words_safe, label_safe⟩ := textSafe_of_readBody tail_clean.trim body single
  refine ⟨?_, ?_, ?_⟩
  · have token : IsToken ['='] name := by
      refine ⟨named, fun c mem => ⟨clear c mem, ?_⟩, (head_clean.mono name_part).uncommented⟩
      rw [List.mem_singleton]
      rintro rfl
      exact absent (name_part.subset mem)
    simpa [Symbol.ofToken, Symbol.name, head_eq] using token
  · simpa [Symbol.text_ofToken] using words_safe
  · simpa [Symbol.text_ofToken] using label_safe

theorem textSafe_of_readItem {first : Bool} {line : List Char} (newline : '\n' ∉ line)
    (read : readItem first line = .ok item) : item.TextSafe := by
  have shorter : (content line).dropLast <+: content line := List.dropLast_prefix _
  have clean := ((clean_content newline).mono shorter.isInfix).trim
  unfold readItem at read
  dsimp only at read
  split at read
  · cases read
    trivial
  · split at read
    · cases read
      trivial
    · nomatch read
  · split at read
    · split at read
      · next rest found =>
        rw [List.isPrefixOf?_eq_some_iff_append_eq] at found
        rw [← found] at clean
        exact textSafe_of_readLanguage (clean.mono (List.suffix_append _ _).isInfix) read
      · exact textSafe_of_readRule clean read
    · nomatch read

/-! ## Safe files -/

structure TextSafe (file : RuleFile) : Prop where
  language : ∀ tag ∈ file.language, IsToken [] tag.toList
  rules : ∀ spec ∈ file.rules,
    Rule.TextSafe ⟨.ofToken spec.head, spec.body.map .ofToken, spec.label.map .ofToken⟩

theorem textSafe_addFirst {file : RuleFile} (safe : file.TextSafe) (line : Nat)
    (item_safe : item.TextSafe) : (file.addFirst line item).TextSafe := by
  cases item with
  | blank => exact safe
  | header => exact safe
  | language tag =>
    refine ⟨fun other mem => ?_, safe.rules⟩
    cases later : file.language with
    | none =>
      rw [addFirst, later] at mem
      cases mem
      exact item_safe
    | some last =>
      rw [addFirst, later] at mem
      exact safe.language other (later ▸ mem)
  | rule isPublic head body label =>
    exact ⟨safe.language, List.forall_mem_cons.mpr ⟨item_safe, safe.rules⟩⟩

theorem textSafe_of_readLines {lines : List (List Char)} {line : Nat} {first : Bool}
    {file : RuleFile} (newline : ∀ text ∈ lines, '\n' ∉ text)
    (read : readLines line first lines = .ok file) : file.TextSafe := by
  induction lines generalizing line first file with
  | nil =>
    cases read
    exact ⟨by simp, by simp⟩
  | cons text more ih =>
    obtain ⟨here, later⟩ := List.forall_mem_cons.mp newline
    rw [readLines] at read
    split at read
    · nomatch read
    · next item item_read =>
      cases more_read : readLines (line + 1) (first && item == .blank) more with
      | error error =>
        rw [more_read] at read
        nomatch read
      | ok file =>
        rw [more_read] at read
        cases read
        exact textSafe_addFirst (ih later more_read) line (textSafe_of_readItem here item_read)

/-- All that is read from a text can be written again. -/
theorem textSafe_of_read {text : String} {file : RuleFile} (h : read text = .ok file) :
    file.TextSafe :=
  textSafe_of_readLines (fun _ mem => not_newline_of_mem_lines mem) h

end ChartParser.RuleFile
