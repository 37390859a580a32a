import Mathlib.Data.List.Basic
import Mathlib.Data.List.TakeWhile
import ChartParser.Text.Pieces

/-! # Trimming and cutting text

What is cut out of a text is a part of it, and text that was put together from such parts is cut
into the same parts again.
-/

namespace ChartParser.Text

variable {cs before after : List Char}

/-! ## Trimming -/

theorem bare_of_clear (clear : ∀ c ∈ cs, isBlank c = false) : Bare cs :=
  ⟨fun c mem => clear c (List.mem_of_mem_head? mem),
    fun c mem => clear c (List.mem_of_mem_getLast? mem)⟩

theorem bare_of_any (h : cs.any isBlank = false) : Bare cs :=
  bare_of_clear (by simpa using h)

theorem bare_append {mid : List Char} (first : Bare before) (last : Bare after)
    (before_nonempty : before ≠ []) (after_nonempty : after ≠ []) :
    Bare (before ++ (mid ++ after)) := by
  constructor
  · rw [List.head?_append_of_ne_nil _ before_nonempty]
    exact first.1
  · rw [← List.append_assoc, List.getLast?_append_of_ne_nil _ after_nonempty]
    exact last.2

/-- A text without white space at its ends starts with none. -/
theorem eq_nil_of_bare_append_left (blank : ∀ c ∈ before, isBlank c = true)
    (bare : Bare (before ++ cs)) : before = [] := by
  cases before with
  | nil => rfl
  | cons c before =>
    have clear := bare.1 c rfl
    rw [blank c (.head before)] at clear
    nomatch clear

theorem eq_nil_of_bare_append_right (blank : ∀ c ∈ after, isBlank c = true)
    (bare : Bare (cs ++ after)) : after = [] := by
  rcases List.eq_nil_or_concat after with rfl | ⟨front, c, rfl⟩
  · rfl
  · have clear := bare.2 c (by simp)
    rw [blank c (by simp)] at clear
    nomatch clear

theorem trimStart_append (blank : ∀ c ∈ before, isBlank c = true)
    (first : ∀ c ∈ cs.head?, isBlank c = false) : trimStart (before ++ cs) = cs := by
  rw [trimStart, List.dropWhile_append_of_pos blank]
  cases cs with
  | nil => rfl
  | cons c cs => simp [first c rfl]

theorem trimEnd_append (blank : ∀ c ∈ after, isBlank c = true)
    (last : ∀ c ∈ cs.getLast?, isBlank c = false) : trimEnd (cs ++ after) = cs := by
  have reversed : trimStart (after.reverse ++ cs.reverse) = cs.reverse := by
    apply trimStart_append
    · simpa using blank
    · simpa using last
  unfold trimStart at reversed
  rw [trimEnd, List.reverse_append, reversed, List.reverse_reverse]

/-- Trimming takes white space away and nothing else. -/
theorem trim_append (blank_before : ∀ c ∈ before, isBlank c = true)
    (blank_after : ∀ c ∈ after, isBlank c = true) (bare : Bare cs) (nonempty : cs ≠ []) :
    trim (before ++ (cs ++ after)) = cs := by
  have first : ∀ c ∈ (cs ++ after).head?, isBlank c = false := by
    rw [List.head?_append_of_ne_nil _ nonempty]
    exact bare.1
  rw [trim, trimStart_append blank_before first, trimEnd_append blank_after bare.2]

theorem trim_append_left (blank : ∀ c ∈ before, isBlank c = true) (bare : Bare cs)
    (nonempty : cs ≠ []) : trim (before ++ cs) = cs := by
  have trimmed := trim_append blank (List.forall_mem_nil _) bare nonempty
  rwa [List.append_nil] at trimmed

theorem trim_append_right (blank : ∀ c ∈ after, isBlank c = true) (bare : Bare cs)
    (nonempty : cs ≠ []) : trim (cs ++ after) = cs :=
  trim_append (List.forall_mem_nil _) blank bare nonempty

theorem trim_of_bare (bare : Bare cs) : trim cs = cs := by
  by_cases nonempty : cs = []
  · subst nonempty
    rfl
  · exact trim_append_left (List.forall_mem_nil _) bare nonempty

/-- Trimming takes away white space at the ends only. -/
theorem exists_trim (cs : List Char) : ∃ before after, (∀ c ∈ before, isBlank c = true) ∧
    (∀ c ∈ after, isBlank c = true) ∧ cs = before ++ (trim cs ++ after) := by
  refine ⟨cs.takeWhile isBlank, ((trimStart cs).reverse.takeWhile isBlank).reverse,
    fun c mem => List.mem_takeWhile_imp mem,
    fun c mem => List.mem_takeWhile_imp (List.mem_reverse.mp mem), ?_⟩
  rw [trim, trimEnd, ← List.reverse_append, List.takeWhile_append_dropWhile, List.reverse_reverse,
    trimStart, List.takeWhile_append_dropWhile]

/-- At the start of a text without outer white space, trimming takes away only what comes after. -/
theorem exists_trim_left {rest : List Char} (bare : Bare (cs ++ rest)) :
    ∃ after, (∀ c ∈ after, isBlank c = true) ∧ cs = trim cs ++ after := by
  obtain ⟨before, after, before_blank, after_blank, whole⟩ := exists_trim cs
  have none : before = [] := by
    rw [whole, List.append_assoc] at bare
    exact eq_nil_of_bare_append_left before_blank bare
  rw [none, List.nil_append] at whole
  exact ⟨after, after_blank, whole⟩

/-- At the end of a text without outer white space, trimming takes away only what comes before. -/
theorem exists_trim_right {rest : List Char} (bare : Bare (rest ++ cs)) :
    ∃ before, (∀ c ∈ before, isBlank c = true) ∧ cs = before ++ trim cs := by
  obtain ⟨before, after, before_blank, after_blank, whole⟩ := exists_trim cs
  have none : after = [] := by
    rw [whole, ← List.append_assoc, ← List.append_assoc] at bare
    exact eq_nil_of_bare_append_right after_blank bare
  rw [none, List.append_nil] at whole
  exact ⟨before, before_blank, whole⟩

theorem trimStart_isSuffix (cs : List Char) : trimStart cs <:+ cs := List.dropWhile_suffix isBlank

theorem trimEnd_isPrefix (cs : List Char) : trimEnd cs <+: cs := by
  rw [trimEnd, ← List.reverse_suffix, List.reverse_reverse]
  exact List.dropWhile_suffix isBlank

theorem trim_isInfix (cs : List Char) : trim cs <:+: cs :=
  (trimEnd_isPrefix _).isInfix.trans (trimStart_isSuffix cs).isInfix

theorem not_isBlank_head_dropWhile (cs : List Char) :
    ∀ c ∈ (cs.dropWhile isBlank).head?, isBlank c = false := by
  intro c mem
  have := List.head?_dropWhile_not isBlank cs
  rw [Option.mem_def.mp mem] at this
  simpa using this

theorem bare_trim (cs : List Char) : Bare (trim cs) := by
  constructor
  · intro c mem
    obtain ⟨rest, whole⟩ := trimEnd_isPrefix (trimStart cs)
    apply not_isBlank_head_dropWhile cs
    rw [← trimStart, ← whole, ← trim, List.head?_append, Option.mem_def.mp mem]
    rfl
  · intro c mem
    rw [trim, trimEnd, List.getLast?_reverse] at mem
    exact not_isBlank_head_dropWhile _ c mem

/-! ## Pieces -/

section Pieces

variable {stop : Char → Bool} {piece : List Char}

theorem pieces_append (clear : ∀ c ∈ piece, stop c = false) {c : Char} (ends : stop c = true)
    (rest : List Char) : pieces stop (piece ++ c :: rest) = piece :: pieces stop rest := by
  induction piece with
  | nil => simp [pieces, ends]
  | cons first piece ih =>
    obtain ⟨first_clear, others⟩ := List.forall_mem_cons.mp clear
    simp [pieces, first_clear, ih others, attach]

theorem pieces_of_clear (clear : ∀ c ∈ piece, stop c = false) (nonempty : piece ≠ []) :
    pieces stop piece = [piece] := by
  induction piece with
  | nil => exact absurd rfl nonempty
  | cons first piece ih =>
    obtain ⟨first_clear, others⟩ := List.forall_mem_cons.mp clear
    cases piece with
    | nil => simp [pieces, first_clear, attach]
    | cons second piece =>
      rw [pieces, ih others (by simp)]
      simp [first_clear, attach]

/-- Every piece is a part of the text without stops, and the first is where the text starts. -/
theorem pieces_spec (stop : Char → Bool) (cs : List Char) :
    (∀ piece ∈ (pieces stop cs).head?, piece <+: cs) ∧
      ∀ piece ∈ pieces stop cs, (∀ c ∈ piece, stop c = false) ∧ piece <:+: cs := by
  induction cs with
  | nil => simp [pieces]
  | cons c cs ih =>
    obtain ⟨first, all⟩ := ih
    have later : ∀ piece ∈ pieces stop cs, (∀ c ∈ piece, stop c = false) ∧ piece <:+: c :: cs :=
      fun piece mem => ⟨(all piece mem).1, List.infix_cons (all piece mem).2⟩
    cases ends : stop c with
    | true =>
      simp only [pieces, ends, if_true]
      refine ⟨by simp, List.forall_mem_cons.mpr ⟨by simp, later⟩⟩
    | false =>
      simp only [pieces, ends]
      cases parts : pieces stop cs with
      | nil =>
        have single : [c] <:+: c :: cs := (List.prefix_append [c] cs).isInfix
        simpa [attach, ends] using single
      | cons piece more =>
        rw [parts] at first all later
        have joined : c :: piece <+: c :: cs := List.cons_prefix_cons.mpr ⟨rfl, first piece rfl⟩
        refine ⟨by simpa [attach] using joined, ?_⟩
        refine List.forall_mem_cons.mpr ⟨⟨?_, joined.isInfix⟩, (List.forall_mem_cons.mp later).2⟩
        exact List.forall_mem_cons.mpr ⟨ends, (all piece (.head _)).1⟩

end Pieces

/-! ## Lines -/

theorem not_newline_of_mem_lines {line : List Char} (mem : line ∈ lines cs) : '\n' ∉ line := by
  intro newline
  have := ((pieces_spec _ cs).2 line mem).1 _ newline
  simp at this

theorem lines_flatMap {all : List (List Char)} (h : ∀ line ∈ all, '\n' ∉ line) :
    lines (all.flatMap (· ++ ['\n'])) = all := by
  induction all with
  | nil => rfl
  | cons line more ih =>
    obtain ⟨first, others⟩ := List.forall_mem_cons.mp h
    have clear : ∀ c ∈ line, (c == '\n') = false := by
      intro c mem
      rw [beq_eq_false_iff_ne]
      rintro rfl
      exact first mem
    unfold lines at ih ⊢
    rw [List.flatMap_cons, List.append_assoc, List.singleton_append, pieces_append clear rfl,
      ih others]

/-! ## Words -/

theorem words_cons {c : Char} (blank : isBlank c = true) : words (c :: cs) = words cs := by
  simp [words, pieces, blank]

theorem words_append_of_blank (blank : ∀ c ∈ before, isBlank c = true) :
    words (before ++ cs) = words cs := by
  induction before with
  | nil => rfl
  | cons c before ih =>
    obtain ⟨first, others⟩ := List.forall_mem_cons.mp blank
    rw [List.cons_append, words_cons first, ih others]

/-- A text that does not start with white space starts with a word. -/
theorem exists_word (first : ∀ c ∈ cs.head?, isBlank c = false) (nonempty : cs ≠ []) :
    ∃ word rest, cs = word ++ rest ∧ word ≠ [] ∧ (∀ c ∈ word, isBlank c = false) ∧
      ∀ c ∈ rest.head?, isBlank c = true := by
  refine ⟨cs.takeWhile (!isBlank ·), cs.dropWhile (!isBlank ·),
    List.takeWhile_append_dropWhile.symm, ?_, fun c mem => ?_, fun c mem => ?_⟩
  · cases cs with
    | nil => exact absurd rfl nonempty
    | cons c cs => simp [first c rfl]
  · simpa using List.mem_takeWhile_imp mem
  · have := List.head?_dropWhile_not (!isBlank ·) cs
    rw [Option.mem_def.mp mem] at this
    simpa using this

theorem words_append {word rest : List Char} (clear : ∀ c ∈ word, isBlank c = false)
    (nonempty : word ≠ []) (apart : ∀ c ∈ rest.head?, isBlank c = true) :
    words (word ++ rest) = word :: words rest := by
  have kept : word.isEmpty = false := by simpa using nonempty
  cases rest with
  | nil => simp [words, pieces_of_clear clear nonempty, pieces, kept]
  | cons c rest =>
    have blank := apart c rfl
    rw [words_cons blank, words, pieces_append clear blank]
    simp [words, kept]

theorem mem_words {word : List Char} (mem : word ∈ words cs) :
    word ≠ [] ∧ (∀ c ∈ word, isBlank c = false) ∧ word <:+: cs := by
  obtain ⟨mem, nonempty⟩ := List.mem_filter.mp mem
  exact ⟨by simpa using nonempty, (pieces_spec isBlank cs).2 word mem⟩

/-! ## Marks -/

variable {mark : Char}

theorem splitAtFirst_eq_some : splitAtFirst mark cs = some (before, after) ↔
    mark ∉ before ∧ cs = before ++ mark :: after := by
  induction cs generalizing before with
  | nil => simp [splitAtFirst]
  | cons c cs ih =>
    unfold splitAtFirst
    by_cases here : c = mark
    · subst here
      cases before with
      | nil => simp [eq_comm]
      | cons first before => simp +contextual [eq_comm]
    · cases before with
      | nil => simp [here]
      | cons first before =>
        simp only [here, if_false, Option.map_eq_some_iff, Prod.exists, Prod.mk.injEq,
          List.cons.injEq, exists_eq_right_right, ih, List.mem_cons, not_or, List.cons_append]
        constructor
        · rintro ⟨⟨absent, whole⟩, rfl⟩
          exact ⟨⟨Ne.symm here, absent⟩, rfl, whole⟩
        · rintro ⟨⟨-, absent⟩, rfl, whole⟩
          exact ⟨⟨absent, whole⟩, rfl⟩

theorem splitAtFirst_eq_none : splitAtFirst mark cs = none ↔ mark ∉ cs := by
  induction cs with
  | nil => simp [splitAtFirst]
  | cons c cs ih =>
    unfold splitAtFirst
    by_cases here : c = mark
    · simp [here]
    · simp [here, ih, Ne.symm here]

end ChartParser.Text
