import ChartParser.Text.Segment

/-! # Tokens of a sentence

The segments of a text make up the text, and only white space is left out of its tokens. Letters
and digits of ASCII stay together, and white space keeps them apart.
-/

namespace ChartParser.Text

variable {ctx : Context} {cls : WordClass} {c : Char} {gap word rest : List Char}

/-! ## Nothing else is lost -/

/-- Pieces that are left out hold nothing else than what is filtered out anyway. -/
theorem filter_flatten_filter (p : Char → Bool) (pieces : List (List Char)) :
    (pieces.filter fun piece => !piece.all p).flatten.filter (!p ·) =
      pieces.flatten.filter (!p ·) := by
  induction pieces with
  | nil => rfl
  | cons piece more ih =>
    rw [List.flatten_cons, List.filter_append, ← ih]
    cases all : piece.all p with
    | false => simp [all]
    | true =>
      have none : piece.filter (!p ·) = [] := by simpa using all
      simp [all, none]

theorem filter_toList_join_tokenize (sentence : String) :
    (String.join (tokenize sentence)).toList.filter (!isBlank ·) =
      sentence.toList.filter (!isBlank ·) := by
  have kept := filter_flatten_filter isBlank (segments sentence.toList)
  rw [segments, flatten_segmentsFrom] at kept
  rw [← kept, String.toList_join, tokenize, List.flatMap_def, List.map_map]
  congr 2
  rw [segments]
  exact (List.map_congr_left fun _ _ => String.toList_ofList).trans (List.map_id _)

theorem exists_of_mem_tokenize {sentence token : String} (mem : token ∈ tokenize sentence) :
    ∃ c ∈ token.toList, isBlank c = false := by
  obtain ⟨segment, kept, rfl⟩ := List.mem_map.mp mem
  simpa using (List.mem_filter.mp kept).2

/-! ## Letters and digits, and spaces -/

/-- A letter or a digit of ASCII. -/
def IsPlain (c : Char) : Prop := c.isAlphanum = true

/-- A space, a tab or a newline. -/
def IsGap (c : Char) : Prop := c = ' ' ∨ c = '\t' ∨ c = '\n'

/-- The words stand in the text in this order, with white space between them and around them. -/
inductive Spread : List Char → List String → Prop
  | blank {gap : List Char} : (∀ c ∈ gap, IsGap c) → Spread gap []
  | last {gap : List Char} {word : String} : (∀ c ∈ gap, IsGap c) → word ≠ "" →
      (∀ c ∈ word.toList, IsPlain c) → Spread (gap ++ word.toList) [word]
  | more {gap after text : List Char} {word : String} {words : List String} :
      (∀ c ∈ gap, IsGap c) → word ≠ "" → (∀ c ∈ word.toList, IsPlain c) →
      after ≠ [] → (∀ c ∈ after, IsGap c) → Spread text words →
      Spread (gap ++ word.toList ++ after ++ text) (word :: words)

theorem isPlain_iff : IsPlain c ↔ c.isAlpha = true ∨ c.isDigit = true := Bool.or_eq_true_iff

theorem toNat_of_isPlain (h : IsPlain c) : 48 ≤ c.toNat ∧ c.toNat ≤ 122 := by
  have ranges : (decide ('A'.val ≤ c.val ∧ c.val ≤ 'Z'.val) ||
      (decide ('a'.val ≤ c.val) && decide (c.val ≤ 'z'.val)) ||
      (decide ('0'.val ≤ c.val) && decide (c.val ≤ '9'.val))) = true := h
  simp only [Bool.or_eq_true, Bool.and_eq_true, decide_eq_true_eq, UInt32.le_iff_toNat_le]
    at ranges
  have codes : 65 ≤ c.toNat ∧ c.toNat ≤ 90 ∨ 97 ≤ c.toNat ∧ c.toNat ≤ 122 ∨
      48 ≤ c.toNat ∧ c.toNat ≤ 57 := or_assoc.mp ranges
  omega

theorem isBlank_of_isPlain (h : IsPlain c) : isBlank c = false := by
  have codes := toNat_of_isPlain h
  simp only [isBlank, inRanges, blankRanges, List.any_cons, List.any_nil, Bool.or_false,
    Bool.or_eq_false_iff, Bool.and_eq_false_iff, decide_eq_false_iff_not]
  omega

theorem isBlank_of_isGap (h : IsGap c) : isBlank c = true := by
  rcases h with rfl | rfl | rfl <;> rfl

theorem not_all_isBlank (nonempty : word ≠ []) (plain : ∀ c ∈ word, IsPlain c) :
    word.all isBlank = false := by
  obtain ⟨c, word, rfl⟩ := List.exists_cons_of_ne_nil nonempty
  rw [List.all_cons, isBlank_of_isPlain (plain c (.head word)), Bool.false_and]

namespace WordClass

/-- The class of a letter or a digit of ASCII. -/
def Plain (cls : WordClass) : Prop := cls = letter ∨ cls = numeric

/-- The class of a space, a tab or a newline. -/
def Gap (cls : WordClass) : Prop := cls = space ∨ cls = other ∨ cls = lf

theorem plain_ofChar (h : IsPlain c) : (ofChar c).Plain := by
  have codes := toNat_of_isPlain h
  unfold ofChar ofAscii
  rw [if_pos (by omega)]
  split
  · exact .inl rfl
  · next other =>
    rw [if_pos]
    · exact .inr rfl
    · exact (isPlain_iff.mp h).resolve_left other

theorem gap_ofChar (h : IsGap c) : (ofChar c).Gap := by
  rcases h with rfl | rfl | rfl
  · exact .inl rfl
  · exact .inr (.inl rfl)
  · exact .inr (.inr rfl)

/-- The rules for boundaries do not look through the character. -/
theorem seen_of_plain_or_gap (h : cls.Plain ∨ cls.Gap) : cls.isTransparent = false := by
  rcases h with (rfl | rfl) | (rfl | rfl | rfl) <;> rfl

theorem seen_ofChar (h : IsPlain c ∨ IsGap c) : (ofChar c).isTransparent = false :=
  seen_of_plain_or_gap (h.imp plain_ofChar gap_ofChar)

end WordClass

/-! ## Boundaries -/

namespace Context

/-- The text does not end in U+200D, so a character that continues it has its own class. -/
def Free (ctx : Context) : Prop := ctx.last ≠ some .zwj

/-- The text ends in a character of the class, and the rules do not look through it. -/
structure EndsIn (ctx : Context) (cls : WordClass) : Prop where
  last : ctx.last = some cls
  left : ctx.left = some cls
  seen : cls.isTransparent = false

theorem free_of_endsIn (ends : ctx.EndsIn cls) : ctx.Free := by
  rw [Free, ends.last]
  rintro ⟨⟩
  nomatch ends.seen

theorem classOf_eq (free : ctx.Free) (c : Char) : ctx.classOf c = .ofChar c := by
  simp [classOf, WordClass.ofCharAfter, show ctx.last ≠ some .zwj from free]

theorem endsIn_push (free : ctx.Free) (seen : (WordClass.ofChar c).isTransparent = false) :
    (ctx.push c).EndsIn (.ofChar c) := by
  have taken : ctx.absorbs (.ofChar c) = false := by simp [absorbs, seen]
  simp only [push, classOf_eq free, taken]
  exact ⟨rfl, rfl, seen⟩

theorem free_foldl_push (free : ctx.Free) (h : ∀ c ∈ word, IsPlain c ∨ IsGap c) :
    (word.foldl push ctx).Free := by
  induction word generalizing ctx with
  | nil => exact free
  | cons c word ih =>
    obtain ⟨first, others⟩ := List.forall_mem_cons.mp h
    exact ih (free_of_endsIn (endsIn_push free (WordClass.seen_ofChar first))) others

/-- A letter or a digit belongs to the letter or the digit before it. -/
theorem joins_of_plain (ends : ctx.EndsIn cls) (left : cls.Plain) (plain : IsPlain c)
    (rest : List Char) : ctx.joins c rest = true := by
  simp only [joins, ends.last, ends.left, classOf_eq (free_of_endsIn ends)]
  rcases left with rfl | rfl <;> rcases WordClass.plain_ofChar plain with kind | kind <;>
    simp [kind, joinsClass, WordClass.isLetter, WordClass.breaksLine]

/-- There is a boundary between white space and letters or digits. -/
theorem not_joins (ends : ctx.EndsIn cls) (sides : cls.Plain ∧ IsGap c ∨ cls.Gap ∧ IsPlain c)
    (rest : List Char) : ctx.joins c rest = false := by
  simp only [joins, ends.last, ends.left, classOf_eq (free_of_endsIn ends)]
  rcases sides with ⟨left, gap⟩ | ⟨left, plain⟩
  · rcases left with rfl | rfl <;> rcases WordClass.gap_ofChar gap with kind | kind | kind <;>
      simp [kind, joinsClass, WordClass.isLetter, WordClass.joinsLetters, WordClass.joinsDigits,
        WordClass.takesJoiner, WordClass.breaksLine, WordClass.isTransparent]
  · rcases left with rfl | rfl | rfl <;>
      rcases WordClass.plain_ofChar plain with kind | kind <;>
      simp [kind, joinsClass, WordClass.isLetter, WordClass.joinsLetters, WordClass.joinsDigits,
        WordClass.takesJoiner, WordClass.breaksLine, WordClass.isTransparent]

end Context

/-! ## Segments -/

open Context

theorem attach_false (c : Char) (pieces : List (List Char)) :
    attach false c pieces = [c] :: pieces := by
  cases pieces <;> rfl

/-- A word is one segment. -/
theorem segmentsFrom_word (free : ctx.Free) (nonempty : word ≠ [])
    (plain : ∀ c ∈ word, IsPlain c) (apart : ∀ c ∈ rest.head?, IsGap c) :
    segmentsFrom ctx (word ++ rest) = word :: segmentsFrom (word.foldl push ctx) rest := by
  induction word generalizing ctx with
  | nil => exact absurd rfl nonempty
  | cons c word ih =>
    obtain ⟨first, others⟩ := List.forall_mem_cons.mp plain
    have left := WordClass.plain_ofChar first
    have ends := endsIn_push free (WordClass.seen_ofChar (.inl first))
    cases word with
    | nil =>
      cases rest with
      | nil => rfl
      | cons d rest =>
        change attach ((ctx.push c).joins d rest) c _ = _
        rw [not_joins ends (.inl ⟨left, apart d rfl⟩), attach_false]
        rfl
    | cons d word =>
      have joined := joins_of_plain ends left (others d (.head word)) (word ++ rest)
      change attach ((ctx.push c).joins d (word ++ rest)) c (segmentsFrom _ (d :: word ++ rest)) = _
      rw [joined, ih (free_of_endsIn ends) (List.cons_ne_nil d word) others]
      rfl

/-- White space makes up segments of its own. -/
theorem segmentsFrom_gap (free : ctx.Free) (nonempty : gap ≠ []) (gaps : ∀ c ∈ gap, IsGap c)
    (apart : ∀ c ∈ rest.head?, IsPlain c) : ∃ blank blanks,
      (∀ piece ∈ blank :: blanks, piece.all isBlank = true) ∧
      segmentsFrom ctx (gap ++ rest) =
        (blank :: blanks) ++ segmentsFrom (gap.foldl push ctx) rest := by
  induction gap generalizing ctx with
  | nil => exact absurd rfl nonempty
  | cons c gap ih =>
    obtain ⟨first, others⟩ := List.forall_mem_cons.mp gaps
    have here : isBlank c = true := isBlank_of_isGap first
    have left := WordClass.gap_ofChar first
    have ends := endsIn_push free (WordClass.seen_ofChar (.inr first))
    cases gap with
    | nil =>
      refine ⟨[c], [], by simpa using here, ?_⟩
      cases rest with
      | nil => rfl
      | cons d rest =>
        change attach ((ctx.push c).joins d rest) c _ = _
        rw [not_joins ends (.inr ⟨left, apart d rfl⟩), attach_false]
        rfl
    | cons d gap =>
      obtain ⟨blank, blanks, all, parts⟩ :=
        ih (free_of_endsIn ends) (List.cons_ne_nil d gap) others
      obtain ⟨blank_all, blanks_all⟩ := List.forall_mem_cons.mp all
      change ∃ _ _, _ ∧
        attach ((ctx.push c).joins d (gap ++ rest)) c (segmentsFrom _ (d :: gap ++ rest)) = _
      rw [parts]
      cases (ctx.push c).joins d (gap ++ rest) with
      | false =>
        refine ⟨[c], blank :: blanks, ?_, attach_false c _⟩
        exact List.forall_mem_cons.mpr ⟨by simpa using here, all⟩
      | true =>
        refine ⟨c :: blank, blanks, ?_, rfl⟩
        refine List.forall_mem_cons.mpr ⟨?_, blanks_all⟩
        rw [List.all_cons, here, blank_all, Bool.true_and]

/-! ## Words -/

/-- The tokens of a text that continues `ctx`. -/
def tokensFrom (ctx : Context) (cs : List Char) : List (List Char) :=
  (segmentsFrom ctx cs).filter fun segment => !segment.all isBlank

theorem tokensFrom_word (free : ctx.Free) (nonempty : word ≠ [])
    (plain : ∀ c ∈ word, IsPlain c) (apart : ∀ c ∈ rest.head?, IsGap c) :
    tokensFrom ctx (word ++ rest) = word :: tokensFrom (word.foldl push ctx) rest := by
  rw [tokensFrom, segmentsFrom_word free nonempty plain apart, List.filter_cons_of_pos]
  · rfl
  · rw [not_all_isBlank nonempty plain]
    rfl

theorem tokensFrom_gap (free : ctx.Free) (gaps : ∀ c ∈ gap, IsGap c)
    (apart : ∀ c ∈ rest.head?, IsPlain c) :
    tokensFrom ctx (gap ++ rest) = tokensFrom (gap.foldl push ctx) rest := by
  by_cases none : gap = []
  · subst none
    rfl
  · obtain ⟨blank, blanks, all, parts⟩ := segmentsFrom_gap free none gaps apart
    have dropped : (blank :: blanks).filter (fun segment => !segment.all isBlank) = [] := by
      simpa [List.filter_eq_nil_iff] using all
    rw [tokensFrom, parts, List.filter_append, dropped, List.nil_append, tokensFrom]

theorem forall_head_append {P : Char → Prop} (nonempty : word ≠ []) (all : ∀ c ∈ word, P c)
    (rest : List Char) : ∀ c ∈ (word ++ rest).head?, P c := by
  obtain ⟨d, word, rfl⟩ := List.exists_cons_of_ne_nil nonempty
  rintro c ⟨⟩
  exact all d (.head word)

/-- A word with white space before it. -/
theorem tokensFrom_gap_word (free : ctx.Free) (gaps : ∀ c ∈ gap, IsGap c) (nonempty : word ≠ [])
    (plain : ∀ c ∈ word, IsPlain c) (apart : ∀ c ∈ rest.head?, IsGap c) :
    tokensFrom ctx (gap ++ (word ++ rest)) =
      word :: tokensFrom (word.foldl push (gap.foldl push ctx)) rest := by
  have passed : (gap.foldl push ctx).Free := free_foldl_push free fun c mem => .inr (gaps c mem)
  rw [tokensFrom_gap free gaps (forall_head_append nonempty plain rest),
    tokensFrom_word passed nonempty plain apart]

/-- More white space in front changes no token. -/
theorem tokensFrom_spread {text : List Char} {words : List String} (spread : Spread text words)
    (free : ctx.Free) (gaps : ∀ c ∈ gap, IsGap c) :
    tokensFrom ctx (gap ++ text) = words.map String.toList := by
  have letters {word : String} (nonempty : word ≠ "") : word.toList ≠ [] :=
    fun none => nonempty (String.toList_inj.mp none)
  induction spread generalizing ctx gap with
  | @blank front blanks =>
    have all := List.forall_mem_append.mpr ⟨gaps, blanks⟩
    rw [← List.append_nil (gap ++ front), tokensFrom_gap free all (by simp)]
    rfl
  | @last front word blanks nonempty plain =>
    have all := List.forall_mem_append.mpr ⟨gaps, blanks⟩
    rw [← List.append_assoc, ← List.append_nil word.toList,
      tokensFrom_gap_word free all (letters nonempty) plain (by simp)]
    rfl
  | @more front after text word words blanks nonempty plain apart between _ ih =>
    have all := List.forall_mem_append.mpr ⟨gaps, blanks⟩
    have cut : gap ++ (front ++ word.toList ++ after ++ text) =
        gap ++ front ++ (word.toList ++ (after ++ text)) := by
      simp only [List.append_assoc]
    have passed : (word.toList.foldl push ((gap ++ front).foldl push ctx)).Free :=
      free_foldl_push (free_foldl_push free fun c mem => .inr (all c mem)) fun c mem =>
        .inl (plain c mem)
    rw [cut, tokensFrom_gap_word free all (letters nonempty) plain
      (forall_head_append apart between text), ih passed between]
    rfl

theorem tokenize_of_spread {sentence : String} {words : List String}
    (spread : Spread sentence.toList words) : tokenize sentence = words := by
  have parts : tokensFrom .start ([] ++ sentence.toList) = words.map String.toList :=
    tokensFrom_spread spread (nomatch ·) (by simp)
  calc tokenize sentence = (tokensFrom .start sentence.toList).map String.ofList := rfl
    _ = (words.map String.toList).map String.ofList := by rw [← parts, List.nil_append]
    _ = words := by simp

/-- Tokens hold all of a sentence but its white space, and words of letters and digits that white
space keeps apart are its tokens. -/
theorem tokenize_keeps (sentence : String) :
    (∀ token ∈ tokenize sentence, token ≠ "" ∧ ∃ c ∈ token.toList, isBlank c = false) ∧
    (String.join (tokenize sentence)).toList.filter (!isBlank ·) =
      sentence.toList.filter (!isBlank ·) ∧
    ∀ words, Spread sentence.toList words → tokenize sentence = words := by
  refine ⟨fun token mem => ?_, filter_toList_join_tokenize sentence, fun words =>
    tokenize_of_spread⟩
  obtain ⟨c, inside, seen⟩ := exists_of_mem_tokenize mem
  refine ⟨?_, c, inside, seen⟩
  rintro rfl
  nomatch inside

theorem tokenize_keeps_ducks :
    Spread "  I saw\t2ducks\n".toList ["I", "saw", "2ducks"] ∧
    tokenize "  I saw\t2ducks\n" = ["I", "saw", "2ducks"] := by
  have spread : Spread ([' ', ' '] ++ "I".toList ++ [' '] ++ ([] ++ "saw".toList ++ ['\t'] ++
      ([] ++ "2ducks".toList ++ ['\n'] ++ []))) ["I", "saw", "2ducks"] := by
    refine .more ?_ ?_ ?_ ?_ ?_ (.more ?_ ?_ ?_ ?_ ?_ (.more ?_ ?_ ?_ ?_ ?_ (.blank ?_)))
    all_goals simp [IsGap, IsPlain]
  exact ⟨spread, (tokenize_keeps "  I saw\t2ducks\n").2.2 _ spread⟩

end ChartParser.Text
