import ChartParser.Grammar.Samples
import ChartParser.Proofs.RuleFile.Reader
import ChartParser.RuleFile.Append
import ChartParser.RuleFile.Format

/-! # Reading is compositional

A line is read without regard to other lines, but for its number and for the header, which may not
come after content. So texts without a header can be put after any lines, and lines without content
can be put anywhere.
-/

namespace ChartParser

open Text

/-! ## Lines of a text in two parts -/

namespace Text

variable {cs : List Char}

theorem pieces_ne_nil {stop : Char → Bool} (nonempty : cs ≠ []) : pieces stop cs ≠ [] := by
  cases cs with
  | nil => exact absurd rfl nonempty
  | cons c cs =>
    unfold pieces
    split
    · simp
    · cases pieces stop cs <;> simp [attach]

theorem pieces_append_of_stop {stop : Char → Bool} (ends : ∀ c ∈ cs.getLast?, stop c = true)
    (rest : List Char) : pieces stop (cs ++ rest) = pieces stop cs ++ pieces stop rest := by
  induction cs with
  | nil => rfl
  | cons c cs ih =>
    rw [List.cons_append, pieces, pieces]
    by_cases nonempty : cs = []
    · subst nonempty
      simp [ends c rfl, pieces]
    · rw [ih (by rwa [List.getLast?_cons_of_ne_nil nonempty] at ends)]
      have some : pieces stop cs ≠ [] := pieces_ne_nil nonempty
      obtain ⟨piece, more, whole⟩ := List.exists_cons_of_ne_nil some
      rw [whole]
      split <;> simp [attach]

theorem lines_append (ends : cs = [] ∨ cs.getLast? = some '\n') (rest : List Char) :
    lines (cs ++ rest) = lines cs ++ lines rest := by
  apply pieces_append_of_stop
  rcases ends with rfl | last
  · simp
  · simp [last]

end Text

namespace RuleFile

variable {first : Bool} {line : Nat} {text : List Char} {lines before after : List (List Char)}

/-! ## One line -/

theorem readItem_of_empty (empty : content text = []) : readItem first text = .ok .blank := by
  unfold readItem
  rw [empty]
  rfl

theorem readItem_eq_blank_iff :
    readItem first text = .ok .blank ↔ content text = [] := by
  refine ⟨fun read => ?_, readItem_of_empty⟩
  unfold readItem at read
  dsimp only at read
  split at read
  · next empty => exact List.head?_eq_none_iff.mp empty
  · split at read <;> nomatch read
  · split at read
    · split at read
      · simp [readLanguage_eq_ok] at read
      · simp [readRule_eq_ok] at read
    · nomatch read

theorem blank_of_readItem {item : Item} (read : readItem first text = .ok item) :
    (item == .blank) = (content text).isEmpty := by
  have nothing : readItem first text = .ok .blank ↔ content text = [] := readItem_eq_blank_iff
  rw [Bool.eq_iff_iff, beq_iff_eq, List.isEmpty_iff, ← nothing, read, Except.ok.injEq]

/-- Only a header is read differently after other content. -/
theorem readItem_of_headless (headless : (content text).head? ≠ some '#') :
    readItem first text = readItem true text := by
  unfold readItem
  dsimp only
  split
  · rfl
  · next header => exact absurd header headless
  · rfl

/-! ## Some lines and then others -/

theorem addFirst_append (file next : RuleFile) (item : Item) :
    (file.append next).addFirst line item = (file.addFirst line item).append next := by
  cases item with
  | blank => rfl
  | header => rfl
  | rule isPublic head body label => rfl
  | language tag =>
    unfold append addFirst
    cases next.language <;> rfl

theorem map_addFirst_inTurn (outcome next : Except LineError RuleFile) (item : Item) :
    (inTurn outcome next).map (·.addFirst line item) =
      inTurn (outcome.map (·.addFirst line item)) next := by
  cases outcome with
  | error => rfl
  | ok file =>
    cases next with
    | error => rfl
    | ok next => simp only [inTurn, Except.map, addFirst_append]

theorem inTurn_empty (outcome : Except LineError RuleFile) :
    inTurn (.ok ⟨none, []⟩) outcome = outcome := by
  cases outcome with
  | error => rfl
  | ok file => simp [inTurn, append]

/-- Lines are read after other lines as if they stood alone, except that a header may come too
late. -/
theorem readLines_append (line : Nat) (first : Bool) (before after : List (List Char)) :
    readLines line first (before ++ after) =
      inTurn (readLines line first before) (readLines (line + before.length)
        (first && before.all fun text => (content text).isEmpty) after) := by
  -- Of the lines before, only their number and whether any has content still counts at the end.
  induction before generalizing line first with
  | nil => simp [readLines, inTurn_empty]
  | cons text before ih =>
    rw [List.cons_append, readLines, readLines]
    cases read : readItem first text with
    | error fault => rfl
    | ok item =>
      have number : line + 1 + before.length = line + (text :: before).length := by
        rw [List.length_cons]
        omega
      simp only [ih, map_addFirst_inTurn, blank_of_readItem read, number, List.all_cons,
        Bool.and_assoc]

theorem readLines_of_headless (headless : ∀ text ∈ lines, (content text).head? ≠ some '#') :
    readLines line first lines = readLines line true lines := by
  induction lines generalizing line first with
  | nil => rfl
  | cons text lines ih =>
    obtain ⟨here, later⟩ := List.forall_mem_cons.mp headless
    have same (one two : Bool) :
        readLines (line + 1) one lines = readLines (line + 1) two lines :=
      (ih later).trans (ih later).symm
    rw [readLines, readLines, readItem_of_headless here]
    cases readItem true text with
    | error fault => rfl
    | ok item =>
      dsimp only
      rw [same]

theorem readLines_of_empty (empty : ∀ text ∈ lines, content text = []) :
    readLines line first lines = .ok ⟨none, []⟩ := by
  induction lines generalizing line first with
  | nil => rfl
  | cons text lines ih =>
    obtain ⟨here, later⟩ := List.forall_mem_cons.mp empty
    rw [readLines, readItem_of_empty here]
    simp [ih later, Except.map, addFirst]

/-! ## Other numbers -/

theorem renumbered_inTurn (number : Nat → Nat) (outcome next : Except LineError RuleFile) :
    renumbered number (inTurn outcome next) =
      inTurn (renumbered number outcome) (renumbered number next) := by
  cases outcome with
  | error => rfl
  | ok file =>
    cases next with
    | error => rfl
    | ok next => simp [inTurn, renumbered, append]

theorem renumbered_map_addFirst (number : Nat → Nat) (outcome : Except LineError RuleFile)
    (item : Item) : renumbered number (outcome.map (·.addFirst line item)) =
      (renumbered number outcome).map (·.addFirst (number line) item) := by
  cases outcome with
  | error => rfl
  | ok file => cases item <;> rfl

/-- Where lines begin does not matter but for their numbers. -/
theorem readLines_renumber {number : Nat → Nat} {line' : Nat}
    (shift : ∀ i < lines.length, number (line + i) = line' + i) :
    readLines line' first lines = renumbered number (readLines line first lines) := by
  induction lines generalizing line line' first with
  | nil => rfl
  | cons text lines ih =>
    have here : number line = line' := shift 0 (Nat.succ_pos _)
    have later : ∀ i < lines.length, number (line + 1 + i) = line' + 1 + i := by
      intro i inside
      have := shift (i + 1) (Nat.succ_lt_succ inside)
      rw [Nat.add_right_comm line, Nat.add_right_comm line']
      exact this
    rw [readLines, readLines]
    cases readItem first text with
    | error fault => rw [← here]; rfl
    | ok item => simp only [ih later, renumbered_map_addFirst, here]

/-! ## Texts -/

/-- A text without a header is read after whole lines as if it stood alone, but for the numbers of
its lines. -/
theorem read_append {a b : String} (ends : a = "" ∨ a.toList.getLast? = some '\n')
    (headless : ∀ line ∈ contents b, line.head? ≠ some '#') :
    read (a ++ b) = inTurn (read a) (renumbered (· + (contents a).length) (read b)) := by
  have ends' : a.toList = [] ∨ a.toList.getLast? = some '\n' := by
    rwa [String.toList_eq_nil_iff]
  have headless' : ∀ text ∈ Text.lines b.toList, (content text).head? ≠ some '#' :=
    fun text mem => headless _ (List.mem_map_of_mem mem)
  have shift : ∀ i < (Text.lines b.toList).length,
      1 + i + (contents a).length = 1 + (Text.lines a.toList).length + i := by
    intro i _
    rw [contents, List.length_map]
    omega
  unfold read
  rw [String.toList_append, lines_append ends', readLines_append, readLines_of_headless headless',
    ← readLines_renumber shift]

/-- Lines without content move down what comes after them, and change nothing else. -/
theorem read_insert {text longer : String} {blanks : List (List Char)}
    (short : Text.lines text.toList = before ++ after)
    (long : Text.lines longer.toList = before ++ blanks ++ after)
    (empty : ∀ line ∈ blanks, content line = []) :
    read longer = renumbered (fun number => if number ≤ before.length then number
      else number + blanks.length) (read text) := by
  have kept : ∀ i < before.length, (if 1 + i ≤ before.length then 1 + i
      else 1 + i + blanks.length) = 1 + i := by
    intro i inside
    rw [if_pos (by omega)]
  have moved : ∀ i < after.length, (if 1 + before.length + i ≤ before.length
      then 1 + before.length + i else 1 + before.length + i + blanks.length) =
        1 + before.length + blanks.length + i := by
    intro i _
    rw [if_neg (by omega)]
    omega
  have none : (blanks.all fun text => (content text).isEmpty) = true := by
    simpa using empty
  unfold read
  rw [short, long, List.append_assoc, readLines_append, readLines_append _ _ blanks, none,
    Bool.and_true, readLines_of_empty empty, inTurn_empty, readLines_append 1 true before after,
    renumbered_inTurn, ← readLines_renumber kept, ← readLines_renumber moved]

/-- Texts one after another are read in turn, where the first error is reported and a language in
the second text wins. Lines without content only move down what comes after them. -/
theorem reads_in_turn :
    (∀ a b : String, (a = "" ∨ a.toList.getLast? = some '\n') →
      (∀ line ∈ contents b, line.head? ≠ some '#') →
      (∀ error, read a = .error error → read (a ++ b) = .error error) ∧
      ∀ file, read a = .ok file →
        (∀ k fault, read b = .error ⟨k, fault⟩ →
          read (a ++ b) = .error ⟨k + (contents a).length, fault⟩) ∧
        ∀ next, read b = .ok next → read (a ++ b) = .ok ⟨next.language <|> file.language,
          file.rules ++ next.rules.map fun spec =>
            { spec with line := spec.line + (contents a).length }⟩) ∧
    ∀ (text longer : String) (before blanks after : List (List Char)),
      Text.lines text.toList = before ++ after →
      Text.lines longer.toList = before ++ blanks ++ after →
      (∀ line ∈ blanks, content line = []) →
      read longer = renumbered (fun number => if number ≤ before.length then number
        else number + blanks.length) (read text) := by
  refine ⟨fun a b ends headless => ?_, fun _ _ _ _ _ => read_insert⟩
  rw [read_append ends headless]
  refine ⟨fun error failed => ?_, fun file first => ⟨fun k fault failed => ?_, fun next second => ?_⟩⟩
  · rw [failed]
    rfl
  · rw [first, failed]
    rfl
  · rw [first, second]
    rfl

/-- Lines end in different ways, and a comment stands before what is at fault. -/
theorem reads_in_turn_marks :
    (Sample.marksText ++ "\n").toList.getLast? = some '\n' ∧
    (∀ line ∈ contents "\r\n$B = b c\x7bn\x7d; // #\r\nlanguage fr;", line.head? ≠ some '#') ∧
    read (Sample.marksText ++ "\n" ++ "\r\n$B = b c\x7bn\x7d; // #\r\nlanguage fr;") =
      .ok ⟨some "fr", [⟨4, true, "$S", ["$A", ";;\x7d", "x"], some "a b"⟩,
        ⟨5, false, "$A", ["$B="], none⟩, ⟨8, false, "$B", ["b", "c"], some "n"⟩]⟩ ∧
    (∀ line ∈ ["".toList, " // $B".toList], content line = []) ∧
    read "public $S = a;\n\n // $B\n$B = ;" = .error ⟨4, .emptyBody⟩ := by
  have ends : (Sample.marksText ++ "\n").toList.getLast? = some '\n' := by decide
  have headless : ∀ line ∈ contents "\r\n$B = b c\x7bn\x7d; // #\r\nlanguage fr;",
      line.head? ≠ some '#' := by decide
  have empty : ∀ line ∈ ["".toList, " // $B".toList], content line = [] := by decide
  obtain ⟨turn, insert⟩ := reads_in_turn
  have first : read (Sample.marksText ++ "\n") = .ok ⟨some "de",
      [⟨4, true, "$S", ["$A", ";;\x7d", "x"], some "a b"⟩, ⟨5, false, "$A", ["$B="], none⟩]⟩ := by
    decide
  have second : read "\r\n$B = b c\x7bn\x7d; // #\r\nlanguage fr;" =
      .ok ⟨some "fr", [⟨2, false, "$B", ["b", "c"], some "n"⟩]⟩ := by decide
  have short : read "public $S = a;\n$B = ;" = .error ⟨2, .emptyBody⟩ := by decide
  have whole := ((turn _ _ (.inr ends) headless).2 _ first).2 _ second
  have longer := insert "public $S = a;\n$B = ;" "public $S = a;\n\n // $B\n$B = ;"
    ["public $S = a;".toList] ["".toList, " // $B".toList] ["$B = ;".toList] (by decide) (by decide)
    empty
  rw [short] at longer
  exact ⟨ends, headless, whole, empty, longer⟩

end RuleFile

end ChartParser
