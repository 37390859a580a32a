import ChartParser.Grammar.Samples
import ChartParser.Proofs.Grammar.Build
import ChartParser.Proofs.RuleFile.Format
import Mathlib.Data.Nat.Find

/-! # Which texts are rule files

A text is read if all of its lines have the format of an item. Otherwise the error is about the
first line that has not.
-/

namespace ChartParser.RuleFile

variable {item : Item} {items : List Item} {line i : Nat} {first : Prop}

/-! ## Lines one after another -/

/-- The content with index `i` has the format of the item, where `first` says that nothing precedes
the contents. -/
def FitsFrom (first : Prop) (contents : List (List Char)) (i : Nat) (item : Item) : Prop :=
  ∃ line, contents[i]? = some line ∧
    LineFormat (first ∧ ∀ earlier ∈ contents.take i, earlier = []) line item

theorem fitsFrom_true (contents : List (List Char)) (i : Nat) (item : Item) :
    FitsFrom True contents i item ↔ FitsAt contents i item := by
  simp only [FitsFrom, FitsAt, true_and]

theorem fitsFrom_zero {text : List Char} {more : List (List Char)} :
    FitsFrom first (text :: more) 0 item ↔ LineFormat first text item := by
  simp [FitsFrom]

theorem fitsFrom_succ {text : List Char} {more : List (List Char)} :
    FitsFrom first (text :: more) (i + 1) item ↔
      FitsFrom (first ∧ text = []) more i item := by
  simp only [FitsFrom, List.getElem?_cons_succ, List.take_succ_cons, List.forall_mem_cons,
    and_assoc]

theorem blank_iff {text : List Char} (format : LineFormat first text item) :
    item = .blank ↔ text = [] := by
  cases format with
  | blank => simp
  | @header start rest _ start_eq =>
    obtain ⟨c, more, rfl, -, -⟩ := List.map_eq_cons_iff.mp start_eq
    simp
  | language => simp
  | rule format =>
    cases format
    simp

/-- The content of a line says whether a header may still come after it. -/
theorem first_next {first : Bool} {text : List Char}
    (format : LineFormat (first = true) text item) :
    ((first && item == .blank) = true) = (first = true ∧ text = []) := by
  rw [Bool.and_eq_true, beq_iff_eq, blank_iff format]

theorem addFirst_collect (line : Nat) (item : Item) (items : List Item) :
    (collect (line + 1) items).addFirst line item = collect line (item :: items) := by
  cases item with
  | blank => rfl
  | header => rfl
  | language tag =>
    have last : ((items.filterMap Item.tag?).getLast? <|> some tag) =
        (tag :: items.filterMap Item.tag?).getLast? := by
      rw [List.getLast?_cons]
      cases (items.filterMap Item.tag?).getLast? <;> rfl
    rw [collect, addFirst, last]
    rfl
  | rule => rfl

theorem readLines_of_fits {lines : List (List Char)} {first : Bool}
    (length : items.length = lines.length)
    (fits : ∀ i item, items[i]? = some item →
      FitsFrom (first = true) (lines.map content) i item) :
    readLines line first lines = .ok (collect line items) := by
  induction lines generalizing line first items with
  | nil =>
    rw [List.eq_nil_of_length_eq_zero length]
    rfl
  | cons text more ih =>
    obtain ⟨item, others, rfl⟩ := List.exists_cons_of_length_eq_add_one length
    have format : LineFormat (first = true) (content text) item :=
      fitsFrom_zero.mp (fits 0 item rfl)
    have rest : readLines (line + 1) (first && item == .blank) more =
        .ok (collect (line + 1) others) := by
      apply ih (Nat.succ.inj length)
      intro i other other_eq
      rw [first_next format]
      exact fitsFrom_succ.mp (fits (i + 1) other other_eq)
    rw [readLines, readItem_of_lineFormat format]
    simp only [rest, Except.map, addFirst_collect]

theorem readLines_of_misfit {lines : List (List Char)} {first : Bool}
    (apart : ∀ text ∈ lines, ¬ Glued (content text))
    (before : ∀ j < i, ∃ item, FitsFrom (first = true) (lines.map content) j item)
    (inside : i < lines.length)
    (misfit : ∀ item, ¬ FitsFrom (first = true) (lines.map content) i item) :
    ∃ fault, readLines line first lines = .error ⟨line + i, fault⟩ := by
  induction lines generalizing line first i with
  | nil => nomatch inside
  | cons text more ih =>
    obtain ⟨here, later⟩ := List.forall_mem_cons.mp apart
    rw [readLines]
    cases i with
    | zero =>
      cases read : readItem first text with
      | ok item =>
        have format := (readItem_eq_ok_iff here).mp read
        exact absurd (fitsFrom_zero.mpr format) (misfit item)
      | error fault => exact ⟨fault, rfl⟩
    | succ i =>
      obtain ⟨item, fits⟩ := before 0 (Nat.succ_pos i)
      have format := fitsFrom_zero.mp fits
      obtain ⟨fault, rest⟩ : ∃ fault, readLines (line + 1) (first && item == .blank) more =
          .error ⟨line + 1 + i, fault⟩ := by
        apply ih later (fun j less => ?_) (Nat.lt_of_succ_lt_succ inside) (fun other fits => ?_)
        · rw [first_next format]
          obtain ⟨other, fits⟩ := before (j + 1) (Nat.succ_lt_succ less)
          exact ⟨other, fitsFrom_succ.mp fits⟩
        · rw [first_next format] at fits
          exact misfit other (fitsFrom_succ.mpr fits)
      rw [(readItem_eq_ok_iff here).mpr format]
      refine ⟨fault, ?_⟩
      simp only [rest, Except.map]
      rw [Nat.add_assoc, Nat.add_comm 1 i]

/-! ## Texts -/

variable {text : String}

theorem read_of_fit (fit : Fit (contents text) items) : read text = .ok (collect 1 items) := by
  obtain ⟨length, fits⟩ := fit
  apply readLines_of_fits
  · rwa [contents, List.length_map] at length
  · simpa [fitsFrom_true, contents] using fits

theorem read_of_misfit (apart : ∀ line ∈ contents text, ¬ Glued line)
    (before : ∀ j < i, ∃ item, FitsAt (contents text) j item) (inside : i < (contents text).length)
    (misfit : ∀ item, ¬ FitsAt (contents text) i item) :
    ∃ fault, read text = .error ⟨i + 1, fault⟩ := by
  rw [Nat.add_comm]
  apply readLines_of_misfit (fun _ mem => apart _ (List.mem_map_of_mem mem))
  · simpa [fitsFrom_true, contents] using before
  · rwa [contents, List.length_map] at inside
  · simpa [fitsFrom_true, contents] using misfit

theorem exists_fit {contents : List (List Char)}
    (fits : ∀ i < contents.length, ∃ item, FitsAt contents i item) :
    ∃ items, Fit contents items := by
  choose item fits using fits
  refine ⟨List.ofFn fun i : Fin contents.length => item i i.isLt, List.length_ofFn,
    fun i other h => ?_⟩
  rw [List.getElem?_ofFn] at h
  split at h
  · next inside =>
    cases h
    exact fits i inside
  · nomatch h

/-- Some line is the first that fits nothing, unless all lines fit. -/
theorem exists_fit_or_misfit (contents : List (List Char)) : (∃ items, Fit contents items) ∨
    ∃ i < contents.length, (∀ j < i, ∃ item, FitsAt contents j item) ∧
      ∀ item, ¬ FitsAt contents i item := by
  classical
  by_cases all : ∀ i < contents.length, ∃ item, FitsAt contents i item
  · exact .inl (exists_fit all)
  · push Not at all
    refine .inr ⟨Nat.find all, (Nat.find_spec all).1, fun j less => ?_, (Nat.find_spec all).2⟩
    have found := Nat.find_min all less
    push Not at found
    exact found (Nat.lt_trans less (Nat.find_spec all).1)

theorem exists_read_iff (apart : ∀ line ∈ contents text, ¬ Glued line) :
    (∃ file, read text = .ok file) ↔
      ∀ i < (contents text).length, ∃ item, FitsAt (contents text) i item := by
  constructor
  · rintro ⟨file, file_eq⟩ i inside
    rcases exists_fit_or_misfit (contents text) with ⟨items, length, fits⟩ | ⟨j, j_inside, h⟩
    · have here : i < items.length := by omega
      exact ⟨_, fits i _ (List.getElem?_eq_getElem here)⟩
    · obtain ⟨fault, error_eq⟩ := read_of_misfit apart h.1 j_inside h.2
      rw [file_eq] at error_eq
      nomatch error_eq
  · intro all
    obtain ⟨items, fit⟩ := exists_fit all
    exact ⟨_, read_of_fit fit⟩

/-! ## Grammars -/

theorem valid_of_lineFormat {text : List Char} {spec : RuleSpec}
    (format : LineFormat first text item) (declares : item.spec? line = some spec) :
    spec.rule.Valid := by
  cases format with
  | blank | header | language => nomatch declares
  | rule format =>
    obtain ⟨-, -, -, -, body_format⟩ := format
    cases declares
    refine ⟨by simp [RuleSpec.rule, Symbol.ofToken, Symbol.isNonterm], ?_⟩
    cases body_format with
    | plain spaced | labeled spaced => simpa [RuleSpec.rule] using (words_of_spaced spaced).2

theorem valid_of_fit {contents : List (List Char)} (fit : Fit contents items) :
    ∀ spec ∈ (collect line items).rules, spec.rule.Valid := by
  intro spec mem
  obtain ⟨⟨item, number⟩, item_mem, declares⟩ := List.mem_filterMap.mp mem
  obtain ⟨i, known⟩ := List.mem_iff_getElem?.mp (List.fst_mem_of_mem_zipIdx item_mem)
  obtain ⟨text, -, format⟩ := fit.2 i item known
  exact valid_of_lineFormat format declares

/-- The reader accepts exactly the format of rule files, and reports the first line that does not
fit. What it reads is a grammar if the public rules have one head. -/
theorem reads_exactly_format (apart : ∀ line ∈ contents text, ¬ Glued line) :
    ((∃ file, read text = .ok file) ↔
      ∀ i < (contents text).length, ∃ item, FitsAt (contents text) i item) ∧
    (∀ items, Fit (contents text) items → read text = .ok (collect 1 items) ∧
      Grammar.ofRuleFile text =
        Grammar.ofSpecs (collect 1 items).rules (collect 1 items).language ∧
      ((∃ g, Grammar.ofRuleFile text = .ok g) ↔
        ∃ head, (∃ spec ∈ (collect 1 items).rules, spec.isPublic = true) ∧
          ∀ spec ∈ (collect 1 items).rules, spec.isPublic = true → spec.head = head)) ∧
    ∀ i < (contents text).length, (∀ j < i, ∃ item, FitsAt (contents text) j item) →
      (∀ item, ¬ FitsAt (contents text) i item) → ∃ fault, read text = .error ⟨i + 1, fault⟩ ∧
        Grammar.ofRuleFile text = .error (.unreadable ⟨i + 1, fault⟩) := by
  refine ⟨exists_read_iff apart, fun items fit => ?_, fun i inside before misfit => ?_⟩
  · have file_eq := read_of_fit fit
    have made : Grammar.ofRuleFile text =
        Grammar.ofSpecs (collect 1 items).rules (collect 1 items).language := by
      rw [Grammar.ofRuleFile, file_eq]
    refine ⟨file_eq, made, ?_⟩
    rw [made]
    exact Grammar.exists_ofSpecs_iff (valid_of_fit fit)
  · obtain ⟨fault, error_eq⟩ := read_of_misfit apart before inside misfit
    refine ⟨fault, error_eq, ?_⟩
    rw [Grammar.ofRuleFile, error_eq]

/-- Semicolons, closing braces and equals signs may stand in symbols. -/
theorem reads_exactly_format_marks : (∀ line ∈ contents Sample.marksText, ¬ Glued line) ∧
    ∃ items, Fit (contents Sample.marksText) items ∧ collect 1 items = ⟨some "de",
      [⟨4, true, "$S", ["$A", ";;\x7d", "x"], some "a b"⟩, ⟨5, false, "$A", ["$B="], none⟩]⟩ := by
  have apart : ∀ line ∈ contents Sample.marksText, ¬ Glued line := by decide
  have file_eq : read Sample.marksText = .ok ⟨some "de",
      [⟨4, true, "$S", ["$A", ";;\x7d", "x"], some "a b"⟩, ⟨5, false, "$A", ["$B="], none⟩]⟩ := by
    decide
  obtain ⟨all, fit, -⟩ := reads_exactly_format apart
  obtain ⟨items, items_fit⟩ := exists_fit (all.mp ⟨_, file_eq⟩)
  exact ⟨apart, items, items_fit, Except.ok.inj ((fit items items_fit).1.symm.trans file_eq)⟩

end ChartParser.RuleFile
