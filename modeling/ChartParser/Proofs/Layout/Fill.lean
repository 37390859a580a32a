import ChartParser.Layout.Fill
import ChartParser.Proofs.Layout.Printer

/-! # Soft lines fill

A soft line is taken or not by what follows it up to the next one. So documents with soft lines
between their atoms fill their lines.
-/

namespace ChartParser.Layout

variable {width indent start : Nat}

/-! ## Atoms -/

/-- The atoms with a space before each. -/
def spacedOut (atoms : List String) : String := String.join (atoms.map (" " ++ ·))

theorem spacedOut_cons (atom : String) (more : List String) :
    spacedOut (atom :: more) = " " ++ atom ++ spacedOut more := String.join_cons

theorem intercalate_cons (atom : String) (more : List String) :
    " ".intercalate (atom :: more) = atom ++ spacedOut more := by
  induction more generalizing atom with
  | nil =>
    rw [String.intercalate_singleton, spacedOut, List.map_nil, String.join_nil, String.append_empty]
  | cons next more ih =>
    rw [String.intercalate_cons_cons, ih, spacedOut_cons, String.append_assoc, String.append_assoc]

theorem markLast_append_singleton (mark atom : String) (before : List String) :
    markLast mark (before ++ [atom]) = before ++ [atom ++ mark] := by
  induction before with
  | nil => rfl
  | cons first before ih =>
    cases before with
    | nil => rfl
    | cons next before => exact congrArg (first :: ·) ih

theorem markLast_empty (atoms : List String) : markLast "" atoms = atoms := by
  fun_induction markLast "" atoms with
  | case1 => rfl
  | case2 atom => rw [String.append_empty]
  | case3 atom next more ih => rw [ih]

theorem intercalate_markLast (mark : String) {atoms : List String} (some_atom : atoms ≠ []) :
    " ".intercalate (markLast mark atoms) = " ".intercalate atoms ++ mark := by
  fun_induction markLast mark atoms with
  | case1 => exact absurd rfl some_atom
  | case2 atom => rw [String.intercalate_singleton, String.intercalate_singleton]
  | case3 atom next more ih =>
    have kept : markLast mark (next :: more) ≠ [] := by cases more <;> simp [markLast]
    rw [String.intercalate_cons_of_ne_nil kept, ih (List.cons_ne_nil next more),
      String.intercalate_cons_cons, String.append_assoc, String.append_assoc, String.append_assoc]

/-! ## Lines -/

/-- Atoms that all fit stay on the line. -/
theorem fillFrom_of_fits {atoms : List String} {column : Nat}
    (all : column + (spacedOut atoms).utf8ByteSize ≤ width) :
    fillFrom width indent column atoms = spacedOut atoms := by
  induction atoms generalizing column with
  | nil => rfl
  | cons atom more ih =>
    have space : " ".utf8ByteSize = 1 := rfl
    rw [spacedOut_cons, String.utf8ByteSize_append, String.utf8ByteSize_append, space] at all
    rw [fillFrom, if_pos (by omega), ih (by omega), spacedOut_cons]

theorem fill_of_fits {atoms : List String}
    (all : start + (" ".intercalate atoms).utf8ByteSize ≤ width) :
    fill width start indent atoms = " ".intercalate atoms := by
  cases atoms with
  | nil => rfl
  | cons atom more =>
    rw [intercalate_cons, String.utf8ByteSize_append] at all
    rw [fill, fillFrom_of_fits (by omega), intercalate_cons]

theorem furtherLines_cons (line : List String) (lines : List (List String)) :
    furtherLines indent (line :: lines) =
      "\n" ++ Doc.spaces indent ++ " ".intercalate line ++ furtherLines indent lines :=
  String.join_cons

theorem lineFits_cons {column : Nat} {atom : String} {more : List String}
    (fits : more ≠ [] → column + atom.utf8ByteSize + (spacedOut more).utf8ByteSize ≤ width) :
    LineFits width column (atom :: more) := by
  intro several
  rw [intercalate_cons, String.utf8ByteSize_append, ← Nat.add_assoc]
  apply fits
  rintro rfl
  simp at several

/-- Some of the atoms are still on the line, and the others are on lines of their own. -/
theorem fillFrom_onLines (width indent column : Nat) (atoms : List String) :
    ∃ (same : List String) (others : List (List String)), same ++ others.flatten = atoms ∧
      fillFrom width indent column atoms = spacedOut same ++ furtherLines indent others ∧
      (same ≠ [] → column + (spacedOut same).utf8ByteSize ≤ width) ∧
      ∀ line ∈ others, line ≠ [] ∧ LineFits width indent line := by
  induction atoms generalizing column with
  | nil => exact ⟨[], [], rfl, rfl, by simp, by simp⟩
  | cons atom atoms ih =>
    rw [fillFrom]
    split
    · next here =>
      obtain ⟨same, others, rfl, text, fits, lines⟩ := ih (column + 1 + atom.utf8ByteSize)
      have space : " ".utf8ByteSize = 1 := rfl
      refine ⟨atom :: same, others, rfl, ?_, fun _ => ?_, lines⟩
      · simp only [text, spacedOut_cons, String.append_assoc]
      · rw [spacedOut_cons, String.utf8ByteSize_append, String.utf8ByteSize_append, space]
        cases same with
        | nil =>
          rw [spacedOut, List.map_nil, String.join_nil, String.utf8ByteSize_empty]
          omega
        | cons next same =>
          have := fits (List.cons_ne_nil next same)
          omega
    · next beyond =>
      obtain ⟨same, others, rfl, text, fits, lines⟩ := ih (indent + atom.utf8ByteSize)
      refine ⟨[], (atom :: same) :: others, rfl, ?_, by simp, ?_⟩
      · have nothing : spacedOut [] = "" := rfl
        simp only [text, furtherLines_cons, intercalate_cons, nothing, String.empty_append,
          String.append_assoc]
      · exact List.forall_mem_cons.mpr ⟨⟨List.cons_ne_nil atom same, lineFits_cons fits⟩, lines⟩

theorem fill_onLines (width start indent : Nat) (atoms : List String) :
    OnLines width start indent atoms (fill width start indent atoms) := by
  cases atoms with
  | nil => exact ⟨[], [], rfl, rfl, fun several => absurd several (by simp), by simp⟩
  | cons atom more =>
    obtain ⟨same, others, rfl, text, fits, lines⟩ :=
      fillFrom_onLines width indent (start + atom.utf8ByteSize) more
    refine ⟨atom :: same, others, rfl, ?_, lineFits_cons fits, lines⟩
    rw [fill, text, intercalate_cons, String.append_assoc]

/-! ## Soft lines -/

namespace Printer

variable {a b : Doc} {s mark : String} {atoms : List String} {stack below : List Entry}

/-- The top of the stack is `mark`, which belongs to the atom before it, and then atoms that fill
their lines, whatever column they begin in. -/
structure Fills (width indent : Nat) (mark : String) (atoms : List String)
    (stack below : List Entry) : Prop where
  trails : Trails width mark.utf8ByteSize stack
  print_eq : ∀ column, ∃ column', print width stack column =
    mark ++ fillFrom width indent (column + mark.utf8ByteSize) atoms ++ print width below column'

theorem fills_text (ends : Trails width 0 stack) (indent : Nat) (mark : String) :
    Fills width indent mark [] (⟨indent, .broken, .text mark⟩ :: stack) stack where
  trails := by
    intro column within
    rw [waiting_cons, fits]
    by_cases marked : column + mark.utf8ByteSize ≤ width
    · simp [ends _ marked, marked]
    · simp [marked]
  print_eq := by
    intro column
    rw [print, fillFrom, String.append_empty]
    exact ⟨_, rfl⟩

theorem Fills.nil (rest : Fills width indent mark atoms stack below) :
    Fills width indent mark atoms (⟨indent, .broken, .nil⟩ :: stack) below where
  trails := by
    intro column within
    rw [waiting_cons, fits, rest.trails column within]
  print_eq := by
    intro column
    rw [print]
    exact rest.print_eq column

theorem Fills.append
    (rest : Fills width indent mark atoms
      (⟨indent, .broken, a⟩ :: ⟨indent, .broken, b⟩ :: stack) below) :
    Fills width indent mark atoms (⟨indent, .broken, a ++ b⟩ :: stack) below where
  trails := by
    intro column within
    rw [append_eq, waiting_cons, fits]
    exact rest.trails column within
  print_eq := by
    intro column
    rw [append_eq, print]
    exact rest.print_eq column

/-- A soft line is taken if the text after it does not fit with what trails it. -/
theorem print_softline (inline : Inline .broken a s) {trail : Nat}
    (trails : Trails width trail stack) (column : Nat) :
    print width (⟨indent, .broken, Doc.softline⟩ :: ⟨indent, .broken, a⟩ :: stack) column =
      if column + 1 + s.utf8ByteSize + trail ≤ width then
        " " ++ s ++ print width stack (column + 1 + s.utf8ByteSize)
      else "\n" ++ Doc.spaces indent ++ s ++ print width stack (indent + s.utf8ByteSize) := by
  have space : " ".utf8ByteSize = 1 := rfl
  have fits_iff : (column + 1 ≤ width ∧
      fits width (waiting (⟨indent, .broken, a⟩ :: stack)) (column + 1) = true) ↔
        column + 1 + s.utf8ByteSize + trail ≤ width := by
    rw [waiting_cons, inline.fits_eq, Bool.and_eq_true, decide_eq_true_eq, trails.fits_iff]
    omega
  rw [Doc.softline, print_group inline_line.group, space]
  simp only [fits_iff]
  split
  · rw [inline.print_eq, String.append_assoc]
  · rw [Doc.line, print, print, inline.print_eq, ← String.append_assoc]

/-- The line may end at a soft line. So nothing after it counts for the atom before it. -/
theorem trails_softline (stack : List Entry) :
    Trails width 0 (⟨indent, .broken, Doc.softline⟩ :: stack) := by
  intro column within
  simp [waiting_cons, Doc.softline, Doc.line, fits, within]

theorem Fills.atom (rest : Fills width indent mark atoms stack below)
    (inline : Inline .broken a s) :
    Fills width indent "" ((s ++ mark) :: atoms)
      (⟨indent, .broken, Doc.softline⟩ :: ⟨indent, .broken, a⟩ :: stack) below where
  trails := trails_softline _
  print_eq := by
    intro column
    have nothing : "".utf8ByteSize = 0 := rfl
    rw [print_softline inline rest.trails, fillFrom, String.utf8ByteSize_append, nothing,
      String.empty_append, Nat.add_zero, ← Nat.add_assoc]
    split
    · obtain ⟨column', rest_eq⟩ := rest.print_eq (column + 1 + s.utf8ByteSize)
      refine ⟨column', ?_⟩
      rw [rest_eq]
      simp only [String.append_assoc]
    · obtain ⟨column', rest_eq⟩ := rest.print_eq (indent + s.utf8ByteSize)
      refine ⟨column', ?_⟩
      rw [rest_eq, ← Nat.add_assoc]
      simp only [String.append_assoc]

theorem Fills.fill (rest : Fills width indent "" atoms stack below) (atom : String) (start : Nat) :
    ∃ column', atom ++ print width stack (start + atom.utf8ByteSize) =
      fill width start indent (atom :: atoms) ++ print width below column' := by
  obtain ⟨column', rest_eq⟩ := rest.print_eq (start + atom.utf8ByteSize)
  refine ⟨column', ?_⟩
  have nothing : "".utf8ByteSize = 0 := rfl
  rw [rest_eq, nothing, String.empty_append, Nat.add_zero, Layout.fill, String.append_assoc]

/-- A soft line looks into the document under it only up to the next break. -/
theorem Fills.softline_append
    (rest : Fills width indent "" atoms (⟨indent, .broken, Doc.softline⟩ :: ⟨indent, .broken, a⟩ ::
      ⟨indent, .broken, b⟩ :: stack) below) :
    Fills width indent "" atoms
      (⟨indent, .broken, Doc.softline⟩ :: ⟨indent, .broken, a ++ b⟩ :: stack) below where
  trails := trails_softline _
  print_eq := by
    intro column
    have print_eq := rest.print_eq column
    rw [Doc.softline, print_group inline_line.group] at print_eq ⊢
    simpa only [waiting_cons, append_eq, fits, print, Doc.line] using print_eq

end Printer

end ChartParser.Layout
