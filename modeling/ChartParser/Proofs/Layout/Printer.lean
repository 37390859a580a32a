import ChartParser.Layout.Printer

/-! # Layout by a stack

The printer with a stack gives the same text as the recursive layout, for every document and every
width. It is the form in which layouts are worked out: what is on top of the stack is printed, and
what is below counts only as far as the next line break.
-/

namespace ChartParser.Layout.Printer

variable {width : Nat} {s t : String} {a b : Doc}

/-! ## The recursive layout -/

theorem waiting_cons {entry : Entry} {stack : List Entry} :
    waiting (entry :: stack) = (.broken, entry.doc) :: waiting stack := rfl

theorem fits_cons (doc : Doc) (mode : Mode) (rest : List (Mode × Doc)) (column : Nat) :
    fits width ((mode, doc) :: rest) column =
      match doc.extent width mode column with
      | .tooWide => false
      | .ends => true
      | .reaches column => fits width rest column := by
  induction doc generalizing rest column with
  | nil => rw [fits, Doc.extent]
  | text s =>
    rw [fits, Doc.extent]
    by_cases wide : width < column + s.utf8ByteSize
    · simp [wide, Nat.not_le.mpr wide]
    · simp [wide, Nat.not_lt.mp wide]
  | newline => cases mode <;> simp [fits, Doc.extent]
  | append first second ih ih' =>
    rw [fits, ih, Doc.extent]
    cases first.extent width mode column with
    | tooWide | ends => rfl
    | reaches column => exact ih' rest column
  | nest more body ih => rw [fits, ih, Doc.extent]
  | group body ih => rw [fits, ih, Doc.extent]
  | choice broken flat ih ih' =>
    cases mode with
    | flat => rw [fits, ih', Doc.extent]
    | broken => rw [fits, ih, Doc.extent]

theorem fits_waiting (stack : List Entry) (column : Nat) :
    fits width (waiting stack) column = restFits width (stack.map Entry.doc) column := by
  induction stack generalizing column with
  | nil => rw [waiting, List.map_nil, fits, List.map_nil, restFits]
  | cons entry stack ih =>
    rw [waiting_cons, fits_cons, List.map_cons, restFits]
    cases entry.doc.extent width .broken column with
    | tooWide | ends => rfl
    | reaches column => exact ih column

/-- The stack below a document is printed from where the document ends. -/
theorem print_cons (doc : Doc) (indent : Nat) (mode : Mode) (stack : List Entry) (column : Nat) :
    print width (⟨indent, mode, doc⟩ :: stack) column =
      (doc.layout width indent mode (stack.map Entry.doc) column).1 ++
        print width stack (doc.layout width indent mode (stack.map Entry.doc) column).2 := by
  induction doc generalizing indent mode stack column with
  | nil => rw [print, Doc.layout, String.empty_append]
  | text s => rw [print, Doc.layout]
  | newline => rw [print, Doc.layout]
  | append first second ih ih' =>
    rw [print, ih, ih', Doc.layout, String.append_assoc, List.map_cons]
  | nest more body ih => rw [print, ih, Doc.layout]
  | group body ih =>
    cases mode with
    | flat => rw [print, ih, Doc.layout]
    | broken =>
      have same : fits width ((.flat, body) :: waiting stack) column =
          body.fits width (stack.map Entry.doc) column := by
        rw [fits_cons, Doc.fits]
        cases body.extent width .flat column with
        | tooWide | ends => rfl
        | reaches column => exact fits_waiting stack column
      rw [print, same, Doc.layout]
      split
      · exact ih indent .flat stack column
      · exact ih indent .broken stack column
  | choice broken flat ih ih' =>
    cases mode with
    | flat => rw [print, ih', Doc.layout]
    | broken => rw [print, ih, Doc.layout]

theorem render_eq_run (doc : Doc) (width : Nat) : doc.render width = run doc width := by
  rw [run, print_cons, print, String.append_empty, Doc.render, List.map_nil]

/-! ## Documents without line breaks -/

theorem append_eq (a b : Doc) : a ++ b = .append a b := rfl

/-- In this mode the document is a text without line breaks. -/
structure Inline (mode : Mode) (doc : Doc) (s : String) : Prop where
  print_eq : ∀ width indent stack column, print width (⟨indent, mode, doc⟩ :: stack) column =
    s ++ print width stack (column + s.utf8ByteSize)
  fits_eq : ∀ width rest column, fits width ((mode, doc) :: rest) column =
    (decide (column + s.utf8ByteSize ≤ width) && fits width rest (column + s.utf8ByteSize))

variable {mode : Mode}

theorem inline_text (mode : Mode) (s : String) : Inline mode (.text s) s := by
  constructor
  · intro width indent stack column
    rw [print]
  · intro width rest column
    rw [fits]

theorem inline_line : Inline .flat Doc.line " " := by
  unfold Doc.line
  constructor
  · intro width indent stack column
    rw [print, print]
  · intro width rest column
    rw [fits, fits]

theorem Inline.append (first : Inline mode a s) (second : Inline mode b t) :
    Inline mode (a ++ b) (s ++ t) := by
  rw [append_eq]
  constructor
  · intro width indent stack column
    rw [print, first.print_eq, second.print_eq, String.utf8ByteSize_append, Nat.add_assoc,
      String.append_assoc]
  · intro width rest column
    rw [fits, first.fits_eq, second.fits_eq, String.utf8ByteSize_append, ← Nat.add_assoc]
    -- Where the first text does not fit, both together do not fit either.
    by_cases first_fits : column + s.utf8ByteSize ≤ width
    · simp [first_fits]
    · have both : ¬ column + s.utf8ByteSize + t.utf8ByteSize ≤ width := by omega
      simp [first_fits, both]

theorem Inline.append_nil (first : Inline mode a s) : Inline mode (a ++ .nil) s := by
  rw [append_eq]
  constructor
  · intro width indent stack column
    rw [print, first.print_eq, print]
  · intro width rest column
    rw [fits, first.fits_eq, fits]

theorem Inline.append_lineOrNil (first : Inline .flat a s) :
    Inline .flat (a ++ Doc.lineOrNil) s := by
  rw [append_eq, Doc.lineOrNil]
  constructor
  · intro width indent stack column
    rw [print, first.print_eq, print, print]
  · intro width rest column
    rw [fits, first.fits_eq, fits, fits]

theorem Inline.lineOrNil_append (second : Inline .flat a s) :
    Inline .flat (Doc.lineOrNil ++ a) s := by
  rw [append_eq, Doc.lineOrNil]
  constructor
  · intro width indent stack column
    rw [print, print, print, second.print_eq]
  · intro width rest column
    rw [fits, fits, fits, second.fits_eq]

theorem Inline.nest (body : Inline mode a s) (more : Nat) : Inline mode (.nest more a) s := by
  constructor
  · intro width indent stack column
    rw [print, body.print_eq]
  · intro width rest column
    rw [fits, body.fits_eq]

theorem Inline.group (body : Inline .flat a s) : Inline .flat (.group a) s := by
  constructor
  · intro width indent stack column
    rw [print, body.print_eq]
  · intro width rest column
    rw [fits, body.fits_eq]

/-! ## Groups -/

/-- A group is on one line if its text and what waits on that line stay within the width. -/
theorem print_group (whole : Inline .flat (.group a) s) (indent : Nat) (stack : List Entry)
    (column : Nat) :
    print width (⟨indent, .broken, .group a⟩ :: stack) column =
      if column + s.utf8ByteSize ≤ width ∧
          fits width (waiting stack) (column + s.utf8ByteSize) = true then
        s ++ print width stack (column + s.utf8ByteSize)
      else print width (⟨indent, .broken, a⟩ :: stack) column := by
  have fits_eq := whole.fits_eq width (waiting stack) column
  have print_eq := whole.print_eq width indent stack column
  rw [fits] at fits_eq
  rw [print] at print_eq
  rw [print, fits_eq]
  simp only [Bool.and_eq_true, decide_eq_true_eq]
  split
  · exact print_eq
  · rfl

/-- On a line that is not too wide yet, what waits on the stack takes up this much. -/
def Trails (width trail : Nat) (stack : List Entry) : Prop :=
  ∀ column ≤ width, fits width (waiting stack) column = decide (column + trail ≤ width)

theorem Trails.fits_iff {trail : Nat} {stack : List Entry} (trails : Trails width trail stack)
    (column : Nat) : (column ≤ width ∧ fits width (waiting stack) column = true) ↔
      column + trail ≤ width := by
  constructor
  · rintro ⟨line, rest⟩
    simpa [trails column line] using rest
  · intro all
    have line : column ≤ width := by omega
    exact ⟨line, by simpa [trails column line] using all⟩

theorem trails_empty (width : Nat) : Trails width 0 [] := by
  intro column within
  simp [waiting, fits, within]

theorem trails_newline (width indent : Nat) (stack : List Entry) :
    Trails width 0 (⟨indent, .broken, .newline⟩ :: stack) := by
  intro column within
  simp [waiting_cons, fits, within]

end ChartParser.Layout.Printer
