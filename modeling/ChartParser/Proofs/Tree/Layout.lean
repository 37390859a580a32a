import ChartParser.Proofs.Layout.Printer
import ChartParser.Proofs.Tree.Tokens
import ChartParser.Tree.Layout

/-! # The layout of trees

A tree that does not fit on its line is laid out by plain recursion: the children stand on lines of
their own, and each of them is laid out in the same way from where its line begins.
-/

namespace ChartParser.Tree

open Layout Printer

mutual

/-- The layout of a tree from column `indent` on, where `trail` more bytes follow on its last
line. -/
def laid (width : Nat) : Tree → Nat → Nat → String
  | node symbol children, indent, trail =>
    let line := (node symbol children).text
    if children.isEmpty ∨ indent + line.utf8ByteSize + trail ≤ width then line
    else
      symbol.text ++ "(" ++ laidAll width children (indent + 2) ++ "\n" ++ Doc.spaces indent ++ ")"

/-- Each child on a line of its own, with a comma after all but the last. -/
def laidAll (width : Nat) : List Tree → Nat → String
  | [], _ => ""
  | child :: more, indent =>
    "\n" ++ Doc.spaces indent ++ laid width child indent (if more.isEmpty then 0 else 1)
      ++ (if more.isEmpty then "" else ",") ++ laidAll width more indent

end

variable {width : Nat}

/-! ## On one line -/

theorem inline_docs {children : List Tree}
    (flat : ∀ child ∈ children, Inline .flat child.doc child.text) {doc : Doc} {s : String}
    (first : Inline .flat doc s) : Inline .flat (doc ++ docs children) (s ++ texts children) := by
  induction children generalizing doc s with
  | nil =>
    rw [docs, texts, String.append_empty]
    exact first.append_nil
  | cons child more ih =>
    obtain ⟨child_flat, more_flat⟩ := List.forall_mem_cons.mp flat
    have comma : ", " = "," ++ " " := rfl
    rw [docs, texts, comma, String.append_assoc]
    have comma_line := (inline_text .flat ",").append inline_line
    exact first.append (comma_line.append (ih more_flat child_flat))

theorem inline_doc (tree : Tree) : Inline .flat tree.doc tree.text := by
  induction tree with
  | node symbol children ih =>
    cases children with
    | nil =>
      rw [doc, text]
      exact inline_text .flat symbol.text
    | cons child more =>
      obtain ⟨child_flat, more_flat⟩ := List.forall_mem_cons.mp ih
      have inner := (inline_docs more_flat child_flat).lineOrNil_append.nest 2
      have opened := ((inline_text .flat symbol.text).append (inline_text .flat "(")).append inner
      have closed := opened.append_lineOrNil.append (inline_text .flat ")")
      have regroup : symbol.text ++ "(" ++ child.text ++ texts more =
          symbol.text ++ "(" ++ (child.text ++ texts more) := String.append_assoc
      rw [doc, text, regroup]
      exact closed.group

/-! ## On several lines -/

/-- The tree on top of the stack is laid out, whatever is below. -/
def LaidOut (width : Nat) (tree : Tree) : Prop :=
  ∀ indent trail stack, Trails width trail stack → ∃ column,
    print width (⟨indent, .broken, tree.doc⟩ :: stack) indent =
      laid width tree indent trail ++ print width stack column

theorem print_children {first : Tree} {more : List Tree}
    (laidOut : ∀ child ∈ first :: more, LaidOut width child) (indent : Nat) {stack : List Entry}
    (last : Trails width 0 stack) : ∃ column,
      "\n" ++ Doc.spaces indent ++ print width (⟨indent, .broken, first.doc⟩ ::
          ⟨indent, .broken, docs more⟩ :: stack) indent =
        laidAll width (first :: more) indent ++ print width stack column := by
  induction more generalizing first with
  | nil =>
    have trails : Trails width 0 (⟨indent, .broken, docs []⟩ :: stack) := by
      intro column within
      rw [docs, waiting_cons, fits, last column within]
    obtain ⟨column, first_eq⟩ := laidOut first (.head _) indent 0 _ trails
    refine ⟨column, ?_⟩
    rw [first_eq, docs, print, laidAll, laidAll]
    simp [String.append_assoc]
  | cons next more ih =>
    have comma : ",".utf8ByteSize = 1 := rfl
    have trails : Trails width 1 (⟨indent, .broken, docs (next :: more)⟩ :: stack) := by
      intro column within
      simp [docs, waiting_cons, append_eq, Doc.line, fits, comma]
    obtain ⟨column, first_eq⟩ := laidOut first (.head _) indent 1 _ trails
    obtain ⟨column', more_eq⟩ := ih fun child mem => laidOut child (.tail _ mem)
    refine ⟨column', ?_⟩
    rw [first_eq, docs, laidAll]
    simp only [append_eq, Doc.line, print, more_eq]
    simp [String.append_assoc]

theorem laidOut (width : Nat) (tree : Tree) : LaidOut width tree := by
  induction tree with
  | node symbol children ih =>
    intro indent trail stack trails
    cases children with
    | nil =>
      rw [doc, Symbol.doc, print, laid, text]
      exact ⟨_, rfl⟩
    | cons child more =>
      have whole := inline_doc (node symbol (child :: more))
      rw [doc] at whole ⊢
      rw [print_group whole, laid]
      generalize (node symbol (child :: more)).text.utf8ByteSize = size
      by_cases all : indent + size + trail ≤ width
      · rw [if_pos ((trails.fits_iff _).mpr all), if_pos (.inr all)]
        exact ⟨_, rfl⟩
      · have ends : Trails width 0
            (⟨indent, .broken, Doc.lineOrNil⟩ :: ⟨indent, .broken, .text ")"⟩ :: stack) := by
          intro column within
          simp [waiting_cons, Doc.lineOrNil, fits, within]
        obtain ⟨column, inner_eq⟩ := print_children ih (indent + 2) ends
        rw [if_neg (mt (trails.fits_iff _).mp all), if_neg (by simp [all])]
        simp only [Doc.lineOrNil, print] at inner_eq
        simp only [append_eq, Symbol.doc, Doc.lineOrNil, print, inner_eq, String.append_assoc]
        exact ⟨_, rfl⟩

/-! ## The text apart from its breaks -/

/-- The characters that a line break does not change. -/
def unbroken (s : String) : List Char := s.toList.filter fun c => c ≠ ' ' && c ≠ '\n'

theorem unbroken_append (s t : String) : unbroken (s ++ t) = unbroken s ++ unbroken t := by
  rw [unbroken, String.toList_append, List.filter_append, unbroken, unbroken]

theorem unbroken_spaces (n : Nat) : unbroken (Doc.spaces n) = [] := by
  rw [unbroken, Doc.spaces, String.toList_ofList, List.filter_eq_nil_iff]
  intro c mem
  simp [List.eq_of_mem_replicate mem]

theorem unbroken_laidAll {first : Tree} {more : List Tree}
    (same : ∀ child ∈ first :: more, ∀ indent trail,
      unbroken (laid width child indent trail) = unbroken child.text) (indent : Nat) :
    unbroken (laidAll width (first :: more) indent) =
      unbroken first.text ++ unbroken (texts more) := by
  have newline : unbroken "\n" = [] := rfl
  have nothing : unbroken "" = [] := rfl
  have comma : unbroken "," = unbroken ", " := rfl
  induction more generalizing first with
  | nil =>
    rw [laidAll, laidAll, texts]
    simp [unbroken_append, unbroken_spaces, newline, nothing, same]
  | cons next more ih =>
    have more_same := ih fun child mem => same child (.tail _ mem)
    rw [laidAll, texts]
    simp [unbroken_append, unbroken_spaces, newline, comma, same, more_same]

theorem unbroken_laid (width : Nat) (tree : Tree) (indent trail : Nat) :
    unbroken (laid width tree indent trail) = unbroken tree.text := by
  have newline : unbroken "\n" = [] := rfl
  induction tree generalizing indent trail with
  | node symbol children ih =>
    rw [laid]
    split
    · rfl
    · next several =>
      cases children with
      | nil => exact absurd (.inl rfl) several
      | cons child more =>
        rw [text]
        simp [unbroken_append, unbroken_spaces, newline, unbroken_laidAll ih]

/-! ## The printed tree -/

/-- A tree is laid out by recursion. On a wide page it stands on one line, and on any page it has
the same characters, apart from its breaks. -/
theorem render_eq_laid (tree : Tree) (width : Nat) :
    tree.doc.render width = laid width tree 0 0 ∧
      Printer.run tree.doc width = laid width tree 0 0 ∧
      (tree.text.utf8ByteSize ≤ width → tree.doc.render width = tree.text) ∧
      unbroken (tree.doc.render width) = unbroken tree.text := by
  obtain ⟨column, run_eq⟩ := laidOut width tree 0 0 [] (trails_empty width)
  rw [print, String.append_empty] at run_eq
  have render_eq : tree.doc.render width = laid width tree 0 0 := (render_eq_run _ _).trans run_eq
  refine ⟨render_eq, run_eq, fun wide => ?_, ?_⟩
  · cases tree with
    | node symbol children =>
      rw [render_eq, laid]
      exact if_pos (.inr (by simpa using wide))
  · rw [render_eq, unbroken_laid]

example : (node (.nonterm "S") [.node (.nonterm "NP") [.leaf (.term "I")],
    .node (.nonterm "VP") [.leaf (.term "saw"), .leaf (.term "ducks")]]).doc.render 16 =
      "$S(\n  $NP(I),\n  $VP(\n    saw,\n    ducks\n  )\n)" := by decide

end ChartParser.Tree
