import ChartParser.Proofs.Layout.Fill
import ChartParser.Rule.Layout

/-! # The layout of rules

A rule fills its lines with its head, the symbols of its body and its label, also in the middle of
other documents, as long as a line break follows it.
-/

namespace ChartParser

open Layout Printer

variable {width : Nat}

namespace Rule

/-- The texts that are not broken. The mark at the end belongs to the last of them. -/
def atoms (rule : Rule) : List String :=
  markLast ";" ((rule.head.text ++ " =") ::
    rule.body.map Symbol.text ++ (rule.label.map braced).toList)

theorem spaced_eq (symbols : List Symbol) :
    spaced symbols = spacedOut (symbols.map Symbol.text) := by
  rw [spaced, spacedOut, List.map_map]
  rfl

theorem text_eq (rule : Rule) : rule.text = " ".intercalate rule.atoms := by
  rw [atoms, List.cons_append, intercalate_markLast _ (List.cons_ne_nil _ _), intercalate_cons,
    text, spaced_eq]
  cases rule.label with
  | none => simp [spacedOut, String.append_assoc]
  | some label => simp [spacedOut, String.append_assoc]

/-! ## On one line -/

theorem inline_separated (symbol : Symbol) (more : List Symbol) :
    Inline .flat (Doc.separated Doc.softline ((symbol :: more).map Symbol.doc))
      (" ".intercalate ((symbol :: more).map Symbol.text)) := by
  induction more generalizing symbol with
  | nil => exact inline_text .flat symbol.text
  | cons next more ih =>
    simp only [List.map_cons, Doc.separated, String.intercalate_cons_cons] at ih ⊢
    exact ((inline_text .flat symbol.text).append inline_line.group).append (ih next)

theorem inline_braced (mode : Mode) (label : Symbol) :
    Inline mode (.text "\x7b" ++ label.doc ++ .text "\x7d") (braced label) :=
  ((inline_text mode "\x7b").append (inline_text mode label.text)).append (inline_text mode "\x7d")

theorem spaced_cons (symbol : Symbol) (more : List Symbol) :
    spaced (symbol :: more) = " " ++ " ".intercalate ((symbol :: more).map Symbol.text) := by
  rw [spaced_eq, List.map_cons, spacedOut_cons, intercalate_cons, String.append_assoc]

theorem inline_doc {rule : Rule} (valid : rule.Valid) : Inline .flat rule.doc rule.text := by
  obtain ⟨head, body, label⟩ := rule
  obtain ⟨symbol, more, rfl⟩ := List.exists_cons_of_ne_nil valid.2
  have opening := (inline_text .flat head.text).append (inline_text .flat " =")
  have front := (opening.append inline_line.group).append (inline_separated symbol more)
  have semicolon := inline_text .flat ";"
  rw [text, spaced_cons, ← String.append_assoc]
  cases label with
  | none =>
    rw [String.append_empty]
    exact ((front.append_nil.append semicolon).nest 2).group
  | some label =>
    have braces := inline_line.group.append (inline_braced .flat label)
    exact (((front.append braces).append semicolon).nest 2).group

/-! ## On several lines -/

variable {indent : Nat} {mark : String} {later : List String} {stack below : List Entry}

/-- A body fills its lines together with the atoms after it. -/
theorem fills_body (rest : Fills width indent mark later stack below) (symbol : Symbol)
    (more : List Symbol) :
    Fills width indent "" (markLast mark ((symbol :: more).map Symbol.text) ++ later)
      (⟨indent, .broken, Doc.softline⟩ ::
        ⟨indent, .broken, Doc.separated Doc.softline ((symbol :: more).map Symbol.doc)⟩ :: stack)
      below := by
  induction more generalizing symbol with
  | nil => exact rest.atom (inline_text .broken symbol.text)
  | cons next more ih =>
    have all := (ih next).atom (inline_text .broken symbol.text)
    rw [String.append_empty] at all
    exact all.softline_append.softline_append

theorem print_doc {rule : Rule} (valid : rule.Valid) (ends : Trails width 0 stack)
    (indent column : Nat) : ∃ column',
      print width (⟨indent, .broken, rule.doc⟩ :: stack) column =
        fill width column (indent + 2) rule.atoms ++ print width stack column' := by
  have whole := inline_doc valid
  obtain ⟨head, body, label⟩ := rule
  obtain ⟨symbol, more, rfl⟩ := List.exists_cons_of_ne_nil valid.2
  rw [doc] at whole ⊢
  rw [print_group whole]
  split
  · next line =>
    rw [text_eq] at line ⊢
    rw [fill_of_fits line.1]
    exact ⟨_, rfl⟩
  · have semicolon := fills_text ends (indent + 2) ";"
    have opening : (head.text ++ " =").utf8ByteSize =
        head.text.utf8ByteSize + " =".utf8ByteSize := String.utf8ByteSize_append
    cases label with
    | none =>
      have same : atoms ⟨head, symbol :: more, none⟩ = (head.text ++ " =") ::
          (markLast ";" ((symbol :: more).map Symbol.text) ++ []) := by
        rw [List.append_nil, atoms, Option.map_none, Option.toList_none, List.append_nil,
          List.map_cons, markLast]
      rw [same]
      obtain ⟨column', fill_eq⟩ :=
        (fills_body semicolon.nil symbol more).fill (head.text ++ " =") column
      refine ⟨column', fill_eq ▸ ?_⟩
      simp only [append_eq, print, Symbol.doc, opening, Nat.add_assoc, String.append_assoc]
    | some label =>
      have braces := (semicolon.atom (inline_braced .broken label)).append
      have same : atoms ⟨head, symbol :: more, some label⟩ = (head.text ++ " =") ::
          (markLast "" ((symbol :: more).map Symbol.text) ++ [braced label ++ ";"]) := by
        rw [markLast_empty, ← List.cons_append, ← markLast_append_singleton]
        rfl
      rw [same]
      obtain ⟨column', fill_eq⟩ :=
        (fills_body braces symbol more).fill (head.text ++ " =") column
      refine ⟨column', fill_eq ▸ ?_⟩
      simp only [append_eq, print, Symbol.doc, opening, Nat.add_assoc, String.append_assoc]

end Rule

end ChartParser
