import ChartParser.Grammar.Layout
import ChartParser.Proofs.Rule.Layout

/-! # The layout of grammars

The start symbol may go to a line of its own. Every rule fills its lines as it does alone, two
columns further on.
-/

namespace ChartParser.Grammar

open Layout Printer

variable {width : Nat} {stack : List Entry}

theorem print_rules {rules : List Rule} (valid : ∀ rule ∈ rules, rule.Valid)
    (ends : Trails width 0 stack) : ∃ column',
      print width (⟨2, .broken, Doc.separated .newline (rules.map Rule.doc)⟩ :: stack) 2 =
        "\n  ".intercalate (rules.map fun rule => fill width 2 4 rule.atoms) ++
          print width stack column' := by
  induction rules with
  | nil =>
    simp only [List.map_nil, Doc.separated, print, String.intercalate_nil, String.empty_append]
    exact ⟨_, rfl⟩
  | cons rule more ih =>
    obtain ⟨rule_valid, more_valid⟩ := List.forall_mem_cons.mp valid
    cases more with
    | nil => exact Rule.print_doc rule_valid ends 2 2
    | cons next more =>
      have break_eq : "\n" ++ Doc.spaces 2 = "\n  " := rfl
      obtain ⟨column, rule_eq⟩ := Rule.print_doc rule_valid (trails_newline width 2
        (⟨2, .broken, Doc.separated .newline ((next :: more).map Rule.doc)⟩ :: stack)) 2 2
      obtain ⟨column', more_eq⟩ := ih more_valid
      refine ⟨column', ?_⟩
      simp only [List.map_cons, Doc.separated, append_eq, print, String.intercalate_cons_cons]
        at rule_eq more_eq ⊢
      rw [rule_eq, break_eq, more_eq]
      simp only [String.append_assoc]

theorem print_start (start : Symbol) (below : List Entry) :
    "Start =" ++ print width (⟨0, .broken, Doc.softline⟩ :: ⟨0, .broken, start.doc⟩ ::
        ⟨0, .broken, .text ","⟩ :: ⟨0, .broken, .newline⟩ :: below) (0 + "Start =".utf8ByteSize) =
      fill width 0 0 ["Start =", start.text ++ ","] ++ "\n" ++ print width below 0 := by
  have comma := fills_text (trails_newline width 0 below) 0 ","
  obtain ⟨column, start_eq⟩ := (comma.atom (inline_text .broken start.text)).fill "Start =" 0
  have break_eq : "\n" ++ Doc.spaces 0 = "\n" := rfl
  rw [Symbol.doc, start_eq, print, break_eq, String.append_assoc]

theorem render_doc (g : Grammar) (width : Nat) : g.doc.render width =
    fill width 0 0 ["Start =", g.start.text ++ ","] ++ "\nRules \x7b\n  " ++
      "\n  ".intercalate (g.rules.map fun rule => fill width 2 4 rule.atoms) ++ "\n\x7d" := by
  obtain ⟨column, rules_eq⟩ := print_rules g.rules_valid
    (trails_newline width 0 [⟨0, .broken, .text "\x7d"⟩])
  have opening : "\nRules \x7b\n  " = "\n" ++ "Rules " ++ "\x7b" ++ ("\n" ++ Doc.spaces 2) := rfl
  have closing : "\n\x7d" = "\n" ++ Doc.spaces 0 ++ "\x7d" := rfl
  rw [render_eq_run, run, doc, opening, closing]
  simp only [append_eq, print]
  rw [print_start]
  simp only [print, Nat.zero_add, rules_eq, String.append_assoc, String.append_empty]

/-- Rules fill their lines greedily, alone and in a grammar. A rule that is not too wide stands on
one line. -/
theorem render_filled (width : Nat) :
    (∀ rule : Rule, rule.Valid →
      rule.doc.render width = fill width 0 2 rule.atoms ∧
        OnLines width 0 2 rule.atoms (rule.doc.render width) ∧
        (rule.text.utf8ByteSize ≤ width → rule.doc.render width = rule.text)) ∧
    ∀ g : Grammar,
      g.doc.render width =
        fill width 0 0 ["Start =", g.start.text ++ ","] ++ "\nRules \x7b\n  " ++
          "\n  ".intercalate (g.rules.map fun rule => fill width 2 4 rule.atoms) ++ "\n\x7d" ∧
        ∀ rule ∈ g.rules, OnLines width 2 4 rule.atoms (fill width 2 4 rule.atoms) := by
  refine ⟨fun rule valid => ?_, fun g => ⟨render_doc g width, fun rule _ => fill_onLines _ _ _ _⟩⟩
  obtain ⟨column, run_eq⟩ := Rule.print_doc valid (trails_empty width) 0 0
  have render_eq : rule.doc.render width = fill width 0 2 rule.atoms := by
    rw [render_eq_run, run, run_eq, print, String.append_empty]
  refine ⟨render_eq, render_eq ▸ fill_onLines _ _ _ _, fun wide => ?_⟩
  rw [Rule.text_eq] at wide ⊢
  rw [render_eq, fill_of_fits (by omega)]

/-- A rule that does not fit in twelve columns. -/
def longRule : Rule where
  head := .nonterm "S"
  body := [.nonterm "NP", .nonterm "VP", .term "then"]
  label := some (.term "s")

theorem render_longRule :
    longRule.Valid ∧ longRule.doc.render 12 = "$S = $NP $VP\n  then \x7bs\x7d;" := by
  have valid : longRule.Valid := ⟨rfl, by decide⟩
  exact ⟨valid, ((render_filled 12).1 longRule valid).1.trans (by decide)⟩

end ChartParser.Grammar
