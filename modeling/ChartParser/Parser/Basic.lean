import ChartParser.Grammar.UnitCycle
import ChartParser.Parser.Error

/-! # Grammars that can be parsed -/

namespace ChartParser

/-- A grammar that can be parsed, with the most trees that a span may have. -/
structure Parser where
  grammar : Grammar
  limit : Option Nat
  /-- Every rule is in relaxed Chomsky normal form. -/
  relaxed : grammar.violation? = none
  /-- Unit rules do not lead from a symbol back to itself. -/
  acyclic : grammar.unitCycle? = none

namespace Parser

/-- The parser of a grammar, if the grammar has one. -/
def make (g : Grammar) (limit : Option Nat) : Except ParseError Parser :=
  match relaxed : g.violation? with
  | some rule => .error (.nonconforming rule)
  | none =>
    match acyclic : g.unitCycle? with
    | some cycle => .error (.unitCycle cycle)
    | none => .ok ⟨g, limit, relaxed, acyclic⟩

theorem of_make_eq_ok {g : Grammar} {limit : Option Nat} {parser : Parser}
    (h : make g limit = .ok parser) : parser.grammar = g ∧ parser.limit = limit := by
  unfold make at h
  split at h
  · nomatch h
  · split at h
    · nomatch h
    · cases h
      exact ⟨rfl, rfl⟩

theorem make_eq_ok {g : Grammar} (limit : Option Nat) (relaxed : g.violation? = none)
    (acyclic : g.unitCycle? = none) : make g limit = .ok ⟨g, limit, relaxed, acyclic⟩ := by
  unfold make
  split
  · next found => simp [relaxed] at found
  · split
    · next found => simp [acyclic] at found
    · rfl

/-- What making a parser reports. -/
def makeEvents (g : Grammar) : List Event := if g.isRelaxed then g.unitCycleEvents else []

/-- The limit where none is asked for. -/
def defaultLimit : Nat := 100000

end Parser

end ChartParser
