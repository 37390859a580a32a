import ChartParser.Layout.Render

/-! # A printer with a stack

A document can be printed without recursion: what is still to be printed waits on a stack. The same
goes for the question whether a group fits, which looks into the stack below the group.
-/

namespace ChartParser.Layout

/-- How many documents the document is made of. -/
def Doc.size : Doc → Nat
  | .nil | .text _ | .newline => 1
  | .append first second => first.size + second.size + 1
  | .nest _ body | .group body => body.size + 1
  | .choice broken flat => broken.size + flat.size + 1

namespace Printer

/-- A document that is still to be printed, with the indent of its line breaks. -/
structure Entry where
  indent : Nat
  mode : Mode
  doc : Doc

/-- How many documents those on the stack are made of. -/
def weight : List (Mode × Doc) → Nat
  | [] => 0
  | (_, doc) :: rest => doc.size + weight rest

/-- The line stays within the width up to the first line break that may be taken. -/
def fits (width : Nat) : List (Mode × Doc) → Nat → Bool
  | [], _ => true
  | (_, .nil) :: rest, column => fits width rest column
  | (_, .text s) :: rest, column =>
    column + s.utf8ByteSize ≤ width && fits width rest (column + s.utf8ByteSize)
  | (mode, .newline) :: _, _ => mode = .broken
  | (mode, .append first second) :: rest, column =>
    fits width ((mode, first) :: (mode, second) :: rest) column
  | (mode, .nest _ body) :: rest, column => fits width ((mode, body) :: rest) column
  | (mode, .group body) :: rest, column => fits width ((mode, body) :: rest) column
  | (.flat, .choice _ flat) :: rest, column => fits width ((.flat, flat) :: rest) column
  | (.broken, .choice broken _) :: rest, column => fits width ((.broken, broken) :: rest) column
termination_by stack => weight stack
decreasing_by all_goals simp only [weight, Doc.size]; omega

/-- What waits on the stack, with all line breaks taken. -/
def waiting (stack : List Entry) : List (Mode × Doc) := stack.map fun entry => (.broken, entry.doc)

/-- The text of the documents on the stack, from `column` on. -/
def print (width : Nat) : List Entry → Nat → String
  | [], _ => ""
  | ⟨_, _, .nil⟩ :: stack, column => print width stack column
  | ⟨_, _, .text s⟩ :: stack, column => s ++ print width stack (column + s.utf8ByteSize)
  | ⟨indent, _, .newline⟩ :: stack, _ => "\n" ++ Doc.spaces indent ++ print width stack indent
  | ⟨indent, mode, .append first second⟩ :: stack, column =>
    print width (⟨indent, mode, first⟩ :: ⟨indent, mode, second⟩ :: stack) column
  | ⟨indent, mode, .nest more body⟩ :: stack, column =>
    print width (⟨indent + more, mode, body⟩ :: stack) column
  | ⟨indent, .flat, .group body⟩ :: stack, column =>
    print width (⟨indent, .flat, body⟩ :: stack) column
  | ⟨indent, .broken, .group body⟩ :: stack, column =>
    let mode := if fits width ((.flat, body) :: waiting stack) column then .flat else .broken
    print width (⟨indent, mode, body⟩ :: stack) column
  | ⟨indent, .flat, .choice _ flat⟩ :: stack, column =>
    print width (⟨indent, .flat, flat⟩ :: stack) column
  | ⟨indent, .broken, .choice broken _⟩ :: stack, column =>
    print width (⟨indent, .broken, broken⟩ :: stack) column
termination_by stack => weight (waiting stack)
decreasing_by all_goals simp only [waiting, List.map_cons, weight, Doc.size]; omega

/-- The text of a document alone. -/
def run (doc : Doc) (width : Nat) : String := print width [⟨0, .broken, doc⟩] 0

end Printer

end ChartParser.Layout
