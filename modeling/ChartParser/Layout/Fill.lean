import ChartParser.Layout.Render

/-! # Filled lines

Atoms are texts that are not broken. They fill a line one after another, as long as the next one
fits, and go on in a new line after an indent.
-/

namespace ChartParser.Layout

/-- Atoms after some text that ends in `column`. -/
def fillFrom (width indent : Nat) : Nat → List String → String
  | _, [] => ""
  | column, atom :: more =>
    let next := column + 1 + atom.utf8ByteSize
    if next ≤ width then " " ++ atom ++ fillFrom width indent next more
    else "\n" ++ Doc.spaces indent ++ atom
      ++ fillFrom width indent (indent + atom.utf8ByteSize) more

/-- Atoms of which the first one begins in column `start`, wherever the width is. -/
def fill (width start indent : Nat) : List String → String
  | [] => ""
  | atom :: more => atom ++ fillFrom width indent (start + atom.utf8ByteSize) more

/-- The atoms with a mark right after the last one. -/
def markLast (mark : String) : List String → List String
  | [] => []
  | [atom] => [atom ++ mark]
  | atom :: next :: more => atom :: markLast mark (next :: more)

/-- Lines of atoms, each after a line break and an indent. -/
def furtherLines (indent : Nat) (lines : List (List String)) : String :=
  String.join (lines.map fun line => "\n" ++ Doc.spaces indent ++ " ".intercalate line)

/-- A line that holds several atoms stays within the width. -/
def LineFits (width column : Nat) (line : List String) : Prop :=
  1 < line.length → column + (" ".intercalate line).utf8ByteSize ≤ width

/-- The text is the atoms on lines that fit: one from column `start` on, and others after an
indent. -/
def OnLines (width start indent : Nat) (atoms : List String) (s : String) : Prop :=
  ∃ (line : List String) (others : List (List String)), line ++ others.flatten = atoms ∧
    s = " ".intercalate line ++ furtherLines indent others ∧
    LineFits width start line ∧ ∀ line ∈ others, line ≠ [] ∧ LineFits width indent line

end ChartParser.Layout
