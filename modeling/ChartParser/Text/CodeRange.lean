/-! # Ranges of code points -/

namespace ChartParser.Text

/-- Code points from the first to the second, both included. -/
abbrev CodeRange := Nat × Nat

/-- The character lies in one of the ranges. -/
def inRanges (ranges : List CodeRange) (c : Char) : Bool :=
  ranges.any fun range => range.1 ≤ c.toNat && c.toNat ≤ range.2

end ChartParser.Text
