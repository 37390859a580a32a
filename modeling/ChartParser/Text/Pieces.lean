import ChartParser.Text.Blank

/-! # Lines, words and marks -/

namespace ChartParser.Text

/-- The pieces with one more character in front. It belongs to the first piece if it is joined. -/
def attach (joined : Bool) (c : Char) : List (List Char) → List (List Char)
  | [] => [[c]]
  | piece :: more => if joined then (c :: piece) :: more else [c] :: piece :: more

theorem flatten_attach (joined : Bool) (c : Char) (pieces : List (List Char)) :
    (attach joined c pieces).flatten = c :: pieces.flatten := by
  cases pieces with
  | nil => rfl
  | cons piece more => cases joined <;> rfl

/-- The pieces that the stop characters end. Text after the last stop is a piece of its own. -/
def pieces (stop : Char → Bool) : List Char → List (List Char)
  | [] => []
  | c :: cs => if stop c then [] :: pieces stop cs else attach true c (pieces stop cs)

/-- Only `\n` ends a line. The last line may lack it. -/
def lines (cs : List Char) : List (List Char) := pieces (· == '\n') cs

/-- The longest runs without white space. -/
def words (cs : List Char) : List (List Char) := (pieces isBlank cs).filter (!·.isEmpty)

/-- The texts before and after the first `mark`. -/
def splitAtFirst (mark : Char) : List Char → Option (List Char × List Char)
  | [] => none
  | c :: cs =>
    if c = mark then some ([], cs)
    else (splitAtFirst mark cs).map fun (before, after) => (c :: before, after)

end ChartParser.Text
