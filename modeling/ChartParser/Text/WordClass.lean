import ChartParser.Text.WordRanges

/-! # Word classes of characters -/

namespace ChartParser.Text

/-- The character is a picture, such as an emoji. -/
def isPictograph (c : Char) : Bool := inRanges pictographRanges c

/-- What a character means for the boundaries between words. -/
inductive WordClass
  | cr
  | lf
  | newline
  | space
  | extend
  | format
  /-- U+200D, which joins pictographs. -/
  | zwj
  | regional
  | katakana
  | hebrew
  | letter
  | midLetter
  | midNum
  | midNumLet
  | singleQuote
  | doubleQuote
  | numeric
  /-- Joins words as `_` does. -/
  | joiner
  /-- A pictograph that U+200D binds to what stands before it. -/
  | bound
  | other
  deriving DecidableEq

namespace WordClass

/-- The class of a character below U+0080. -/
def ofAscii (c : Char) : WordClass :=
  if c.isAlpha then letter
  else if c.isDigit then numeric
  else match c with
    | '\r' => cr
    | '\n' => lf
    | '\x0b' | '\x0c' => newline
    | ' ' => space
    | '_' => joiner
    | ':' => midLetter
    | ',' | ';' => midNum
    | '.' => midNumLet
    | '\x27' => singleQuote
    | '\x22' => doubleQuote
    | _ => other

/-- The classes above ASCII. No two of them share a code point. -/
def table : List (WordClass × List CodeRange) :=
  [(letter, letterRanges), (extend, extendRanges), (zwj, [(0x200D, 0x200D)]),
    (format, formatRanges), (numeric, numericRanges), (katakana, katakanaRanges),
    (hebrew, hebrewRanges), (midLetter, midLetterRanges), (midNum, midNumRanges),
    (midNumLet, midNumLetRanges), (joiner, joinerRanges), (space, spaceRanges),
    (newline, newlineRanges), (regional, regionalRanges)]

/-- The class of a character on its own, which is never `bound`. -/
def ofChar (c : Char) : WordClass :=
  if c.toNat < 0x80 then ofAscii c
  else match table.find? fun entry => inRanges entry.2 c with
    | some entry => entry.1
    | none => other

/-- The class of a character that follows one of class `last`. A bound pictograph is no letter, even
if it is one on its own. -/
def ofCharAfter (last : Option WordClass) (c : Char) : WordClass :=
  if last == some zwj && isPictograph c then bound else ofChar c

/-- A letter of an alphabet. -/
def isLetter : WordClass → Bool
  | letter | hebrew => true
  | _ => false

/-- A mark that letters may have between them. -/
def joinsLetters : WordClass → Bool
  | midLetter | midNumLet | singleQuote => true
  | _ => false

/-- A mark that digits may have between them. -/
def joinsDigits : WordClass → Bool
  | midNum | midNumLet | singleQuote => true
  | _ => false

/-- A character of which `_` makes a longer word. -/
def takesJoiner : WordClass → Bool
  | letter | hebrew | numeric | katakana => true
  | _ => false

/-- A line break, which stands between words whatever its neighbours are. -/
def breaksLine : WordClass → Bool
  | cr | lf | newline => true
  | _ => false

/-- A character that the rules look through to the one before it. -/
def isTransparent : WordClass → Bool
  | extend | format | zwj => true
  | _ => false

end WordClass

end ChartParser.Text
