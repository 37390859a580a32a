/-! # Documents with optional line breaks -/

namespace ChartParser.Layout

/-- A text whose line breaks depend on the width of the page. -/
inductive Doc
  | nil
  | text (s : String)
  /-- A line break. The indent of the document around it follows. -/
  | newline
  | append (first second : Doc)
  /-- The body with a larger indent. -/
  | nest (indent : Nat) (body : Doc)
  /-- The body on one line if that fits, else with line breaks. -/
  | group (body : Doc)
  /-- The first document where lines are broken, the second where they are not. -/
  | choice (broken flat : Doc)

namespace Doc

instance : Append Doc := ⟨append⟩

/-- A space or a line break. -/
def line : Doc := choice newline (text " ")

/-- Nothing or a line break. -/
def lineOrNil : Doc := choice newline nil

/-- A space if what follows fits, else a line break. -/
def softline : Doc := group line

/-- The documents with `separator` between them. -/
def separated (separator : Doc) : List Doc → Doc
  | [] => nil
  | [doc] => doc
  | doc :: more => doc ++ separator ++ separated separator more

end Doc

end ChartParser.Layout
