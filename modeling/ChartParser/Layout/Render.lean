import ChartParser.Layout.Doc

/-! # Rendering of documents

Widths and columns count UTF-8 bytes.
-/

namespace ChartParser.Layout

/-- Whether line breaks are taken. -/
inductive Mode
  | flat
  | broken
  deriving DecidableEq

/-- Where a line gets to. -/
inductive Extent
  /-- It passes the width, or has a line break where none may be. -/
  | tooWide
  /-- It ends in a line break within the width. -/
  | ends
  /-- It goes on from a column. -/
  | reaches (column : Nat)

namespace Doc

/-- How far `doc` takes the line, from `column` on. -/
def extent (width : Nat) (mode : Mode) : Doc → Nat → Extent
  | nil, column => .reaches column
  | text s, column =>
    if width < column + s.utf8ByteSize then .tooWide else .reaches (column + s.utf8ByteSize)
  | newline, _ =>
    match mode with
    | .flat => .tooWide
    | .broken => .ends
  | append first second, column =>
    match first.extent width mode column with
    | .reaches column => second.extent width mode column
    | result => result
  | nest _ body, column => body.extent width mode column
  | group body, column => body.extent width mode column
  | choice broken flat, column =>
    match mode with
    | .flat => flat.extent width mode column
    | .broken => broken.extent width mode column

end Doc

/-- The line stays within the width up to the first line break of `rest`. -/
def restFits (width : Nat) : List Doc → Nat → Bool
  | [], _ => true
  | doc :: rest, column =>
    match doc.extent width .broken column with
    | .tooWide => false
    | .ends => true
    | .reaches column => restFits width rest column

namespace Doc

/-- `doc` fits on the line without line breaks, together with what follows it there. -/
def fits (width : Nat) (doc : Doc) (rest : List Doc) (column : Nat) : Bool :=
  match doc.extent width .flat column with
  | .tooWide => false
  | .ends => true
  | .reaches column => restFits width rest column

/-- A run of `n` spaces. -/
def spaces (n : Nat) : String := String.ofList (List.replicate n ' ')

/-- The text of `doc` from `column` on, and the column at its end. The documents of `rest` follow
it. -/
def layout (width : Nat) : Doc → Nat → Mode → List Doc → Nat → String × Nat
  | nil, _, _, _, column => ("", column)
  | text s, _, _, _, column => (s, column + s.utf8ByteSize)
  | newline, indent, _, _, _ => ("\n" ++ spaces indent, indent)
  | append first second, indent, mode, rest, column =>
    let (before, column) := first.layout width indent mode (second :: rest) column
    let (after, column) := second.layout width indent mode rest column
    (before ++ after, column)
  | nest more body, indent, mode, rest, column =>
    body.layout width (indent + more) mode rest column
  | group body, indent, mode, rest, column =>
    match mode with
    | .flat => body.layout width indent .flat rest column
    | .broken =>
      if body.fits width rest column then body.layout width indent .flat rest column
      else body.layout width indent .broken rest column
  | choice broken flat, indent, mode, rest, column =>
    match mode with
    | .flat => flat.layout width indent mode rest column
    | .broken => broken.layout width indent mode rest column

/-- The text of a document on a page of the given width. -/
def render (doc : Doc) (width : Nat) : String := (doc.layout width 0 .broken [] 0).1

end Doc

/-- The page width where none is asked for. -/
def defaultWidth : Nat := 80

end ChartParser.Layout
