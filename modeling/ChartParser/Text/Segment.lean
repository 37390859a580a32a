import ChartParser.Text.Pieces
import ChartParser.Text.WordClass

/-! # Word boundaries

The default word segmentation of Unicode, in which a pictograph bound by U+200D also holds a mark
that would otherwise end a word. Every text is the concatenation of its segments, and a segment
ends where no rule joins the next character to it.
-/

namespace ChartParser.Text

/-- What the text so far says about a boundary after it. -/
structure Context where
  /-- The class of the last character. -/
  last : Option WordClass
  /-- The class of the last character that is not transparent. -/
  left : Option WordClass
  /-- The class before `left`. -/
  beforeLeft : Option WordClass
  /-- The text ends in an odd number of regional indicators. -/
  oddRegional : Bool

namespace Context

/-- At the start of a text. -/
def start : Context := ⟨none, none, none, false⟩

/-- The class of a character that continues the text. -/
def classOf (ctx : Context) (c : Char) : WordClass := .ofCharAfter ctx.last c

/-- A character of class `cls` belongs to the one before it. -/
def absorbs (ctx : Context) (cls : WordClass) : Bool :=
  cls.isTransparent && ctx.left.any (!·.breaksLine)

/-- The context after one more character. -/
def push (ctx : Context) (c : Char) : Context :=
  let cls := ctx.classOf c
  if ctx.absorbs cls then { ctx with last := some cls }
  else ⟨some cls, some cls, ctx.left, cls == .regional && !ctx.oddRegional⟩

/-- The classes `left` and `cls` join on their own, or because of the class on the far side of
a mark: `beforeLeft` when the mark is `left`, `next` when it is `cls`. A bound pictograph on the far
side holds a mark as a letter or a digit does. -/
def joinsClass (left : WordClass) (beforeLeft : Option WordClass) (cls : WordClass)
    (next : Option WordClass) : Bool :=
  (left.isLetter && cls.isLetter)
  || (left.isLetter && cls.joinsLetters && next.any fun n => n.isLetter || n == .bound)
  || (beforeLeft.any (·.isLetter) && left.joinsLetters && cls.isLetter)
  || (left == .hebrew && cls == .singleQuote)
  || (left == .hebrew && cls == .doubleQuote && next.any fun n => n == .hebrew || n == .bound)
  || (beforeLeft == some .hebrew && left == .doubleQuote && cls == .hebrew)
  || (left == .numeric && cls == .numeric)
  || (left.isLetter && cls == .numeric)
  || (left == .numeric && cls.isLetter)
  || (beforeLeft == some .numeric && left.joinsDigits && cls == .numeric)
  || (left == .numeric && cls.joinsDigits && next.any fun n => n == .numeric || n == .bound)
  || (left == .katakana && cls == .katakana)
  || ((left.takesJoiner || left == .joiner) && cls == .joiner)
  || (left == .joiner && cls.takesJoiner)

/-- The class of the first character that is not transparent, in a text that follows a character of
class `last`. -/
def nextClass (last : Option WordClass) : List Char → Option WordClass
  | [] => none
  | c :: rest =>
    let cls := WordClass.ofCharAfter last c
    if cls.isTransparent then nextClass (some cls) rest else some cls

/-- The character `c`, with the text `rest` after it, belongs to the segment before it. -/
def joins (ctx : Context) (c : Char) (rest : List Char) : Bool :=
  let cls := ctx.classOf c
  match ctx.last, ctx.left with
  | some last, some left =>
    if last == .cr && cls == .lf then true
    else if last.breaksLine || cls.breaksLine then false
    else if cls == .bound then true
    else if last == .space && cls == .space then true
    else if cls.isTransparent then true
    else joinsClass left ctx.beforeLeft cls (nextClass (some cls) rest)
      || (ctx.oddRegional && left == .regional && cls == .regional)
  | _, _ => false

end Context

/-- The segments of a text that continues `ctx`. -/
def segmentsFrom (ctx : Context) : List Char → List (List Char)
  | [] => []
  | [c] => [[c]]
  | c :: d :: rest =>
    let ctx := ctx.push c
    attach (ctx.joins d rest) c (segmentsFrom ctx (d :: rest))

/-- The segments of a text, in order. -/
def segments (cs : List Char) : List (List Char) := segmentsFrom .start cs

/-- The segments make up the text. -/
theorem flatten_segmentsFrom (ctx : Context) (cs : List Char) :
    (segmentsFrom ctx cs).flatten = cs := by
  fun_induction segmentsFrom ctx cs with
  | case1 => rfl
  | case2 => rfl
  | case3 ctx c d rest next ih => rw [flatten_attach, ih]

/-- The words and marks of a sentence: its segments except those of white space only. -/
def tokenize (sentence : String) : List String :=
  ((segments sentence.toList).filter fun segment => !segment.all isBlank).map String.ofList

end ChartParser.Text
