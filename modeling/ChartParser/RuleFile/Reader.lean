import ChartParser.Rule.Spec
import ChartParser.RuleFile.Fault
import ChartParser.Text.Pieces

/-! # Reading rule files

A rule file holds one item on each line: a header, the language, or a rule. Comments run from `//`
to the end of the line, and lines without content are skipped.
-/

namespace ChartParser

/-- What a rule file says. -/
structure RuleFile where
  language : Option String
  rules : List RuleSpec
  deriving DecidableEq

namespace RuleFile

open Text

/-! ## Lines -/

/-- What one line says. -/
inductive Item
  | blank
  | header
  | language (tag : String)
  | rule (isPublic : Bool) (head : String) (body : List String) (label : Option String)
  deriving DecidableEq

/-- The line up to its comment. -/
def cutComment : List Char → List Char
  | [] => []
  | c :: cs => if c = '/' ∧ cs.head? = some '/' then [] else c :: cutComment cs

/-- The content of a line, without comment and outer white space. -/
def content (line : List Char) : List Char := trim (cutComment line)

/-- A header starts with `#abnf` in any case. -/
def isHeader (line : List Char) : Bool := "#abnf".toList.isPrefixOf (line.map Char.toLower)

/-- The language tag of a line, from what follows the keyword. -/
def readLanguage (text : List Char) : Except LineFault Item :=
  let tag := trim text
  if tag.isEmpty || tag.any isBlank then .error .badLanguage
  else .ok (.language (String.ofList tag))

/-- The text of a rule without the keyword `public`, if white space follows the keyword. -/
def afterPublic? (text : List Char) : Option (List Char) :=
  match "public".toList.isPrefixOf? text with
  | some (c :: rest) => if isBlank c then some (trim (c :: rest)) else none
  | _ => none

/-- A head is a non-terminal with a name and without white space. -/
def isHead (text : List Char) : Bool :=
  text.head? == some '$' && text.length != 1 && !text.any isBlank

/-- The label that closes a rule, from what follows its opening brace. -/
def readLabel (text : List Char) : Except LineFault String :=
  if text.getLast? = some '\x7d' then
    let label := trim text.dropLast
    if label.isEmpty || label.any fun c => c == '\x7b' || c == '\x7d' then .error .badLabel
    else .ok (String.ofList label)
  else .error .openLabel

/-- The symbols and the label of a rule, from what follows its equals sign. -/
def readBody (text : List Char) : Except LineFault (List Char × Option String) :=
  match splitAtFirst '\x7b' text with
  | none => .ok (text, none)
  | some (symbols, label) => do
    let label ← readLabel label
    return (trim symbols, some label)

/-- The rule of a line. -/
def readRule (text : List Char) : Except LineFault Item := do
  let (isPublic, text) := match afterPublic? text with
    | some rest => (true, rest)
    | none => (false, text)
  let some (head, body) := splitAtFirst '=' text | throw .missingEquals
  let head := trim head
  unless isHead head do throw (.badHead (String.ofList head))
  let (symbols, label) ← readBody (trim body)
  if symbols.contains '|' then throw .alternatives
  let body := words symbols
  if body.isEmpty then throw .emptyBody
  return .rule isPublic (String.ofList head) (body.map String.ofList) label

/-- The item of a line. A header is read only where no content precedes it. -/
def readItem (first : Bool) (line : List Char) : Except LineFault Item :=
  let text := content line
  match text.head? with
  | none => .ok .blank
  | some '#' => if first && isHeader text then .ok .header else .error .strayHeader
  | some _ =>
    if text.getLast? = some ';' then
      let body := trim text.dropLast
      match "language".toList.isPrefixOf? body with
      | some rest => readLanguage rest
      | none => readRule body
    else .error .missingTerminator

/-! ## Files -/

/-- The file with an item in front, read from line `line`. A language further down wins. -/
def addFirst (file : RuleFile) (line : Nat) : Item → RuleFile
  | .blank | .header => file
  | .language tag => { file with language := file.language <|> some tag }
  | .rule isPublic head body label =>
    { file with rules := ⟨line, isPublic, head, body, label⟩ :: file.rules }

/-- The file of some lines, of which the first has the number `line`. -/
def readLines (line : Nat) (first : Bool) : List (List Char) → Except LineError RuleFile
  | [] => .ok ⟨none, []⟩
  | text :: more =>
    match readItem first text with
    | .error fault => .error ⟨line, fault⟩
    | .ok item =>
      (readLines (line + 1) (first && item == .blank) more).map (·.addFirst line item)

/-- What a text says as a rule file. -/
def read (text : String) : Except LineError RuleFile := readLines 1 true (lines text.toList)

end RuleFile

end ChartParser
