import ChartParser.RuleFile.Reader
import Mathlib.Data.List.Infix

/-! # The format of rule files

A line is put together from its parts here, while the reader takes it apart.
-/

namespace ChartParser.RuleFile

open Text

/-! ## Parts of a line -/

/-- White space, or nothing. -/
def Blanks (cs : List Char) : Prop := ∀ c ∈ cs, isBlank c = true

/-- White space. -/
structure Gap (cs : List Char) : Prop where
  blanks : Blanks cs
  nonempty : cs ≠ []

/-- A text without white space and without the marks. -/
structure IsWord (marks cs : List Char) : Prop where
  nonempty : cs ≠ []
  clear : ∀ c ∈ cs, isBlank c = false ∧ c ∉ marks

/-- The symbols of a body, with white space between them. -/
inductive Spaced : List Char → List (List Char) → Prop
  | last {word : List Char} : IsWord ['\x7b', '|'] word → Spaced word [word]
  | more {word gap text : List Char} {words : List (List Char)} : IsWord ['\x7b', '|'] word →
      Gap gap → Spaced text words → Spaced (word ++ gap ++ text) (word :: words)

/-- The symbols of a rule, and a label in braces if the rule has one. -/
inductive BodyFormat : List Char → List (List Char) → Option String → Prop
  | plain {symbols : List Char} {words : List (List Char)} : Spaced symbols words →
      BodyFormat symbols words none
  | labeled {symbols before left label right : List Char} {words : List (List Char)} :
      Spaced symbols words → Blanks before → Blanks left → Blanks right →
      label ≠ [] → Bare label → (∀ c ∈ label, c ≠ '\x7b' ∧ c ≠ '\x7d') →
      BodyFormat (symbols ++ before ++ '\x7b' :: left ++ label ++ right ++ ['\x7d']) words
        (some (String.ofList label))

/-- The keyword of a public rule, and the white space that ends it. -/
inductive Keyword : List Char → Bool → Prop
  | absent : Keyword [] false
  | present {gap : List Char} : Gap gap → Keyword ("public".toList ++ gap) true

/-- A rule up to its semicolon. -/
inductive RuleFormat : List Char → Item → Prop
  | mk {keyword name before after body : List Char} {isPublic : Bool} {words : List (List Char)}
      {label : Option String} : Keyword keyword isPublic → IsWord ['='] name → Blanks before →
      Blanks after → BodyFormat body words label →
      RuleFormat (keyword ++ ('$' :: name ++ before ++ '=' :: after ++ body))
        (.rule isPublic (String.ofList ('$' :: name)) (words.map String.ofList) label)

/-! ## Lines -/

/-- The content of a line that says something. A header may stand only in the `first` line that
has content. -/
inductive LineFormat (first : Prop) : List Char → Item → Prop
  | blank : LineFormat first [] .blank
  | header {start rest : List Char} : first → start.map Char.toLower = "#abnf".toList →
      LineFormat first (start ++ rest) .header
  | language {gap tag after : List Char} : Gap gap → IsWord [] tag → Blanks after →
      LineFormat first ("language".toList ++ gap ++ tag ++ after ++ [';'])
        (.language (String.ofList tag))
  | rule {text after : List Char} {item : Item} : RuleFormat text item → Blanks after →
      LineFormat first (text ++ after ++ [';']) item

/-- The keyword `language` goes on without white space. -/
def Glued (line : List Char) : Prop :=
  ∃ c rest, isBlank c = false ∧ line = "language".toList ++ c :: rest

theorem glued_iff {line : List Char} : Glued line ↔
    (("language".toList.isPrefixOf? line).bind List.head?).any (!isBlank ·) = true := by
  simp only [Option.any_eq_true, Option.bind_eq_some_iff, List.head?_eq_some_iff,
    List.isPrefixOf?_eq_some_iff_append_eq, Bool.not_eq_true']
  constructor
  · rintro ⟨c, rest, clear, rfl⟩
    exact ⟨c, ⟨_, rfl, rest, rfl⟩, clear⟩
  · rintro ⟨c, ⟨_, rfl, rest, rfl⟩, clear⟩
    exact ⟨c, rest, clear, rfl⟩

instance (line : List Char) : Decidable (Glued line) := decidable_of_iff _ glued_iff.symm

/-- The tag of a language comes after its keyword without white space. -/
inductive GluedTag : List Char → String → Prop
  | mk {tag after : List Char} : IsWord [] tag → Blanks after →
      GluedTag ("language".toList ++ tag ++ after ++ [';']) (String.ofList tag)

/-! ## Files -/

/-- What is left of the lines of a text without comments and outer white space. -/
def contents (text : String) : List (List Char) := (lines text.toList).map content

/-- The content with index `i` has the format of the item. -/
def FitsAt (contents : List (List Char)) (i : Nat) (item : Item) : Prop :=
  ∃ line, contents[i]? = some line ∧
    LineFormat (∀ earlier ∈ contents.take i, earlier = []) line item

/-- There is an item for each content, of which it has the format. -/
def Fit (contents : List (List Char)) (items : List Item) : Prop :=
  items.length = contents.length ∧ ∀ i item, items[i]? = some item → FitsAt contents i item

def Item.tag? : Item → Option String
  | .language tag => some tag
  | _ => none

/-- The declaration of a rule that stands in a line. -/
def Item.spec? (line : Nat) : Item → Option RuleSpec
  | .rule isPublic head body label => some ⟨line, isPublic, head, body, label⟩
  | _ => none

/-- The last language and all rules. The first item stands in line `line`. -/
def collect (line : Nat) (items : List Item) : RuleFile where
  language := (items.filterMap Item.tag?).getLast?
  rules := (items.zipIdx line).filterMap fun (item, line) => item.spec? line

end ChartParser.RuleFile
