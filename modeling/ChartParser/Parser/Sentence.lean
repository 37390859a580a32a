import ChartParser.Parser.Chart
import ChartParser.Parser.Membership

/-! # Parsing a sentence with a grammar -/

namespace ChartParser

/-- A result together with the events on the way to it. -/
structure Report (α : Type) where
  result : Except ParseError α
  events : List Event

namespace Grammar

/-- The answer of the parser with a limit, made for one question. -/
def ask {α : Type} (g : Grammar) (limit : Option Nat) (answer : Parser → Except ParseError α)
    (events : Parser → List Event) : Report α :=
  match Parser.make g limit with
  | .error error => ⟨.error error, Parser.makeEvents g⟩
  | .ok parser => ⟨answer parser, Parser.makeEvents g ++ events parser⟩

/-- Every tree of a sentence. -/
def parseWithin (g : Grammar) (limit : Option Nat) (words : List String) : Report (List Tree) :=
  g.ask limit (·.parse words) (·.parseEvents words)

/-- Whether a sentence has a tree. -/
def acceptsWithin (g : Grammar) (limit : Option Nat) (words : List String) : Report Bool :=
  g.ask limit (fun parser => .ok (parser.accepts words)) fun _ => []

/-- Every tree of a sentence, within the default limit. The empty sentence has none, with any
grammar. -/
def parse (g : Grammar) (words : List String) : Report (List Tree) :=
  if words.isEmpty then ⟨.ok [], []⟩ else g.parseWithin (some Parser.defaultLimit) words

/-- Whether a sentence has a tree. The empty sentence has none, with any grammar. -/
def accepts (g : Grammar) (words : List String) : Report Bool :=
  if words.isEmpty then ⟨.ok false, []⟩ else g.acceptsWithin (some Parser.defaultLimit) words

end Grammar

end ChartParser
