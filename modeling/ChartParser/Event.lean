import ChartParser.Rule
import ChartParser.Span
import ChartParser.Text.Quoted

/-! # Events

What building, normalizing and parsing report beside their results.
-/

namespace ChartParser

/-- From the most to the least important. -/
inductive Level
  | warn
  | debug
  | trace
  deriving DecidableEq

namespace Level

def rank : Level → Nat
  | warn => 0
  | debug => 1
  | trace => 2

def text : Level → String
  | warn => "WARN"
  | debug => "DEBUG"
  | trace => "TRACE"

end Level

/-- Something worth reporting. -/
inductive Event
  | built (rules : Nat) (start : Symbol)
  | undefined (symbol : Symbol)
  | unreachable (rule : Rule) (start : Symbol)
  | alreadyRelaxed
  | minted (helper : Symbol)
  | normalized (before after helpers : Nat)
  | unitCycle (length : Nat)
  | unknownWord (word : String) (position : Nat)
  | filled (span : Span) (symbols trees : Nat)
  | overLimit (span : Span) (limit : Nat)
  | parsed (trees words : Nat)

namespace Event

def level : Event → Level
  | undefined .. | unreachable .. | overLimit .. => .warn
  | built .. | alreadyRelaxed | normalized .. | unitCycle .. | parsed .. => .debug
  | minted .. | unknownWord .. | filled .. => .trace

def message : Event → String
  | built rules start =>
    s!"Built grammar with {rules} rules and start symbol {start.text}."
  | undefined symbol => s!"Non-terminal {symbol.text} is used but has no rules."
  | unreachable rule start => s!"Rule `{rule.text}` is unreachable from {start.text}."
  | alreadyRelaxed => "Grammar is already in relaxed CNF."
  | minted helper => s!"Minted helper non-terminal {helper.text}."
  | normalized before after helpers =>
    s!"Normalized grammar from {before} to {after} rules with {helpers} helpers."
  | unitCycle length => s!"Found unit rule cycle of length {length}."
  | unknownWord word position => s!"No rule produces word {Text.quote word} at {position}."
  | filled span symbols trees => s!"Cell {span.text}: {symbols} symbols, {trees} trees."
  | overLimit span limit => s!"Span {span.text} exceeded the limit of {limit} trees."
  | parsed trees words => s!"Found {trees} parses of {words} words."

/-- The event as a line of a log. -/
def entry (event : Event) : String := event.level.text ++ " " ++ event.message

end Event

/-- The lines of a log that shows events up to a level. -/
def logEntries (level : Level) (events : List Event) : List String :=
  (events.filter fun event => event.level.rank ≤ level.rank).map Event.entry

end ChartParser
