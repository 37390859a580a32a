import ChartParser.Rule
import ChartParser.RuleFile.Fault

/-! # Why a grammar cannot be built -/

namespace ChartParser

inductive GrammarError
  /-- A line of a rule file cannot be read. -/
  | unreadable (error : LineError)
  /-- The tokens declared on a line do not make a rule. -/
  | malformedRule (line : Nat) (fault : RuleFault)
  /-- No rule is public. -/
  | missingStart
  /-- Two public rules have different heads. -/
  | ambiguousStart (first second : Symbol)

namespace GrammarError

/-- The text for a rule that is at fault. -/
def onLine (line : Nat) (reason : String) : String := s!"malformed rule on line {line}: {reason}"

def message : GrammarError → String
  | unreadable error => onLine error.line error.fault.message
  | malformedRule line fault => onLine line fault.message
  | missingStart => "no public rule declares a start symbol"
  | ambiguousStart first second =>
    s!"public rules declare two start symbols: {first.text} and {second.text}"

end GrammarError

end ChartParser
