/-! # Faults of rule files -/

namespace ChartParser

/-- Why a line of a rule file cannot be read. -/
inductive LineFault
  | strayHeader
  | missingTerminator
  | badLanguage
  | missingEquals
  | badHead (head : String)
  | openLabel
  | badLabel
  | alternatives
  | emptyBody
  deriving DecidableEq

/-- The text of a fault. -/
def LineFault.message : LineFault → String
  | strayHeader => "unexpected header line"
  | missingTerminator => "missing terminating `;`"
  | badLanguage => "expected a single language tag"
  | missingEquals => "missing `=`"
  | badHead head => "left-hand side `" ++ head ++ "` must be a single non-terminal"
  | openLabel => "label must close the rule"
  | badLabel => "empty or nested label"
  | alternatives => "alternatives (`|`) are not supported"
  | emptyBody => "empty right-hand side"

/-- The first line that cannot be read, counted from 1. -/
structure LineError where
  line : Nat
  fault : LineFault
  deriving DecidableEq

end ChartParser
