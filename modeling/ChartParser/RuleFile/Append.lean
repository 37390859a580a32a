import ChartParser.RuleFile.Reader

/-! # Rule files one after another

The lines of a file keep their numbers if others come after them. They get new numbers if others
come before.
-/

namespace ChartParser

def RuleSpec.renumber (number : Nat → Nat) (spec : RuleSpec) : RuleSpec :=
  { spec with line := number spec.line }

def LineError.renumber (number : Nat → Nat) (error : LineError) : LineError :=
  { error with line := number error.line }

namespace RuleFile

/-- What is read when the lines have other numbers. -/
def renumbered (number : Nat → Nat) : Except LineError RuleFile → Except LineError RuleFile
  | .error error => .error (error.renumber number)
  | .ok file => .ok { file with rules := file.rules.map (·.renumber number) }

/-- The file that goes on with another file. A language further down wins. -/
def append (file next : RuleFile) : RuleFile :=
  ⟨next.language <|> file.language, file.rules ++ next.rules⟩

/-- What is read from some lines and then from others. The first error is reported. -/
def inTurn : Except LineError RuleFile → Except LineError RuleFile → Except LineError RuleFile
  | .error error, _ => .error error
  | .ok _, .error error => .error error
  | .ok file, .ok next => .ok (file.append next)

end RuleFile

end ChartParser
