import Sprig.Session

/-!
How the outcome of a run is shown to a person.
-/

namespace Sprig

/-- Labels in front of messages. -/
inductive Label where
  | error
  | syntaxError
  | warning
deriving DecidableEq, Repr

namespace Label

def text : Label → String
  | error => "error: "
  | syntaxError => "syntax error: "
  | warning => "warning: "

/-- The number of a label's colour: errors are red, warnings magenta. -/
def colour : Label → Nat
  | error | syntaxError => 31
  | warning => 35

/-- The label in bold and in its colour, or plain. -/
def shown (label : Label) (coloured : Bool) : String :=
  if coloured then s!"\x1b[1m\x1b[{label.colour}m{label.text}\x1b[0m" else label.text

end Label

/-- A diagnostic as a warning. -/
def Diagnostic.warning (coloured : Bool) (diagnostic : Diagnostic) : String :=
  Label.warning.shown coloured ++ diagnostic.text

namespace Ending

/-- The line that is shown when a text did not run to completion. -/
def line? (coloured : Bool) : Ending → Option String
  | completed => none
  | rejected error => some (Label.syntaxError.shown coloured ++ error.message)
  | ending@(halted _) => some (Label.error.shown coloured ++ ending.message)

end Ending

/-- The lines that follow what a program printed: warnings first, then the error. -/
def Outcome.lines (coloured : Bool) (outcome : Outcome) : List String :=
  outcome.diagnostics.map (Diagnostic.warning coloured) ++ (outcome.ending.line? coloured).toList

/-- Lines of text, each with its end of line. -/
def unlines (lines : List String) : String :=
  String.join (lines.map (· ++ "\n"))

end Sprig
