import Sprig.Tree.Basic

/-!
The trace of a run: what happened, in order, at three levels of detail.
-/

namespace Sprig

/-- How traces name a statement. -/
def Stmt.form : Stmt → String
  | expression _ => "Expression"
  | print _ => "Print"
  | declare .. => "Var"
  | block _ => "Block"
  | function .. => "Function"

inductive TraceEvent where
  /-- A statement starts. -/
  | executing (form : String)
  | declared (name : String) (value : Value)
  | definedFunction (name : String) (arity : Nat)
  | enteredBlock (depth : Nat)
  | leftBlock (depth : Nat)
  | called (name : String) (arguments : List Value)
  /-- A run ends with an error. -/
  | failed (family message : String)
deriving DecidableEq, Repr

namespace TraceEvent

/-- The least verbosity at which an event is written. -/
def level : TraceEvent → Nat
  | executing _ | failed .. => 1
  | declared .. | definedFunction .. => 2
  | enteredBlock _ | leftBlock _ | called .. => 3

def text : TraceEvent → String
  | executing form => s!"execute {form}"
  | declared name value => s!"declare {name}: {value.type.name} = {value.display}"
  | definedFunction name arity => s!"define function {name}/{arity}"
  | enteredBlock depth => s!"enter block scope at depth {depth}"
  | leftBlock depth => s!"leave block scope at depth {depth}"
  | called name arguments =>
    let shown := ", ".intercalate (arguments.map Value.display)
    s!"call {name}({shown})"
  | failed family message => s!"{family}: {message}"

end TraceEvent

/-- The events of a trace, a line each. -/
def TraceEvent.lines (events : List TraceEvent) : String :=
  String.join (events.map fun event => event.text ++ "\n")

end Sprig
