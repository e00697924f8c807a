import Sprig.Token.Basic

/-!
What can go wrong when a program runs, and how it is worded.
-/

namespace Sprig

/-- What an operator does with its two operands, as messages name it. -/
inductive Action where
  | add
  | subtract
  | multiply
  | divide
  | compare
deriving DecidableEq, Repr

def Action.verb : Action → String
  | add => "add"
  | subtract => "subtract"
  | multiply => "multiply"
  | divide => "divide"
  | compare => "compare"

/-- Why an evaluation failed. -/
inductive Fault where
  | cannotNegate (operand : ValueType)
  | cannotCombine (action : Action) (left right : ValueType)
  | divisionByZero
  | undefinedVariable (name : String)
  | notCallable (callee : ValueType)
  | wrongArity (name : String) (expected given : Nat)
deriving DecidableEq, Repr

namespace Fault

/-- The family of a fault. -/
def family : Fault → String
  | cannotNegate _ | cannotCombine .. | notCallable _ => "TypeError"
  | divisionByZero => "ZeroDivisionError"
  | undefinedVariable _ => "NameError"
  | wrongArity .. => "ArityError"

def detail : Fault → String
  | cannotNegate operand => s!"Cannot negate {operand.name}."
  | cannotCombine action left right => s!"Cannot {action.verb} {left.name} and {right.name}."
  | divisionByZero => "Division by zero."
  | undefinedVariable name => s!"Undefined variable '{name}'."
  | notCallable callee => s!"Can only call functions, got {callee.name}."
  | wrongArity name expected given => s!"{name} expects {expected} arguments but got {given}."

end Fault

/-- A fault and the token it points at. -/
structure RuntimeError where
  fault : Fault
  token : Token
deriving DecidableEq, Repr

def RuntimeError.message (error : RuntimeError) : String :=
  s!"[line {error.token.line}] {error.fault.detail}"

end Sprig
