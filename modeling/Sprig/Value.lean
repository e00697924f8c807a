import Sprig.Number.Arithmetic
import Sprig.Number.Shortest

/-!
The values that programs compute with, and the rules every value obeys: what counts as
false, when two values are equal, and how a value is written.
-/

namespace Sprig

/-- A function as a value: a key into the table of the functions made so far, with the name
and the number of parameters it was declared with. No two functions are made with one key. -/
structure FunctionRef where
  key : Nat
  name : String
  arity : Nat
deriving DecidableEq, Repr

inductive Value where
  | nil
  | boolean (value : Bool)
  | number (value : Number)
  | text (value : String)
  | function (ref : FunctionRef)
  /-- What a number or text token stands for that carries no value. Such tokens come only from
  token lists made by hand. -/
  | absent
deriving DecidableEq, Repr

inductive ValueType where
  | nil
  | boolean
  | number
  | text
  | function
deriving DecidableEq, Repr

/-- How messages and traces name a type. -/
def ValueType.name : ValueType → String
  | nil => "Nil"
  | boolean => "Boolean"
  | number => "Number"
  | text => "String"
  | function => "Function"

namespace Value

/-- Whatever is no datum counts as a function. -/
def type : Value → ValueType
  | nil => .nil
  | boolean _ => .boolean
  | number _ => .number
  | text _ => .text
  | function _ | absent => .function

/-- Nil, false, both zeros and the empty text count as false. -/
def isFalsy : Value → Bool
  | nil => true
  | boolean value => !value
  | number value => value.isZero
  | text value => value.isEmpty
  | function _ | absent => false

/-- Values of different types are never equal; functions are equal if they are the same
function. -/
def equals : Value → Value → Bool
  | nil, nil => true
  | boolean a, boolean b => a == b
  | number a, number b => a.equals b
  | text a, text b => a == b
  | function a, function b => a == b
  | absent, absent => true
  | _, _ => false

/-- What printing a value writes. -/
def display : Value → String
  | nil => "nil"
  | boolean value => if value then "true" else "false"
  | number value => value.text
  | text value => value
  | function ref => s!"<fn {ref.name}>"
  | absent => "None"

end Value

end Sprig
