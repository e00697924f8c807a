import Sprig.Fault

/-!
The operators of the language, applied to values.
-/

namespace Sprig

inductive UnaryOperator where
  | negate
  | not
deriving DecidableEq, Repr

namespace UnaryOperator

def ofKind? : TokenKind → Option UnaryOperator
  | .minus => some negate
  | .bang => some not
  | _ => none

/-- Any value can be denied; only a number can be negated. -/
def apply : UnaryOperator → Value → Except Fault Value
  | not, operand => .ok (.boolean operand.isFalsy)
  | negate, .number value => .ok (.number value.neg)
  | negate, operand => .error (.cannotNegate operand.type)

end UnaryOperator

/-- The operators on two operands. -/
inductive BinaryOperator where
  | add
  | subtract
  | multiply
  | divide
  | equal
  | notEqual
  | less
  | lessEqual
  | greater
  | greaterEqual
deriving DecidableEq, Repr

namespace BinaryOperator

def ofKind? : TokenKind → Option BinaryOperator
  | .plus => some add
  | .minus => some subtract
  | .star => some multiply
  | .slash => some divide
  | .equalEqual => some equal
  | .bangEqual => some notEqual
  | .less => some less
  | .lessEqual => some lessEqual
  | .greater => some greater
  | .greaterEqual => some greaterEqual
  | _ => none

/-- Applies an operation on numbers, which no other values allow. -/
def onNumbers (action : Action) (operation : Number → Number → Except Fault Value)
    : Value → Value → Except Fault Value
  | .number a, .number b => operation a b
  | left, right => .error (.cannotCombine action left.type right.type)

/-- Applies an operation that gives a number for any two numbers. -/
def arithmetic (action : Action) (operation : Number → Number → Number)
    : Value → Value → Except Fault Value :=
  onNumbers action fun a b => .ok (.number (operation a b))

def comparison (relation : Number → Number → Bool) : Value → Value → Except Fault Value :=
  onNumbers .compare fun a b => .ok (.boolean (relation a b))

/-- Equality is defined on all values, a sum on two numbers or two texts, and the rest on
numbers. -/
def apply : BinaryOperator → Value → Value → Except Fault Value
  | equal, left, right => .ok (.boolean (left.equals right))
  | notEqual, left, right => .ok (.boolean (!left.equals right))
  | add, .text a, .text b => .ok (.text (a ++ b))
  | add, left, right => arithmetic .add Number.add left right
  | subtract, left, right => arithmetic .subtract Number.sub left right
  | multiply, left, right => arithmetic .multiply Number.mul left right
  | divide, left, right =>
    onNumbers .divide (fun a b =>
      if b.isZero then .error .divisionByZero else .ok (.number (a.div b))) left right
  | less, left, right => comparison Number.less left right
  | lessEqual, left, right => comparison Number.lessEqual left right
  | greater, left, right => comparison (fun a b => b.less a) left right
  | greaterEqual, left, right => comparison (fun a b => b.lessEqual a) left right

end BinaryOperator

/-- How an evaluation ends without a value. -/
inductive Halt where
  /-- The program is at fault. -/
  | failed (error : RuntimeError)
  /-- The tree holds an operator token that is no operator on one operand. -/
  | unsupportedUnary (lexeme : String)
  /-- The tree holds an operator token that is no operator on two operands. -/
  | unsupportedBinary (lexeme : String)
  /-- The evaluation nests deeper than its limit. -/
  | tooDeep
deriving DecidableEq, Repr

namespace Token

/-- Places a fault at a token. -/
def blame {α : Type} (token : Token) : Except Fault α → Except Halt α
  | .ok value => .ok value
  | .error fault => .error (.failed ⟨fault, token⟩)

/-- Applies the operator that a token stands for to one operand. -/
def applyUnary (token : Token) (operand : Value) : Except Halt Value :=
  match UnaryOperator.ofKind? token.kind with
  | some operator => token.blame (operator.apply operand)
  | none => .error (.unsupportedUnary token.lexeme)

/-- Applies the operator that a token stands for to two operands. -/
def applyBinary (token : Token) (left right : Value) : Except Halt Value :=
  match BinaryOperator.ofKind? token.kind with
  | some operator => token.blame (operator.apply left right)
  | none => .error (.unsupportedBinary token.lexeme)

end Token

/-- What is said about a token that is no operator. -/
def Halt.internalMessage? : Halt → Option String
  | unsupportedUnary lexeme => some s!"unsupported unary operator {lexeme}"
  | unsupportedBinary lexeme => some s!"unknown operator {lexeme}"
  | failed _ | tooDeep => none

end Sprig
