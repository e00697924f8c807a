import Sprig.Tree.Basic
import Sprig.Tree.Precedence
import Sprig.Tree.Reader

/-!
Reading expressions.

An expression is an operand followed by operators, each with what belongs to it. Operators
that bind tighter than a given level are taken as long as there are any; the operand on the
right of an operator is read at the operator's own level, which groups operators of one
level from the left. An assignment reads all that follows as its value and so groups from
the right.
-/

namespace Sprig.Expr

open Reader

/-- Reads what follows an opening parenthesis around an expression. -/
def readGrouping (inner : Nat → Reader Expr) : Reader Expr := do
  let expr ← inner Precedence.lowest
  let _ ← take .rightParen .parenAfterExpression
  return .grouping expr

/-- Reads an operand, given a reader for expressions at a level. -/
def readOperand (inner : Nat → Reader Expr) : Reader Expr := fun tokens =>
  match tokens with
  | [] => refuse .expression []
  | token :: rest =>
    match token.kind with
    | .number | .string => .ok (.literal (token.literal.getD .absent), rest)
    | .trueWord => .ok (.literal (.boolean true), rest)
    | .falseWord => .ok (.literal (.boolean false), rest)
    | .nilWord => .ok (.literal .nil, rest)
    | .identifier => .ok (.reference token, rest)
    | .minus | .bang => (Expr.unary token <$> inner Precedence.unary) rest
    | .leftParen => readGrouping inner rest
    | _ => refuse .expression (token :: rest)

/-- Reads what follows the opening parenthesis of a call. -/
def readCall (inner : Nat → Reader Expr) (callee : Expr) : Reader Expr := do
  let arguments ← separated .rightParen (inner Precedence.lowest)
  let paren ← take .rightParen .parenAfterArguments
  return .call callee paren arguments

/-- Reads an operator and what belongs to it, after the operand on its left. -/
def readOperation (inner : Nat → Reader Expr) (left : Expr) : Reader Expr := fun tokens =>
  match tokens with
  | [] => .ok (left, [])
  | token :: rest =>
    match token.kind, left with
    | .equal, .reference name => (Expr.assign name <$> inner Precedence.lowest) rest
    | .equal, _ => refuse .assignmentTarget (token :: rest)
    | .leftParen, _ => readCall inner left rest
    | kind, _ =>
      if kind ∈ Precedence.binarySigns then
        (Expr.binary left token <$> inner (Precedence.ofKind kind)) rest
      else
        refuse .operator (token :: rest)

/-- Whether the tokens left start with an operator that binds tighter than a level. -/
def bindsTighter (level : Nat) (tokens : List Token) : Bool :=
  tokens.head?.any fun token => level < Precedence.ofKind token.kind

/-- Reads an expression of operators that bind tighter than a level, nested at most `limit`
deep. -/
def read : (limit : Nat) → Nat → Reader Expr
  | 0, _ => tooDeep
  | limit + 1, level => fun tokens =>
    (readOperand (read limit) >>=
      repeatWhile (bindsTighter level) (readOperation (read limit)) tokens) tokens

end Sprig.Expr
