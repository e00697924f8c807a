import Sprig.Tree.Basic

/-!
Expressions written back as program text. Operations come out in parentheses, so the text
reads as the same tree whatever stands around it.
-/

namespace Sprig

/-- How a literal is written. There is no escape for quotes inside a text. -/
def Value.written : Value → String
  | .nil => "nil"
  | .boolean value => if value then "true" else "false"
  | .number value => value.text
  | value => "\"" ++ value.display ++ "\""

namespace Expr

/-- Whether an expression is written with parentheses of its own. -/
def isEnclosed : Expr → Bool
  | grouping _ | assign .. | unary .. | binary .. => true
  | literal _ | reference _ | call .. => false

mutual

def written : Expr → String
  | .literal value => value.written
  | .grouping inner => if inner.isEnclosed then inner.written else "(" ++ inner.written ++ ")"
  | .reference name => name.lexeme
  | .assign name value => "(" ++ name.lexeme ++ " = " ++ value.written ++ ")"
  | .unary operator operand => "(" ++ operator.lexeme ++ operand.written ++ ")"
  | .binary left operator right =>
    "(" ++ left.written ++ " " ++ operator.lexeme ++ " " ++ right.written ++ ")"
  | .call callee _ arguments =>
    callee.written ++ "(" ++ ", ".intercalate (writtenAll arguments) ++ ")"

def writtenAll : List Expr → List String
  | [] => []
  | expr :: rest => expr.written :: writtenAll rest

end

end Expr

end Sprig
