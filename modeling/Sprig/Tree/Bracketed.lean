import Sprig.Tree.Basic

/-!
The bracketed form of a tree: every operation in parentheses, its name first. Parentheses of
the program itself leave no trace.
-/

namespace Sprig

/-- Parts in one pair of parentheses. -/
def bracket (parts : List String) : String :=
  "(" ++ " ".intercalate parts ++ ")"

mutual

def Expr.bracketed : Expr → String
  | .literal value => value.display
  | .grouping inner => inner.bracketed
  | .reference name => name.lexeme
  | .assign name value => bracket ["=", name.lexeme, value.bracketed]
  | .unary operator operand => bracket [operator.lexeme, operand.bracketed]
  | .binary left operator right => bracket [operator.lexeme, left.bracketed, right.bracketed]
  | .call callee _ arguments =>
    bracket ("call" :: callee.bracketed :: Expr.bracketedAll arguments)

def Expr.bracketedAll : List Expr → List String
  | [] => []
  | expr :: rest => expr.bracketed :: Expr.bracketedAll rest

end

mutual

def Stmt.bracketed : Stmt → String
  | .expression expr => bracket ["expr", expr.bracketed]
  | .print expr => bracket ["print", expr.bracketed]
  | .declare name none => bracket ["var", name.lexeme]
  | .declare name (some initial) => bracket ["var", name.lexeme, initial.bracketed]
  | .block body => bracket ("block" :: Stmt.bracketedAll body)
  | .function name params body =>
    bracket ("fun" :: name.lexeme :: bracket (params.map Token.lexeme) :: Stmt.bracketedAll body)

def Stmt.bracketedAll : List Stmt → List String
  | [] => []
  | stmt :: rest => stmt.bracketed :: Stmt.bracketedAll rest

end

end Sprig
