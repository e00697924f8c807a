import Sprig.Token.Basic

/-!
Programs as trees.
-/

namespace Sprig

inductive Expr where
  | literal (value : Value)
  | grouping (inner : Expr)
  | reference (name : Token)
  | assign (name : Token) (value : Expr)
  | unary (operator : Token) (operand : Expr)
  | binary (left : Expr) (operator : Token) (right : Expr)
  /-- A call is located by its closing parenthesis. -/
  | call (callee : Expr) (paren : Token) (arguments : List Expr)
deriving Repr

inductive Stmt where
  | expression (expr : Expr)
  | print (expr : Expr)
  | declare (name : Token) (initial : Option Expr)
  | block (body : List Stmt)
  | function (name : Token) (params : List Token) (body : List Stmt)
deriving Repr

/-- Whether a tree is at most `limit` levels deep. -/
def Expr.fits (limit : Nat) (expr : Expr) : Bool :=
  match limit, expr with
  | 0, _ => false
  | _ + 1, literal _ | _ + 1, reference _ => true
  | limit + 1, grouping inner => inner.fits limit
  | limit + 1, assign _ value => value.fits limit
  | limit + 1, unary _ operand => operand.fits limit
  | limit + 1, binary left _ right => left.fits limit && right.fits limit
  | limit + 1, call callee _ arguments => callee.fits limit && arguments.all (fits limit)

@[inherit_doc Expr.fits]
def Stmt.fits (limit : Nat) (stmt : Stmt) : Bool :=
  match limit, stmt with
  | 0, _ => false
  | limit + 1, expression expr | limit + 1, print expr => expr.fits limit
  | limit + 1, declare _ initial => initial.all (Expr.fits limit)
  | limit + 1, block body => body.all (fits limit)
  | limit + 1, function _ _ body => body.all (fits limit)

end Sprig
