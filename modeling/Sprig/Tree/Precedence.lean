import Sprig.Token.Basic

/-!
How tightly the operators between two operands bind: the levels from the loosest to the
tightest.
-/

namespace Sprig.Precedence

def lowest : Nat := 0
def assignment : Nat := 1
def equality : Nat := 2
def comparison : Nat := 3
def term : Nat := 4
def factor : Nat := 5
def unary : Nat := 6
def call : Nat := 7

/-- The level of a token that follows an operand. A token that continues no expression has
the lowest level, below that of every operator. -/
def ofKind : TokenKind → Nat
  | .equal => assignment
  | .equalEqual | .bangEqual => equality
  | .less | .lessEqual | .greater | .greaterEqual => comparison
  | .plus | .minus => term
  | .star | .slash => factor
  | .leftParen => call
  | _ => lowest

/-- The signs that stand between two operands. -/
def binarySigns : List TokenKind :=
  [.equalEqual, .bangEqual, .less, .lessEqual, .greater, .greaterEqual, .plus, .minus, .star,
    .slash]

end Sprig.Precedence
