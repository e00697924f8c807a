import Sprig.Tree.ExprReader

/-!
Reading statements and whole programs.
-/

namespace Sprig

namespace Stmt

open Reader

def readDeclaration (expr : Reader Expr) : Reader Stmt := do
  let name ← take .identifier .variableName
  let initial ← if ← takeIf .equal then some <$> expr else pure none
  let _ ← take .semicolon .semicolonAfterDeclaration
  return .declare name initial

def readPrint (expr : Reader Expr) : Reader Stmt := do
  let value ← expr
  let _ ← take .semicolon .semicolonAfterValue
  return .print value

/-- Reads the statements of a block and its closing brace. -/
def readBody (stmt : Reader Stmt) : Reader (List Stmt) := do
  let body ← many (fun tokens => !tokens.isEmpty && !startsWith .rightBrace tokens) stmt
  let _ ← take .rightBrace .braceAfterBlock
  return body

def readFunction (stmt : Reader Stmt) : Reader Stmt := do
  let name ← take .identifier .functionName
  let _ ← take .leftParen .parenAfterFunctionName
  let params ← separated .rightParen (take .identifier .parameterName)
  let _ ← take .rightParen .parenAfterParameters
  let _ ← take .leftBrace .braceBeforeBody
  let body ← readBody stmt
  return .function name params body

def readExpression (expr : Reader Expr) : Reader Stmt := do
  let value ← expr
  let _ ← take .semicolon .semicolonAfterExpression
  return .expression value

/-- Reads a statement nested at most `limit` deep. Its first token tells what statement it
is. -/
def read : (limit : Nat) → Reader Stmt
  | 0 => tooDeep
  | limit + 1 => fun tokens =>
    let expr := Expr.read limit Precedence.lowest
    match tokens.head?.map Token.kind with
    | some .varWord => readDeclaration expr (tokens.drop 1)
    | some .printWord => readPrint expr (tokens.drop 1)
    | some .funWord => readFunction (read limit) (tokens.drop 1)
    | some .leftBrace => (Stmt.block <$> readBody (read limit)) (tokens.drop 1)
    | _ => readExpression expr tokens

end Stmt

/-- Why a stream of tokens could not be read. -/
inductive ReadFailure where
  | rejected (error : SyntaxError)
  | tooDeep
deriving DecidableEq, Repr

namespace TokenStream

/-- Reads a whole stream; an unmet expectation is reported at the first token left. -/
def readAll {α : Type} (stream : TokenStream) (reader : Reader α) : Except ReadFailure α :=
  match reader stream.body with
  | .ok (result, _) => .ok result
  | .error (.unmet expected rest) => .error (.rejected ⟨expected, stream.front rest⟩)
  | .error .tooDeep => .error .tooDeep

/-- Reads the statements of a program. -/
def program (stream : TokenStream) (limit : Nat) : Except ReadFailure (List Stmt) :=
  stream.readAll (Reader.many (fun tokens => !tokens.isEmpty) (Stmt.read limit))

/-- Reads a single expression. -/
def expression (stream : TokenStream) (limit : Nat) : Except ReadFailure Expr :=
  stream.readAll do
    let expr ← Expr.read limit Precedence.lowest
    if (← get).isEmpty then return expr else Reader.refuse .endOfExpression

end TokenStream

end Sprig
