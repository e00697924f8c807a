import Sprig.Tree.StmtReader

/-! Reading with a cursor. The list of tokens stays as it is, with whatever follows its first end of
text, and only a position in it moves. The cursor keeps a history of what it did, so that one can
say where it has been.
-/

namespace Sprig

/-- What is read in one piece and takes up tokens of its own. -/
inductive CursorPart where
  | statement
  | operand
deriving DecidableEq, Repr

inductive CursorEvent where
  /-- The token at a position was looked at. -/
  | looked (position : Nat)
  /-- The token before a position was looked at. -/
  | lookedBack (position : Nat)
  /-- The cursor was to go on from a position. -/
  | advanced (position : Nat)
  /-- Something was read to its end, from one position to another. -/
  | completed (part : CursorPart) (start stop : Nat)
deriving DecidableEq, Repr

structure Cursor where
  tokens : List Token
  position : Nat
  /-- What the cursor did, the last event first. -/
  history : List CursorEvent
deriving DecidableEq, Repr

namespace Cursor

def start (tokens : List Token) : Cursor :=
  ⟨tokens, 0, []⟩

def noting (event : CursorEvent) (cursor : Cursor) : Cursor :=
  { cursor with history := event :: cursor.history }

def moved (cursor : Cursor) : Cursor :=
  { cursor with position := cursor.position + 1 }

/-- The token before the cursor. Positions wrap around, so that the last token stands before the
first one.
-/
def previous? (cursor : Cursor) : Option Token :=
  if cursor.position = 0 then cursor.tokens.getLast? else cursor.tokens[cursor.position - 1]?

end Cursor

/-- Why a cursor stopped. -/
inductive CursorHalt where
  /-- There is no token where the cursor looks. -/
  | outside
  /-- A loop goes on for more rounds than there are tokens. -/
  | endless
  | failed (failure : ReadFailure)
deriving DecidableEq, Repr

/-- Reading with a cursor. When it stops, the cursor remains where it is. -/
abbrev Scan := ExceptT CursorHalt (StateM Cursor)

namespace Scan

variable {α : Type}

-- What a cursor can do

def note (event : CursorEvent) : Scan Unit :=
  modify (Cursor.noting event)

def found : Option Token → Scan Token
  | some token => pure token
  | none => throw .outside

def peek : Scan Token := do
  let cursor ← get
  note (.looked cursor.position)
  found cursor.tokens[cursor.position]?

def previous : Scan Token := do
  let cursor ← get
  note (.lookedBack cursor.position)
  found cursor.previous?

def isAtEnd : Scan Bool := do
  let token ← peek
  return token.kind == .endOfText

/-- Goes on to the next token, unless the text ends here, and gives the token before the cursor. It
looks back from wherever it gets to, so that every position of the cursor is noted.
-/
def advance : Scan Token := do
  let cursor ← get
  note (.advanced cursor.position)
  let ends ← isAtEnd
  if ends then previous else do
    modify Cursor.moved
    previous

def check (kind : TokenKind) : Scan Bool := do
  let token ← peek
  return token.kind == kind

/-- Goes on if the next token has the given kind, and says whether it did. -/
def accept (kind : TokenKind) : Scan Bool := do
  let matches_ ← check kind
  if matches_ then do
    let _ ← advance
    return true
  else
    return false

def refuse (expected : Expectation) (token : Token) : Scan α :=
  throw (.failed (.rejected ⟨expected, token⟩))

def tooDeep : Scan α :=
  throw (.failed .tooDeep)

def consume (kind : TokenKind) (expected : Expectation) : Scan Token := do
  let matches_ ← check kind
  if matches_ then advance else do
    let token ← peek
    refuse expected token

/-- Reads something and notes where it started and stopped. -/
def completing (part : CursorPart) (scan : Scan α) : Scan α := do
  let before ← get
  let value ← scan
  let after ← get
  note (.completed part before.position after.position)
  return value

-- Loops

/-- Repeats a step for as long as a condition holds, in fewer than the given number of rounds. -/
def rounds (condition : Scan Bool) (step : α → Scan α) : Nat → α → Scan α
  | 0, _ => throw .endless
  | left + 1, state => do
    let continues ← condition
    if continues then step state >>= rounds condition step left else return state

/-- Repeats a step for as long as a condition holds. -/
def repeatWhile (condition : Scan Bool) (step : α → Scan α) (state : α) : Scan α := do
  let cursor ← get
  rounds condition step cursor.tokens.length state

def many (condition : Scan Bool) (item : Scan α) : Scan (List α) :=
  List.reverse <$> repeatWhile condition (fun found => (· :: found) <$> item) []

/-- Items with commas between them, up to a closing token, which is left in place. -/
def separated (close : TokenKind) (item : Scan α) : Scan (List α) := do
  let closes ← check close
  if closes then return [] else do
    let first ← item
    let others ← many (accept .comma) item
    return first :: others

-- Expressions

def grouping (inner : Nat → Scan Expr) : Scan Expr := do
  let expr ← inner Precedence.lowest
  let _ ← consume .rightParen .parenAfterExpression
  return .grouping expr

/-- What follows the first token of an operand. -/
def operandAfter (inner : Nat → Scan Expr) (token : Token) : Scan Expr :=
  match token.kind with
  | .number | .string => return .literal (token.literal.getD .absent)
  | .trueWord => return .literal (.boolean true)
  | .falseWord => return .literal (.boolean false)
  | .nilWord => return .literal .nil
  | .identifier => return .reference token
  | .minus | .bang => Expr.unary token <$> inner Precedence.unary
  | .leftParen => grouping inner
  | _ => refuse .expression token

def operand (inner : Nat → Scan Expr) : Scan Expr := completing .operand do
  let token ← peek
  if token.kind = .endOfText then refuse .expression token else do
    let _ ← advance
    operandAfter inner token

def call (inner : Nat → Scan Expr) (callee : Expr) : Scan Expr := do
  let arguments ← separated .rightParen (inner Precedence.lowest)
  let paren ← consume .rightParen .parenAfterArguments
  return .call callee paren arguments

/-- What follows an operator that has been taken. -/
def operationAfter (inner : Nat → Scan Expr) (left : Expr) (operator : Token) : Scan Expr :=
  match operator.kind, left with
  | .equal, .reference name => Expr.assign name <$> inner Precedence.lowest
  | .equal, _ => refuse .assignmentTarget operator
  | .leftParen, _ => call inner left
  | kind, _ =>
    if kind ∈ Precedence.binarySigns then
      Expr.binary left operator <$> inner (Precedence.ofKind kind)
    else
      refuse .operator operator

def operation (inner : Nat → Scan Expr) (left : Expr) : Scan Expr := do
  let operator ← advance
  operationAfter inner left operator

def bindsTighter (level : Nat) : Scan Bool := do
  let token ← peek
  return level < Precedence.ofKind token.kind

def expression : (limit : Nat) → Nat → Scan Expr
  | 0, _ => tooDeep
  | limit + 1, level => do
    let left ← operand (expression limit)
    repeatWhile (bindsTighter level) (operation (expression limit)) left

-- Statements

def declaration (expr : Scan Expr) : Scan Stmt := do
  let name ← consume .identifier .variableName
  let isSign ← accept .equal
  let initial ← if isSign then some <$> expr else pure none
  let _ ← consume .semicolon .semicolonAfterDeclaration
  return .declare name initial

def print (expr : Scan Expr) : Scan Stmt := do
  let value ← expr
  let _ ← consume .semicolon .semicolonAfterValue
  return .print value

/-- Whether a block has another statement. -/
def bodyGoesOn : Scan Bool := do
  let closes ← check .rightBrace
  if closes then return false else do
    let ends ← isAtEnd
    return !ends

def body (stmt : Scan Stmt) : Scan (List Stmt) := do
  let statements ← many bodyGoesOn stmt
  let _ ← consume .rightBrace .braceAfterBlock
  return statements

def function (stmt : Scan Stmt) : Scan Stmt := do
  let name ← consume .identifier .functionName
  let _ ← consume .leftParen .parenAfterFunctionName
  let params ← separated .rightParen (consume .identifier .parameterName)
  let _ ← consume .rightParen .parenAfterParameters
  let _ ← consume .leftBrace .braceBeforeBody
  let statements ← body stmt
  return .function name params statements

def expressionStatement (expr : Scan Expr) : Scan Stmt := do
  let value ← expr
  let _ ← consume .semicolon .semicolonAfterExpression
  return .expression value

/-- One of several statements, told by its first token. -/
def choose (kind : TokenKind) (chosen otherwise : Scan Stmt) : Scan Stmt := do
  let matches_ ← accept kind
  if matches_ then chosen else otherwise

def statement : (limit : Nat) → Scan Stmt
  | 0 => tooDeep
  | limit + 1 => completing .statement <|
    let expr := expression limit Precedence.lowest
    choose .varWord (declaration expr) <|
    choose .printWord (print expr) <|
    choose .funWord (function (statement limit)) <|
    choose .leftBrace (Stmt.block <$> body (statement limit)) <|
    expressionStatement expr

-- Whole lists of tokens

def goesOn : Scan Bool := do
  let ends ← isAtEnd
  return !ends

def program (limit : Nat) : Scan (List Stmt) :=
  many goesOn (statement limit)

def wholeExpression (limit : Nat) : Scan Expr := do
  let expr ← expression limit Precedence.lowest
  let ends ← isAtEnd
  if ends then return expr else do
    let token ← peek
    refuse .endOfExpression token

/-- Reading a list of tokens from its start. -/
def on (scan : Scan α) (tokens : List Token) : Except CursorHalt α × Cursor :=
  scan.run.run (.start tokens)

end Scan

end Sprig
