import Sprig.Token.Basic

/-!
Why a list of tokens is no program, and how it is worded.
-/

namespace Sprig

/-- What a program lacks at the place of an error. -/
inductive Expectation where
  | expression
  | endOfExpression
  | operator
  | assignmentTarget
  | variableName
  | functionName
  | parameterName
  | parenAfterFunctionName
  | parenAfterParameters
  | parenAfterArguments
  | parenAfterExpression
  | braceBeforeBody
  | braceAfterBlock
  | semicolonAfterExpression
  | semicolonAfterValue
  | semicolonAfterDeclaration
deriving DecidableEq, Repr

def Expectation.message : Expectation → String
  | expression => "Expect expression."
  | endOfExpression => "Expect end of expression."
  | operator => "Expect operator."
  | assignmentTarget => "Invalid assignment target."
  | variableName => "Expect variable name."
  | functionName => "Expect function name."
  | parameterName => "Expect parameter name."
  | parenAfterFunctionName => "Expect '(' after function name."
  | parenAfterParameters => "Expect ')' after parameters."
  | parenAfterArguments => "Expect ')' after arguments."
  | parenAfterExpression => "Expect ')' after expression."
  | braceBeforeBody => "Expect '\x7b' before function body."
  | braceAfterBlock => "Expect '\x7d' after block."
  | semicolonAfterExpression => "Expect ';' after expression."
  | semicolonAfterValue => "Expect ';' after value."
  | semicolonAfterDeclaration => "Expect ';' after variable declaration."

/-- An unmet expectation and the token that stands in its place. -/
structure SyntaxError where
  expected : Expectation
  token : Token
deriving DecidableEq, Repr

/-- The family that syntax errors belong to, beside the families of faults. -/
def SyntaxError.family : String := "ParseError"

def SyntaxError.message (error : SyntaxError) : String :=
  let place := if error.token.kind = .endOfText then "end" else s!"'{error.token.lexeme}'"
  s!"[line {error.token.line}] Error at {place}: {error.expected.message}"

end Sprig
