import Sprig.Machine.World

/-!
Running programs.

Evaluation follows the tree; a call leaves the tree for the body of the function called. The
depth of both together is limited, so that every run ends.
-/

namespace Sprig

/-- The names that stand for a value of their own in every scope. -/
def constants : List (String × Value) :=
  [("True", .boolean true), ("False", .boolean false), ("Nil", .nil)]

/-- What a name stands for: constants first, then the scopes from the inside out. A name that is
bound to no value counts as not bound. -/
def World.value? (scope : Nat) (name : String) (world : World) : Option Value :=
  ((constants.lookup name).or (world.forest.get? scope name)).filter (· ≠ .absent)

namespace Run

/-- The value of a name, which has to be bound to one. -/
def lookUp (name : Token) (scope : Nat) : Run Value := do
  match (← get).value? scope name.lexeme with
  | some value => pure value
  | none => halt (.failed ⟨.undefinedVariable name.lexeme, name⟩)

/-- Gives a new value to a name that is bound already. -/
def assign (name : Token) (value : Value) (scope : Nat) : Run Unit := do
  let world ← get
  match world.forest.assign? scope name.lexeme value with
  | some forest => set { world with forest := forest }
  | none => halt (.failed ⟨.undefinedVariable name.lexeme, name⟩)

/-- Binds parameters to arguments in order. -/
def bindParams (scope : Nat) (params : List Token) (arguments : List Value) : Run Unit :=
  (params.zip arguments).forM fun (param, argument) => define scope param.lexeme argument

/-- Runs the body of a function in a new scope inside the one that the function was declared
in. -/
def enter (execute : Stmt → Nat → Run Unit) (closure : Closure) (arguments : List Value)
    : Run Unit := do
  let scope ← addScope closure.scope
  bindParams scope closure.params arguments
  closure.body.forM (execute · scope)

/-- Calls a value: it has to be a function, and its parameters as many as the arguments. A call
has no result but nil. -/
def call (execute : Stmt → Nat → Run Unit) (callee : Value) (arguments : List Value)
    (paren : Token) : Run Value := do
  match (← get).function? callee with
  | some (ref, closure) =>
    if closure.params.length = arguments.length then
      note (.called ref.name arguments)
      enter execute closure arguments
      return .nil
    else
      halt (.failed ⟨.wrongArity ref.name closure.params.length arguments.length, paren⟩)
  | none => halt (.failed ⟨.notCallable callee.type, paren⟩)

/-- Evaluates an expression, given how to evaluate the expressions in it and how to run the
statements of a function body. Operands are evaluated from left to right, and always all of
them. -/
def evaluateWith (evaluate : Expr → Nat → Run Value) (execute : Stmt → Nat → Run Unit)
    (expr : Expr) (scope : Nat) : Run Value :=
  match expr with
  | .literal value => pure value
  | .grouping inner => evaluate inner scope
  | .reference name => lookUp name scope
  | .assign name value => do
    let value ← evaluate value scope
    assign name value scope
    return value
  | .unary operator operand => do
    let operand ← evaluate operand scope
    ofExcept (operator.applyUnary operand)
  | .binary left operator right => do
    let left ← evaluate left scope
    let right ← evaluate right scope
    ofExcept (operator.applyBinary left right)
  | .call callee paren arguments => do
    let callee ← evaluate callee scope
    let arguments ← arguments.mapM (evaluate · scope)
    call execute callee arguments paren

/-- Runs a statement, given how to evaluate its expressions and how to run the statements in
it. -/
def executeWith (evaluate : Expr → Nat → Run Value) (execute : Stmt → Nat → Run Unit)
    (stmt : Stmt) (scope : Nat) : Run Unit := do
  note (.executing stmt.form)
  match stmt with
  | .expression expr =>
    let _ ← evaluate expr scope
  | .print expr =>
    let value ← evaluate expr scope
    print (value.display ++ "\n")
  | .declare name initial =>
    let value ← initial.elim (pure .nil) (evaluate · scope)
    define scope name.lexeme value
    note (.declared name.lexeme value)
  | .function name params body =>
    let ref ← addFunction name.lexeme ⟨params, body, scope⟩
    define scope name.lexeme (.function ref)
    note (.definedFunction name.lexeme ref.arity)
  | .block body =>
    let inner ← addScope scope
    let depth := (← get).forest.depth inner
    note (.enteredBlock depth)
    body.forM (execute · inner)
    note (.leftBlock depth)

mutual

/-- Evaluates an expression in a scope, nested at most `limit` deep. -/
def evaluate : (limit : Nat) → Expr → Nat → Run Value
  | 0, _, _ => halt .tooDeep
  | limit + 1, expr, scope => evaluateWith (evaluate limit) (execute limit) expr scope

/-- Runs a statement in a scope, nested at most `limit` deep. -/
def execute : (limit : Nat) → Stmt → Nat → Run Unit
  | 0, _, _ => halt .tooDeep
  | limit + 1, stmt, scope => executeWith (evaluate limit) (execute limit) stmt scope

end

/-- Runs the statements of a program in order. -/
def program (limit : Nat) (statements : List Stmt) (scope : Nat) : Run Unit :=
  statements.forM (execute limit · scope)

end Run

end Sprig
