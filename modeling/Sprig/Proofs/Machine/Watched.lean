import Sprig.Proofs.Machine.Simulation

/-! Running under observation. A watch is shown every expression and every statement when its turn
comes, with the scope it runs in and the world as it is then. What holds whenever a statement is
run is said with it: a watch that reacts only where this fails is never noticed.
-/

namespace Sprig

/-- What is done before an expression is evaluated and before a statement is run. -/
structure Watch where
  expr : Expr → Nat → Run Unit
  stmt : Stmt → Nat → Run Unit

namespace Run

/-- Whether a run leaves a world as it is. -/
def Silent (run : Run Unit) (world : World) : Prop :=
  run.run.run world = (.ok (), world)

mutual

/-- Evaluates an expression under observation. -/
def evaluateWatched (watch : Watch) : (limit : Nat) → Expr → Nat → Run Value
  | 0, _, _ => halt .tooDeep
  | limit + 1, expr, scope => do
    watch.expr expr scope
    evaluateWith (evaluateWatched watch limit) (executeWatched watch limit) expr scope

/-- Runs a statement under observation. -/
def executeWatched (watch : Watch) : (limit : Nat) → Stmt → Nat → Run Unit
  | 0, _, _ => halt .tooDeep
  | limit + 1, stmt, scope => do
    watch.stmt stmt scope
    executeWith (evaluateWatched watch limit) (executeWatched watch limit) stmt scope

end

/-- Runs the statements of a program under observation. -/
def programWatched (watch : Watch) (limit : Nat) (statements : List Stmt) (scope : Nat)
    : Run Unit :=
  statements.forM (executeWatched watch limit · scope)

/-- Whenever a program evaluates an expression or runs a statement, the scope and the world of
that moment are such as is said of them. -/
def Throughout (limit : Nat) (program : List Stmt) (scope : Nat) (world : World)
    (onExpr : Expr → Nat → World → Prop) (onStmt : Stmt → Nat → World → Prop) : Prop :=
  ∀ watch : Watch,
    (∀ expr scope world, onExpr expr scope world → Silent (watch.expr expr scope) world) →
    (∀ stmt scope world, onStmt stmt scope world → Silent (watch.stmt stmt scope) world) →
    (programWatched watch limit program scope).run.run world
      = (Run.program limit program scope).run.run world

/-- What holds throughout a run may be weakened: a watch that is silent wherever the weaker
conditions hold is silent wherever the stronger ones do. -/
theorem Throughout.mono {limit : Nat} {program : List Stmt} {scope : Nat} {world : World}
    {onExpr onExpr' : Expr → Nat → World → Prop} {onStmt onStmt' : Stmt → Nat → World → Prop}
    (throughout : Throughout limit program scope world onExpr onStmt)
    (exprs : ∀ expr scope world, onExpr expr scope world → onExpr' expr scope world)
    (stmts : ∀ stmt scope world, onStmt stmt scope world → onStmt' stmt scope world)
    : Throughout limit program scope world onExpr' onStmt' := by
  intro watch silentExpr silentStmt
  refine throughout watch ?_ ?_
  · intro expr scope world holds
    exact silentExpr expr scope world (exprs expr scope world holds)
  · intro stmt scope world holds
    exact silentStmt stmt scope world (stmts stmt scope world holds)

end Run

end Sprig
