import Mathlib.Logic.Function.Basic
import Sprig.Proofs.Machine.Simulation
import Sprig.Proofs.Tree.Sites

/-! Surveys. A survey of a run keeps a chart beside the world: for which block or function of the
source each scope was made, and by which declaration each function. It also keeps what was run
when. The run itself goes on as it does without a survey.
-/

namespace Sprig

/-- A world with the sites that its scopes and functions come from. The global scope comes from
none. -/
structure Chart where
  world : World
  /-- The block or function that a scope was made for. -/
  scopes : Nat → Site
  /-- The declaration that a function was made by, under the key of the function. -/
  functions : Nat → Site

/-- The same sites in another world. -/
def Chart.inWorld (chart : Chart) (world : World) : Chart :=
  { chart with world }

/-- A step of a run: an expression or statement whose turn has come, in its scope, and how things
stand then. -/
structure Moment where
  scope : Nat
  /-- What is about to be run: a statement with its site, or an expression. -/
  turn : (Site × Stmt) ⊕ Expr
  chart : Chart

/-- How a trace names the statement that is about to be run. -/
def Moment.form? (moment : Moment) : Option String :=
  moment.turn.elim (fun (_, stmt) => some stmt.form) fun _ => none

/-- The form of the statement that starts with an event. -/
def TraceEvent.form? : TraceEvent → Option String
  | executing form => some form
  | _ => none

/-- A chart as it is now, and the moments that have led to it. -/
structure Survey where
  chart : Chart
  moments : List Moment

/-- A run that is surveyed. -/
abbrev Surveyed := ExceptT Halt (StateM Survey)

namespace Surveyed

variable {α β : Type}

/-- A run that makes no scope and no function leaves all sites as they are. -/
def lift (run : Run α) : Surveyed α := ExceptT.mk fun survey =>
  let done := run.run.run survey.chart.world
  (done.1, { survey with chart := survey.chart.inWorld done.2 })

def look : Surveyed Chart :=
  Survey.chart <$> get

/-- Keeps the moment at which something is about to be run. -/
def observe (scope : Nat) (turn : (Site × Stmt) ⊕ Expr) : Surveyed Unit :=
  modify fun survey => { survey with moments := survey.moments ++ [⟨scope, turn, survey.chart⟩] }

/-- Keeps and notes that the statement at a site is about to be run. -/
def announce (site : Site) (stmt : Stmt) (scope : Nat) : Surveyed Unit := do
  observe scope (.inl (site, stmt))
  lift (Run.note (.executing stmt.form))

/-- Makes a scope for what stands at a site. -/
def addScope (site : Site) (parent : Nat) : Surveyed Nat :=
  modifyGet fun survey =>
    let (id, world) := survey.chart.world.addScope (some parent)
    let scopes := Function.update survey.chart.scopes id site
    (id, { survey with chart := { survey.chart with world, scopes } })

/-- Makes the function that is declared at a site. -/
def addFunction (site : Site) (name : String) (closure : Closure) : Surveyed FunctionRef :=
  modifyGet fun survey =>
    let (ref, world) := survey.chart.world.addFunction name closure
    let functions := Function.update survey.chart.functions ref.key site
    (ref, { survey with chart := { survey.chart with world, functions } })

/-- Runs the statements inside what stands at a site. -/
def runInside (execute : Site → Stmt → Nat → Surveyed Unit) (site : Site) (body : List Stmt)
    (scope : Nat) : Surveyed Unit :=
  body.zipIdx.forM fun (stmt, index) => execute (site.inner index) stmt scope

/-- Runs the body of the function that was declared at a site. -/
def enter (execute : Site → Stmt → Nat → Surveyed Unit) (site : Site) (closure : Closure)
    (arguments : List Value) : Surveyed Unit := do
  let scope ← addScope site closure.scope
  lift (Run.bindParams scope closure.params arguments)
  runInside execute site closure.body scope

def call (execute : Site → Stmt → Nat → Surveyed Unit) (callee : Value) (arguments : List Value)
    (paren : Token) : Surveyed Value := do
  let chart ← look
  match chart.world.function? callee with
  | some (ref, closure) =>
    if closure.params.length = arguments.length then
      lift (Run.note (.called ref.name arguments))
      enter execute (chart.functions ref.key) closure arguments
      return .nil
    else
      lift (Run.halt
        (.failed ⟨.wrongArity ref.name closure.params.length arguments.length, paren⟩))
  | none => lift (Run.halt (.failed ⟨.notCallable callee.type, paren⟩))

def evaluateWith (evaluate : Expr → Nat → Surveyed Value)
    (execute : Site → Stmt → Nat → Surveyed Unit) (expr : Expr) (scope : Nat) : Surveyed Value :=
  match expr with
  | .literal value => pure value
  | .grouping inner => evaluate inner scope
  | .reference name => lift (Run.lookUp name scope)
  | .assign name value => do
    let value ← evaluate value scope
    lift (Run.assign name value scope)
    return value
  | .unary operator operand => do
    let operand ← evaluate operand scope
    lift (Run.ofExcept (operator.applyUnary operand))
  | .binary left operator right => do
    let left ← evaluate left scope
    let right ← evaluate right scope
    lift (Run.ofExcept (operator.applyBinary left right))
  | .call callee paren arguments => do
    let callee ← evaluate callee scope
    let arguments ← arguments.mapM (evaluate · scope)
    call execute callee arguments paren

/-- Runs the statement at a site. -/
def executeWith (evaluate : Expr → Nat → Surveyed Value)
    (execute : Site → Stmt → Nat → Surveyed Unit) (site : Site) (stmt : Stmt) (scope : Nat)
    : Surveyed Unit := do
  announce site stmt scope
  match stmt with
  | .expression expr =>
    let _ ← evaluate expr scope
  | .print expr =>
    let value ← evaluate expr scope
    lift (Run.print (value.display ++ "\n"))
  | .declare name initial =>
    let value ← initial.elim (pure .nil) (evaluate · scope)
    lift (Run.define scope name.lexeme value)
    lift (Run.note (.declared name.lexeme value))
  | .function name params body =>
    let ref ← addFunction site name.lexeme ⟨params, body, scope⟩
    lift (Run.define scope name.lexeme (.function ref))
    lift (Run.note (.definedFunction name.lexeme ref.arity))
  | .block body =>
    let inner ← addScope site scope
    let depth := (← look).world.forest.depth inner
    lift (Run.note (.enteredBlock depth))
    runInside execute site body inner
    lift (Run.note (.leftBlock depth))

mutual

/-- Evaluates an expression in a scope, nested at most `limit` deep. -/
def evaluate : (limit : Nat) → Expr → Nat → Surveyed Value
  | 0, _, _ => lift (Run.halt .tooDeep)
  | limit + 1, expr, scope => do
    observe scope (.inr expr)
    evaluateWith (evaluate limit) (execute limit) expr scope

/-- Runs the statement at a site in a scope, nested at most `limit` deep. -/
def execute : (limit : Nat) → Site → Stmt → Nat → Surveyed Unit
  | 0, _, _, _ => lift (Run.halt .tooDeep)
  | limit + 1, site, stmt, scope =>
    executeWith (evaluate limit) (execute limit) site stmt scope

end

/-- Runs the program of a text. -/
def program (limit text : Nat) (statements : List Stmt) (scope : Nat) : Surveyed Unit :=
  runInside (execute limit) ⟨text, []⟩ statements scope

-- The run that is surveyed

/-- The survey is one of the run: without the sites and moments, it is the run. -/
def Records (surveyed : Surveyed α) (run : Run α) : Prop :=
  ∀ survey, ((surveyed.run.run survey).1, (surveyed.run.run survey).2.chart.world)
    = run.run.run survey.chart.world

namespace Records

/-- A value given back is the same with and without a survey. -/
theorem pure (value : α) : Records (Pure.pure value) (Pure.pure value) :=
  fun _ => rfl

/-- A lifted run records itself, for the chart only follows the world. -/
theorem lift (run : Run α) : Records (Surveyed.lift run) run :=
  fun _ => rfl

/-- Surveyed parts record the parts of a sequence, by whether the first gives a value. -/
theorem bind {surveyed : Surveyed α} {run : Run α} {next : α → Surveyed β} {next' : α → Run β}
    (start : Records surveyed run) (rest : ∀ value, Records (next value) (next' value))
    : Records (surveyed >>= next) (run >>= next') := by
  intro survey
  rw [Run.run_bind, Run.run_bind, ← start survey]
  rcases surveyed.run.run survey with ⟨_ | value, after⟩
  · rfl
  · exact rest value after

/-- What is seen of the world is the same. -/
theorem ofLook {next : Chart → Surveyed α} {next' : World → Run α}
    (rest : ∀ chart, Records (next chart) (next' chart.world))
    : Records (look >>= next) (get >>= next') :=
  fun survey => rest survey.chart survey

/-- No run takes notice of an observation. -/
theorem observed (scope : Nat) (turn : (Site × Stmt) ⊕ Expr) {surveyed : Surveyed α} {run : Run α}
    (rest : Records surveyed run)
    : Records (do observe scope turn; surveyed) run :=
  fun survey => rest { survey with moments := survey.moments ++ [⟨scope, turn, survey.chart⟩] }

/-- Making a scope for a site makes the scope. -/
theorem addScope (site : Site) (parent : Nat)
    : Records (Surveyed.addScope site parent) (Run.addScope parent) :=
  fun _ => rfl

/-- Making a function for a site makes the function. -/
theorem addFunction (site : Site) (name : String) (closure : Closure)
    : Records (Surveyed.addFunction site name closure) (Run.addFunction name closure) :=
  fun _ => rfl

/-- Surveyed values in turn record those values, by induction on the items. -/
theorem mapM {γ : Type} {step : γ → Surveyed α} {step' : γ → Run α}
    (each : ∀ item, Records (step item) (step' item)) (items : List γ)
    : Records (items.mapM step) (items.mapM step') := by
  induction items with
  | nil => exact .pure []
  | cons item rest ih =>
      rw [List.mapM_cons, List.mapM_cons]
      exact (each item).bind fun value => ih.bind fun values => .pure (value :: values)

section Trees

variable {evaluate : Expr → Nat → Surveyed Value} {evaluate' : Expr → Nat → Run Value}
  {execute : Site → Stmt → Nat → Surveyed Unit} {execute' : Stmt → Nat → Run Unit}
  (evaluates : ∀ expr scope, Records (evaluate expr scope) (evaluate' expr scope))
  (executes : ∀ site stmt scope, Records (execute site stmt scope) (execute' stmt scope))

include executes

/-- Running a body with its sites runs the body, by induction on it; the index of a statement is
of no consequence to the run. -/
theorem runInside (site : Site) (body : List Stmt) (scope : Nat)
    : Records (Surveyed.runInside execute site body scope) (body.forM (execute' · scope)) := by
  unfold Surveyed.runInside
  generalize 0 = first
  induction body generalizing first with
  | nil => exact .pure ()
  | cons stmt rest ih => exact (executes (site.inner first) stmt scope).bind fun _ => ih (first + 1)

/-- Entering a closure at its site enters the closure. -/
theorem enter (site : Site) (closure : Closure) (arguments : List Value)
    : Records (Surveyed.enter execute site closure arguments)
        (Run.enter execute' closure arguments) := by
  refine (addScope site closure.scope).bind fun scope => ?_
  refine (lift (Run.bindParams scope closure.params arguments)).bind fun _ => ?_
  exact runInside executes site closure.body scope

/-- A surveyed call records the call: the site of the closure is looked up and nothing else
depends on it. -/
theorem call (callee : Value) (arguments : List Value) (paren : Token)
    : Records (Surveyed.call execute callee arguments paren)
        (Run.call execute' callee arguments paren) := by
  refine ofLook fun chart => ?_
  cases chart.world.function? callee with
  | none => exact lift _
  | some made =>
      obtain ⟨ref, closure⟩ := made
      by_cases fits : closure.params.length = arguments.length
      · simp only [if_pos fits]
        refine (lift (Run.note (.called ref.name arguments))).bind fun _ => ?_
        refine (enter executes (chart.functions ref.key) closure arguments).bind fun _ => ?_
        exact .pure Value.nil
      · simp only [if_neg fits]
        exact lift _

include evaluates

/-- A surveyed expression records the expression, by cases on it. -/
theorem evaluateWith (expr : Expr) (scope : Nat)
    : Records (Surveyed.evaluateWith evaluate execute expr scope)
        (Run.evaluateWith evaluate' execute' expr scope) := by
  cases expr with
  | literal value => exact .pure value
  | grouping inner => exact evaluates inner scope
  | reference name => exact lift (Run.lookUp name scope)
  | assign name initial =>
      refine (evaluates initial scope).bind fun value => ?_
      refine (lift (Run.assign name value scope)).bind fun _ => ?_
      exact .pure value
  | unary operator operand =>
      refine (evaluates operand scope).bind fun value => ?_
      exact lift (Run.ofExcept (operator.applyUnary value))
  | binary left operator right =>
      refine (evaluates left scope).bind fun first => ?_
      refine (evaluates right scope).bind fun second => ?_
      exact lift (Run.ofExcept (operator.applyBinary first second))
  | call callee paren arguments =>
      refine (evaluates callee scope).bind fun callee => ?_
      refine (mapM (evaluates · scope) arguments).bind fun values => ?_
      exact call executes callee values paren

/-- A surveyed statement records the statement, by cases on it. -/
theorem executeWith (site : Site) (stmt : Stmt) (scope : Nat)
    : Records (Surveyed.executeWith evaluate execute site stmt scope)
        (Run.executeWith evaluate' execute' stmt scope) := by
  unfold Surveyed.executeWith Run.executeWith
  have announced : Records (announce site stmt scope) (Run.note (.executing stmt.form)) :=
    observed scope (.inl (site, stmt)) (lift _)
  refine announced.bind fun _ => ?_
  cases stmt with
  | expression expr => exact (evaluates expr scope).bind fun _ => .pure ()
  | print expr =>
      refine (evaluates expr scope).bind fun value => ?_
      exact lift (Run.print (value.display ++ "\n"))
  | declare name initial =>
      have evaluated : Records (initial.elim (Pure.pure .nil) (evaluate · scope))
          (initial.elim (Pure.pure .nil) (evaluate' · scope)) := by
        cases initial with
        | none => exact .pure Value.nil
        | some expr => exact evaluates expr scope
      refine evaluated.bind fun value => ?_
      refine (lift (Run.define scope name.lexeme value)).bind fun _ => ?_
      exact lift (Run.note (.declared name.lexeme value))
  | function name params body =>
      refine (addFunction site name.lexeme ⟨params, body, scope⟩).bind fun ref => ?_
      refine (lift (Run.define scope name.lexeme (.function ref))).bind fun _ => ?_
      exact lift (Run.note (.definedFunction name.lexeme ref.arity))
  | block body =>
      refine (addScope site scope).bind fun inner => ?_
      refine ofLook fun chart => ?_
      refine (lift (Run.note (.enteredBlock _))).bind fun _ => ?_
      refine (runInside executes site body inner).bind fun _ => ?_
      exact lift (Run.note (.leftBlock _))

end Trees

end Records

/-- Limited evaluation is surveyed as it goes on without a survey. By induction on the limit. -/
theorem records (limit : Nat)
    : (∀ expr scope, Records (evaluate limit expr scope) (Run.evaluate limit expr scope))
      ∧ ∀ site stmt scope, Records (execute limit site stmt scope)
          (Run.execute limit stmt scope) := by
  induction limit with
  | zero => exact ⟨fun _ _ => .lift _, fun _ _ _ => .lift _⟩
  | succ limit ih =>
      constructor
      · intro expr scope
        exact .observed scope (.inr expr) (.evaluateWith ih.1 ih.2 expr scope)
      · intro site stmt scope
        exact .executeWith ih.1 ih.2 site stmt scope

/-- A survey of a program is one of its run. -/
theorem records_program (limit text : Nat) (statements : List Stmt) (scope : Nat)
    : Records (program limit text statements scope) (Run.program limit statements scope) :=
  .runInside (records limit).2 ⟨text, []⟩ statements scope

end Surveyed

end Sprig
