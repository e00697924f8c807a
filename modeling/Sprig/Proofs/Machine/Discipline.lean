import Sprig.Proofs.Machine.Simulation
import Sprig.Proofs.Machine.Watched
import Sprig.Proofs.Tree.Parts

/-! Disciplines: what a program is held to from its first step to its last, however it ends. It
is enough to say what every single change of the world keeps; the induction over nested
evaluations, calls and halts is made once, here.
-/

namespace Sprig

-- Forest and functions after a change of the world

namespace World

variable (world : World)

@[simp] theorem forest_record (event : TraceEvent)
    : (world.record event).forest = world.forest := by
  unfold record
  split <;> rfl

@[simp] theorem functions_record (event : TraceEvent)
    : (world.record event).functions = world.functions := by
  unfold record
  split <;> rfl

@[simp] theorem forest_print (text : String) : (world.print text).forest = world.forest := rfl

@[simp] theorem functions_print (text : String)
    : (world.print text).functions = world.functions := rfl

@[simp] theorem forest_define (scope : Nat) (name : String) (value : Value)
    : (world.define scope name value).forest = world.forest.define scope name value := rfl

@[simp] theorem functions_define (scope : Nat) (name : String) (value : Value)
    : (world.define scope name value).functions = world.functions := rfl

@[simp] theorem forest_addScope (parent : Option Nat)
    : (world.addScope parent).2.forest = world.forest.addScope parent := rfl

@[simp] theorem functions_addScope (parent : Option Nat)
    : (world.addScope parent).2.functions = world.functions := rfl

@[simp] theorem forest_addFunction (name : String) (closure : Closure)
    : (world.addFunction name closure).2.forest = world.forest := rfl

@[simp] theorem functions_addFunction (name : String) (closure : Closure)
    : (world.addFunction name closure).2.functions = world.functions.push closure := rfl

end World

/-- Binds parameters to arguments in order. -/
def World.bindParams (scope : Nat) (params : List Token) (arguments : List Value) (world : World)
    : World :=
  (params.zip arguments).foldl (fun world pair => world.define scope pair.1.lexeme pair.2) world

/-- What holds of a world and is kept by binding each argument holds once the parameters are
bound. -/
theorem World.bindParams_induction (holds : World → Prop) {scope : Nat} {params : List Token}
    {arguments : List Value} {world : World} (start : holds world)
    (step : ∀ world name, ∀ argument ∈ arguments, holds world →
      holds (world.define scope name argument))
    : holds (world.bindParams scope params arguments) := by
  unfold World.bindParams
  have listed (pair : Token × Value) (member : pair ∈ params.zip arguments)
      : pair.2 ∈ arguments := (List.of_mem_zip member).2
  generalize params.zip arguments = pairs at listed
  induction pairs generalizing world with
  | nil => exact start
  | cons pair rest ih =>
      obtain ⟨first, others⟩ := List.forall_mem_cons.mp listed
      exact ih (step world pair.1.lexeme pair.2 first start) others

/-- Binding parameters makes no function. -/
@[simp] theorem World.functions_bindParams (scope : Nat) (params : List Token)
    (arguments : List Value) (world : World)
    : (world.bindParams scope params arguments).functions = world.functions :=
  bindParams_induction (·.functions = world.functions) rfl fun _ _ _ _ same => same

/-- Binding parameters in a run never fails and changes the world as `World.bindParams` does, by
induction on the pairs. -/
theorem Run.run_bindParams (scope : Nat) (params : List Token) (arguments : List Value)
    (world : World)
    : (Run.bindParams scope params arguments).run.run world
      = (.ok (), world.bindParams scope params arguments) := by
  unfold Run.bindParams World.bindParams
  induction params.zip arguments generalizing world with
  | nil => rfl
  | cons pair rest ih => exact ih (world.define scope pair.1.lexeme pair.2)

/-- A call runs the body of the function once the new scope is ready. -/
theorem Run.run_enter (execute : Stmt → Nat → Run Unit) (closure : Closure)
    (arguments : List Value) (world : World)
    : (Run.enter execute closure arguments).run.run world
      = (closure.body.forM (execute · world.forest.nextId)).run.run
          ((world.addScope (some closure.scope)).2.bindParams world.forest.nextId closure.params
            arguments) := by
  have added : (Run.addScope closure.scope).run.run world
      = (.ok world.forest.nextId, (world.addScope (some closure.scope)).2) := rfl
  rw [Run.enter, Run.run_bind, added]
  simp only [Run.run_bind, Run.run_bindParams]

/-- Constants are data, by looking through them. -/
theorem isData_of_lookup {name : String} {value : Value}
    (found : constants.lookup name = some value)
    : value.isData := by
  obtain ⟨before, after, divided, _⟩ := List.lookup_eq_some_iff.mp found
  have listed : (name, value) ∈ constants := by
    rw [divided]
    simp
  simp only [constants, List.mem_cons, Prod.mk.injEq, List.not_mem_nil, or_false] at listed
  rcases listed with ⟨_, rfl⟩ | ⟨_, rfl⟩ | ⟨_, rfl⟩ <;> rfl

namespace World

variable {world : World} {scope : Nat} {name : String} {value : Value}

/-- What a name stands for is a constant or bound in a scope. -/
theorem value?_eq_some (found : world.value? scope name = some value)
    : value.isData ∨ world.forest.get? scope name = some value := by
  have bound := (Option.filter_eq_some_iff.mp found).1
  cases isConstant : constants.lookup name with
  | some constant =>
      rw [isConstant, Option.some_or] at bound
      exact .inl (Option.some.inj bound ▸ isData_of_lookup isConstant)
  | none =>
      rw [isConstant, Option.none_or] at bound
      exact .inr bound

/-- A name that stands for nothing is no constant, and no scope binds it to a value. -/
theorem value?_eq_none (free : world.value? scope name = none)
    : constants.lookup name = none
      ∧ (world.forest.get? scope name).filter (· ≠ .absent) = none := by
  cases isConstant : constants.lookup name with
  | some constant =>
      have data : constant.isData := isData_of_lookup isConstant
      have absent : constant = .absent := by simpa [value?, isConstant] using free
      simp [absent, Value.isData] at data
  | none => exact ⟨rfl, by simpa only [value?, isConstant, Option.none_or] using free⟩

/-- What a value stands for is the function under its key. -/
theorem function?_eq_some {ref : FunctionRef} {closure : Closure}
    (made : world.function? value = some (ref, closure))
    : value = .function ref ∧ world.functions[ref.key]? = some closure := by
  cases value with
  | function held =>
      obtain ⟨found, isFunction, same⟩ := Option.map_eq_some_iff.mp made
      obtain ⟨rfl, rfl⟩ := Prod.mk.inj same
      exact ⟨rfl, isFunction⟩
  | nil | boolean _ | number _ | text _ | absent => simp [function?] at made

end World

/-- What a program is held to. A state is a world in order, with whatever else is known of it. -/
structure Discipline where
  State : Type
  world : State → World
  /-- The second state is at the same point of a run as the first, or at a later one. -/
  leads : State → State → Prop
  mayHold : State → Value → Prop
  /-- The expression may be evaluated in the scope. -/
  mayEvaluate : State → Nat → Expr → Prop
  /-- The statements may be run in the scope, one after the other. -/
  mayRun : State → Nat → List Stmt → Prop
  mayHalt : Halt → Prop
  leads_refl : ∀ state, leads state state
  leads_trans : ∀ {first second third}, leads first second → leads second third →
    leads first third
  hold_later : ∀ {state later value}, leads state later → mayHold state value →
    mayHold later value
  evaluate_later : ∀ {state later scope expr}, leads state later →
    mayEvaluate state scope expr → mayEvaluate later scope expr
  run_later : ∀ {state later scope stmts}, leads state later → mayRun state scope stmts →
    mayRun later scope stmts
  -- What is told to the outside
  record : ∀ state event, ∃ later, world later = (world state).record event ∧ leads state later
  print : ∀ state text, ∃ later, world later = (world state).print text ∧ leads state later
  -- Expressions
  data : ∀ {state} {value : Value}, value.isData → mayHold state value
  literal : ∀ {state scope value}, mayEvaluate state scope (.literal value) →
    mayHold state value
  operand : ∀ {state scope expr operand}, mayEvaluate state scope expr →
    operand ∈ expr.operands → mayEvaluate state scope operand
  found : ∀ {state scope value} {name : Token}, mayEvaluate state scope (.reference name) →
    (world state).forest.get? scope name.lexeme = some value → mayHold state value
  assign : ∀ {state scope value owner initial} {name : Token},
    mayEvaluate state scope (.assign name initial) → mayHold state value →
    (world state).forest.owner? scope name.lexeme = some owner →
    ∃ later, world later = (world state).define owner name.lexeme value ∧ leads state later
  /-- The body of a function is run in a new scope that binds its parameters. -/
  enter : ∀ {state ref closure} {arguments : List Value}, mayHold state (.function ref) →
    (∀ argument ∈ arguments, mayHold state argument) →
    closure.params.length = arguments.length → (world state).functions[ref.key]? = some closure →
    ∃ later, world later = ((world state).addScope (some closure.scope)).2.bindParams
        (world state).forest.nextId closure.params arguments
      ∧ leads state later ∧ mayRun later (world state).forest.nextId closure.body
  -- Statements
  part : ∀ {state scope stmt rest expr}, mayRun state scope (stmt :: rest) →
    expr ∈ stmt.exprs → mayEvaluate state scope expr
  next : ∀ {state scope stmt rest}, mayRun state scope (stmt :: rest) →
    stmt.declared? = none → mayRun state scope rest
  declare : ∀ {state scope initial rest value} {name : Token},
    mayRun state scope (.declare name initial :: rest) → mayHold state value →
    ∃ later, world later = (world state).define scope name.lexeme value
      ∧ leads state later ∧ mayRun later scope rest
  function : ∀ {state scope params body rest} {name : Token},
    mayRun state scope (.function name params body :: rest) →
    ∃ later, world later = ((world state).addFunction name.lexeme ⟨params, body, scope⟩).2.define
        scope name.lexeme
        (.function ((world state).addFunction name.lexeme ⟨params, body, scope⟩).1)
      ∧ leads state later ∧ mayRun later scope rest
  block : ∀ {state scope body rest}, mayRun state scope (.block body :: rest) →
    ∃ later, world later = ((world state).addScope (some scope)).2
      ∧ leads state later ∧ mayRun later (world state).forest.nextId body
  -- Halts
  tooDeep : mayHalt .tooDeep := by intros; trivial
  notFound : ∀ {state scope} {name : Token}, mayEvaluate state scope (.reference name) →
    constants.lookup name.lexeme = none →
    ((world state).forest.get? scope name.lexeme).filter (· ≠ .absent) = none →
    mayHalt (.failed ⟨.undefinedVariable name.lexeme, name⟩) := by intros; trivial
  notOwned : ∀ {state scope initial} {name : Token},
    mayEvaluate state scope (.assign name initial) →
    (world state).forest.owner? scope name.lexeme = none →
    mayHalt (.failed ⟨.undefinedVariable name.lexeme, name⟩) := by intros; trivial
  unary : ∀ {state scope operator operand value halt},
    mayEvaluate state scope (.unary operator operand) →
    operator.applyUnary value = .error halt → mayHalt halt := by intros; trivial
  binary : ∀ {state scope left operator right first second halt},
    mayEvaluate state scope (.binary left operator right) →
    operator.applyBinary first second = .error halt → mayHalt halt := by intros; trivial
  notCallable : ∀ {state scope callee paren arguments} (type : ValueType),
    mayEvaluate state scope (.call callee paren arguments) →
    mayHalt (.failed ⟨.notCallable type, paren⟩) := by intros; trivial
  wrongArity : ∀ {state scope callee paren arguments} (name : String) (expected given : Nat),
    mayEvaluate state scope (.call callee paren arguments) →
    mayHalt (.failed ⟨.wrongArity name expected given, paren⟩) := by intros; trivial

namespace Discipline

variable {discipline : Discipline} {α β : Type}

/-- The watch does nothing at the moments that lead to a state. -/
structure Calm (discipline : Discipline) (watch : Watch) (last : discipline.State) : Prop where
  expr : ∀ state scope expr, discipline.leads state last →
    discipline.mayEvaluate state scope expr →
    Run.Silent (watch.expr expr scope) (discipline.world state)
  stmt : ∀ state scope stmt rest, discipline.leads state last →
    discipline.mayRun state scope (stmt :: rest) →
    Run.Silent (watch.stmt stmt scope) (discipline.world state)

/-- What is calm up to a state was calm up to an earlier one. -/
theorem Calm.earlier {watch : Watch} {state last : discipline.State}
    (calm : discipline.Calm watch last) (leads : discipline.leads state last)
    : discipline.Calm watch state where
  expr := fun earlier scope expr before =>
    calm.expr earlier scope expr (discipline.leads_trans before leads)
  stmt := fun earlier scope stmt rest before =>
    calm.stmt earlier scope stmt rest (discipline.leads_trans before leads)

/-- A run takes one state to another, and so does the run under any watch that stays calm. -/
structure Passes (discipline : Discipline) (state later : discipline.State) (run : Run α)
    (watched : Watch → Run α) (result : Except Halt α) : Prop where
  leads : discipline.leads state later
  plain : run.run.run (discipline.world state) = (result, discipline.world later)
  watched : ∀ watch, discipline.Calm watch later →
    (watched watch).run.run (discipline.world state) = (result, discipline.world later)

/-- A run ends in a state of the discipline, with a value as promised or with a halt that is
allowed. -/
inductive Keeps (discipline : Discipline) (state : discipline.State) (run : Run α)
    (watched : Watch → Run α) (promised : discipline.State → α → Prop) : Prop where
  | value {later : discipline.State} {value : α} :
      discipline.Passes state later run watched (.ok value) → promised later value →
      Keeps discipline state run watched promised
  | halt {later : discipline.State} {halt : Halt} :
      discipline.Passes state later run watched (.error halt) → discipline.mayHalt halt →
      Keeps discipline state run watched promised

namespace Keeps

variable {state : discipline.State} {promised : discipline.State → α → Prop}
  {promised' : discipline.State → β → Prop}

/-- A value given back keeps every discipline. -/
theorem pure {value : α} (kept : promised state value)
    : discipline.Keeps state (Pure.pure value) (fun _ => Pure.pure value) promised :=
  .value ⟨discipline.leads_refl state, rfl, fun _ _ => rfl⟩ kept

/-- Halting keeps a discipline that allows it. -/
theorem halted {halt : Halt} (allowed : discipline.mayHalt halt)
    : discipline.Keeps state (Run.halt halt) (fun _ => Run.halt halt) promised :=
  .halt ⟨discipline.leads_refl state, rfl, fun _ _ => rfl⟩ allowed

/-- A sequence keeps a discipline if its parts do: the second starts in a state that the first
promised. -/
theorem bind {run : Run α} {watched : Watch → Run α} {next : α → Run β}
    {next' : Watch → α → Run β} (start : discipline.Keeps state run watched promised)
    (rest : ∀ later value, discipline.leads state later → promised later value →
      discipline.Keeps later (next value) (fun watch => next' watch value) promised')
    : discipline.Keeps state (run >>= next) (fun watch => watched watch >>= next' watch)
        promised' := by
  cases start with
  | halt passes allowed =>
      refine .halt ⟨passes.leads, ?_, ?_⟩ allowed
      · rw [Run.run_bind, passes.plain]
      · intro watch calm
        rw [Run.run_bind, passes.watched watch calm]
  | @value middle value passes kept =>
      -- both parts of the run lead to its end, so the watch is calm in both
      have joined {last : discipline.State} {result : Except Halt β}
          (after : discipline.Passes middle last (next value) (fun watch => next' watch value)
            result)
          : discipline.Passes state last (run >>= next) (fun watch => watched watch >>= next' watch)
              result := by
        refine ⟨discipline.leads_trans passes.leads after.leads, ?_, ?_⟩
        · rw [Run.run_bind, passes.plain]
          exact after.plain
        · intro watch calm
          rw [Run.run_bind, passes.watched watch (calm.earlier after.leads)]
          exact after.watched watch calm
      cases rest middle value passes.leads kept with
      | value after kept => exact .value (joined after) kept
      | halt after allowed => exact .halt (joined after) allowed

/-- A run that no watch is shown. -/
theorem ofStep {run : Run α} {after : World} {later : discipline.State} {value : α}
    (ends : run.run.run (discipline.world state) = (.ok value, after))
    (changed : discipline.world later = after) (leads : discipline.leads state later)
    (kept : promised later value)
    : discipline.Keeps state run (fun _ => run) promised := by
  rw [← changed] at ends
  exact .value ⟨leads, ends, fun _ _ => ends⟩ kept

/-- A run that goes on as another one does from a later state. -/
theorem goesOn {later : discipline.State} {run next : Run α} {watched next' : Watch → Run α}
    (rest : discipline.Keeps later next next' promised) (leads : discipline.leads state later)
    (plain : run.run.run (discipline.world state) = next.run.run (discipline.world later))
    (seen : ∀ watch, (watched watch).run.run (discipline.world state)
      = (next' watch).run.run (discipline.world later))
    : discipline.Keeps state run watched promised := by
  have joined {last : discipline.State} {result : Except Halt α}
      (passes : discipline.Passes later last next next' result)
      : discipline.Passes state last run watched result :=
    ⟨discipline.leads_trans leads passes.leads, plain.trans passes.plain,
      fun watch calm => (seen watch).trans (passes.watched watch calm)⟩
  cases rest with
  | value passes kept => exact .value (joined passes) kept
  | halt passes allowed => exact .halt (joined passes) allowed

/-- What a run sees of the world decides how it goes on. -/
theorem ofGet {next : World → Run α} {next' : Watch → World → Run α}
    (rest : discipline.Keeps state (next (discipline.world state))
      (fun watch => next' watch (discipline.world state)) promised)
    : discipline.Keeps state (get >>= next) (fun watch => get >>= next' watch) promised :=
  goesOn rest (discipline.leads_refl state) rfl fun _ => rfl

/-- How a run ends that keeps to a discipline. -/
theorem ends {run : Run α} {watched : Watch → Run α}
    (kept : discipline.Keeps state run watched promised)
    : ∃ later, discipline.leads state later
      ∧ (run.run.run (discipline.world state)).2 = discipline.world later
      ∧ (∀ halt, (run.run.run (discipline.world state)).1 = .error halt →
          discipline.mayHalt halt)
      ∧ ∀ watch, discipline.Calm watch later →
          (watched watch).run.run (discipline.world state)
            = run.run.run (discipline.world state) := by
  cases kept with
  | value passes _ =>
      refine ⟨_, passes.leads, by rw [passes.plain], ?_, ?_⟩
      · intro halt halted
        rw [passes.plain] at halted
        simp at halted
      · intro watch calm
        rw [passes.watched watch calm, passes.plain]
  | halt passes allowed =>
      refine ⟨_, passes.leads, by rw [passes.plain], ?_, ?_⟩
      · intro halt halted
        rw [passes.plain] at halted
        exact Except.error.inj halted ▸ allowed
      · intro watch calm
        rw [passes.watched watch calm, passes.plain]

/-- A run may be watched from where it starts. -/
theorem observed {look : Watch → Run Unit} {run : Run α} {watched : Watch → Run α}
    (silent : ∀ watch last, discipline.leads state last → discipline.Calm watch last →
      Run.Silent (look watch) (discipline.world state))
    (kept : discipline.Keeps state run watched promised)
    : discipline.Keeps state run (fun watch => do look watch; watched watch) promised := by
  have looked {last : discipline.State} {result : Except Halt α}
      (passes : discipline.Passes state last run watched result)
      : discipline.Passes state last run (fun watch => do look watch; watched watch) result := by
    refine ⟨passes.leads, passes.plain, fun watch calm => ?_⟩
    rw [Run.run_bind, silent watch last passes.leads calm]
    exact passes.watched watch calm
  cases kept with
  | value passes kept => exact .value (looked passes) kept
  | halt passes allowed => exact .halt (looked passes) allowed

-- Single steps

/-- A note keeps the discipline, which has a state for every record. -/
theorem note (event : TraceEvent) {promised : discipline.State → Unit → Prop}
    (kept : ∀ later, discipline.leads state later → promised later ())
    : discipline.Keeps state (Run.note event) (fun _ => Run.note event) promised := by
  obtain ⟨later, changed, leads⟩ := discipline.record state event
  exact ofStep rfl changed leads (kept later leads)

/-- What follows a note starts from a world that differs in the trace alone. -/
theorem noted (event : TraceEvent) {next : Run α} {next' : Watch → Run α}
    (rest : ∀ later, discipline.world later = (discipline.world state).record event →
      discipline.leads state later → discipline.Keeps later next next' promised)
    : discipline.Keeps state (do Run.note event; next) (fun watch => do Run.note event; next' watch)
        promised := by
  obtain ⟨later, changed, leads⟩ := discipline.record state event
  refine goesOn (rest later changed leads) leads ?_ fun watch => ?_
  · rw [changed]
    rfl
  · rw [changed]
    rfl

/-- Printing keeps the discipline in the same way. -/
theorem print (text : String) {promised : discipline.State → Unit → Prop}
    (kept : ∀ later, discipline.leads state later → promised later ())
    : discipline.Keeps state (Run.print text) (fun _ => Run.print text) promised := by
  obtain ⟨later, changed, leads⟩ := discipline.print state text
  exact ofStep rfl changed leads (kept later leads)

/-- What is looked up may be held: a constant as a datum, a bound value by the discipline; a name
that has no value must be one that may be missing. -/
theorem lookUp {name : Token} {scope : Nat}
    (allowed : discipline.mayEvaluate state scope (.reference name))
    : discipline.Keeps state (Run.lookUp name scope) (fun _ => Run.lookUp name scope)
        discipline.mayHold := by
  refine ofGet ?_
  cases isBound : (discipline.world state).value? scope name.lexeme with
  | none =>
      obtain ⟨isConstant, isFree⟩ := World.value?_eq_none isBound
      exact halted (discipline.notFound allowed isConstant isFree)
  | some value =>
      rcases World.value?_eq_some isBound with data | isBound
      · exact pure (discipline.data data)
      · exact pure (discipline.found allowed isBound)

/-- An assignment is a definition in the owner, or halts on a name that may be missing. -/
theorem assign {name : Token} {initial : Expr} {value : Value} {scope : Nat}
    (allowed : discipline.mayEvaluate state scope (.assign name initial))
    (held : discipline.mayHold state value)
    : discipline.Keeps state (Run.assign name value scope) (fun _ => Run.assign name value scope)
        (fun later _ => discipline.mayHold later value) := by
  refine ofGet ?_
  rw [Forest.assign?]
  cases owns : (discipline.world state).forest.owner? scope name.lexeme with
  | none => exact halted (discipline.notOwned allowed owns)
  | some owner =>
      obtain ⟨later, changed, leads⟩ := discipline.assign allowed held owns
      exact ofStep rfl changed leads (discipline.hold_later leads held)

/-- A result that is there already keeps the discipline if it is a datum or may halt. -/
theorem ofExcept {result : Except Halt Value}
    (onValue : ∀ value, result = .ok value → value.isData)
    (onHalt : ∀ halt, result = .error halt → discipline.mayHalt halt)
    : discipline.Keeps state (Run.ofExcept result) (fun _ => Run.ofExcept result)
        discipline.mayHold := by
  cases result with
  | ok value => exact pure (discipline.data (onValue value rfl))
  | error halt => exact halted (onHalt halt rfl)

end Keeps

-- Trees

/-- Ways to run trees, plainly and under observation, that keep to a discipline. -/
structure Upholds (discipline : Discipline) (evaluate : Expr → Nat → Run Value)
    (evaluate' : Watch → Expr → Nat → Run Value) (execute : Stmt → Nat → Run Unit)
    (execute' : Watch → Stmt → Nat → Run Unit) : Prop where
  evaluates : ∀ state scope expr, discipline.mayEvaluate state scope expr →
    discipline.Keeps state (evaluate expr scope) (fun watch => evaluate' watch expr scope)
      discipline.mayHold
  executes : ∀ state scope stmt rest, discipline.mayRun state scope (stmt :: rest) →
    discipline.Keeps state (execute stmt scope) (fun watch => execute' watch stmt scope)
      (fun later _ => discipline.mayRun later scope rest)

namespace Upholds

variable {evaluate : Expr → Nat → Run Value} {evaluate' : Watch → Expr → Nat → Run Value}
  {execute : Stmt → Nat → Run Unit} {execute' : Watch → Stmt → Nat → Run Unit}
  (upholds : discipline.Upholds evaluate evaluate' execute execute')
  {state : discipline.State} {scope : Nat}

include upholds

/-- Statements in turn keep a discipline, by induction on them: each leaves a state in which the
rest may run. -/
theorem statements {stmts : List Stmt} (allowed : discipline.mayRun state scope stmts)
    : discipline.Keeps state (stmts.forM (execute · scope))
        (fun watch => stmts.forM (execute' watch · scope)) (fun _ _ => True) := by
  induction stmts generalizing state with
  | nil => exact .pure trivial
  | cons stmt rest ih =>
      refine (upholds.executes state scope stmt rest allowed).bind fun later _ _ allowed => ?_
      exact ih allowed

/-- The values of arguments may be held, by induction on the arguments; those that came first may
still be held. -/
theorem arguments {exprs : List Expr}
    (allowed : ∀ expr ∈ exprs, discipline.mayEvaluate state scope expr)
    : discipline.Keeps state (exprs.mapM (evaluate · scope))
        (fun watch => exprs.mapM (evaluate' watch · scope))
        (fun later values => ∀ value ∈ values, discipline.mayHold later value) := by
  induction exprs generalizing state with
  | nil => exact .pure (by simp)
  | cons expr rest ih =>
      obtain ⟨first, others⟩ := List.forall_mem_cons.mp allowed
      simp only [List.mapM_cons]
      refine (upholds.evaluates state scope expr first).bind fun middle value leads held => ?_
      refine (ih fun expr member => discipline.evaluate_later leads (others expr member)).bind
        fun later values leads holds => ?_
      exact .pure (List.forall_mem_cons.mpr ⟨discipline.hold_later leads held, holds⟩)

/-- Entering a closure that may be held keeps a discipline, which allows its body to run in the
scope made for it. -/
theorem enter {ref : FunctionRef} {closure : Closure} {arguments : List Value}
    (held : discipline.mayHold state (.function ref))
    (holds : ∀ argument ∈ arguments, discipline.mayHold state argument)
    (fits : closure.params.length = arguments.length)
    (isFunction : (discipline.world state).functions[ref.key]? = some closure)
    : discipline.Keeps state (Run.enter execute closure arguments)
        (fun watch => Run.enter (execute' watch) closure arguments) (fun _ _ => True) := by
  obtain ⟨later, changed, leads, allowed⟩ := discipline.enter held holds fits isFunction
  refine .goesOn (upholds.statements allowed) leads ?_ fun watch => ?_
  · rw [changed, Run.run_enter]
  · rw [changed, Run.run_enter]

/-- A call enters the closure of its callee, or halts for a reason that the call allows. -/
theorem call {callee : Value} {values : List Value} {expr : Expr} {paren : Token}
    {exprs : List Expr} (held : discipline.mayHold state callee)
    (holds : ∀ value ∈ values, discipline.mayHold state value)
    (allowed : discipline.mayEvaluate state scope (.call expr paren exprs))
    : discipline.Keeps state (Run.call execute callee values paren)
        (fun watch => Run.call (execute' watch) callee values paren) discipline.mayHold := by
  refine .ofGet ?_
  cases made : (discipline.world state).function? callee with
  | none => exact .halted (discipline.notCallable _ allowed)
  | some found =>
      obtain ⟨ref, closure⟩ := found
      obtain ⟨rfl, isFunction⟩ := World.function?_eq_some made
      by_cases fits : closure.params.length = values.length
      · simp only [if_pos fits]
        refine .noted _ fun later changed leads => ?_
        have stillFunction : (discipline.world later).functions[ref.key]? = some closure := by
          rw [changed, World.functions_record]
          exact isFunction
        have entered := upholds.enter (discipline.hold_later leads held)
          (fun value member => discipline.hold_later leads (holds value member)) fits
          stillFunction
        refine entered.bind fun last _ _ _ => ?_
        exact .pure (discipline.data rfl)
      · simp only [if_neg fits]
        exact .halted (discipline.wrongArity _ _ _ allowed)

/-- An expression that may be evaluated gives a value that may be held, by cases on it. -/
theorem evaluateWith {expr : Expr} (allowed : discipline.mayEvaluate state scope expr)
    : discipline.Keeps state (Run.evaluateWith evaluate execute expr scope)
        (fun watch => Run.evaluateWith (evaluate' watch) (execute' watch) expr scope)
        discipline.mayHold := by
  have evaluated {operand : Expr} (member : operand ∈ expr.operands) {later : discipline.State}
      (leads : discipline.leads state later)
      : discipline.Keeps later (evaluate operand scope)
          (fun watch => evaluate' watch operand scope) discipline.mayHold :=
    upholds.evaluates later scope operand
      (discipline.evaluate_later leads (discipline.operand allowed member))
  have started := discipline.leads_refl state
  cases expr with
  | literal value => exact .pure (discipline.literal allowed)
  | grouping inner => exact evaluated (by simp [Expr.operands]) started
  | reference name => exact .lookUp allowed
  | assign name initial =>
      refine (evaluated (by simp [Expr.operands]) started).bind fun later value leads held => ?_
      refine (Keeps.assign (discipline.evaluate_later leads allowed) held).bind
        fun last _ _ held => ?_
      exact .pure held
  | unary operator operand =>
      refine (evaluated (by simp [Expr.operands]) started).bind fun later value leads held => ?_
      exact .ofExcept (fun _ => Token.isData_applyUnary) fun _ => discipline.unary allowed
  | binary left operator right =>
      refine (evaluated (by simp [Expr.operands]) started).bind fun middle first leads _ => ?_
      refine (evaluated (by simp [Expr.operands]) leads).bind fun later second _ _ => ?_
      exact .ofExcept (fun _ => Token.isData_applyBinary) fun _ => discipline.binary allowed
  | call callee paren exprs =>
      refine (evaluated (by simp [Expr.operands]) started).bind fun middle callee leads held => ?_
      refine (upholds.arguments fun expr member => ?_).bind fun later values leads' holds => ?_
      -- the arguments are evaluated after the callee, in a state that it led to
      · exact discipline.evaluate_later leads
          (discipline.operand allowed (List.mem_cons_of_mem _ member))
      · exact upholds.call (discipline.hold_later leads' held) holds
          (discipline.evaluate_later (discipline.leads_trans leads leads') allowed)

/-- A statement that may run keeps the discipline and leaves a state in which the rest may run, by
cases on it. -/
theorem executeWith {stmt : Stmt} {rest : List Stmt}
    (allowed : discipline.mayRun state scope (stmt :: rest))
    : discipline.Keeps state (Run.executeWith evaluate execute stmt scope)
        (fun watch => Run.executeWith (evaluate' watch) (execute' watch) stmt scope)
        (fun later _ => discipline.mayRun later scope rest) := by
  unfold Run.executeWith
  refine .noted _ fun state _ leads => ?_
  replace allowed := discipline.run_later leads allowed
  have evaluated {expr : Expr} (member : expr ∈ stmt.exprs)
      : discipline.Keeps state (evaluate expr scope)
          (fun watch => evaluate' watch expr scope) discipline.mayHold :=
    upholds.evaluates state scope expr (discipline.part allowed member)
  cases stmt with
  | expression expr =>
      refine (evaluated (by simp [Stmt.exprs])).bind fun later _ leads _ => ?_
      exact .pure (discipline.run_later leads (discipline.next allowed rfl))
  | print expr =>
      refine (evaluated (by simp [Stmt.exprs])).bind fun later value leads _ => ?_
      refine .print _ fun last leads' => ?_
      exact discipline.run_later (discipline.leads_trans leads leads')
        (discipline.next allowed rfl)
  | declare name initial =>
      have initialized : discipline.Keeps state
          (initial.elim (pure .nil) (evaluate · scope))
          (fun watch => initial.elim (pure .nil) (evaluate' watch · scope)) discipline.mayHold := by
        cases initial with
        | none => exact .pure (discipline.data rfl)
        | some expr => exact evaluated (by simp [Stmt.exprs])
      refine initialized.bind fun middle value leads held => ?_
      obtain ⟨later, changed, leads', allowed⟩ :=
        discipline.declare (discipline.run_later leads allowed) held
      -- binding the name and noting it are one step to the discipline
      refine .goesOn (.note (.declared name.lexeme value) fun last leads => ?_) leads' ?_
        fun watch => ?_
      · exact discipline.run_later leads allowed
      · rw [changed]
        rfl
      · rw [changed]
        rfl
  | function name params body =>
      obtain ⟨later, changed, leads, allowed⟩ := discipline.function allowed
      refine .goesOn (.note (.definedFunction name.lexeme params.length) fun last leads => ?_)
        leads ?_ fun watch => ?_
      · exact discipline.run_later leads allowed
      · rw [changed]
        rfl
      · rw [changed]
        rfl
  | block body =>
      -- the statements after the block are allowed now, and every state inside the block leads on
      -- from this one
      have afterwards := discipline.next allowed rfl
      obtain ⟨opened, changed, leads, inside⟩ := discipline.block allowed
      have entered (depth : Nat) : discipline.Keeps opened
          (do
            Run.note (.enteredBlock depth)
            body.forM (execute · (discipline.world state).forest.nextId)
            Run.note (.leftBlock depth))
          (fun watch => do
            Run.note (.enteredBlock depth)
            body.forM (execute' watch · (discipline.world state).forest.nextId)
            Run.note (.leftBlock depth))
          (fun later _ => discipline.mayRun later scope rest) := by
        refine .noted _ fun first _ toFirst => ?_
        refine (upholds.statements (discipline.run_later toFirst inside)).bind
          fun done _ toDone _ => ?_
        refine .note _ fun last toLast => ?_
        exact discipline.run_later toLast (discipline.run_later toDone
          (discipline.run_later toFirst (discipline.run_later leads afterwards)))
      refine .goesOn (entered ((discipline.world opened).forest.depth
        (discipline.world state).forest.nextId)) leads ?_ fun watch => ?_
      · rw [changed]
        rfl
      · rw [changed]
        rfl

end Upholds

/-- Limited evaluation keeps to every discipline. By induction on the limit; a call goes on with a
lower limit like any other part of a tree. -/
theorem upholds (discipline : Discipline) (limit : Nat)
    : discipline.Upholds (Run.evaluate limit) (Run.evaluateWatched · limit) (Run.execute limit)
        (Run.executeWatched · limit) := by
  induction limit with
  | zero =>
      constructor
      · intro state scope expr _
        exact .halted discipline.tooDeep
      · intro state scope stmt rest _
        exact .halted discipline.tooDeep
  | succ limit ih =>
      constructor
      · intro state scope expr allowed
        refine .observed (fun watch last leads calm => ?_) (ih.evaluateWith allowed)
        exact calm.expr state scope expr leads allowed
      · intro state scope stmt rest allowed
        refine .observed (fun watch last leads calm => ?_) (ih.executeWith allowed)
        exact calm.stmt state scope stmt rest leads allowed

/-- A program ends in a state of the discipline, and whenever it evaluates an expression or runs
a statement, it is in a state that leads there and allows this. -/
theorem program (discipline : Discipline) (limit : Nat) {state : discipline.State} {scope : Nat}
    {stmts : List Stmt} (allowed : discipline.mayRun state scope stmts)
    : ∃ last, discipline.leads state last
      ∧ ((Run.program limit stmts scope).run.run (discipline.world state)).2
        = discipline.world last
      ∧ (∀ halt, ((Run.program limit stmts scope).run.run (discipline.world state)).1
          = .error halt → discipline.mayHalt halt)
      ∧ Run.Throughout limit stmts scope (discipline.world state)
          (fun expr scope world => ∃ moment, discipline.world moment = world
            ∧ discipline.leads moment last ∧ discipline.mayEvaluate moment scope expr)
          (fun stmt scope world => ∃ moment rest, discipline.world moment = world
            ∧ discipline.leads moment last ∧ discipline.mayRun moment scope (stmt :: rest)) := by
  obtain ⟨last, leads, ends, halts, watched⟩ :=
    ((discipline.upholds limit).statements allowed).ends
  refine ⟨last, leads, ends, halts, ?_⟩
  intro watch onExpr onStmt
  refine watched watch ⟨?_, ?_⟩
  · intro moment scope expr leads allowed
    exact onExpr expr scope _ ⟨moment, rfl, leads, allowed⟩
  · intro moment scope stmt rest leads allowed
    exact onStmt stmt scope _ ⟨moment, rest, rfl, leads, allowed⟩

end Discipline

end Sprig
