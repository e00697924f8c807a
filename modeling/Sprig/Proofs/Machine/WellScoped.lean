import Sprig.Proofs.Machine.Sessions

/-! Programs that declare before they use never meet an undefined name. A function keeps the promise
that was made when it was declared: from its scope the names that its body needs can be seen, at
whatever time and from wherever it is called.
-/

namespace Sprig

-- Well scoped trees

/-- The name that an expression itself asks the scopes for. -/
def Expr.name? : Expr → Option String
  | .reference name => if (constants.lookup name.lexeme).isNone then some name.lexeme else none
  | .assign name _ => some name.lexeme
  | _ => none

/-- The names that are used in an expression. -/
def Expr.uses (expr : Expr) : List String :=
  expr.parts.filterMap Expr.name?

/-- The names that an operand uses are used by the expression. -/
theorem Expr.uses_subset_of_mem_operands {expr operand : Expr} (member : operand ∈ expr.operands)
    : operand.uses ⊆ expr.uses := by
  intro name used
  obtain ⟨part, inside, isName⟩ := List.mem_filterMap.mp used
  exact List.mem_filterMap.mpr ⟨part, parts_subset_of_mem_operands member inside, isName⟩

/-- The name of a reference or an assignment is used by it. -/
theorem Expr.mem_uses_of_name? {expr : Expr} {name : String} (isName : expr.name? = some name)
    : name ∈ expr.uses :=
  List.mem_filterMap.mpr ⟨expr, expr.mem_parts_self, isName⟩

mutual

/-- Whether a statement uses only names that are visible, each declaration adding to what is
visible after it, and a function also to what is visible inside it. -/
def Stmt.isScoped (visible : List String) : Stmt → Bool
  | .expression expr | .print expr => expr.uses ⊆ visible
  | .declare _ initial => ∀ expr ∈ initial, expr.uses ⊆ visible
  | .block body => areScoped visible body
  | .function name params body =>
      areScoped (params.map Token.lexeme ++ name.lexeme :: visible) body

/-- Whether statements that follow each other use only visible names. -/
def Stmt.areScoped (visible : List String) : List Stmt → Bool
  | [] => true
  | stmt :: rest => stmt.isScoped visible && areScoped (stmt.declared?.toList ++ visible) rest

end

/-- The expressions of a well scoped statement use visible names only, by cases on the statement. -/
theorem Stmt.uses_subset_of_isScoped {stmt : Stmt} {visible : List String}
    (isScoped : stmt.isScoped visible) {expr : Expr} (member : expr ∈ stmt.exprs)
    : expr.uses ⊆ visible := by
  cases stmt with
  | expression _ | print _ =>
      simp only [exprs, List.mem_singleton] at member
      subst member
      simpa [Stmt.isScoped] using isScoped
  | declare _ initial =>
      simp only [Stmt.isScoped, decide_eq_true_eq] at isScoped
      exact isScoped expr (by simpa [exprs] using member)
  | block _ | function _ _ _ => simp [exprs] at member

-- Worlds

namespace World

/-- The names can be seen from a scope. -/
def Shows (world : World) (scope : Nat) (visible : List String) : Prop :=
  ∀ name ∈ visible, world.forest.contains scope name

/-- Names that a scope shows stay visible, since worlds only grow. -/
theorem Shows.later {world later : World} {scope : Nat} {visible : List String}
    (shows_ : world.Shows scope visible) (extends_ : world.Extends later)
    : later.Shows scope visible :=
  fun name member => extends_.contains (shows_ name member)

/-- A scope shows one more name that it sees. -/
theorem Shows.cons {world : World} {scope : Nat} {visible : List String} {name : String}
    (shows_ : world.Shows scope visible) (seen : world.forest.contains scope name)
    : world.Shows scope (name :: visible) :=
  List.forall_mem_cons.mpr ⟨seen, shows_⟩

/-- A declared name can be seen along with the others. -/
theorem Shows.define {world : World} {scope : Nat} {visible : List String}
    (shows_ : world.Shows scope visible) (exists_ : scope < world.forest.nextId) (name : String)
    (value : Value)
    : (world.define scope name value).Shows scope (name :: visible) :=
  (shows_.later (.define world scope name value)).cons
    (world.forest.contains_define_self exists_ name value)

/-- As many arguments as parameters make all parameters visible. -/
theorem shows_bindParams {world : World} {scope : Nat} (exists_ : scope < world.forest.nextId)
    {params : List Token} {arguments : List Value} (fits : params.length = arguments.length)
    : (world.bindParams scope params arguments).Shows scope (params.map Token.lexeme) := by
  induction params generalizing world arguments with
  | nil => simp [Shows]
  | cons param rest ih =>
      cases arguments with
      | nil => simp at fits
      | cons argument others =>
          let bound := world.define scope param.lexeme argument
          have still : scope < bound.forest.nextId := by simpa [bound] using exists_
          have first : bound.forest.contains scope param.lexeme :=
            world.forest.contains_define_self exists_ _ _
          have further : (bound.bindParams scope rest others).Shows scope (rest.map Token.lexeme) :=
            ih still (Nat.succ.inj fits)
          exact further.cons ((Extends.bindParams bound scope rest others).contains first)

/-- The body of a function uses its parameters and names that can be seen from its scope. -/
def Fits (world : World) (closure : Closure) : Prop :=
  (∀ stmt ∈ closure.body, stmt.hasValues)
  ∧ ∃ visible, world.Shows closure.scope visible
    ∧ Stmt.areScoped (closure.params.map Token.lexeme ++ visible) closure.body

/-- A closure that fits a world fits it later, since its scope still shows what its body needs. -/
theorem Fits.later {world later : World} {closure : Closure} (fits : world.Fits closure)
    (extends_ : world.Extends later)
    : later.Fits closure := by
  obtain ⟨valued, visible, shows_, isScoped⟩ := fits
  exact ⟨valued, visible, shows_.later extends_, isScoped⟩

/-- Names are bound to values, and every function can be run, whenever it is called. -/
structure IsReady (world : World) : Prop where
  valued : world.forest.Holds (fun _ => True) (· ≠ .absent)
  fits : ∀ closure ∈ world.functions, world.Fits closure

namespace IsReady

variable {world : World}

/-- A world stays ready while it grows, makes no function and holds values. -/
theorem change {later : World} (ready : world.IsReady) (extends_ : world.Extends later)
    (valued : later.forest.Holds (fun _ => True) (· ≠ .absent))
    (same : later.functions = world.functions)
    : later.IsReady := by
  refine ⟨valued, fun closure member => ?_⟩
  rw [same] at member
  exact (ready.fits closure member).later extends_

/-- Defining a value keeps a world ready. -/
theorem define (ready : world.IsReady) {value : Value} (isValue : value ≠ .absent) (scope : Nat)
    (name : String)
    : (world.define scope name value).IsReady :=
  ready.change (.define world scope name value) (ready.valued.define isValue scope name) rfl

/-- Making a scope keeps a world ready. -/
theorem addScope (ready : world.IsReady) (parent : Option Nat)
    : (world.addScope parent).2.IsReady :=
  ready.change (.addScope world parent) (ready.valued.addScope parent) rfl

/-- Binding values to parameters keeps a world ready, one definition after the other. -/
theorem bindParams (ready : world.IsReady) (scope : Nat) (params : List Token)
    {arguments : List Value} (areValues : ∀ argument ∈ arguments, argument ≠ .absent)
    : (world.bindParams scope params arguments).IsReady :=
  bindParams_induction (·.IsReady) ready fun _ name argument member ready =>
    ready.define (areValues argument member) scope name

end IsReady

end World

-- Runs

/-- Whether a run ended at a name that is not defined. -/
def Halt.isUndefined : Halt → Bool
  | failed error => error.fault.isUndefined
  | unsupportedUnary _ | unsupportedBinary _ | tooDeep => false

/-- No unary sign finds a name undefined. -/
theorem Token.isUndefined_applyUnary {token : Token} {operand : Value} {halt : Halt}
    (applied : token.applyUnary operand = .error halt)
    : halt.isUndefined = false := by
  rcases applyUnary_eq_error applied with ⟨_, _, _, failed, rfl⟩ | ⟨_, rfl⟩
  · exact UnaryOperator.isUndefined_apply failed
  · rfl

/-- No binary sign finds a name undefined. -/
theorem Token.isUndefined_applyBinary {token : Token} {left right : Value} {halt : Halt}
    (applied : token.applyBinary left right = .error halt)
    : halt.isUndefined = false := by
  rcases applyBinary_eq_error applied with ⟨_, _, _, failed, rfl⟩ | ⟨_, rfl⟩
  · exact BinaryOperator.isUndefined_apply failed
  · rfl

/-- The statements are well scoped, given what can be seen from the scope. -/
structure World.MayRun (world : World) (scope : Nat) (stmts : List Stmt) : Prop where
  exists_ : scope < world.forest.nextId
  valued : ∀ stmt ∈ stmts, stmt.hasValues
  isScoped : ∃ visible, world.Shows scope visible ∧ Stmt.areScoped visible stmts

/-- Every name that is used can be seen. -/
def Discipline.wellScoped : Discipline where
  State := { world : World // world.IsReady }
  world := Subtype.val
  leads := fun state later => state.val.Extends later.val
  mayHold := fun _ value => value ≠ .absent
  mayEvaluate := fun state scope expr => expr.hasValues ∧ state.val.Shows scope expr.uses
  mayRun := fun state scope stmts => state.val.MayRun scope stmts
  mayHalt := fun halt => halt.isUndefined = false
  leads_refl := fun state => .of_same rfl rfl
  leads_trans := fun early late => early.trans late
  hold_later := fun _ held => held
  evaluate_later := fun extends_ allowed => ⟨allowed.1, allowed.2.later extends_⟩
  run_later := by
    intro state later scope stmts extends_ ⟨exists_, valued, visible, shows_, isScoped⟩
    exact ⟨Nat.lt_of_lt_of_le exists_ extends_.scopes, valued, visible, shows_.later extends_,
      isScoped⟩
  record := by
    intro state event
    have extends_ : state.val.Extends (state.val.record event) := .of_same (by simp) (by simp)
    have valued := state.property.valued
    rw [← World.forest_record _ event] at valued
    exact ⟨⟨_, state.property.change extends_ valued (by simp)⟩, rfl, extends_⟩
  print := by
    intro state text
    have extends_ : state.val.Extends (state.val.print text) := .of_same rfl rfl
    exact ⟨⟨_, state.property.change extends_ state.property.valued rfl⟩, rfl, extends_⟩
  data := fun data => Value.ne_absent_of_isData data
  literal := fun allowed => by simpa using Expr.passes_of_literalsPass allowed.1
  operand := by
    intro state scope expr operand allowed member
    exact ⟨Expr.literalsPass_operand allowed.1 member, fun name used =>
      allowed.2 name (Expr.uses_subset_of_mem_operands member used)⟩
  found := fun {state} _ _ _ _ found => state.property.valued.get? (fun _ _ => trivial) found
  assign := by
    intro state scope value owner initial name _ held _
    exact ⟨⟨_, state.property.define held owner name.lexeme⟩, rfl, .define ..⟩
  enter := by
    intro state ref closure arguments _ holds fits isFunction
    obtain ⟨valued, visible, shows_, isScoped⟩ :=
      state.property.fits closure (Array.mem_of_getElem? isFunction)
    let opened := (state.val.addScope (some closure.scope)).2
    have toOpened : state.val.Extends opened := .addScope state.val (some closure.scope)
    have exists_ : state.val.forest.nextId < opened.forest.nextId := by simp [opened]
    have inner : opened.Shows state.val.forest.nextId visible := fun name member =>
      state.val.forest.contains_addScope_nextId (shows_ name member)
    have bound : opened.Extends _ :=
      .bindParams opened state.val.forest.nextId closure.params arguments
    have ready := (state.property.addScope (some closure.scope)).bindParams
      state.val.forest.nextId closure.params holds
    refine ⟨⟨_, ready⟩, rfl, toOpened.trans bound, ?_⟩
    refine ⟨Nat.lt_of_lt_of_le exists_ bound.scopes, valued, _, ?_, isScoped⟩
    exact List.forall_mem_append.mpr
      ⟨World.shows_bindParams exists_ fits, inner.later bound⟩
  part := by
    intro state scope stmt rest expr allowed member
    obtain ⟨_, valued, visible, shows_, isScoped⟩ := allowed
    simp only [Stmt.areScoped, Bool.and_eq_true] at isScoped
    have first := (List.forall_mem_cons.mp valued).1
    exact ⟨((Stmt.literalsPass_iff _).mp first).1 expr member, fun name used =>
      shows_ name (Stmt.uses_subset_of_isScoped isScoped.1 member used)⟩
  next := by
    intro state scope stmt rest allowed declares
    obtain ⟨exists_, valued, visible, shows_, isScoped⟩ := allowed
    simp only [Stmt.areScoped, declares, Bool.and_eq_true] at isScoped
    exact ⟨exists_, (List.forall_mem_cons.mp valued).2, visible, shows_, isScoped.2⟩
  declare := by
    intro state scope initial rest value name allowed held
    obtain ⟨exists_, valued, visible, shows_, isScoped⟩ := allowed
    simp only [Stmt.areScoped, Bool.and_eq_true] at isScoped
    refine ⟨⟨_, state.property.define held scope name.lexeme⟩, rfl, .define .., ?_⟩
    exact ⟨by simpa using exists_, (List.forall_mem_cons.mp valued).2, _,
      shows_.define exists_ name.lexeme value, isScoped.2⟩
  function := by
    intro state scope params body rest name allowed
    obtain ⟨exists_, valued, visible, shows_, isScoped⟩ := allowed
    obtain ⟨first, others⟩ := List.forall_mem_cons.mp valued
    simp only [Stmt.areScoped, Stmt.isScoped, Bool.and_eq_true] at isScoped
    have made : state.val.Extends _ := .addFunction state.val name.lexeme ⟨params, body, scope⟩
    have seen := (shows_.later made).define exists_ name.lexeme
      (.function (state.val.addFunction name.lexeme ⟨params, body, scope⟩).1)
    have extends_ := made.trans (.define _ scope name.lexeme
      (.function (state.val.addFunction name.lexeme ⟨params, body, scope⟩).1))
    refine ⟨⟨_, ?_, ?_⟩, rfl, extends_, Nat.lt_of_lt_of_le exists_ extends_.scopes, others, _, seen,
      isScoped.2⟩
    · exact state.property.valued.define (by simp) scope name.lexeme
    · intro closure member
      rcases Array.mem_push.mp member with member | rfl
      · exact (state.property.fits closure member).later extends_
      · exact ⟨((Stmt.literalsPass_iff _).mp first).2, _, seen, isScoped.1⟩
  block := by
    intro state scope body rest allowed
    obtain ⟨exists_, valued, visible, shows_, isScoped⟩ := allowed
    simp only [Stmt.areScoped, Stmt.isScoped, Bool.and_eq_true] at isScoped
    refine ⟨⟨_, state.property.addScope (some scope)⟩, rfl, .addScope .., ?_⟩
    have inside := ((Stmt.literalsPass_iff _).mp (List.forall_mem_cons.mp valued).1).2
    refine ⟨by simp, inside, visible, ?_, isScoped.1⟩
    intro seen member
    exact state.val.forest.contains_addScope_nextId (shows_ seen member)
  tooDeep := rfl
  notFound := by
    intro state scope name allowed notConstant notFound
    have isName : (Expr.reference name).name? = some name.lexeme := by
      simp [Expr.name?, notConstant]
    obtain ⟨value, found⟩ := state.val.forest.exists_get?_of_contains
      (allowed.2 _ (Expr.mem_uses_of_name? isName))
    have isValue : value ≠ .absent := state.property.valued.get? (fun _ _ => trivial) found
    simp [found, isValue] at notFound
  notOwned := by
    intro state scope initial name allowed notOwned
    have seen := allowed.2 _ (Expr.mem_uses_of_name? rfl)
    simp [Forest.contains, notOwned] at seen
  unary := fun _ applied => Token.isUndefined_applyUnary applied
  binary := fun _ applied => Token.isUndefined_applyBinary applied
  notCallable := fun _ _ => rfl
  wrongArity := fun _ _ _ _ => rfl

namespace Session

/-- A fresh session binds nothing and has no closures, so it is ready. -/
theorem isReady_start (verbosity : Nat) : (start verbosity).world.IsReady where
  valued := holds_start verbosity _
  fits := by
    intro closure member
    exact absurd member (Array.not_mem_empty closure)

/-- A program that declares before it uses, run from a fresh start, never halts at an undefined
name. Whenever an expression is evaluated, in whatever call, the names that it uses can be seen
from the scope it is evaluated in. Like in every program that is read from a text, each literal of
the program has a value. -/
theorem well_scoped_never_undefined (verbosity limit : Nat) {program : List Stmt}
    (valued : ∀ stmt ∈ program, stmt.hasValues) (isScoped : Stmt.areScoped [] program)
    : (∀ name token, ((start verbosity).runProgram limit program).1
        ≠ .halted (.failed ⟨.undefinedVariable name, token⟩))
      ∧ Run.Throughout limit program globalScope (start verbosity).world
          (fun expr scope world => ∀ name ∈ expr.uses, world.forest.contains scope name)
          (fun _ _ _ => True) := by
  let state : Discipline.wellScoped.State := ⟨(start verbosity).world, isReady_start verbosity⟩
  have allowed : Discipline.wellScoped.mayRun state globalScope program :=
    ⟨Nat.zero_lt_one, valued, [], by simp [World.Shows], isScoped⟩
  obtain ⟨last, _, _, halts, throughout⟩ := Discipline.wellScoped.program limit allowed
  constructor
  · intro name token undefined
    exact Bool.noConfusion (halts _ (Ending.ofResult_eq_halted undefined))
  · refine throughout.mono ?_ ?_
    · rintro expr scope _ ⟨moment, rfl, _, allowed⟩
      exact allowed.2
    · intros
      trivial

/-- A function outlives the call that declared it and is called from scopes that cannot see what
it uses. -/
theorem well_scoped_never_undefined_escaping
    : ∃ program, (Lexed.ofSource
          "var k; fun o(x) { fun i() { print x; } k = i; } o(True); { fun c(f) { f(); } c(k); }"
        ).stream.program 30 = .ok program
      ∧ (∀ stmt ∈ program, stmt.hasValues) ∧ Stmt.areScoped [] program
      ∧ (∀ name token, ((start 0).runProgram 30 program).1
          ≠ .halted (.failed ⟨.undefinedVariable name, token⟩))
      ∧ ((start 0).runProgram 30 program).2.world.printed = "true\n" := by
  let read := (Lexed.ofSource
    "var k; fun o(x) { fun i() { print x; } k = i; } o(True); { fun c(f) { f(); } c(k); }"
    ).stream.program 30
  have reads : read = .ok (read.toOption.getD []) := ok_getD_toOption (by decide +kernel) []
  have valued := Lexed.hasValues_program reads
  have isScoped : Stmt.areScoped [] (read.toOption.getD []) := by decide +kernel
  exact ⟨_, reads, valued, isScoped, (well_scoped_never_undefined 0 30 valued isScoped).1,
    by decide +kernel⟩

end Session

end Sprig
