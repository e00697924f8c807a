import Sprig.Proofs.Machine.Discipline
import Sprig.Proofs.Scope.Lookup
import Sprig.Session

/-! Declarations never leak and never vanish: a run adds no name to a scope that was there before,
except that a declaration adds its own to the scope it is run in.
-/

namespace Sprig

/-- The names that a scope binds. -/
def World.names (world : World) (id : Nat) : List String :=
  (world.forest.bindings id).names

namespace World

/-- The scopes of the first world are there in the second one, with the same names. -/
structure KeepsNames (base world : World) : Prop where
  scopes : base.forest.nextId ≤ world.forest.nextId
  names : ∀ id < base.forest.nextId, world.names id = base.names id

/-- Recording binds no name. -/
@[simp] theorem names_record (event : TraceEvent) (world : World) (id : Nat)
    : (world.record event).names id = world.names id := by
  simp [names]

/-- A definition adds no name to any other scope. -/
theorem names_define_of_ne {id scope : Nat} (differs : id ≠ scope) (name : String) (value : Value)
    (world : World)
    : (world.define scope name value).names id = world.names id := by
  rw [names, forest_define, Forest.bindings_define_of_ne _ differs, names]

/-- A name that is bound already is not bound a second time. -/
theorem names_define_of_binds {scope : Nat} {name : String} {world : World}
    (binds : world.forest.binds scope name) (value : Value) (id : Nat)
    : (world.define scope name value).names id = world.names id := by
  by_cases same : id = scope
  · subst id
    have listed : name ∈ (world.forest.bindings scope).names := by
      rw [← Bindings.isSome_get?_iff, ← Forest.binds_eq]
      exact binds
    rw [names, names, forest_define, Forest.bindings_define]
    split
    · rw [Bindings.names_set, if_pos listed]
    · rfl
  · exact names_define_of_ne same name value world

/-- A definition adds its name to its scope and nothing else. -/
theorem mem_names_define {scope : Nat} {world : World} (exists_ : scope < world.forest.nextId)
    (name other : String) (value : Value)
    : other ∈ (world.define scope name value).names scope
      ↔ other ∈ world.names scope ∨ other = name := by
  rw [names, forest_define, Forest.bindings_define, if_pos ⟨rfl, exists_⟩, Bindings.names_set]
  split
  · next listed =>
    constructor
    · exact Or.inl
    · rintro (member | rfl)
      · exact member
      · exact listed
  · simp [names]

namespace KeepsNames

variable {base world : World}

/-- A world keeps its own names. -/
theorem refl (base : World) : base.KeepsNames base :=
  ⟨Nat.le_refl _, fun _ _ => rfl⟩

/-- Keeping names composes. -/
theorem trans {last : World} (kept : base.KeepsNames world) (further : world.KeepsNames last)
    : base.KeepsNames last := by
  refine ⟨Nat.le_trans kept.scopes further.scopes, fun id old => ?_⟩
  rw [further.names id (Nat.lt_of_lt_of_le old kept.scopes), kept.names id old]

/-- Recording keeps names. -/
theorem record (kept : base.KeepsNames world) (event : TraceEvent)
    : base.KeepsNames (world.record event) :=
  ⟨by simpa using kept.scopes, by simpa using kept.names⟩

/-- A definition in a new scope keeps the names of the old ones. -/
theorem define (kept : base.KeepsNames world) {scope : Nat} (isNew : base.forest.nextId ≤ scope)
    (name : String) (value : Value)
    : base.KeepsNames (world.define scope name value) := by
  refine ⟨by simpa using kept.scopes, fun id old => ?_⟩
  rw [names_define_of_ne (by omega), kept.names id old]

/-- Making a scope keeps the names of the old ones. -/
theorem addScope (kept : base.KeepsNames world) (parent : Option Nat)
    : base.KeepsNames (world.addScope parent).2 := by
  refine ⟨?_, fun id old => ?_⟩
  · have grown := kept.scopes
    simp only [forest_addScope, Forest.nextId_addScope]
    omega
  · simpa [World.names] using kept.names id old

/-- Making a function keeps all names. -/
theorem addFunction (kept : base.KeepsNames world) (name : String) (closure : Closure)
    : base.KeepsNames (world.addFunction name closure).2 :=
  ⟨kept.scopes, kept.names⟩

end KeepsNames

end World

/-- No name is added to the scopes of a world. Declarations are run in other scopes only. -/
def Discipline.names (base : World) : Discipline where
  State := { world : World // base.KeepsNames world }
  world := Subtype.val
  leads := fun _ _ => True
  mayHold := fun _ _ => True
  mayEvaluate := fun _ _ _ => True
  mayRun := fun _ scope stmts =>
    base.forest.nextId ≤ scope ∨ ∀ stmt ∈ stmts, stmt.declared? = none
  mayHalt := fun _ => True
  leads_refl := fun _ => trivial
  leads_trans := fun _ _ => trivial
  hold_later := fun _ held => held
  evaluate_later := fun _ allowed => allowed
  run_later := fun _ allowed => allowed
  record := fun state event => by
    exact ⟨⟨state.val.record event, state.property.record event⟩, rfl, trivial⟩
  print := fun state text => by
    exact ⟨⟨state.val.print text, state.property.scopes, state.property.names⟩, rfl, trivial⟩
  data := fun _ => trivial
  literal := fun _ => trivial
  operand := fun _ _ => trivial
  found := fun _ _ => trivial
  assign := by
    intro state scope value owner initial name _ _ owns
    have binds := (state.val.forest.mem_chain_of_owner? owns).2
    refine ⟨⟨state.val.define owner name.lexeme value, ?_, ?_⟩, rfl, trivial⟩
    · simpa using state.property.scopes
    · intro id old
      rw [World.names_define_of_binds binds, state.property.names id old]
  enter := by
    intro state ref closure arguments _ _ _ _
    refine ⟨⟨_, ?_⟩, rfl, trivial, Or.inl state.property.scopes⟩
    refine World.bindParams_induction base.KeepsNames (state.property.addScope _) ?_
    intro world name argument _ kept
    exact kept.define state.property.scopes name argument
  part := fun _ _ => trivial
  next := fun allowed _ => allowed.imp_right fun all => (List.forall_mem_cons.mp all).2
  declare := by
    intro state scope initial rest value name allowed _
    have isNew : base.forest.nextId ≤ scope := allowed.resolve_right fun all => by
      simp [Stmt.declared?] at all
    exact ⟨⟨_, state.property.define isNew name.lexeme value⟩, rfl, trivial, Or.inl isNew⟩
  function := by
    intro state scope params body rest name allowed
    have isNew : base.forest.nextId ≤ scope := allowed.resolve_right fun all => by
      simp [Stmt.declared?] at all
    have made := state.property.addFunction name.lexeme ⟨params, body, scope⟩
    exact ⟨⟨_, made.define isNew name.lexeme _⟩, rfl, trivial, Or.inl isNew⟩
  block := by
    intro state scope body rest _
    exact ⟨⟨_, state.property.addScope (some scope)⟩, rfl, trivial, Or.inl state.property.scopes⟩

namespace Run

variable (limit : Nat) (world : World)

/-- Evaluating an expression keeps the names of all scopes, as the discipline of names demands of
every step. -/
theorem keepsNames_evaluate (expr : Expr) (scope : Nat)
    : world.KeepsNames ((evaluate limit expr scope).run.run world).2 := by
  let start : (Discipline.names world).State := ⟨world, .refl world⟩
  have kept := ((Discipline.names world).upholds limit).evaluates start scope expr trivial
  obtain ⟨later, _, ends, _, _⟩ := kept.ends
  exact ends ▸ later.property

/-- Executing a statement that declares nothing keeps the names of all scopes, for the same
reason. -/
theorem keepsNames_execute {stmt : Stmt} (declares : stmt.declared? = none) (scope : Nat)
    : world.KeepsNames ((execute limit stmt scope).run.run world).2 := by
  let start : (Discipline.names world).State := ⟨world, .refl world⟩
  have allowed : (Discipline.names world).mayRun start scope [stmt] :=
    Or.inr (by simpa using declares)
  have kept := ((Discipline.names world).upholds limit).executes start scope stmt [] allowed
  obtain ⟨later, _, ends, _, _⟩ := kept.ends
  exact ends ▸ later.property

-- Declarations

/-- A variable is declared once its initial value is known. -/
theorem run_declare (name : Token) {initial : Option Expr} {scope : Nat}
    {result : Except Halt Value} {after : World}
    (initialized : (initial.elim (pure .nil) (evaluate limit · scope)).run.run
      (world.record (.executing "Var")) = (result, after))
    : (execute (limit + 1) (.declare name initial) scope).run.run world
      = (result.map fun _ => (), result.toOption.elim after fun value =>
          (after.define scope name.lexeme value).record (.declared name.lexeme value)) := by
  refine (run_bind (initial.elim (pure .nil) (evaluate limit · scope))
    (fun value => do define scope name.lexeme value; note (.declared name.lexeme value))
    (world.record (.executing "Var"))).trans ?_
  rw [initialized]
  cases result <;> rfl

/-- Finding the initial value of a variable keeps the names of all scopes. -/
theorem keepsNames_initial (initial : Option Expr) (scope : Nat)
    : world.KeepsNames ((initial.elim (pure .nil) (evaluate limit · scope)).run.run
        (world.record (.executing "Var"))).2 := by
  have recorded : world.KeepsNames (world.record (.executing "Var")) :=
    (World.KeepsNames.refl world).record _
  cases initial with
  | none => exact recorded
  | some expr => exact recorded.trans (keepsNames_evaluate limit _ expr scope)

/-- A declaration halts before it binds its name, or binds its name last. -/
theorem declaration_cases {stmt : Stmt} {name : String} (declares : stmt.declared? = some name)
    (scope : Nat)
    : (∃ halt after, (execute limit stmt scope).run.run world = (.error halt, after)
        ∧ world.KeepsNames after)
      ∨ ∃ before value event, (execute limit stmt scope).run.run world
          = (.ok (), (before.define scope name value).record event)
        ∧ world.KeepsNames before := by
  cases limit with
  | zero => exact .inl ⟨.tooDeep, world, rfl, .refl world⟩
  | succ limit =>
      cases stmt with
      | expression expr | print expr | block body => simp [Stmt.declared?] at declares
      | function declaredName params body =>
          obtain rfl := Option.some.inj declares
          exact .inr ⟨_, _, .definedFunction declaredName.lexeme params.length, rfl,
            ((World.KeepsNames.refl world).record (.executing "Function")).addFunction
              declaredName.lexeme ⟨params, body, scope⟩⟩
      | declare declaredName initial =>
          obtain rfl := Option.some.inj declares
          have kept := keepsNames_initial limit world initial scope
          cases initialized : (initial.elim (pure .nil) (evaluate limit · scope)).run.run
              (world.record (.executing "Var")) with
          | mk result after =>
              rw [initialized] at kept
              have ends := run_declare limit world declaredName initialized
              cases result with
              | error halt => exact .inl ⟨halt, after, ends, kept⟩
              | ok value => exact .inr ⟨after, value, _, ends, kept⟩

/-- Of the scopes that were there before a statement, a declaration that completes adds its name
to its own; nothing else is added. -/
theorem mem_names_execute (stmt : Stmt) (scope : Nat) {id : Nat}
    (old : id < world.forest.nextId) (name : String)
    : name ∈ ((execute limit stmt scope).run.run world).2.names id
      ↔ name ∈ world.names id
        ∨ (((execute limit stmt scope).run.run world).1 = .ok () ∧ id = scope
          ∧ stmt.declared? = some name) := by
  cases declares : stmt.declared? with
  | none => simp [(keepsNames_execute limit world declares scope).names id old]
  | some declared =>
      obtain ⟨halt, after, ends, kept⟩ | ⟨before, value, event, ends, kept⟩ :=
        declaration_cases limit world declares scope
      · simp [ends, kept.names id old]
      · by_cases same : id = scope
        · subst id
          have still : scope < before.forest.nextId := Nat.lt_of_lt_of_le old kept.scopes
          simp [ends, World.mem_names_define still, kept.names scope old, eq_comm]
        · simp [ends, World.names_define_of_ne same, kept.names id old, same]

/-- No statement takes a scope away, whether it declares a name or not. -/
theorem nextId_le_execute (stmt : Stmt) (scope : Nat)
    : world.forest.nextId ≤ ((execute limit stmt scope).run.run world).2.forest.nextId := by
  cases declares : stmt.declared? with
  | none => exact (keepsNames_execute limit world declares scope).scopes
  | some name =>
      obtain ⟨halt, after, ends, kept⟩ | ⟨before, value, event, ends, kept⟩ :=
        declaration_cases limit world declares scope
      · simpa [ends] using kept.scopes
      · simpa [ends] using kept.scopes

-- Programs

/-- The statements of a program that complete: all of them, or those before the first one that
halts. -/
def completed (limit scope : Nat) : List Stmt → World → List Stmt
  | [], _ => []
  | stmt :: rest, world =>
    match (execute limit stmt scope).run.run world with
    | (.ok (), after) => stmt :: completed limit scope rest after
    | (.error _, _) => []

/-- A program runs its first statement and then the rest. -/
theorem program_cons (stmt : Stmt) (rest : List Stmt) (scope : Nat)
    : program limit (stmt :: rest) scope
      = (do execute limit stmt scope; program limit rest scope) := rfl

/-- A program adds to an old scope just the names declared by those of its statements that
completed in that scope, by induction on the statements. -/
theorem mem_names_program (stmts : List Stmt) (scope : Nat) {id : Nat}
    (old : id < world.forest.nextId) (name : String)
    : name ∈ ((program limit stmts scope).run.run world).2.names id
      ↔ name ∈ world.names id
        ∨ (id = scope ∧ name ∈ (completed limit scope stmts world).filterMap Stmt.declared?) := by
  induction stmts generalizing world with
  | nil =>
      have same : (program limit [] scope).run.run world = (.ok (), world) := rfl
      simp [same, completed]
  | cons stmt rest ih =>
      have started := mem_names_execute limit world stmt scope old name
      have grown := nextId_le_execute limit world stmt scope
      rw [program_cons, run_bind, completed]
      cases ended : (execute limit stmt scope).run.run world with
      | mk result after =>
          rw [ended] at started grown
          cases result with
          | error halt => simpa using started
          | ok value =>
              rw [ih after (Nat.lt_of_lt_of_le old grown), started]
              simp only [true_and, List.mem_filterMap, List.mem_cons, exists_eq_or_imp]
              tauto

/-- Names are bound by declarations alone, however a run ends. In each scope that was there before,
expressions and statements that declare nothing leave the names as they are. A declaration adds
its own name to its own scope if it completes, and it halts with its initial value. A program adds
to its own scope the names of its declarations that complete. -/
theorem names_bound_by_declarations (limit : Nat) (world : World) (scope : Nat) {id : Nat}
    (old : id < world.forest.nextId)
    : (∀ expr, ((evaluate limit expr scope).run.run world).2.names id = world.names id)
      ∧ (∀ stmt : Stmt, stmt.declared? = none →
          ((execute limit stmt scope).run.run world).2.names id = world.names id)
      ∧ (∀ stmt : Stmt, ∀ name ∈ stmt.declared?, ∀ other,
          other ∈ ((execute limit stmt scope).run.run world).2.names id
          ↔ other ∈ world.names id
            ∨ (((execute limit stmt scope).run.run world).1 = .ok () ∧ id = scope
              ∧ other = name))
      ∧ (∀ name expr halt,
          ((evaluate limit expr scope).run.run (world.record (.executing "Var"))).1 = .error halt →
          ((execute (limit + 1) (.declare name expr) scope).run.run world).1 = .error halt
          ∧ ((execute (limit + 1) (.declare name expr) scope).run.run world).2.names id
            = world.names id)
      ∧ (∀ stmts name,
          name ∈ ((program limit stmts scope).run.run world).2.names id
          ↔ name ∈ world.names id
            ∨ (id = scope
              ∧ name ∈ (completed limit scope stmts world).filterMap Stmt.declared?)) := by
  refine ⟨?_, ?_, ?_, ?_, ?_⟩
  · intro expr
    exact (keepsNames_evaluate limit world expr scope).names id old
  · intro stmt declares
    exact (keepsNames_execute limit world declares scope).names id old
  · intro stmt name declares other
    rw [mem_names_execute limit world stmt scope old other, Option.mem_def.mp declares]
    simp [eq_comm]
  · intro name expr halt halts
    have kept := keepsNames_initial limit world (some expr) scope
    have initialized : ((some expr).elim (pure .nil) (evaluate limit · scope)).run.run
        (world.record (.executing "Var")) = (.error halt, _) := Prod.ext halts rfl
    rw [run_declare limit world name initialized]
    exact ⟨rfl, kept.names id old⟩
  · intro stmts name
    exact mem_names_program limit world stmts scope old name

/-- A block and a call declare names of their own; then a declaration halts, and the one after it
is not reached. -/
theorem names_bound_by_declarations_halted
    : ∃ stmts : List Stmt,
        let start := (Session.start 0).world
        Session.globalScope < start.forest.nextId
        ∧ ((program 20 stmts Session.globalScope).run.run start).1
          = .error (.failed ⟨.undefinedVariable "d", ⟨.identifier, "d", none, ⟨4, 9⟩⟩⟩)
        ∧ ∀ name, name ∈ ((program 20 stmts Session.globalScope).run.run start).2.names
            Session.globalScope ↔ name ∈ ["a", "f"] := by
  let stmts : List Stmt :=
    [.declare ⟨.identifier, "a", none, ⟨1, 5⟩⟩ none,
      .block [.declare ⟨.identifier, "b", none, ⟨2, 7⟩⟩ none,
        .expression (.assign ⟨.identifier, "a", none, ⟨2, 14⟩⟩
          (.reference ⟨.identifier, "b", none, ⟨2, 18⟩⟩))],
      .function ⟨.identifier, "f", none, ⟨3, 5⟩⟩ [⟨.identifier, "x", none, ⟨3, 7⟩⟩]
        [.declare ⟨.identifier, "y", none, ⟨3, 16⟩⟩ none],
      .expression (.call (.reference ⟨.identifier, "f", none, ⟨4, 1⟩⟩)
        ⟨.rightParen, ")", none, ⟨4, 4⟩⟩ [.literal .nil]),
      .declare ⟨.identifier, "c", none, ⟨4, 5⟩⟩
        (some (.reference ⟨.identifier, "d", none, ⟨4, 9⟩⟩)),
      .declare ⟨.identifier, "e", none, ⟨5, 5⟩⟩ none]
  refine ⟨stmts, by decide, by decide +kernel, ?_⟩
  have declared : (completed 20 Session.globalScope stmts (Session.start 0).world).filterMap
      Stmt.declared? = ["a", "f"] := by decide +kernel
  have unnamed : (Session.start 0).world.names Session.globalScope = [] := by decide +kernel
  intro name
  obtain ⟨_, _, _, _, programs⟩ :=
    names_bound_by_declarations 20 (Session.start 0).world Session.globalScope
      (show Session.globalScope < _ by decide)
  simp [programs, declared, unnamed]

end Run

end Sprig
