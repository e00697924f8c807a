import Sprig.Proofs.Machine.Sessions
import Sprig.Proofs.Scope.Lookup

/-! What a run can reach: from the scope it starts in outwards, and through the functions that it
finds there to the scopes that they were declared in. No other scope changes.
-/

namespace Sprig

namespace World

/-- The scopes that a run in a scope can come to. -/
inductive Reachable (world : World) (start : Nat) : Nat → Prop where
  | start : Reachable world start start
  | parent {id outer : Nat} : Reachable world start id → world.forest.parent? id = some outer →
      Reachable world start outer
  | closure {id : Nat} {name : String} {ref : FunctionRef} {closure : Closure} :
      Reachable world start id → (world.forest.bindings id).get? name = some (.function ref) →
      world.functions[ref.key]? = some closure → Reachable world start closure.scope

/-- No function made so far has a literal that stands for a function. -/
def IsPlain (world : World) : Prop :=
  ∀ closure ∈ world.functions, ∀ stmt ∈ closure.body, stmt.isPlain

/-- The scopes that a run may change: those it can reach, and those it makes. -/
def MayChange (base : World) (start id : Nat) : Prop :=
  base.forest.nextId ≤ id ∨ base.Reachable start id

/-- The value does not lead out of a region: if it is a function, it was declared inside. -/
def Within (world : World) (region : Nat → Prop) (value : Value) : Prop :=
  ∀ ref closure, value = .function ref → world.functions[ref.key]? = some closure →
    region closure.scope

/-- Values other than functions reach nothing. -/
theorem within_of_not_isFunction (world : World) (region : Nat → Prop) {value : Value}
    (noFunction : value.isFunction = false)
    : world.Within region value := by
  rintro ref closure rfl
  simp [Value.isFunction] at noFunction

/-- The functions of the second world that the first one does not have were declared in a
region. -/
def MakesWithin (world : World) (region : Nat → Prop) (later : World) : Prop :=
  ∀ (key : Nat) closure, later.functions[key]? = some closure →
    world.functions[key]? = some closure ∨ region closure.scope

/-- A value that stays in a region does so later, since new functions are made there. -/
theorem Within.later {region : Nat → Prop} {world later : World} {value : Value}
    (within : world.Within region value) (makes : world.MakesWithin region later)
    : later.Within region value := by
  intro ref closure isRef isFunction
  rcases makes ref.key closure isFunction with wasFunction | inside
  · exact within ref closure isRef wasFunction
  · exact inside

/-- Nothing is made where the functions stay the same. -/
theorem makesWithin_of_eq {region : Nat → Prop} {world later : World}
    (same : later.functions = world.functions)
    : world.MakesWithin region later := by
  intro key closure isFunction
  exact .inl (same ▸ isFunction)

/-- A function of a scope in the region is made within it. -/
theorem makesWithin_addFunction {region : Nat → Prop} (world : World) (name : String)
    (closure : Closure) (inside : region closure.scope)
    : world.MakesWithin region (world.addFunction name closure).2 := by
  intro key found isFunction
  rw [functions_addFunction, Array.getElem?_push] at isFunction
  split at isFunction
  · exact .inr (Option.some.inj isFunction ▸ inside)
  · exact .inl isFunction

/-- The value of a new function reaches the scope that it was made in. -/
theorem within_addFunction {region : Nat → Prop} (world : World) (name : String)
    (closure : Closure) (inside : region closure.scope)
    : (world.addFunction name closure).2.Within region
        (.function (world.addFunction name closure).1) := by
  intro ref found isRef isFunction
  obtain rfl := Value.function.inj isRef
  have isLast : (world.addFunction name closure).1.key = world.functions.size := rfl
  rw [functions_addFunction, isLast, Array.getElem?_push_size] at isFunction
  exact Option.some.inj isFunction ▸ inside

/-- A run from the first world has come to the second one and cannot get out of the scopes that
it may change. -/
structure Confined (base : World) (start : Nat) (world : World) : Prop where
  scopes : base.forest.nextId ≤ world.forest.nextId
  outside : ∀ id < base.forest.nextId, ¬ base.Reachable start id →
    world.forest.bindings id = base.forest.bindings id
  parent : ∀ id outer, base.MayChange start id → world.forest.parent? id = some outer →
    base.MayChange start outer
  holds : world.forest.Holds (base.MayChange start) (world.Within (base.MayChange start))
  plain : world.IsPlain

namespace Confined

variable {base : World} {start : Nat} {world : World}

/-- At first only reachable scopes are to be considered, and these lead to each other. -/
theorem refl (plain : base.IsPlain) (start : Nat) : base.Confined start base := by
  refine ⟨Nat.le_refl _, fun _ _ _ => rfl, ?_, ?_, plain⟩
  · rintro id outer (isNew | reachable) isParent
    · have none : base.forest.scopes[id]? = none := Array.getElem?_eq_none isNew
      simp [Forest.parent?, none] at isParent
    · exact .inr (reachable.parent isParent)
  · rintro id name _ (isNew | reachable) bound ref closure rfl isFunction
    · rw [base.forest.bindings_of_le isNew] at bound
      simp [Bindings.get?] at bound
    · exact .inr (reachable.closure bound isFunction)

/-- A world with the same scopes and functions is confined as well. -/
theorem of_same {other : World} (confined : base.Confined start world)
    (forest : other.forest = world.forest) (functions : other.functions = world.functions)
    : base.Confined start other := by
  obtain ⟨scopes, outside, parent, holds, plain⟩ := confined
  unfold Within at holds
  unfold IsPlain at plain
  rw [← forest] at scopes outside parent holds
  rw [← functions] at holds plain
  exact ⟨scopes, outside, parent, holds, plain⟩

/-- The chain of a scope that may change consists of such scopes, since their parents are. -/
theorem mem_chain (confined : base.Confined start world) {scope : Nat}
    (inside : base.MayChange start scope)
    : ∀ id ∈ world.forest.chain scope, base.MayChange start id :=
  world.forest.forall_mem_chain inside confined.parent

/-- A definition in a scope that may change, of a value that stays within them, keeps a run
confined. -/
theorem define (confined : base.Confined start world) {scope : Nat}
    (inside : base.MayChange start scope) {value : Value}
    (within : world.Within (base.MayChange start) value) (name : String)
    : base.Confined start (world.define scope name value) where
  scopes := by simpa using confined.scopes
  outside := by
    intro id old unreachable
    have differs : id ≠ scope := by
      rintro rfl
      rcases inside with isNew | reachable
      · omega
      · exact unreachable reachable
    rw [forest_define, Forest.bindings_define_of_ne _ differs, confined.outside id old unreachable]
  parent := by simpa using confined.parent
  holds := confined.holds.define within scope name
  plain := confined.plain

/-- A new scope under one that may change keeps a run confined. -/
theorem addScope (confined : base.Confined start world) {parent : Nat}
    (inside : base.MayChange start parent)
    : base.Confined start (world.addScope (some parent)).2 where
  scopes := by
    have grown := confined.scopes
    simp only [forest_addScope, Forest.nextId_addScope]
    omega
  outside := by simpa using confined.outside
  parent := by
    intro id outer fromInside isParent
    rw [forest_addScope, Forest.parent?_addScope] at isParent
    split at isParent
    · obtain ⟨isParent, _⟩ := Option.filter_eq_some_iff.mp isParent
      exact Option.some.inj isParent ▸ inside
    · exact confined.parent id outer fromInside isParent
  holds := confined.holds.addScope (some parent)
  plain := confined.plain

/-- Binding parameters keeps a run confined, one definition after the other. -/
theorem bindParams (confined : base.Confined start world) {scope : Nat}
    (inside : base.MayChange start scope) (params : List Token) {arguments : List Value}
    (within : ∀ argument ∈ arguments, world.Within (base.MayChange start) argument)
    : base.Confined start (world.bindParams scope params arguments) := by
  have bound : base.Confined start (world.bindParams scope params arguments)
      ∧ (world.bindParams scope params arguments).functions = world.functions := by
    refine bindParams_induction
      (fun later => base.Confined start later ∧ later.functions = world.functions)
      ⟨confined, rfl⟩ ?_
    intro later name argument member ⟨confined, same⟩
    exact ⟨confined.define inside ((within argument member).later (makesWithin_of_eq same)) name,
      same⟩
  exact bound.1

/-- Whatever is within the region stays there when a function is made inside it. -/
theorem addFunction (confined : base.Confined start world) (name : String) (closure : Closure)
    (inside : base.MayChange start closure.scope) (plain : ∀ stmt ∈ closure.body, stmt.isPlain)
    : base.Confined start (world.addFunction name closure).2 where
  scopes := confined.scopes
  outside := confined.outside
  parent := confined.parent
  holds := confined.holds.mono fun value within =>
    within.later (world.makesWithin_addFunction name closure inside)
  plain := by
    intro found member
    rcases Array.mem_push.mp member with member | rfl
    · exact confined.plain found member
    · exact plain

end Confined

end World

/-- A run stays in the scopes that it may change. -/
def Discipline.reach (base : World) (start : Nat) : Discipline where
  State := { world : World // base.Confined start world }
  world := Subtype.val
  leads := fun state later => state.val.MakesWithin (base.MayChange start) later.val
  mayHold := fun state value => state.val.Within (base.MayChange start) value
  mayEvaluate := fun _ scope expr => base.MayChange start scope ∧ expr.isPlain
  mayRun := fun _ scope stmts => base.MayChange start scope ∧ ∀ stmt ∈ stmts, stmt.isPlain
  mayHalt := fun _ => True
  leads_refl := fun state => World.makesWithin_of_eq rfl
  leads_trans := by
    intro first second third early late key closure isFunction
    rcases late key closure isFunction with wasFunction | inside
    · exact early key closure wasFunction
    · exact .inr inside
  hold_later := fun makes within => within.later makes
  evaluate_later := fun _ allowed => allowed
  run_later := fun _ allowed => allowed
  record := fun state event =>
    ⟨⟨state.val.record event, state.property.of_same (by simp) (by simp)⟩, rfl,
      World.makesWithin_of_eq (by simp)⟩
  print := fun state text =>
    ⟨⟨state.val.print text, state.property.of_same rfl rfl⟩, rfl, World.makesWithin_of_eq rfl⟩
  data := fun data => World.within_of_not_isFunction _ _ (Value.not_isFunction_of_isData data)
  literal := fun allowed => World.within_of_not_isFunction _ _
    (by simpa using Expr.passes_of_literalsPass allowed.2)
  operand := fun allowed member => ⟨allowed.1, Expr.literalsPass_operand allowed.2 member⟩
  found := fun {state} _ _ _ allowed found =>
    state.property.holds.get? (state.property.mem_chain allowed.1) found
  assign := by
    intro state scope value owner initial name allowed held owns
    have member := (state.val.forest.mem_chain_of_owner? owns).1
    have inside := state.property.mem_chain allowed.1 owner member
    exact ⟨⟨_, state.property.define inside held name.lexeme⟩, rfl, World.makesWithin_of_eq rfl⟩
  enter := by
    intro state ref closure arguments held holds _ isFunction
    have inside := held ref closure rfl isFunction
    have isNew : base.MayChange start state.val.forest.nextId := .inl state.property.scopes
    have plain := state.property.plain closure (Array.mem_of_getElem? isFunction)
    have opened := state.property.addScope inside
    exact ⟨⟨_, opened.bindParams isNew closure.params holds⟩, rfl,
      World.makesWithin_of_eq (by simp), isNew, plain⟩
  part := fun allowed member =>
    ⟨allowed.1, ((Stmt.literalsPass_iff _).mp (List.forall_mem_cons.mp allowed.2).1).1 _ member⟩
  next := fun allowed _ => ⟨allowed.1, (List.forall_mem_cons.mp allowed.2).2⟩
  declare := by
    intro state scope initial rest value name ⟨inside, plain⟩ held
    exact ⟨⟨_, state.property.define inside held name.lexeme⟩, rfl, World.makesWithin_of_eq rfl,
      inside, (List.forall_mem_cons.mp plain).2⟩
  function := by
    intro state scope params body rest name ⟨inside, plain⟩
    obtain ⟨first, others⟩ := List.forall_mem_cons.mp plain
    have made := state.property.addFunction name.lexeme (Closure.mk params body scope) inside
      ((Stmt.literalsPass_iff _).mp first).2
    have within := state.val.within_addFunction name.lexeme ⟨params, body, scope⟩ inside
    exact ⟨⟨_, made.define inside within name.lexeme⟩, rfl,
      state.val.makesWithin_addFunction name.lexeme ⟨params, body, scope⟩ inside, inside, others⟩
  block := by
    intro state scope body rest ⟨inside, plain⟩
    have bodyPlain := ((Stmt.literalsPass_iff _).mp (List.forall_mem_cons.mp plain).1).2
    exact ⟨⟨_, state.property.addScope inside⟩, rfl, World.makesWithin_of_eq rfl,
      .inl state.property.scopes, bodyPlain⟩

namespace Run

variable (limit : Nat) {world : World} (plain : world.IsPlain) {scope : Nat}

include plain

/-- Evaluating a plain expression stays confined, as the discipline of reach demands of every
step. -/
theorem confined_evaluate {expr : Expr} (isPlain : expr.isPlain)
    : world.Confined scope ((evaluate limit expr scope).run.run world).2 := by
  let state : (Discipline.reach world scope).State := ⟨world, .refl plain scope⟩
  have kept := ((Discipline.reach world scope).upholds limit).evaluates state scope expr
    ⟨.inr .start, isPlain⟩
  obtain ⟨later, _, ends, _, _⟩ := kept.ends
  exact ends ▸ later.property

/-- Executing a plain statement stays confined, for the same reason. -/
theorem confined_execute {stmt : Stmt} (isPlain : stmt.isPlain)
    : world.Confined scope ((execute limit stmt scope).run.run world).2 := by
  let state : (Discipline.reach world scope).State := ⟨world, .refl plain scope⟩
  have kept := ((Discipline.reach world scope).upholds limit).executes state scope stmt []
    ⟨.inr .start, by simpa using isPlain⟩
  obtain ⟨later, _, ends, _, _⟩ := kept.ends
  exact ends ▸ later.property

/-- Running a plain program stays confined, for the same reason. -/
theorem confined_program {stmts : List Stmt} (arePlain : ∀ stmt ∈ stmts, stmt.isPlain)
    : world.Confined scope ((program limit stmts scope).run.run world).2 := by
  let state : (Discipline.reach world scope).State := ⟨world, .refl plain scope⟩
  have allowed : (Discipline.reach world scope).mayRun state scope stmts :=
    ⟨.inr .start, arePlain⟩
  obtain ⟨later, _, ends, _, _⟩ := (Discipline.reach world scope).program limit allowed
  exact ends ▸ later.property

omit plain

/-- A run changes the scopes that it can reach and no others, however it ends. This holds of trees
and worlds without literals that stand for functions; such are all trees that are read from
texts, and the worlds that they lead to. -/
theorem bindings_outside_reach (limit : Nat) {world : World} (plain : world.IsPlain)
    {scope id : Nat} (old : id < world.forest.nextId) (unreachable : ¬ world.Reachable scope id)
    : (∀ expr : Expr, expr.isPlain →
        ((evaluate limit expr scope).run.run world).2.forest.bindings id
          = world.forest.bindings id)
      ∧ (∀ stmt : Stmt, stmt.isPlain →
          ((execute limit stmt scope).run.run world).2.forest.bindings id
            = world.forest.bindings id)
      ∧ (∀ stmts : List Stmt, (∀ stmt ∈ stmts, stmt.isPlain) →
          ((program limit stmts scope).run.run world).2.forest.bindings id
            = world.forest.bindings id
          ∧ ((program limit stmts scope).run.run world).2.IsPlain)
      ∧ ∀ source depth,
          (∀ expr, (Lexed.ofSource source).stream.expression depth = .ok expr → expr.isPlain)
          ∧ ∀ stmts, (Lexed.ofSource source).stream.program depth = .ok stmts →
              ∀ stmt ∈ stmts, stmt.isPlain := by
  refine ⟨?_, ?_, ?_, ?_⟩
  · intro expr isPlain
    exact (confined_evaluate limit plain isPlain).outside id old unreachable
  · intro stmt isPlain
    exact (confined_execute limit plain isPlain).outside id old unreachable
  · intro stmts arePlain
    have confined : world.Confined scope ((program limit stmts scope).run.run world).2 :=
      confined_program limit plain arePlain
    exact ⟨confined.outside id old unreachable, confined.plain⟩
  · intro source depth
    exact ⟨fun expr reads => Lexed.isPlain_expression reads,
      fun stmts reads => Lexed.isPlain_program reads⟩

end Run

/-- A session that has declared `x`, and a second scope that is inside no other. -/
def World.twoRoots : World :=
  (((Session.start 0).world.define Session.globalScope "x" .nil).addScope none).2

/-- From the second scope there is no way out. -/
theorem World.eq_of_reachable_twoRoots {id : Nat} (reachable : twoRoots.Reachable 1 id)
    : id = 1 := by
  induction reachable with
  | start => rfl
  | parent _ isParent ih =>
      subst ih
      have none : twoRoots.forest.parent? 1 = none := by decide +kernel
      simp [none] at isParent
  | closure _ bound _ ih =>
      subst ih
      have empty : twoRoots.forest.bindings 1 = [] := by decide +kernel
      simp [empty, Bindings.get?] at bound

/-- A text that declares, calls and assigns in a scope of its own, until it fails. -/
theorem Run.bindings_outside_reach_global
    : World.twoRoots.IsPlain ∧ Session.globalScope < World.twoRoots.forest.nextId
      ∧ ¬ World.twoRoots.Reachable 1 Session.globalScope
      ∧ ∃ stmts, (Lexed.ofSource "var x = 1; fun f(y) { x = y; } f(True); z = x;").stream.program 20
          = .ok stmts
        ∧ ((program 20 stmts 1).run.run World.twoRoots).1
          = .error (.failed ⟨.undefinedVariable "z", ⟨.identifier, "z", none, ⟨1, 41⟩⟩⟩)
        ∧ ((program 20 stmts 1).run.run World.twoRoots).2.forest.get? 1 "x" = some (.boolean true)
        ∧ ((program 20 stmts 1).run.run World.twoRoots).2.forest.bindings Session.globalScope
          = [("x", .nil)] := by
  have plain : World.twoRoots.IsPlain := by
    intro closure member
    simp [World.twoRoots, Session.start, World.initial, World.addScope, World.define] at member
  have unreachable : ¬ World.twoRoots.Reachable 1 Session.globalScope := fun reachable =>
    absurd (World.eq_of_reachable_twoRoots reachable) (by decide)
  have old : Session.globalScope < World.twoRoots.forest.nextId := by decide +kernel
  let text := (Lexed.ofSource "var x = 1; fun f(y) { x = y; } f(True); z = x;").stream.program 20
  have reads : text = .ok (text.toOption.getD []) := ok_getD_toOption (by decide +kernel) []
  obtain ⟨_, _, programs, ofTexts⟩ := bindings_outside_reach 20 plain old unreachable
  refine ⟨plain, old, unreachable, _, reads, by decide +kernel, by decide +kernel, ?_⟩
  rw [(programs _ ((ofTexts _ _).2 _ reads)).1]
  decide +kernel

end Sprig
