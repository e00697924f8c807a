import Sprig.Proofs.Machine.Likeness

/-! Programs that are alike run alike, unless the first one nests too deep. The argument follows
the evaluator: what the world is asked for and told comes first, then each form of a tree.
-/

namespace Sprig

variable {likeness : Likeness}

-- What a program does to its world

namespace World.Like

variable {first second : World}

/-- Recording an event and its renaming keeps worlds alike; the second world may record more. -/
theorem record (like : first.Like likeness second) (event : TraceEvent)
    : (first.record event).Like likeness
        (second.record (event.renamed likeness.rename)) := by
  simp only [World.record, TraceEvent.level_renamed]
  by_cases coarse : event.level ≤ likeness.verbosity
  · have fine : event.level ≤ likeness.verbosity' := Nat.le_trans coarse likeness.verbosity_le
    rw [if_pos (like.verbosity ▸ coarse), if_pos (like.verbosity' ▸ fine)]
    refine { like with events := ?_ }
    simp [coarse, like.events]
  · -- only the second trace may be detailed enough to keep the event
    rw [if_neg (like.verbosity ▸ coarse)]
    split
    · refine { like with events := ?_ }
      simp [coarse, like.events]
    · exact like

/-- Printing the same keeps worlds alike. -/
theorem print (like : first.Like likeness second) (text : String)
    : (first.print text).Like likeness (second.print text) := by
  refine { like with printed := ?_ }
  rw [World.print, World.print, like.printed, String.append_assoc]

/-- Defining a name and its renaming keeps worlds alike. -/
theorem define (like : first.Like likeness second) (scope : Nat) (name : String) (value : Value)
    : (first.define scope name value).Like likeness
        (second.define scope (likeness.rename name) value) := by
  refine { like with forest := ?_ }
  rw [World.define, World.define, Forest.renamed_define likeness.injective, like.forest]

/-- Making a scope keeps worlds alike and takes the same number in both. -/
theorem addScope (like : first.Like likeness second) (parent : Option Nat)
    : (second.addScope parent).1 = (first.addScope parent).1
      ∧ (first.addScope parent).2.Like likeness (second.addScope parent).2 := by
  refine ⟨?_, { like with forest := ?_ }⟩
  · simp [World.addScope, like.forest]
  · simp [World.addScope, like.forest, Forest.renamed_addScope]

/-- Making alike functions keeps worlds alike and takes the same key in both. -/
theorem addFunction (like : first.Like likeness second) (name : String) {closure closure' : Closure}
    (alike : closure.Like likeness closure')
    : (second.addFunction name closure').1 = (first.addFunction name closure).1
      ∧ (first.addFunction name closure).2.Like likeness (second.addFunction name closure').2 := by
  refine ⟨?_, { like with functions := ?_ }⟩
  · have sizes : second.functions.size = first.functions.size := by
      simpa using like.functions.length_eq.symm
    simp [World.addFunction, sizes, alike.params.length_eq]
  · simpa [World.addFunction] using List.rel_append like.functions (.cons alike .nil)

end World.Like

-- Runs

/-- What follows a run starts from the state that the run leaves, unless it halts. -/
theorem Run.run_bind {σ α β : Type} (run : ExceptT Halt (StateM σ) α)
    (next : α → ExceptT Halt (StateM σ) β) (state : σ)
    : (run >>= next).run.run state
      = match run.run.run state with
        | (.ok value, after) => (next value).run.run after
        | (.error halt, after) => (.error halt, after) := by
  rw [ExceptT.run_bind, StateT.run_bind]
  rcases run.run.run state with ⟨_ | _, after⟩ <;> rfl

/-- Ends of runs that are alike. Nothing is said if the first run nests too deep. -/
inductive Run.EndsAlike (likeness : Likeness) {α : Type}
    : Except Halt α × World → Except Halt α × World → Prop where
  | value {first second : World} (value : α) : first.Like likeness second →
      EndsAlike likeness (.ok value, first) (.ok value, second)
  | halt {first second : World} {halt halt' : Halt} : halt.Like likeness halt' →
      first.Like likeness second →
      EndsAlike likeness (.error halt, first) (.error halt', second)
  | tooDeep (world : World) (other : Except Halt α × World) :
      EndsAlike likeness (.error .tooDeep, world) other

/-- Runs with the same value or the same kind of halt from worlds that are alike. -/
def Run.Like (likeness : Likeness) {α : Type} (first second : Run α) : Prop :=
  ∀ world world', World.Like likeness world world' →
    Run.EndsAlike likeness (first.run.run world) (second.run.run world')

namespace Run.Like

variable {α β : Type}

/-- The same value given back is alike. -/
theorem pure (value : α) : Like likeness (Pure.pure value) (Pure.pure value) := by
  intro world world' like
  exact .value value like

/-- Halting for alike reasons is alike. -/
theorem halt {first second : Halt} (alike : first.Like likeness second)
    : Like likeness (Run.halt first : Run α) (Run.halt second) := by
  intro world world' like
  exact .halt alike like

/-- A run that is too deep is like any other. -/
theorem tooDeep (other : Run α) : Like likeness (Run.halt .tooDeep) other := by
  intro world world' _
  exact .tooDeep world (other.run.run world')

/-- Sequences of alike parts are alike, by how the first parts end. -/
theorem bind {first second : Run α} {next next' : α → Run β} (start : Like likeness first second)
    (rest : ∀ value, Like likeness (next value) (next' value))
    : Like likeness (first >>= next) (second >>= next') := by
  intro world world' like
  have ends := start world world' like
  rw [run_bind, run_bind]
  generalize first.run.run world = done at ends
  generalize second.run.run world' = done' at ends
  cases ends with
  | value value after => exact rest value _ _ after
  | halt alike after => exact .halt alike after
  | tooDeep after other => exact .tooDeep after _

/-- Both runs go on with what they see of their worlds. -/
theorem ofGet {next next' : World → Run α}
    (rest : ∀ world world', World.Like likeness world world' →
      Like likeness (next world) (next' world'))
    : Like likeness (get >>= next) (get >>= next') := by
  intro world world' like
  exact rest world world' like world world' like

/-- Changes that keep worlds alike are alike. -/
theorem ofModify {change change' : World → World}
    (kept : ∀ world world', World.Like likeness world world' →
      World.Like likeness (change world) (change' world'))
    : Like likeness (modify change) (modify change') := by
  intro world world' like
  exact .value () (kept world world' like)

/-- Changes that keep worlds alike and give the same value are alike. -/
theorem ofModifyGet {change change' : World → α × World}
    (kept : ∀ world world', World.Like likeness world world' →
      (change' world').1 = (change world).1
        ∧ World.Like likeness (change world).2 (change' world').2)
    : Like likeness (modifyGet change : Run α) (modifyGet change') := by
  intro world world' like
  obtain ⟨same, after⟩ := kept world world' like
  have ends : EndsAlike likeness (.ok (change world).1, (change world).2)
      (.ok (change' world').1, (change' world').2) := by
    rw [same]
    exact .value (change world).1 after
  exact ends

/-- Steps on related items are alike in turn, by induction on the pairs. -/
theorem forM {γ : Type} {related : γ → γ → Prop} {items items' : List γ} {step step' : γ → Run Unit}
    (pairs : List.Forall₂ related items items')
    (each : ∀ item item', related item item' → Like likeness (step item) (step' item'))
    : Like likeness (items.forM step) (items'.forM step') := by
  induction pairs with
  | nil => exact .pure ()
  | cons head _ ih => exact (each _ _ head).bind fun _ => ih

/-- Values of related items are alike in turn, by induction on the pairs. -/
theorem mapM {γ : Type} {related : γ → γ → Prop} {items items' : List γ} {step step' : γ → Run α}
    (pairs : List.Forall₂ related items items')
    (each : ∀ item item', related item item' → Like likeness (step item) (step' item'))
    : Like likeness (items.mapM step) (items'.mapM step') := by
  induction pairs with
  | nil => exact .pure []
  | cons head _ ih =>
      rw [List.mapM_cons, List.mapM_cons]
      exact (each _ _ head).bind fun value => ih.bind fun values => .pure (value :: values)

-- Single steps

/-- Notes of an event and its renaming are alike. -/
theorem note (event : TraceEvent)
    : Like likeness (Run.note event) (Run.note (event.renamed likeness.rename)) :=
  .ofModify fun _ _ like => like.record event

/-- Runs that print the same are alike. -/
theorem print (text : String) : Like likeness (Run.print text) (Run.print text) :=
  .ofModify fun _ _ like => like.print text

/-- Runs that define alike names are alike. -/
theorem define (scope : Nat) {name name' : Token} (names : likeness.Name name name')
    (value : Value)
    : Like likeness (Run.define scope name.lexeme value) (Run.define scope name'.lexeme value) := by
  rw [names.2]
  exact .ofModify fun _ _ like => like.define scope name.lexeme value

/-- Runs that make a scope are alike. -/
theorem addScope (parent : Nat) : Like likeness (Run.addScope parent) (Run.addScope parent) :=
  .ofModifyGet fun _ _ like => like.addScope (some parent)

/-- Runs that make alike functions are alike. -/
theorem addFunction (name : String) {closure closure' : Closure}
    (alike : closure.Like likeness closure')
    : Like likeness (Run.addFunction name closure) (Run.addFunction name closure') :=
  .ofModifyGet fun _ _ like => like.addFunction name alike

/-- Looking up alike names is alike, since renaming keeps values; a missing name is missing on
both sides. -/
theorem lookUp {name name' : Token} (names : likeness.Name name name') (scope : Nat)
    : Like likeness (Run.lookUp name scope) (Run.lookUp name' scope) := by
  refine .ofGet fun world world' like => ?_
  rw [names.2, like.value?_rename]
  cases world.value? scope name.lexeme with
  | none => exact .halt (.undefined names)
  | some value => exact .pure value

/-- Assigning to alike names is alike, for the same reason. -/
theorem assign {name name' : Token} (names : likeness.Name name name') (value : Value)
    (scope : Nat)
    : Like likeness (Run.assign name value scope) (Run.assign name' value scope) := by
  refine .ofGet fun world world' like => ?_
  rw [names.2, like.forest, Forest.assign?_renamed likeness.injective]
  cases world.forest.assign? scope name.lexeme value with
  | none => exact .halt (.undefined names)
  | some forest =>
      intro _ _ _
      exact .value () { like with forest := rfl }

/-- A fault blamed on alike signs is alike, unless it is about a name. -/
theorem blame {token token' : Token} (signs : likeness.Sign token token')
    {result : Except Fault α} (defined : ∀ fault, result = .error fault → fault.isUndefined = false)
    : Like likeness (Run.ofExcept (token.blame result)) (Run.ofExcept (token'.blame result)) := by
  cases result with
  | ok value => exact .pure value
  | error fault => exact .halt (.failed (defined fault rfl) signs)

/-- Alike unary signs do the same, since they are of one kind. -/
theorem applyUnary {operator operator' : Token} (signs : likeness.Sign operator operator')
    (operand : Value)
    : Like likeness (Run.ofExcept (operator.applyUnary operand))
        (Run.ofExcept (operator'.applyUnary operand)) := by
  rw [Token.applyUnary, Token.applyUnary, signs.2.1, signs.2.2]
  cases UnaryOperator.ofKind? operator.kind with
  | none => exact .halt (.unsupportedUnary operator.lexeme)
  | some meaning => exact .blame signs fun _ => UnaryOperator.isUndefined_apply

/-- Alike binary signs do the same, since they are of one kind. -/
theorem applyBinary {operator operator' : Token} (signs : likeness.Sign operator operator')
    (left right : Value)
    : Like likeness (Run.ofExcept (operator.applyBinary left right))
        (Run.ofExcept (operator'.applyBinary left right)) := by
  rw [Token.applyBinary, Token.applyBinary, signs.2.1, signs.2.2]
  cases BinaryOperator.ofKind? operator.kind with
  | none => exact .halt (.unsupportedBinary operator.lexeme)
  | some meaning => exact .blame signs fun _ => BinaryOperator.isUndefined_apply

-- Calls

variable {execute execute' : Stmt → Nat → Run Unit}

/-- Binding alike parameters is alike, by induction on them. -/
theorem bindParams (scope : Nat) {params params' : List Token}
    (names : List.Forall₂ likeness.Name params params') (arguments : List Value)
    : Like likeness (Run.bindParams scope params arguments)
        (Run.bindParams scope params' arguments) := by
  induction names generalizing arguments with
  | nil => exact .pure ()
  | cons head _ ih =>
      cases arguments with
      | nil => exact .pure ()
      | cons argument rest => exact (define scope head argument).bind fun _ => ih rest

/-- Entering alike closures is alike if alike statements are. -/
theorem enter (executes : ∀ stmt stmt' scope, stmt.Like likeness stmt' →
      Like likeness (execute stmt scope) (execute' stmt' scope))
    {closure closure' : Closure} (alike : closure.Like likeness closure')
    (arguments : List Value)
    : Like likeness (Run.enter execute closure arguments)
        (Run.enter execute' closure' arguments) := by
  rw [Run.enter, Run.enter, alike.scope]
  refine (addScope closure.scope).bind fun scope => ?_
  refine (bindParams scope alike.params arguments).bind fun _ => ?_
  exact forM alike.body fun stmt stmt' like => executes stmt stmt' scope like

/-- Calls are alike if alike statements are: the same key leads to alike closures, with as many
parameters. -/
theorem call (executes : ∀ stmt stmt' scope, stmt.Like likeness stmt' →
      Like likeness (execute stmt scope) (execute' stmt' scope))
    (callee : Value) (arguments : List Value) {paren paren' : Token}
    (parens : likeness.Sign paren paren')
    : Like likeness (Run.call execute callee arguments paren)
        (Run.call execute' callee arguments paren') := by
  refine .ofGet fun world world' like => ?_
  rcases like.function? callee with ⟨none, none'⟩ | ⟨ref, closure, closure', some, some', alike⟩
  · rw [none, none']
    exact .halt (.failed rfl parens)
  · rw [some, some']
    simp only [alike.params.length_eq]
    split
    · refine (note (.called ref.name arguments)).bind fun _ => ?_
      refine (enter executes alike arguments).bind fun _ => ?_
      exact .pure Value.nil
    · exact .halt (.failed rfl parens)

end Run.Like

-- Trees

namespace Run

/-- Ways to run trees that treat trees that are alike the same. -/
structure Agree (likeness : Likeness) (evaluate evaluate' : Expr → Nat → Run Value)
    (execute execute' : Stmt → Nat → Run Unit) : Prop where
  evaluates : ∀ expr expr' scope, expr.Like likeness expr' →
    Like likeness (evaluate expr scope) (evaluate' expr' scope)
  executes : ∀ stmt stmt' scope, stmt.Like likeness stmt' →
    Like likeness (execute stmt scope) (execute' stmt' scope)

variable {evaluate evaluate' : Expr → Nat → Run Value} {execute execute' : Stmt → Nat → Run Unit}

/-- Alike statements are executed alike if their parts are, by cases on how they are alike. -/
theorem Agree.executeWith (agree : Agree likeness evaluate evaluate' execute execute')
    {stmt stmt' : Stmt} (alike : stmt.Like likeness stmt') (scope : Nat)
    : Like likeness (Run.executeWith evaluate execute stmt scope)
        (Run.executeWith evaluate' execute' stmt' scope) := by
  have sameForm : stmt'.form = stmt.form := by cases alike <;> rfl
  unfold Run.executeWith
  rw [sameForm]
  refine (Like.note (.executing stmt.form)).bind fun _ => ?_
  cases alike with
  | expression exprs => exact (agree.evaluates _ _ scope exprs).bind fun _ => .pure ()
  | print exprs =>
      refine (agree.evaluates _ _ scope exprs).bind fun value => ?_
      exact Like.print (value.display ++ "\n")
  | @declare name name' initial initial' names initials =>
      have evaluated : Like likeness (initial.elim (Pure.pure .nil) (evaluate · scope))
          (initial'.elim (Pure.pure .nil) (evaluate' · scope)) := by
        cases initials with
        | none => exact .pure Value.nil
        | some exprs => exact agree.evaluates _ _ scope exprs
      refine evaluated.bind fun value => ?_
      refine (Like.define scope names value).bind fun _ => ?_
      rw [names.2]
      exact Like.note (.declared name.lexeme value)
  | @function name name' params params' body body' names kept paramNames bodies =>
      have sameName : name'.lexeme = name.lexeme := names.2.trans kept
      have closures : Closure.Like likeness ⟨params, body, scope⟩ ⟨params', body', scope⟩ :=
        ⟨paramNames, bodies, rfl⟩
      have defined (ref : FunctionRef)
          : Like likeness (Run.define scope name.lexeme (.function ref))
              (Run.define scope name'.lexeme (.function ref)) := .define scope names _
      simp only [sameName] at defined ⊢
      refine (Like.addFunction name.lexeme closures).bind fun ref => ?_
      refine (defined ref).bind fun _ => ?_
      exact Like.note (.definedFunction name.lexeme ref.arity)
  | block bodies =>
      refine (Like.addScope scope).bind fun inner => ?_
      refine .ofGet fun world world' like => ?_
      rw [like.forest, Forest.depth_renamed]
      refine (Like.note (.enteredBlock _)).bind fun _ => ?_
      refine (Like.forM bodies fun stmt stmt' => agree.executes stmt stmt' inner).bind fun _ => ?_
      exact Like.note (.leftBlock _)

/-- Trees that are alike are run alike by limited evaluation, if the second limit is no lower.
By induction on the first limit; a pair of parentheses that only the first tree has takes a level
from the first limit alone. -/
theorem agree_of_le {limit limit' : Nat} (more : limit ≤ limit')
    : Agree likeness (Run.evaluate limit) (Run.evaluate limit') (Run.execute limit)
        (Run.execute limit') := by
  induction limit generalizing limit' with
  | zero =>
      constructor
      · intro expr expr' scope _
        exact Like.tooDeep _
      · intro stmt stmt' scope _
        exact Like.tooDeep _
  | succ limit ih =>
      obtain ⟨limit', rfl⟩ : ∃ lower, limit' = lower + 1 := ⟨limit' - 1, by omega⟩
      have inner := ih (Nat.le_of_succ_le_succ more)
      constructor
      · intro expr expr' scope alike
        cases alike with
        -- the second tree has no parentheses here, so its limit stays as it is
        | unwrapped alike => exact (ih (Nat.le_of_succ_le more)).evaluates _ _ scope alike
        | literal value => exact .pure value
        | grouping alike => exact inner.evaluates _ _ scope alike
        | reference names => exact .lookUp names scope
        | assign names values =>
            refine (inner.evaluates _ _ scope values).bind fun value => ?_
            refine (Like.assign names value scope).bind fun _ => ?_
            exact .pure value
        | unary signs operands =>
            refine (inner.evaluates _ _ scope operands).bind fun operand => ?_
            exact .applyUnary signs operand
        | binary lefts signs rights =>
            refine (inner.evaluates _ _ scope lefts).bind fun left => ?_
            refine (inner.evaluates _ _ scope rights).bind fun right => ?_
            exact .applyBinary signs left right
        | call callees parens arguments =>
            refine (inner.evaluates _ _ scope callees).bind fun callee => ?_
            refine (Like.mapM arguments fun expr expr' =>
              inner.evaluates expr expr' scope).bind fun values => ?_
            exact .call inner.executes callee values parens
      · intro stmt stmt' scope alike
        exact inner.executeWith alike scope

/-- Programs that are alike run alike. -/
theorem program_like {limit limit' : Nat} (more : limit ≤ limit') {program program' : List Stmt}
    (alike : List.Forall₂ (Stmt.Like likeness) program program') (scope : Nat)
    : Like likeness (Run.program limit program scope) (Run.program limit' program' scope) :=
  Like.forM alike fun stmt stmt' => (agree_of_le more).executes stmt stmt' scope

end Run

end Sprig
