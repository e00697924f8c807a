import Sprig.Proofs.Grammar.Limits
import Sprig.Proofs.Machine.Sessions

/-! The nesting limit of a run shows only where the limit is reached. With a higher limit, a run
that ended ends the same way and leaves the same world, and a run that reached its limit prints and
traces what it had before, and may go on.
-/

namespace Sprig

/-- The later world has printed and traced what the earlier one has, and maybe more. -/
structure World.Precedes (world later : World) : Prop where
  printed : world.printed.toList <+: later.printed.toList
  events : world.events.toList <+: later.events.toList

namespace World.Precedes

variable {world later last : World}

/-- A world that shows the same comes before it. -/
theorem of_same (printed : later.printed = world.printed) (events : later.events = world.events)
    : world.Precedes later where
  printed := printed ▸ List.prefix_rfl
  events := events ▸ List.prefix_rfl

/-- A world comes before itself. -/
theorem refl (world : World) : world.Precedes world :=
  of_same rfl rfl

/-- What comes before composes, as prefixes do. -/
theorem trans (early : world.Precedes later) (late : later.Precedes last) : world.Precedes last :=
  ⟨early.printed.trans late.printed, early.events.trans late.events⟩

/-- Recording adds at most one event at the end. -/
theorem record (world : World) (event : TraceEvent) : world.Precedes (world.record event) := by
  unfold World.record
  split
  · exact ⟨List.prefix_rfl, by simp⟩
  · exact refl world

/-- Printing adds at the end. -/
theorem print (world : World) (text : String) : world.Precedes (world.print text) where
  printed := by simp [World.print]
  events := List.prefix_rfl

end World.Precedes

namespace Run

variable {α β : Type}

/-- The run takes back nothing that was printed or traced. -/
def OnlyAdds (run : Run α) : Prop :=
  ∀ world : World, world.Precedes (run.run.run world).2

/-- A sequence only adds if its parts do, by whether the first gives a value. -/
theorem OnlyAdds.bind {run : Run α} {next : α → Run β} (adds : run.OnlyAdds)
    (continues : ∀ value, (next value).OnlyAdds)
    : (run >>= next).OnlyAdds := by
  intro world
  have first := adds world
  rw [run_bind]
  generalize run.run.run world = done at first
  rcases done with ⟨halt | value, after⟩
  · exact first
  · exact first.trans (continues value after)

/-- How a run ends, and how it ends with a higher limit. -/
structure EndsDeeper (ending deeper : Except Halt α × World) : Prop where
  unchanged : ending.1 ≠ .error .tooDeep → deeper = ending
  begun : ending.1 = .error .tooDeep → ending.2.Precedes deeper.2

/-- The second run does what the first does, and may go on where the first reaches its limit. -/
structure DeepensTo (run deeper : Run α) : Prop where
  ends : ∀ world, EndsDeeper (run.run.run world) (deeper.run.run world)
  adds : deeper.OnlyAdds

namespace DeepensTo

/-- A run on which the limit has no influence. -/
theorem refl {run : Run α} (adds : run.OnlyAdds) : DeepensTo run run where
  ends _ := ⟨fun _ => rfl, fun _ => .refl _⟩
  adds := adds

/-- A value given back does not depend on the limit. -/
theorem pure (value : α) : DeepensTo (Pure.pure value) (Pure.pure value) :=
  refl .refl

/-- Halting does not depend on the limit. -/
theorem halt (halt : Halt) : DeepensTo (Run.halt halt : Run α) (Run.halt halt) :=
  refl .refl

/-- A run that has reached the limit shows a part of any deeper one that only adds. -/
theorem tooDeep {deeper : Run α} (adds : deeper.OnlyAdds)
    : DeepensTo (Run.halt .tooDeep) deeper where
  ends world := ⟨fun shallow => absurd rfl shallow, fun _ => adds world⟩
  adds := adds

/-- A sequence deepens in both parts: where the first reached the limit the deeper one goes on
from there and only adds, and otherwise both parts end alike. -/
theorem bind {first first' : Run α} {next next' : α → Run β} (deepens : DeepensTo first first')
    (continues : ∀ value, DeepensTo (next value) (next' value))
    : DeepensTo (first >>= next) (first' >>= next') where
  adds := deepens.adds.bind fun value => (continues value).adds
  ends world := by
    have ends := deepens.ends world
    rw [run_bind, run_bind]
    generalize first.run.run world = done, first'.run.run world = done' at ends
    obtain ⟨result, after⟩ := done
    by_cases deep : result = .error .tooDeep
    · -- the second run may go on, and adds to what it has in common with the first
      subst deep
      have before := ends.begun rfl
      refine ⟨fun shallow => absurd rfl shallow, fun _ => ?_⟩
      rcases done' with ⟨halt | value, after'⟩
      · exact before
      · exact before.trans ((continues value).adds after')
    · obtain rfl := ends.unchanged deep
      cases result with
      | error halt => exact ⟨fun _ => rfl, fun _ => .refl _⟩
      | ok value => exact (continues value).ends after

/-- Both runs go on with what they see of the world. -/
theorem ofGet {next next' : World → Run α}
    (continues : ∀ world, DeepensTo (next world) (next' world))
    : DeepensTo (get >>= next) (get >>= next') where
  ends world := (continues world).ends world
  adds world := (continues world).adds world

/-- Steps in turn deepen if each does, by induction on the items. -/
theorem forM {γ : Type} {step step' : γ → Run Unit}
    (each : ∀ item, DeepensTo (step item) (step' item)) (items : List γ)
    : DeepensTo (items.forM step) (items.forM step') := by
  induction items with
  | nil => exact pure ()
  | cons item rest ih => exact (each item).bind fun _ => ih

/-- Values in turn deepen if each does, by induction on the items. -/
theorem mapM {γ : Type} {step step' : γ → Run α}
    (each : ∀ item, DeepensTo (step item) (step' item)) (items : List γ)
    : DeepensTo (items.mapM step) (items.mapM step') := by
  induction items with
  | nil => exact pure []
  | cons item rest ih =>
      rw [List.mapM_cons, List.mapM_cons]
      exact (each item).bind fun value => ih.bind fun values => pure (value :: values)

-- Single steps

/-- Notes do not depend on the limit. -/
theorem note (event : TraceEvent) : DeepensTo (Run.note event) (Run.note event) :=
  refl fun world => .record world event

/-- Printing in a run does not depend on the limit. -/
theorem print (text : String) : DeepensTo (Run.print text) (Run.print text) :=
  refl fun world => .print world text

/-- Definitions do not depend on the limit. -/
theorem define (scope : Nat) (name : String) (value : Value)
    : DeepensTo (Run.define scope name value) (Run.define scope name value) :=
  refl fun _ => .of_same rfl rfl

/-- Making a scope does not depend on the limit. -/
theorem addScope (parent : Nat) : DeepensTo (Run.addScope parent) (Run.addScope parent) :=
  refl fun _ => .of_same rfl rfl

/-- Making a function does not depend on the limit. -/
theorem addFunction (name : String) (closure : Closure)
    : DeepensTo (Run.addFunction name closure) (Run.addFunction name closure) :=
  refl fun _ => .of_same rfl rfl

/-- A result that is there already does not depend on the limit. -/
theorem ofExcept (result : Except Halt α)
    : DeepensTo (Run.ofExcept result) (Run.ofExcept result) := by
  cases result with
  | ok value => exact pure value
  | error reason => exact halt reason

/-- Looking up a name does not depend on the limit. -/
theorem lookUp (name : Token) (scope : Nat)
    : DeepensTo (Run.lookUp name scope) (Run.lookUp name scope) := by
  refine ofGet fun world => ?_
  cases world.value? scope name.lexeme with
  | none => exact halt _
  | some value => exact pure value

/-- Assigning does not depend on the limit, and it shows nothing whether the name is found or not.
-/
theorem assign (name : Token) (value : Value) (scope : Nat)
    : DeepensTo (Run.assign name value scope) (Run.assign name value scope) := by
  refine refl fun world => ?_
  have seen : (get : Run World).run.run world = (.ok world, world) := rfl
  rw [Run.assign, run_bind, seen]
  dsimp only
  cases world.forest.assign? scope name.lexeme value with
  | none => exact .refl world
  | some forest => exact .of_same rfl rfl

/-- Binding parameters does not depend on the limit, as the definitions it consists of. -/
theorem bindParams (scope : Nat) (params : List Token) (arguments : List Value)
    : DeepensTo (Run.bindParams scope params arguments)
        (Run.bindParams scope params arguments) := by
  unfold Run.bindParams
  exact forM (fun (param, argument) => define scope param.lexeme argument) _

-- Calls

section Calls

variable {execute execute' : Stmt → Nat → Run Unit}
  (executes : ∀ stmt scope, DeepensTo (execute stmt scope) (execute' stmt scope))

include executes

/-- Entering a closure deepens with the statements of its body. -/
theorem enter (closure : Closure) (arguments : List Value)
    : DeepensTo (Run.enter execute closure arguments) (Run.enter execute' closure arguments) := by
  refine (addScope closure.scope).bind fun scope => ?_
  refine (bindParams scope closure.params arguments).bind fun _ => ?_
  exact forM (executes · scope) closure.body

/-- A call deepens with the body that it enters; whether it is refused depends on the world alone.
-/
theorem call (callee : Value) (arguments : List Value) (paren : Token)
    : DeepensTo (Run.call execute callee arguments paren)
        (Run.call execute' callee arguments paren) := by
  refine ofGet fun world => ?_
  cases world.function? callee with
  | none => exact halt _
  | some made =>
      obtain ⟨ref, closure⟩ := made
      by_cases fits : closure.params.length = arguments.length
      · simp only [if_pos fits]
        refine (note (.called ref.name arguments)).bind fun _ => ?_
        refine (enter executes closure arguments).bind fun _ => ?_
        exact pure Value.nil
      · simp only [if_neg fits]
        exact halt _

end Calls

-- Trees

section Trees

variable {evaluate evaluate' : Expr → Nat → Run Value} {execute execute' : Stmt → Nat → Run Unit}
  (evaluates : ∀ expr scope, DeepensTo (evaluate expr scope) (evaluate' expr scope))
  (executes : ∀ stmt scope, DeepensTo (execute stmt scope) (execute' stmt scope))

include evaluates executes

/-- An expression deepens with its operands and with the bodies that it calls, by cases on it. -/
theorem evaluateWith (expr : Expr) (scope : Nat)
    : DeepensTo (Run.evaluateWith evaluate execute expr scope)
        (Run.evaluateWith evaluate' execute' expr scope) := by
  cases expr with
  | literal value => exact pure value
  | grouping inner => exact evaluates inner scope
  | reference name => exact lookUp name scope
  | assign name initial =>
      refine (evaluates initial scope).bind fun value => ?_
      refine (assign name value scope).bind fun _ => ?_
      exact pure value
  | unary operator operand =>
      refine (evaluates operand scope).bind fun value => ?_
      exact ofExcept (operator.applyUnary value)
  | binary left operator right =>
      refine (evaluates left scope).bind fun first => ?_
      refine (evaluates right scope).bind fun second => ?_
      exact ofExcept (operator.applyBinary first second)
  | call callee paren arguments =>
      refine (evaluates callee scope).bind fun callee => ?_
      refine (mapM (evaluates · scope) arguments).bind fun values => ?_
      exact call executes callee values paren

/-- A statement deepens with its expressions and with the statements in it, by cases on it. -/
theorem executeWith (stmt : Stmt) (scope : Nat)
    : DeepensTo (Run.executeWith evaluate execute stmt scope)
        (Run.executeWith evaluate' execute' stmt scope) := by
  unfold Run.executeWith
  refine (note (.executing stmt.form)).bind fun _ => ?_
  cases stmt with
  | expression expr => exact (evaluates expr scope).bind fun _ => pure ()
  | print expr =>
      refine (evaluates expr scope).bind fun value => ?_
      exact print (value.display ++ "\n")
  | declare name initial =>
      have evaluated : DeepensTo (initial.elim (Pure.pure .nil) (evaluate · scope))
          (initial.elim (Pure.pure .nil) (evaluate' · scope)) := by
        cases initial with
        | none => exact pure Value.nil
        | some expr => exact evaluates expr scope
      refine evaluated.bind fun value => ?_
      refine (define scope name.lexeme value).bind fun _ => ?_
      exact note (.declared name.lexeme value)
  | function name params body =>
      refine (addFunction name.lexeme ⟨params, body, scope⟩).bind fun ref => ?_
      refine (define scope name.lexeme (.function ref)).bind fun _ => ?_
      exact note (.definedFunction name.lexeme ref.arity)
  | block body =>
      refine (addScope scope).bind fun inner => ?_
      refine ofGet fun world => ?_
      refine (note (.enteredBlock _)).bind fun _ => ?_
      refine (forM (executes · inner) body).bind fun _ => ?_
      exact note (.leftBlock _)

end Trees

end DeepensTo

/-- Whatever its limit is, a run only adds to what was printed and traced. -/
theorem onlyAdds (limit : Nat)
    : (∀ expr scope, (evaluate limit expr scope).OnlyAdds)
      ∧ ∀ stmt scope, (execute limit stmt scope).OnlyAdds := by
  induction limit with
  | zero => exact ⟨fun _ _ => .refl, fun _ _ => .refl⟩
  | succ limit ih =>
      have evaluates (expr : Expr) (scope : Nat)
          : DeepensTo (evaluate limit expr scope) (evaluate limit expr scope) :=
        .refl (ih.1 expr scope)
      have executes (stmt : Stmt) (scope : Nat)
          : DeepensTo (execute limit stmt scope) (execute limit stmt scope) :=
        .refl (ih.2 stmt scope)
      exact ⟨fun expr scope => (DeepensTo.evaluateWith evaluates executes expr scope).adds,
        fun stmt scope => (DeepensTo.executeWith evaluates executes stmt scope).adds⟩

/-- Trees are run alike with a higher limit, as far as the lower one lets them. By induction on the
lower limit.
-/
theorem deepens {limit limit' : Nat} (le : limit ≤ limit')
    : (∀ expr scope, DeepensTo (evaluate limit expr scope) (evaluate limit' expr scope))
      ∧ ∀ stmt scope, DeepensTo (execute limit stmt scope) (execute limit' stmt scope) := by
  induction limit generalizing limit' with
  | zero =>
      obtain ⟨evaluates, executes⟩ := onlyAdds limit'
      exact ⟨fun expr scope => .tooDeep (evaluates expr scope),
        fun stmt scope => .tooDeep (executes stmt scope)⟩
  | succ limit ih =>
      obtain ⟨lower, rfl⟩ : ∃ lower, limit' = lower + 1 := ⟨limit' - 1, by omega⟩
      obtain ⟨evaluates, executes⟩ := ih (Nat.le_of_succ_le_succ le)
      exact ⟨fun expr scope => .evaluateWith evaluates executes expr scope,
        fun stmt scope => .executeWith evaluates executes stmt scope⟩

/-- A program deepens, as its statements in turn. -/
theorem program_deepens {limit limit' : Nat} (le : limit ≤ limit') (statements : List Stmt)
    (scope : Nat)
    : DeepensTo (Run.program limit statements scope) (Run.program limit' statements scope) :=
  .forM ((deepens le).2 · scope) statements

end Run

/-- A run is reported as too deep just when its result says so. -/
theorem Ending.isTooDeep_ofResult_iff {result : Except Halt Unit}
    : (Ending.ofResult result).isTooDeep = true ↔ result = .error .tooDeep := by
  rcases result with (_ | _ | _ | _) | _ <;> simp [Ending.ofResult, Ending.isTooDeep]

namespace Session

/-- What running a text leads to, and what it leads to with a higher limit. -/
structure RunsDeeper (ran deeper : Outcome × Session) : Prop where
  unchanged : ran.1.ending.isTooDeep = false → deeper = ran
  begun : ran.1.ending.isTooDeep = true → ran.1.printed.toList <+: deeper.1.printed.toList

/-- A text is read and run with the same limit, and may reach it in either way. -/
theorem run_deepens (session : Session) {limit limit' : Nat} (le : limit ≤ limit')
    (source : String)
    : RunsDeeper (session.run limit source) (session.run limit' source) := by
  cases reads : (Lexed.ofSource source).stream.program limit with
  | error failure =>
      cases failure with
      | rejected error =>
          have reads' := (TokenStream.program_of_le _ le (by simp [reads])).trans reads
          rw [run_of_failure reads, run_of_failure reads']
          exact ⟨fun _ => rfl, fun _ => List.prefix_rfl⟩
      -- the text was not read, so nothing was printed; with the higher limit it may be read and run
      | tooDeep =>
          rw [run_of_failure reads]
          refine ⟨fun shallow => absurd shallow.symm Bool.false_ne_true, fun _ => ?_⟩
          cases reads' : (Lexed.ofSource source).stream.program limit' with
          | error failure =>
              have printed : (session.run limit' source).1.printed = session.world.printed := by
                rw [run_of_failure reads']
              exact printed ▸ List.prefix_rfl
          | ok program =>
              rw [run_of_program reads' (Prod.eta _).symm]
              exact ((Run.program_deepens (Nat.le_refl limit') program globalScope).adds _).printed
  | ok program =>
      have reads' := (TokenStream.program_of_le _ le (by simp [reads])).trans reads
      have ends := (Run.program_deepens le program globalScope).ends session.world
      rw [run_of_program reads (Prod.eta _).symm, run_of_program reads' (Prod.eta _).symm]
      constructor
      · intro shallow
        rw [ends.unchanged fun deep => ?_]
        rw [← Ending.isTooDeep_ofResult_iff] at deep
        exact Bool.false_ne_true (shallow.symm.trans deep)
      · intro deep
        exact (ends.begun (Ending.isTooDeep_ofResult_iff.mp deep)).printed

end Session

/-- The limit shows only where it is reached. A program, an expression or a text that does not reach
it ends the same way with a higher limit, with the same output, scopes and functions and the same
trace. What is printed before it is reached is printed with a higher limit too, before anything else.
-/
theorem Run.limit_shows_when_reached {limit limit' : Nat} (le : limit ≤ limit') (world : World)
    : (∀ program scope, EndsDeeper ((Run.program limit program scope).run.run world)
        ((Run.program limit' program scope).run.run world))
      ∧ (∀ expr scope, EndsDeeper ((Run.evaluate limit expr scope).run.run world)
          ((Run.evaluate limit' expr scope).run.run world))
      ∧ ∀ source, Session.RunsDeeper ((⟨world⟩ : Session).run limit source)
          ((⟨world⟩ : Session).run limit' source) := by
  refine ⟨?_, ?_, ?_⟩
  · intro program scope
    exact (Run.program_deepens le program scope).ends world
  · intro expr scope
    exact ((Run.deepens le).1 expr scope).ends world
  · intro source
    exact Session.run_deepens ⟨world⟩ le source

/-- A function is called in a function. The call is too deep for one limit, and with any higher limit
it makes no difference what the limit is.
-/
theorem Run.limit_shows_when_reached_call
    : ∃ source program world, source = "fun g() { print 2; } fun f() { print 1; g(); } f(); print 3;"
      ∧ (Lexed.ofSource source).stream.program 6 = .ok program ∧ world = (Session.start 0).world
      ∧ (Ending.ofResult ((Run.program 5 program 0).run.run world).1).isTooDeep = true
      ∧ ((Run.program 5 program 0).run.run world).2.printed = "1\n"
      ∧ "1\n".toList <+: ((Run.program depthLimit program 0).run.run world).2.printed.toList
      ∧ ((Session.start 0).run 6 source).1.ending = .completed
      ∧ (Session.start 0).run depthLimit source = (Session.start 0).run 6 source := by
  obtain ⟨source, isSource⟩ : ∃ source,
      source = "fun g() { print 2; } fun f() { print 1; g(); } f(); print 3;" := ⟨_, rfl⟩
  obtain ⟨program, isProgram⟩ : ∃ program,
      program = ((Lexed.ofSource source).stream.program 6).toOption.getD [] := ⟨_, rfl⟩
  obtain ⟨world, isWorld⟩ : ∃ world, world = (Session.start 0).world := ⟨_, rfl⟩
  have reads : (Lexed.ofSource source).stream.program 6 = .ok program := by
    rw [isProgram, isSource]
    exact ok_getD_toOption (by decide +kernel) []
  have deep : (Ending.ofResult ((Run.program 5 program 0).run.run world).1).isTooDeep = true := by
    rw [isProgram, isSource, isWorld]
    decide +kernel
  have printed : ((Run.program 5 program 0).run.run world).2.printed = "1\n" := by
    rw [isProgram, isSource, isWorld]
    decide +kernel
  have completed : ((Session.start 0).run 6 source).1.ending = .completed := by
    rw [isSource]
    decide +kernel
  have begun := ((limit_shows_when_reached (show 5 ≤ depthLimit by decide) world).1 program 0).begun
    (Ending.isTooDeep_ofResult_iff.mp deep)
  have unchanged := ((limit_shows_when_reached (show 6 ≤ depthLimit by decide)
    (Session.start 0).world).2.2 source).unchanged (by rw [completed]; rfl)
  refine ⟨source, program, world, isSource, reads, isWorld, deep, printed, ?_, completed, unchanged⟩
  rw [← printed]
  exact begun.printed

end Sprig
