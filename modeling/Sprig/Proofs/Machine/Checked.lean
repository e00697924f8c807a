import Sprig.Proofs.Machine.Sessions

/-! Checks of trees. If every program of a session passes a check with all its parts, so does
everything that the session runs, since functions keep the trees that they were read with. Where a
program halts, it is an expression that has passed the check that halts it.
-/

namespace Sprig

/-- The expression can halt a program by itself, once its operands have their values. -/
inductive Expr.Raises : Expr → Halt → Prop where
  | reference (name : Token) :
      Raises (.reference name) (.failed ⟨.undefinedVariable name.lexeme, name⟩)
  | assign (name : Token) (value : Expr) :
      Raises (.assign name value) (.failed ⟨.undefinedVariable name.lexeme, name⟩)
  | unary {operator : Token} {operand : Expr} {value : Value} {halt : Halt} :
      operator.applyUnary value = .error halt → Raises (.unary operator operand) halt
  | binary {left right : Expr} {operator : Token} {first second : Value} {halt : Halt} :
      operator.applyBinary first second = .error halt → Raises (.binary left operator right) halt
  | call (callee : Expr) (paren : Token) (arguments : List Expr) (fault : Fault) :
      Raises (.call callee paren arguments) (.failed ⟨fault, paren⟩)

/-- All trees of the functions made so far pass the check. -/
def World.Passes (check : Expr → Bool) (world : World) : Prop :=
  ∀ closure ∈ world.functions, ∀ stmt ∈ closure.body, stmt.parts.all check

namespace World.Passes

variable {check : Expr → Bool} {world later : World} (passes : world.Passes check)

include passes

/-- Worlds with the same closures pass the same checks. -/
theorem of_same (same : later.functions = world.functions) : later.Passes check := by
  unfold Passes
  rw [same]
  exact passes

/-- Printing keeps all closures. -/
theorem print (text : String) : (world.print text).Passes check :=
  passes.of_same rfl

/-- Definitions keep all closures. -/
theorem define (scope : Nat) (name : String) (value : Value)
    : (world.define scope name value).Passes check :=
  passes.of_same rfl

/-- Making a scope keeps all closures. -/
theorem addScope (parent : Option Nat) : (world.addScope parent).2.Passes check :=
  passes.of_same rfl

/-- A new closure passes if its body does. -/
theorem addFunction (name : String) {closure : Closure}
    (body : ∀ stmt ∈ closure.body, stmt.parts.all check)
    : (world.addFunction name closure).2.Passes check := by
  intro found member
  rcases Array.mem_push.mp member with member | rfl
  · exact passes found member
  · exact body

end World.Passes

/-- Only trees that pass the check are run, at whatever time a function is called. -/
def Discipline.checked (check : Expr → Bool) : Discipline where
  State := { world : World // world.Passes check }
  world := Subtype.val
  leads := fun _ _ => True
  mayHold := fun _ _ => True
  mayEvaluate := fun _ _ expr => expr.parts.all check
  mayRun := fun _ _ stmts => ∀ stmt ∈ stmts, stmt.parts.all check
  mayHalt := fun halt => halt = .tooDeep ∨ ∃ expr, check expr ∧ expr.Raises halt
  leads_refl := fun _ => trivial
  leads_trans := fun _ _ => trivial
  hold_later := fun _ _ => trivial
  evaluate_later := fun _ allowed => allowed
  run_later := fun _ allowed => allowed
  record := fun state event =>
    ⟨⟨_, state.property.of_same (World.functions_record _ event)⟩, rfl, trivial⟩
  print := fun state text => ⟨⟨_, state.property.print text⟩, rfl, trivial⟩
  data := fun _ => trivial
  literal := fun _ => trivial
  operand := fun allowed member => ((Expr.all_parts_iff _ _).mp allowed).2 _ member
  found := fun _ _ => trivial
  assign := by
    intro state scope value owner initial name _ _ _
    exact ⟨⟨_, state.property.define owner name.lexeme value⟩, rfl, trivial⟩
  enter := by
    intro state ref closure arguments _ _ _ isFunction
    have entered := (state.property.addScope (some closure.scope)).of_same
      (World.functions_bindParams state.val.forest.nextId closure.params arguments _)
    refine ⟨⟨_, entered⟩, rfl, trivial, ?_⟩
    exact state.property closure (Array.mem_of_getElem? isFunction)
  part := fun allowed member =>
    ((Stmt.all_parts_iff _ _).mp (List.forall_mem_cons.mp allowed).1).1 _ member
  next := fun allowed _ => (List.forall_mem_cons.mp allowed).2
  declare := by
    intro state scope initial rest value name allowed _
    refine ⟨⟨_, state.property.define scope name.lexeme value⟩, rfl, trivial, ?_⟩
    exact (List.forall_mem_cons.mp allowed).2
  function := by
    intro state scope params body rest name allowed
    obtain ⟨first, others⟩ := List.forall_mem_cons.mp allowed
    have bodyPasses : ∀ stmt ∈ body, stmt.parts.all check := ((Stmt.all_parts_iff _ _).mp first).2
    have made : (World.addFunction name.lexeme ⟨params, body, scope⟩ state.val).2.Passes check :=
      state.property.addFunction name.lexeme bodyPasses
    exact ⟨⟨_, made.define scope name.lexeme _⟩, rfl, trivial, others⟩
  block := by
    intro state scope body rest allowed
    refine ⟨⟨_, state.property.addScope (some scope)⟩, rfl, trivial, ?_⟩
    exact ((Stmt.all_parts_iff _ _).mp (List.forall_mem_cons.mp allowed).1).2
  tooDeep := .inl rfl
  notFound := fun allowed _ _ => .inr ⟨_, ((Expr.all_parts_iff _ _).mp allowed).1, .reference _⟩
  notOwned := fun allowed _ => .inr ⟨_, ((Expr.all_parts_iff _ _).mp allowed).1, .assign _ _⟩
  unary := fun allowed applied =>
    .inr ⟨_, ((Expr.all_parts_iff _ _).mp allowed).1, .unary applied⟩
  binary := fun allowed applied =>
    .inr ⟨_, ((Expr.all_parts_iff _ _).mp allowed).1, .binary applied⟩
  notCallable := fun _ allowed =>
    .inr ⟨_, ((Expr.all_parts_iff _ _).mp allowed).1, .call _ _ _ _⟩
  wrongArity := fun _ _ _ allowed =>
    .inr ⟨_, ((Expr.all_parts_iff _ _).mp allowed).1, .call _ _ _ _⟩

/-- A program that passes a check leaves functions that pass it, and only an expression that passes
it, or the limit, halts the program. -/
theorem Run.program_checked {check : Expr → Bool} (limit : Nat) {world : World}
    (passes : world.Passes check) {program : List Stmt}
    (allPass : ∀ stmt ∈ program, stmt.parts.all check) (scope : Nat)
    : ((Run.program limit program scope).run.run world).2.Passes check
      ∧ ∀ halt, ((Run.program limit program scope).run.run world).1 = .error halt →
          halt = .tooDeep ∨ ∃ expr, check expr ∧ expr.Raises halt := by
  let state : (Discipline.checked check).State := ⟨world, passes⟩
  have allowed : (Discipline.checked check).mayRun state scope program := allPass
  obtain ⟨last, _, ends, halts, _⟩ := (Discipline.checked check).program limit allowed
  exact ⟨ends ▸ last.property, halts⟩

-- Sessions

namespace TokenStream

/-- If the tokens are a program, all parts of it pass the check. -/
def Passes (check : Expr → Bool) (limit : Nat) (stream : TokenStream) : Prop :=
  ∀ program, stream.program limit = .ok program → ∀ stmt ∈ program, stmt.parts.all check

/-- It is enough to check phrases that some of the tokens spell. -/
theorem passes_of_phrases {check : Expr → Bool} {stream : TokenStream}
    (phrases : ∀ {category : Grammar.Category} (phrase : Grammar.Phrase category),
      phrase.yield ⊆ stream.body → check phrase.tree) (limit : Nat)
    : stream.Passes check limit := by
  intro program reads stmt isStmt
  refine List.all_eq_true.mpr fun part member => ?_
  obtain ⟨category, phrase, rfl, spelled⟩ := derives_of_program reads isStmt part member
  exact phrases phrase spelled

end TokenStream

namespace Session

variable {check : Expr → Bool} {limit : Nat} {session : Session}

/-- A fresh session has no closures. -/
theorem passes_start (verbosity : Nat) : (start verbosity).world.Passes check :=
  fun closure member => absurd member (Array.not_mem_empty closure)

/-- Running a text that passes keeps a session that passes: a run keeps the check, and what a
session does besides keeps the closures. -/
theorem passes_run (passes : session.world.Passes check) {source : String}
    (textPasses : (Lexed.ofSource source).stream.Passes check limit)
    : (session.run limit source).2.world.Passes check := by
  rcases run_cases limit source session with ⟨program, reads, _, same⟩ | ⟨_, _, same⟩
  · exact (Run.program_checked limit passes (textPasses program reads) globalScope).1.of_same same
  · exact passes.of_same same

/-- The same for texts in turn, by induction on them. -/
theorem passes_after (passes : session.world.Passes check) {texts : List String}
    (textsPass : ∀ source ∈ texts, (Lexed.ofSource source).stream.Passes check limit)
    : (session.after limit texts).world.Passes check := by
  induction texts generalizing session with
  | nil => exact passes
  | cons source rest ih =>
      obtain ⟨first, others⟩ := List.forall_mem_cons.mp textsPass
      exact ih (passes_run passes first) others

/-- What halts a text is the limit, or an expression that passes the check. -/
theorem raises_of_halted (passes : session.world.Passes check) {source : String}
    (textPasses : (Lexed.ofSource source).stream.Passes check limit) {halt : Halt}
    (halted : (session.run limit source).1.ending = .halted halt)
    : halt = .tooDeep ∨ ∃ expr, check expr ∧ expr.Raises halt := by
  cases reads : (Lexed.ofSource source).stream.program limit with
  | error failure =>
      rw [run_of_failure reads] at halted
      cases failure with
      | rejected error => exact Ending.noConfusion halted
      | tooDeep => exact .inl (Ending.halted.inj halted).symm
  | ok program =>
      rw [run_of_program reads (Prod.eta _).symm] at halted
      exact (Run.program_checked limit passes (textPasses program reads) globalScope).2 halt
        (Ending.ofResult_eq_halted halted)

end Session

end Sprig
