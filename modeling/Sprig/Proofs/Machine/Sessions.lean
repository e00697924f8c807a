import Sprig.Proofs.Grammar.Literals
import Sprig.Proofs.Machine.Growth
import Sprig.Session

/-! Sessions: how they start, and what each of several texts does to scopes and functions.
-/

namespace Sprig

/-- A result that succeeds is its value. -/
theorem ok_getD_toOption {ε α : Type} {result : Except ε α} (succeeds : result.toOption.isSome)
    (default : α)
    : result = .ok (result.toOption.getD default) := by
  cases result with
  | error failure => simp [Except.toOption] at succeeds
  | ok value => rfl

/-- A run that is reported as halted has halted for that reason. -/
theorem Ending.ofResult_eq_halted {result : Except Halt Unit} {halt : Halt}
    (halted : Ending.ofResult result = .halted halt)
    : result = .error halt := by
  cases result with
  | ok _ => simp [ofResult] at halted
  | error found => exact congrArg Except.error (Ending.halted.inj halted)

/-- Recording prints nothing. -/
theorem World.printed_record (world : World) (event : TraceEvent)
    : (world.record event).printed = world.printed := by
  unfold record
  split <;> rfl

namespace Session

/-- At first nothing is bound. -/
theorem holds_start (verbosity : Nat) (isKept : Value → Prop)
    : (start verbosity).world.forest.Holds (fun _ => True) isKept := by
  intro id name value _ bound
  rw [show (start verbosity).world.forest = Forest.empty.addScope none from rfl,
    Forest.bindings_addScope, Forest.bindings_of_le _ (Nat.zero_le id)] at bound
  simp [Bindings.get?] at bound

/-- Runs texts one after the other. -/
def after (limit : Nat) (texts : List String) (session : Session) : Session :=
  texts.foldl (fun session source => (session.run limit source).2) session

/-- What every text preserves holds of every session that has come to be from a certain start. -/
theorem after_induction (holds : Session → Prop) {limit : Nat}
    (step : ∀ session source, holds session → holds (session.run limit source).2)
    {session : Session} (start : holds session) (texts : List String)
    : holds (session.after limit texts) := by
  induction texts generalizing session with
  | nil => exact start
  | cons source rest ih => exact ih (step session source start)

/-- What goes on after a text has ended in a world. -/
def resumed (ending : Ending) (world : World) : Session :=
  ((⟨world⟩ : Session).record ending.event?).takePrinted.2

/-- Closing a run keeps all scopes. -/
theorem forest_resumed (ending : Ending) (world : World)
    : (resumed ending world).world.forest = world.forest := by
  unfold resumed record
  cases ending.event? with
  | none => rfl
  | some event => exact world.forest_record event

/-- Closing a run keeps all functions. -/
theorem functions_resumed (ending : Ending) (world : World)
    : (resumed ending world).world.functions = world.functions := by
  unfold resumed record
  cases ending.event? with
  | none => rfl
  | some event => exact world.functions_record event

/-- However a text ends, the error is traced and what was printed is handed out. -/
theorem run_of_stream {limit : Nat} {source : String} {session : Session} {ending : Ending}
    {world : World}
    (streamed : session.runStream limit (Lexed.ofSource source).stream = (ending, ⟨world⟩))
    : session.run limit source
      = (⟨ending, (Lexed.ofSource source).diagnostics, world.printed⟩, resumed ending world) := by
  have printed : ((⟨world⟩ : Session).record ending.event?).takePrinted.1 = world.printed := by
    cases ending.event? with
    | none => rfl
    | some event => exact world.printed_record event
  rw [run, ← printed]
  simp only [streamed]
  rfl

/-- Once a program is read, it is run. -/
theorem run_of_program {limit : Nat} {source : String} {program : List Stmt}
    (reads : (Lexed.ofSource source).stream.program limit = .ok program) {session : Session}
    {result : Except Halt Unit} {world : World}
    (ran : (Run.program limit program globalScope).run.run session.world = (result, world))
    : session.run limit source
      = (⟨.ofResult result, (Lexed.ofSource source).diagnostics, world.printed⟩,
          resumed (.ofResult result) world) := by
  refine run_of_stream ?_
  rw [runStream, reads]
  simp only [runProgram, ran]

/-- A text that is no program changes nothing but the trace. -/
theorem run_of_failure {limit : Nat} {source : String} {failure : ReadFailure}
    (fails : (Lexed.ofSource source).stream.program limit = .error failure) (session : Session)
    : session.run limit source
      = (⟨.ofReadFailure failure, (Lexed.ofSource source).diagnostics, session.world.printed⟩,
          resumed (.ofReadFailure failure) session.world) := by
  refine run_of_stream ?_
  rw [runStream, fails]

/-- Only what is read is rejected, never what is run. -/
theorem program_of_rejected {session : Session} {limit : Nat} {source : String}
    {error : SyntaxError} (rejected : (session.run limit source).1.ending = .rejected error)
    : (Lexed.ofSource source).stream.program limit = .error (.rejected error) := by
  cases reads : (Lexed.ofSource source).stream.program limit with
  | error failure =>
      rw [run_of_failure reads] at rejected
      cases failure with
      | rejected found => rw [Ending.rejected.inj rejected]
      | tooDeep => exact Ending.noConfusion rejected
  | ok program =>
      rw [run_of_program reads (Prod.eta _).symm] at rejected
      cases result : ((Run.program limit program globalScope).run.run session.world).1 with
      | ok => exact Ending.noConfusion (result ▸ rejected)
      | error halt => exact Ending.noConfusion (result ▸ rejected)

/-- A text whose run was not too deep was read within the limit. -/
theorem program_ne_tooDeep {session : Session} {limit : Nat} {source : String}
    (shallow : (session.run limit source).1.ending.isTooDeep = false)
    : (Lexed.ofSource source).stream.program limit ≠ .error .tooDeep := by
  intro deep
  rw [run_of_failure deep] at shallow
  exact absurd shallow.symm Bool.false_ne_true

/-- A text that is a program changes scopes and functions as its program does; any other text
leaves them as they are. -/
theorem run_cases (limit : Nat) (source : String) (session : Session)
    : (∃ program, (Lexed.ofSource source).stream.program limit = .ok program
        ∧ (session.run limit source).2.world.forest
          = ((Run.program limit program globalScope).run.run session.world).2.forest
        ∧ (session.run limit source).2.world.functions
          = ((Run.program limit program globalScope).run.run session.world).2.functions)
      ∨ ((∀ program, (Lexed.ofSource source).stream.program limit ≠ .ok program)
        ∧ (session.run limit source).2.world.forest = session.world.forest
        ∧ (session.run limit source).2.world.functions = session.world.functions) := by
  cases outcome : (Lexed.ofSource source).stream.program limit with
  | ok program =>
      rw [run_of_program outcome (Prod.eta _).symm]
      exact .inl ⟨program, rfl, forest_resumed _ _, functions_resumed _ _⟩
  | error failure =>
      rw [run_of_failure outcome]
      exact .inr ⟨fun program => by simp, forest_resumed _ _, functions_resumed _ _⟩

/-- After one more text a session has run it in addition. -/
theorem after_append_singleton (limit : Nat) (texts : List String) (source : String)
    (session : Session)
    : session.after limit (texts ++ [source])
      = ((session.after limit texts).run limit source).2 := by
  simp [after]

end Session

end Sprig
