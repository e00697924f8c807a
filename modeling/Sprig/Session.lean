import Sprig.Machine.Evaluation
import Sprig.Token.Lexed
import Sprig.Tree.StmtReader

/-!
Sessions: program texts run one after the other in one world, each seeing what the ones
before have declared.
-/

namespace Sprig

/-- How running a text ended. -/
inductive Ending where
  | completed
  /-- The text is no program, and nothing of it ran. -/
  | rejected (error : SyntaxError)
  /-- The program stopped; what it did before remains. -/
  | halted (halt : Halt)
deriving DecidableEq, Repr

namespace Ending

def isCompleted : Ending → Bool
  | completed => true
  | rejected _ | halted _ => false

/-- The nesting limit was reached. -/
def isTooDeep : Ending → Bool
  | halted .tooDeep => true
  | _ => false

/-- What is said about an ending other than completion. -/
def message : Ending → String
  | completed | halted .tooDeep => ""
  | rejected error => error.message
  | halted (.failed error) => error.message
  | halted halt => halt.internalMessage?.getD ""

/-- The event that an error of the program leaves in the trace. -/
def event? : Ending → Option TraceEvent
  | rejected error => some (.failed SyntaxError.family error.message)
  | halted (.failed error) => some (.failed error.fault.family error.message)
  | _ => none

def ofReadFailure : ReadFailure → Ending
  | .rejected error => rejected error
  | .tooDeep => halted .tooDeep

def ofResult : Except Halt Unit → Ending
  | .ok () => completed
  | .error halt => halted halt

end Ending

/-- What running a text led to. -/
structure Outcome where
  ending : Ending
  diagnostics : List Diagnostic
  /-- The text that the program printed. -/
  printed : String
deriving DecidableEq, Repr

/-- The nesting limit that programs are read, shown and run with. -/
def depthLimit : Nat := 1000

/-- A world whose scope `Session.globalScope` holds what the texts declare. -/
structure Session where
  world : World

namespace Session

/-- The scope that programs run in. -/
def globalScope : Nat := 0

def start (verbosity : Nat) : Session :=
  ⟨((World.initial verbosity).addScope none).2⟩

def globals (session : Session) : Bindings :=
  session.world.forest.bindings globalScope

def trace (session : Session) : String :=
  session.world.trace

/-- Runs statements in the global scope. -/
def runProgram (limit : Nat) (program : List Stmt) (session : Session) : Ending × Session :=
  let (result, world) := (Run.program limit program globalScope).run.run session.world
  (.ofResult result, ⟨world⟩)

/-- Reads a text as a program and runs it. -/
def runStream (limit : Nat) (stream : TokenStream) (session : Session) : Ending × Session :=
  match stream.program limit with
  | .ok program => session.runProgram limit program
  | .error failure => (.ofReadFailure failure, session)

/-- Takes the printed text out of the world. -/
def takePrinted (session : Session) : String × Session :=
  (session.world.printed, ⟨{ session.world with printed := "" }⟩)

/-- Leaves an event in the trace. -/
def record (event? : Option TraceEvent) (session : Session) : Session :=
  ⟨event?.elim session.world (World.record · session.world)⟩

/-- Runs a text. An error of the program is left in the trace. -/
def run (limit : Nat) (source : String) (session : Session) : Outcome × Session :=
  let lexed := Lexed.ofSource source
  let (ending, session) := session.runStream limit lexed.stream
  let (printed, session) := (session.record ending.event?).takePrinted
  (⟨ending, lexed.diagnostics, printed⟩, session)

end Session

end Sprig
