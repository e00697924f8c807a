import Sprig.Machine.Trace
import Sprig.Operator
import Sprig.Scope.Forest

/-!
What a running program can see and change.
-/

namespace Sprig

/-- What a function does: its parameters, its body, and the scope it was declared in. -/
structure Closure where
  params : List Token
  body : List Stmt
  scope : Nat
deriving Repr

structure World where
  forest : Forest
  /-- The functions made so far; a function value holds its index. -/
  functions : Array Closure
  /-- The text printed so far. -/
  printed : String
  /-- The most detailed level of events that is recorded. -/
  verbosity : Nat
  events : Array TraceEvent

namespace World

/-- A world without scopes. -/
def initial (verbosity : Nat) : World :=
  ⟨.empty, #[], "", verbosity, #[]⟩

/-- Records an event unless it is too detailed. -/
def record (event : TraceEvent) (world : World) : World :=
  if event.level ≤ world.verbosity then
    { world with events := world.events.push event }
  else
    world

def print (text : String) (world : World) : World :=
  { world with printed := world.printed ++ text }

def define (scope : Nat) (name : String) (value : Value) (world : World) : World :=
  { world with forest := world.forest.define scope name value }

/-- Makes a scope inside another one. -/
def addScope (parent : Option Nat) (world : World) : Nat × World :=
  (world.forest.nextId, { world with forest := world.forest.addScope parent })

/-- Makes a function. -/
def addFunction (name : String) (closure : Closure) (world : World) : FunctionRef × World :=
  (⟨world.functions.size, name, closure.params.length⟩,
    { world with functions := world.functions.push closure })

/-- The function that a value stands for, with what it does. -/
def function? (value : Value) (world : World) : Option (FunctionRef × Closure) :=
  match value with
  | .function ref => (world.functions[ref.key]?).map (ref, ·)
  | _ => none

/-- The lines of the trace so far. -/
def trace (world : World) : String :=
  TraceEvent.lines world.events.toList

end World

/-- A computation that changes the world. When it halts, what it has changed remains. -/
abbrev Run := ExceptT Halt (StateM World)

namespace Run

def halt {α : Type} (halt : Halt) : Run α :=
  throw halt

def ofExcept {α : Type} : Except Halt α → Run α
  | .ok value => pure value
  | .error halt => throw halt

def note (event : TraceEvent) : Run Unit :=
  modify (World.record event)

def print (text : String) : Run Unit :=
  modify (World.print text)

def define (scope : Nat) (name : String) (value : Value) : Run Unit :=
  modify (World.define scope name value)

/-- Makes a scope inside another one. -/
def addScope (parent : Nat) : Run Nat :=
  modifyGet (World.addScope (some parent))

def addFunction (name : String) (closure : Closure) : Run FunctionRef :=
  modifyGet (World.addFunction name closure)

end Run

end Sprig
