import Mathlib.Data.List.Forall2
import Sprig.Machine.Evaluation
import Sprig.Proofs.Scope.Renamed
import Sprig.Proofs.Value.Data

/-! When two programs, and the worlds they run in, are alike. The second program may have fewer
parentheses than the first, other names and other places; its world may have printed more before
and may keep a more detailed trace.
-/

namespace Sprig

/-- How two programs and their worlds are compared. -/
structure Likeness where
  /-- What the second program calls a name. -/
  rename : String → String
  /-- Which tokens stand for each other. -/
  token : Token → Token → Prop
  /-- How much detail the traces of the two worlds have. -/
  verbosity : Nat
  verbosity' : Nat
  /-- What the second world had printed before. -/
  before : String := ""
  injective : Function.Injective rename
  rename_constant : ∀ name ∈ constants.map Prod.fst, rename name = name
  verbosity_le : verbosity ≤ verbosity'

namespace Likeness

/-- Tokens that name the same variable. -/
def Name (likeness : Likeness) (first second : Token) : Prop :=
  likeness.token first second ∧ second.lexeme = likeness.rename first.lexeme

/-- Tokens that stand for the same operator. -/
def Sign (likeness : Likeness) (first second : Token) : Prop :=
  likeness.token first second ∧ second.kind = first.kind ∧ second.lexeme = first.lexeme

end Likeness

variable (likeness : Likeness)

inductive Expr.Like : Expr → Expr → Prop where
  | literal (value : Value) : Like (.literal value) (.literal value)
  | unwrapped {inner other : Expr} : Like inner other → Like (.grouping inner) other
  | grouping {first second : Expr} : Like first second → Like (.grouping first) (.grouping second)
  | reference {name name' : Token} : likeness.Name name name' →
      Like (.reference name) (.reference name')
  | assign {name name' : Token} {value value' : Expr} : likeness.Name name name' →
      Like value value' → Like (.assign name value) (.assign name' value')
  | unary {operator operator' : Token} {operand operand' : Expr} :
      likeness.Sign operator operator' → Like operand operand' →
      Like (.unary operator operand) (.unary operator' operand')
  | binary {left left' right right' : Expr} {operator operator' : Token} :
      Like left left' → likeness.Sign operator operator' → Like right right' →
      Like (.binary left operator right) (.binary left' operator' right')
  | call {callee callee' : Expr} {paren paren' : Token} {arguments arguments' : List Expr} :
      Like callee callee' → likeness.Sign paren paren' → List.Forall₂ Like arguments arguments' →
      Like (.call callee paren arguments) (.call callee' paren' arguments')

/-- The name of a function is part of its value, so a function has to keep it. -/
inductive Stmt.Like : Stmt → Stmt → Prop where
  | expression {expr expr' : Expr} : Expr.Like likeness expr expr' →
      Like (.expression expr) (.expression expr')
  | print {expr expr' : Expr} : Expr.Like likeness expr expr' → Like (.print expr) (.print expr')
  | declare {name name' : Token} {initial initial' : Option Expr} : likeness.Name name name' →
      Option.Rel (Expr.Like likeness) initial initial' →
      Like (.declare name initial) (.declare name' initial')
  | block {body body' : List Stmt} : List.Forall₂ Like body body' →
      Like (.block body) (.block body')
  | function {name name' : Token} {params params' : List Token} {body body' : List Stmt} :
      likeness.Name name name' → likeness.rename name.lexeme = name.lexeme →
      List.Forall₂ likeness.Name params params' → List.Forall₂ Like body body' →
      Like (.function name params body) (.function name' params' body')

structure Closure.Like (first second : Closure) : Prop where
  params : List.Forall₂ likeness.Name first.params second.params
  body : List.Forall₂ (Stmt.Like likeness) first.body second.body
  scope : second.scope = first.scope

/-- The event under other names. -/
def TraceEvent.renamed (rename : String → String) : TraceEvent → TraceEvent
  | declared name value => declared (rename name) value
  | event => event

/-- Renaming an event keeps its level, by cases on the event. -/
@[simp] theorem TraceEvent.level_renamed (rename : String → String) (event : TraceEvent)
    : (event.renamed rename).level = event.level := by
  cases event <;> rfl

/-- An event renamed by the identity is itself, by cases on the event. -/
@[simp] theorem TraceEvent.renamed_id (event : TraceEvent) : event.renamed id = event := by
  cases event <;> rfl

structure World.Like (first second : World) : Prop where
  forest : second.forest = first.forest.renamed likeness.rename
  functions : List.Forall₂ (Closure.Like likeness) first.functions.toList second.functions.toList
  printed : second.printed = likeness.before ++ first.printed
  verbosity : first.verbosity = likeness.verbosity
  verbosity' : second.verbosity = likeness.verbosity'
  /-- The second trace has the events of the first and more detailed ones. -/
  events : second.events.toList.filter (·.level ≤ likeness.verbosity)
    = first.events.toList.map (TraceEvent.renamed likeness.rename)

/-- Halts for the same reason. No evaluation that is too deep is among them. -/
inductive Halt.Like : Halt → Halt → Prop where
  | undefined {name name' : Token} : likeness.Name name name' →
      Like (.failed ⟨.undefinedVariable name.lexeme, name⟩)
        (.failed ⟨.undefinedVariable (likeness.rename name.lexeme), name'⟩)
  | failed {fault : Fault} {token token' : Token} : fault.isUndefined = false →
      likeness.Sign token token' → Like (.failed ⟨fault, token⟩) (.failed ⟨fault, token'⟩)
  | unsupportedUnary (lexeme : String) :
      Like (.unsupportedUnary lexeme) (.unsupportedUnary lexeme)
  | unsupportedBinary (lexeme : String) :
      Like (.unsupportedBinary lexeme) (.unsupportedBinary lexeme)

variable {likeness}

-- Names and functions

/-- Renaming leaves the constants alone, and gives their names to nothing else. -/
theorem Likeness.lookup_rename (name : String)
    : constants.lookup (likeness.rename name) = constants.lookup name := by
  have lookup_eq (table : List (String × Value))
      (kept : ∀ key ∈ table.map Prod.fst, likeness.rename key = key)
      : table.lookup (likeness.rename name) = table.lookup name := by
    induction table with
    | nil => rfl
    | cons first rest ih =>
        obtain ⟨key, value⟩ := first
        obtain ⟨keyKept, restKept⟩ := List.forall_mem_cons.mp kept
        have isKey : likeness.rename name = key ↔ name = key := by
          constructor
          · intro same
            exact likeness.injective (same.trans keyKept.symm)
          · rintro rfl
            exact keyKept
        simp only [List.lookup_cons, beq_eq_decide, isKey, ih restKept]
  exact lookup_eq constants likeness.rename_constant

/-- Functions with the same key are alike. -/
theorem World.Like.getElem?_functions {first second : World} (like : first.Like likeness second)
    (key : Nat)
    : Option.Rel (Closure.Like likeness) first.functions[key]? second.functions[key]? := by
  have related {closures closures' : List Closure}
      (pairs : List.Forall₂ (Closure.Like likeness) closures closures')
      : Option.Rel (Closure.Like likeness) closures[key]? closures'[key]? := by
    induction pairs generalizing key with
    | nil => exact .none
    | cons head _ ih =>
        cases key with
        | zero => exact .some head
        | succ key => exact ih key
  simpa using related like.functions

/-- A value stands for functions that are alike, or for none in both worlds. -/
theorem World.Like.function? {first second : World} (like : first.Like likeness second)
    (value : Value)
    : (first.function? value = none ∧ second.function? value = none)
      ∨ ∃ ref closure closure', first.function? value = some (ref, closure)
        ∧ second.function? value = some (ref, closure') ∧ closure.Like likeness closure' := by
  cases value with
  | function ref =>
      have related := like.getElem?_functions ref.key
      simp only [World.function?]
      generalize first.functions[ref.key]? = found, second.functions[ref.key]? = found' at related
      cases related with
      | none => exact .inl ⟨rfl, rfl⟩
      | some alike => exact .inr ⟨ref, _, _, rfl, rfl, alike⟩
  | nil | boolean _ | number _ | text _ | absent => exact .inl ⟨rfl, rfl⟩

/-- A name and what it was renamed to stand for the same value. -/
theorem World.Like.value?_rename {first second : World} (like : first.Like likeness second)
    (scope : Nat) (name : String)
    : second.value? scope (likeness.rename name) = first.value? scope name := by
  rw [World.value?, World.value?, likeness.lookup_rename, like.forest,
    Forest.get?_renamed likeness.injective]

end Sprig
