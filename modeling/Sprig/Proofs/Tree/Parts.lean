import Sprig.Proofs.Tree.Stripped
import Sprig.Proofs.Value.Data

/-! The parts of a tree: the expressions inside it, and the places of its statements, each known
by the blocks and functions around it.
-/

namespace Sprig

namespace Expr

/-- The expressions that an expression is made of. -/
def operands : Expr → List Expr
  | .literal _ | .reference _ => []
  | .grouping inner => [inner]
  | .assign _ value => [value]
  | .unary _ operand => [operand]
  | .binary left _ right => [left, right]
  | .call callee _ arguments => callee :: arguments

mutual

/-- An expression and all expressions inside it. -/
def parts : Expr → List Expr
  | .literal value => [.literal value]
  | .grouping inner => .grouping inner :: inner.parts
  | .reference name => [.reference name]
  | .assign name value => .assign name value :: value.parts
  | .unary operator operand => .unary operator operand :: operand.parts
  | .binary left operator right => .binary left operator right :: (left.parts ++ right.parts)
  | .call callee paren arguments =>
      .call callee paren arguments :: (callee.parts ++ partsAll arguments)

def partsAll : List Expr → List Expr
  | [] => []
  | expr :: rest => expr.parts ++ partsAll rest

end

/-- The parts of expressions are those of each in turn. -/
@[simp] theorem partsAll_eq (exprs : List Expr) : partsAll exprs = exprs.flatMap parts := by
  induction exprs with
  | nil => rfl
  | cons expr rest ih => simp [partsAll, ih]

/-- The parts of an expression are itself and those of its operands, by cases on it. -/
theorem parts_eq (expr : Expr) : expr.parts = expr :: expr.operands.flatMap parts := by
  cases expr <;> simp [parts, operands]

/-- An expression is a part of itself. -/
theorem mem_parts_self (expr : Expr) : expr ∈ expr.parts := by
  simp [parts_eq expr]

/-- A check of all parts is one of the whole and of what it is made of. -/
theorem all_parts_iff (check : Expr → Bool) (expr : Expr)
    : expr.parts.all check ↔ check expr ∧ ∀ operand ∈ expr.operands, operand.parts.all check := by
  simp [parts_eq expr, List.all_flatMap]

/-- The parts of an operand are parts of the expression. -/
theorem parts_subset_of_mem_operands {expr operand : Expr} (member : operand ∈ expr.operands)
    : operand.parts ⊆ expr.parts := by
  intro part inside
  rw [parts_eq expr]
  exact List.mem_cons_of_mem _ (List.mem_flatMap.mpr ⟨operand, member, inside⟩)

end Expr

namespace Stmt

/-- The name that a statement binds in its own scope. -/
def declared? : Stmt → Option String
  | .declare name _ | .function name _ _ => some name.lexeme
  | .expression _ | .print _ | .block _ => none

/-- The expressions that a statement evaluates in its own scope. -/
def exprs : Stmt → List Expr
  | .expression expr | .print expr => [expr]
  | .declare _ initial => initial.toList
  | .block _ | .function .. => []

/-- The statements that a statement holds. -/
def inner : Stmt → List Stmt
  | .block body | .function _ _ body => body
  | .expression _ | .print _ | .declare .. => []

mutual

/-- All expressions inside a statement. -/
def parts : Stmt → List Expr
  | .expression expr | .print expr => expr.parts
  | .declare _ initial => initial.toList.flatMap Expr.parts
  | .block body | .function _ _ body => partsAll body

def partsAll : List Stmt → List Expr
  | [] => []
  | stmt :: rest => stmt.parts ++ partsAll rest

end

/-- The parts of statements are those of each in turn. -/
@[simp] theorem partsAll_eq (stmts : List Stmt) : partsAll stmts = stmts.flatMap parts := by
  induction stmts with
  | nil => rfl
  | cons stmt rest ih => simp [partsAll, ih]

/-- The parts of a statement are those of its expressions and of the statements in it, by cases on
it. -/
theorem parts_eq (stmt : Stmt)
    : stmt.parts = stmt.exprs.flatMap Expr.parts ++ stmt.inner.flatMap parts := by
  cases stmt <;> simp [parts, exprs, inner]

/-- A check passes on all parts of a statement just when it does on those of its expressions and
of the statements in it. -/
theorem all_parts_iff (check : Expr → Bool) (stmt : Stmt)
    : stmt.parts.all check ↔ (∀ expr ∈ stmt.exprs, expr.parts.all check)
      ∧ ∀ other ∈ stmt.inner, other.parts.all check := by
  simp [parts_eq stmt, List.all_append, List.all_flatMap]

/-- The places of statements in programs: the statement stands inside the blocks and functions
listed before it, the innermost first. -/
inductive Stands (programs : List (List Stmt)) : List Stmt → Stmt → Prop where
  | top {program : List Stmt} {stmt : Stmt} : program ∈ programs → stmt ∈ program →
      Stands programs [] stmt
  | block {around body : List Stmt} {stmt : Stmt} : Stands programs around (.block body) →
      stmt ∈ body → Stands programs (.block body :: around) stmt
  | function {around : List Stmt} {name : Token} {params : List Token} {body : List Stmt}
      {stmt : Stmt} : Stands programs around (.function name params body) → stmt ∈ body →
      Stands programs (.function name params body :: around) stmt

end Stmt

-- Literals

/-- Whether an expression is no literal, or one whose value passes a check. -/
def Expr.passesAsLiteral (check : Value → Bool) : Expr → Bool
  | .literal value => check value
  | _ => true

/-- Whether the values of all literals inside an expression pass a check. -/
def Expr.literalsPass (check : Value → Bool) (expr : Expr) : Bool :=
  expr.parts.all (Expr.passesAsLiteral check)

@[inherit_doc Expr.literalsPass]
def Stmt.literalsPass (check : Value → Bool) (stmt : Stmt) : Bool :=
  stmt.parts.all (Expr.passesAsLiteral check)

/-- Whether no literal inside an expression stands for a function. -/
abbrev Expr.isPlain (expr : Expr) : Bool :=
  expr.literalsPass (!·.isFunction)

@[inherit_doc Expr.isPlain]
abbrev Stmt.isPlain (stmt : Stmt) : Bool :=
  stmt.literalsPass (!·.isFunction)

/-- Whether every literal inside an expression has a value. -/
abbrev Expr.hasValues (expr : Expr) : Bool :=
  expr.literalsPass (· ≠ .absent)

@[inherit_doc Expr.hasValues]
abbrev Stmt.hasValues (stmt : Stmt) : Bool :=
  stmt.literalsPass (· ≠ .absent)

section Literals

variable {check check' : Value → Bool}

/-- The literals of an expression are itself and those of its operands, as are its parts. -/
theorem Expr.literalsPass_iff (expr : Expr)
    : expr.literalsPass check
      ↔ expr.passesAsLiteral check ∧ ∀ operand ∈ expr.operands, operand.literalsPass check :=
  expr.all_parts_iff (passesAsLiteral check)

/-- The literals of an operand pass a check that those of the expression pass. -/
theorem Expr.literalsPass_operand {expr operand : Expr} (passes : expr.literalsPass check)
    (member : operand ∈ expr.operands)
    : operand.literalsPass check :=
  (expr.literalsPass_iff.mp passes).2 operand member

/-- The value of a literal passes a check that the literal passes. -/
theorem Expr.passes_of_literalsPass {value : Value}
    (passes : (Expr.literal value).literalsPass check)
    : check value :=
  ((literalsPass_iff _).mp passes).1

/-- A check that lets more values pass lets more expressions pass: literals are told apart by
their values alone. -/
theorem Expr.passesAsLiteral_mono (weaker : ∀ value, check value → check' value) {expr : Expr}
    (passes : expr.passesAsLiteral check)
    : expr.passesAsLiteral check' := by
  cases expr with
  | literal value => exact weaker value passes
  | grouping | reference | assign | unary | binary | call => rfl

/-- The literals of a statement are those of its expressions and of the statements in it. -/
theorem Stmt.literalsPass_iff (stmt : Stmt)
    : stmt.literalsPass check ↔ (∀ expr ∈ stmt.exprs, expr.literalsPass check)
      ∧ ∀ other ∈ stmt.inner, other.literalsPass check :=
  stmt.all_parts_iff (Expr.passesAsLiteral check)

end Literals

end Sprig
