import Sprig.Tree.Bracketed

/-! What is left of a tree without its parentheses and the places of its tokens.
-/

namespace Sprig

/-- The token without its place. -/
def Token.unplaced (token : Token) : Token :=
  { token with position := .start }

/-- A token without its place has the same kind. -/
@[simp] theorem Token.unplaced_kind (token : Token) : token.unplaced.kind = token.kind := rfl

/-- A token without its place has the same lexeme. -/
@[simp] theorem Token.unplaced_lexeme (token : Token) : token.unplaced.lexeme = token.lexeme := rfl

namespace Expr

/-- Induction over expressions, with a hypothesis for every argument of a call. -/
@[elab_as_elim, induction_eliminator]
theorem induction {motive : Expr → Prop}
    (literal : ∀ value, motive (literal value))
    (grouping : ∀ inner, motive inner → motive (grouping inner))
    (reference : ∀ name, motive (reference name))
    (assign : ∀ name value, motive value → motive (assign name value))
    (unary : ∀ operator operand, motive operand → motive (unary operator operand))
    (binary : ∀ left operator right, motive left → motive right →
      motive (binary left operator right))
    (call : ∀ callee paren arguments, motive callee →
      (∀ argument ∈ arguments, motive argument) → motive (call callee paren arguments))
    (expr : Expr)
    : motive expr :=
  @Expr.rec motive (fun arguments => ∀ argument ∈ arguments, motive argument)
    literal grouping reference assign unary binary call (by simp)
    (fun first rest hf hr => by simpa using ⟨hf, hr⟩)
    expr

mutual

/-- The expression without parentheses of the program and without places. -/
def stripped : Expr → Expr
  | .literal value => .literal value
  | .grouping inner => inner.stripped
  | .reference name => .reference name.unplaced
  | .assign name value => .assign name.unplaced value.stripped
  | .unary operator operand => .unary operator.unplaced operand.stripped
  | .binary left operator right => .binary left.stripped operator.unplaced right.stripped
  | .call callee paren arguments =>
      .call callee.stripped paren.unplaced (strippedAll arguments)

def strippedAll : List Expr → List Expr
  | [] => []
  | expr :: rest => expr.stripped :: strippedAll rest

end

/-- Expressions are stripped one by one. -/
@[simp] theorem strippedAll_eq (exprs : List Expr) : strippedAll exprs = exprs.map stripped := by
  induction exprs with
  | nil => rfl
  | cons expr rest ih => simp [strippedAll, ih]

/-- Expressions are written in brackets one by one. -/
@[simp] theorem bracketedAll_eq (exprs : List Expr)
    : bracketedAll exprs = exprs.map bracketed := by
  induction exprs with
  | nil => rfl
  | cons expr rest ih => simp [bracketedAll, ih]

/-- The bracketed form shows what is left after stripping. -/
theorem bracketed_stripped (expr : Expr) : expr.stripped.bracketed = expr.bracketed := by
  induction expr with
  | literal value => rfl
  | grouping inner ih => simpa [stripped, bracketed] using ih
  | reference name => rfl
  | assign name value ih => simp [stripped, bracketed, ih]
  | unary operator operand ih => simp [stripped, bracketed, ih]
  | binary left operator right ihl ihr => simp [stripped, bracketed, ihl, ihr]
  | call callee paren arguments ih ihs =>
      have same : arguments.map (fun argument => argument.stripped.bracketed)
          = arguments.map bracketed :=
        List.map_congr_left ihs
      simp [stripped, bracketed, ih, same, Function.comp_def]

end Expr

namespace Stmt

/-- Induction over statements, with a hypothesis for every statement of a body. -/
@[elab_as_elim, induction_eliminator]
theorem induction {motive : Stmt → Prop}
    (expression : ∀ expr, motive (expression expr))
    (print : ∀ expr, motive (print expr))
    (declare : ∀ name initial, motive (declare name initial))
    (block : ∀ body, (∀ stmt ∈ body, motive stmt) → motive (block body))
    (function : ∀ name params body, (∀ stmt ∈ body, motive stmt) →
      motive (function name params body))
    (stmt : Stmt)
    : motive stmt :=
  @Stmt.rec motive (fun body => ∀ stmt ∈ body, motive stmt)
    expression print declare block function (by simp)
    (fun first rest hf hr => by simpa using ⟨hf, hr⟩)
    stmt

mutual

/-- The statement without parentheses of the program and without places. -/
def stripped : Stmt → Stmt
  | .expression expr => .expression expr.stripped
  | .print expr => .print expr.stripped
  | .declare name initial => .declare name.unplaced (initial.map Expr.stripped)
  | .block body => .block (strippedAll body)
  | .function name params body =>
      .function name.unplaced (params.map Token.unplaced) (strippedAll body)

def strippedAll : List Stmt → List Stmt
  | [] => []
  | stmt :: rest => stmt.stripped :: strippedAll rest

end

/-- Statements are stripped one by one. -/
@[simp] theorem strippedAll_eq (stmts : List Stmt)
    : strippedAll stmts = stmts.map stripped := by
  induction stmts with
  | nil => rfl
  | cons stmt rest ih => simp [strippedAll, ih]

/-- Statements are written in brackets one by one. -/
@[simp] theorem bracketedAll_eq (stmts : List Stmt)
    : bracketedAll stmts = stmts.map bracketed := by
  induction stmts with
  | nil => rfl
  | cons stmt rest ih => simp [bracketedAll, ih]

/-- Stripping a statement keeps its bracketed form, by induction on the statement. -/
theorem bracketed_stripped (stmt : Stmt) : stmt.stripped.bracketed = stmt.bracketed := by
  have same {body : List Stmt} (ihs : ∀ stmt ∈ body, stmt.stripped.bracketed = stmt.bracketed)
      : body.map (fun stmt => stmt.stripped.bracketed) = body.map bracketed :=
    List.map_congr_left ihs
  induction stmt with
  | expression expr | print expr => simp [stripped, bracketed, expr.bracketed_stripped]
  | declare name initial =>
      cases initial with
      | none => rfl
      | some value => simp [stripped, bracketed, value.bracketed_stripped]
  | block body ihs => simp [stripped, bracketed, same ihs, Function.comp_def]
  | function name params body ihs => simp [stripped, bracketed, same ihs, Function.comp_def]

end Stmt

end Sprig
