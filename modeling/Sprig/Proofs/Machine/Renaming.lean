import Mathlib.Logic.Equiv.Basic
import Sprig.Proofs.Machine.Layout
import Sprig.Proofs.Machine.Sessions

/-! Names of variables mean nothing by themselves: a program under other names, which are still
different names, runs alike. The names of functions are kept, since they can be printed, and the
names that stand for constants.
-/

namespace Sprig

variable (rename : String → String)

-- Trees under other names

/-- The token of a name under its other name. -/
def Token.renamed (token : Token) : Token :=
  { token with lexeme := rename token.lexeme }

mutual

/-- The expression under other names. -/
def Expr.renamed : Expr → Expr
  | .literal value => .literal value
  | .grouping inner => .grouping inner.renamed
  | .reference name => .reference (name.renamed rename)
  | .assign name value => .assign (name.renamed rename) value.renamed
  | .unary operator operand => .unary operator operand.renamed
  | .binary left operator right => .binary left.renamed operator right.renamed
  | .call callee paren arguments => .call callee.renamed paren (renamedAll arguments)

def Expr.renamedAll : List Expr → List Expr
  | [] => []
  | expr :: rest => expr.renamed :: renamedAll rest

end

/-- Expressions are renamed one by one. -/
@[simp] theorem Expr.renamedAll_eq (exprs : List Expr)
    : Expr.renamedAll rename exprs = exprs.map (Expr.renamed rename) := by
  induction exprs with
  | nil => rfl
  | cons expr rest ih => simp [Expr.renamedAll, ih]

mutual

/-- The statement under other names. -/
def Stmt.renamed : Stmt → Stmt
  | .expression expr => .expression (expr.renamed rename)
  | .print expr => .print (expr.renamed rename)
  | .declare name initial => .declare (name.renamed rename) (initial.map (Expr.renamed rename))
  | .block body => .block (renamedAll body)
  | .function name params body =>
      .function (name.renamed rename) (params.map (Token.renamed rename)) (renamedAll body)

def Stmt.renamedAll : List Stmt → List Stmt
  | [] => []
  | stmt :: rest => stmt.renamed :: renamedAll rest

end

/-- Statements are renamed one by one. -/
@[simp] theorem Stmt.renamedAll_eq (stmts : List Stmt)
    : Stmt.renamedAll rename stmts = stmts.map (Stmt.renamed rename) := by
  induction stmts with
  | nil => rfl
  | cons stmt rest ih => simp [Stmt.renamedAll, ih]

mutual

/-- The names of the functions that a statement declares, at any depth. -/
def Stmt.functionNames : Stmt → List String
  | .expression _ | .print _ | .declare .. => []
  | .block body => functionNamesAll body
  | .function name _ body => name.lexeme :: functionNamesAll body

def Stmt.functionNamesAll : List Stmt → List String
  | [] => []
  | stmt :: rest => stmt.functionNames ++ functionNamesAll rest

end

/-- The function names of statements are those of each in turn. -/
@[simp] theorem Stmt.functionNamesAll_eq (stmts : List Stmt)
    : Stmt.functionNamesAll stmts = stmts.flatMap Stmt.functionNames := by
  induction stmts with
  | nil => rfl
  | cons stmt rest ih => simp [Stmt.functionNamesAll, ih]

-- Endings under other names

/-- The error of a program under other names: where a name is not defined, it is the other name
that is not, at the token that stands in its place. -/
def RuntimeError.renamed (error : RuntimeError) : RuntimeError :=
  match error.fault with
  | .undefinedVariable name => ⟨.undefinedVariable (rename name), error.token.renamed rename⟩
  | _ => error

def Halt.renamed : Halt → Halt
  | failed error => failed (error.renamed rename)
  | halt => halt

def Ending.renamed : Ending → Ending
  | halted halt => halted (halt.renamed rename)
  | ending => ending

variable {rename}

/-- Only errors about undefined names are renamed. -/
theorem RuntimeError.renamed_of_defined {error : RuntimeError}
    (defined : error.fault.isUndefined = false)
    : error.renamed rename = error := by
  obtain ⟨fault, token⟩ := error
  cases fault with
  | undefinedVariable name => simp [Fault.isUndefined] at defined
  | cannotNegate | cannotCombine | divisionByZero | notCallable | wrongArity => rfl

-- The likeness of a program and the same program under other names

/-- Names are replaced, and nothing else about a token. -/
def Likeness.renaming (verbosity : Nat) (injective : Function.Injective rename)
    (constantsKept : ∀ name ∈ constants.map Prod.fst, rename name = name)
    : Likeness where
  rename := rename
  token := fun first second => second.kind = first.kind ∧ second.literal = first.literal
    ∧ second.position = first.position
  verbosity := verbosity
  verbosity' := verbosity
  injective := injective
  rename_constant := constantsKept
  verbosity_le := Nat.le_refl verbosity

section Alike

variable {verbosity : Nat} {injective : Function.Injective rename}
  {constantsKept : ∀ name ∈ constants.map Prod.fst, rename name = name}

/-- A name is like itself under its new name. -/
theorem Token.name_renamed (token : Token)
    : (Likeness.renaming verbosity injective constantsKept).Name token (token.renamed rename) :=
  ⟨⟨rfl, rfl, rfl⟩, rfl⟩

/-- A sign is like itself, for signs keep their text. -/
theorem Token.sign_self (token : Token)
    : (Likeness.renaming verbosity injective constantsKept).Sign token token :=
  ⟨⟨rfl, rfl, rfl⟩, rfl, rfl⟩

/-- The only name like a given one is that one renamed, since every other field is kept. -/
theorem Token.eq_renamed {token token' : Token}
    (names : (Likeness.renaming verbosity injective constantsKept).Name token token')
    : token' = token.renamed rename := by
  obtain ⟨⟨kinds, literals, positions⟩, lexemes⟩ := names
  calc token'
    _ = ⟨token'.kind, token'.lexeme, token'.literal, token'.position⟩ := rfl
    _ = token.renamed rename := by rw [kinds, lexemes, literals, positions]; rfl

/-- The only sign like a given one is itself. -/
theorem Token.eq_of_sign {token token' : Token}
    (signs : (Likeness.renaming verbosity injective constantsKept).Sign token token')
    : token' = token := by
  obtain ⟨⟨kinds, literals, positions⟩, _, lexemes⟩ := signs
  calc token'
    _ = ⟨token'.kind, token'.lexeme, token'.literal, token'.position⟩ := rfl
    _ = token := by rw [kinds, lexemes, literals, positions]

/-- An expression is like itself under new names, by induction on it. -/
theorem Expr.like_renamed (expr : Expr)
    : expr.Like (.renaming verbosity injective constantsKept) (expr.renamed rename) := by
  induction expr with
  | literal value => exact .literal value
  | grouping inner ih => exact .grouping ih
  | reference name => exact .reference name.name_renamed
  | assign name value ih => exact .assign name.name_renamed ih
  | unary operator operand ih => exact .unary operator.sign_self ih
  | binary left operator right ihl ihr => exact .binary ihl operator.sign_self ihr
  | call callee paren arguments ih ihs =>
      simp only [renamed, renamedAll_eq]
      exact .call ih paren.sign_self (forall₂_map_of_forall ihs)

/-- A statement is like itself under new names that keep the names of its functions, by induction
on it. Function names are kept because printing a function shows its name. -/
theorem Stmt.like_renamed (stmt : Stmt)
    (kept : ∀ name ∈ stmt.functionNames, rename name = name)
    : stmt.Like (.renaming verbosity injective constantsKept) (stmt.renamed rename) := by
  -- the names in a statement of a body are among those of the whole
  have inner {body : List Stmt} (ihs : ∀ stmt ∈ body,
        (∀ name ∈ stmt.functionNames, rename name = name) →
          stmt.Like (.renaming verbosity injective constantsKept) (stmt.renamed rename))
      (kept : ∀ name ∈ functionNamesAll body, rename name = name)
      : List.Forall₂ (Stmt.Like (.renaming verbosity injective constantsKept)) body
          (renamedAll rename body) := by
    rw [renamedAll_eq]
    rw [functionNamesAll_eq] at kept
    refine forall₂_map_of_forall fun stmt member => ihs stmt member fun name declared => ?_
    exact kept name (List.mem_flatMap.mpr ⟨stmt, member, declared⟩)
  induction stmt with
  | expression expr => exact .expression expr.like_renamed
  | print expr => exact .print expr.like_renamed
  | declare name initial =>
      refine .declare name.name_renamed ?_
      cases initial with
      | none => exact .none
      | some expr => exact .some expr.like_renamed
  | block body ihs => exact .block (inner ihs kept)
  | function name params body ihs =>
      obtain ⟨nameKept, bodyKept⟩ := List.forall_mem_cons.mp kept
      refine .function name.name_renamed nameKept ?_ (inner ihs bodyKept)
      exact forall₂_map_of_forall fun param _ => param.name_renamed

/-- The only reason to halt that is like a given one is that one renamed. -/
theorem Halt.Like.eq_renamed {halt halt' : Halt}
    (like : halt.Like (.renaming verbosity injective constantsKept) halt')
    : halt' = halt.renamed rename := by
  cases like with
  | undefined names =>
      obtain rfl := Token.eq_renamed names
      rfl
  | failed defined signs =>
      obtain rfl := Token.eq_of_sign signs
      exact congrArg Halt.failed (RuntimeError.renamed_of_defined defined).symm
  | unsupportedUnary lexeme => rfl
  | unsupportedBinary lexeme => rfl

/-- Runs that end alike end in the same way up to the names. -/
theorem Run.EndsAlike.eq_renamed {first second : Except Halt Unit × World}
    (alike : Run.EndsAlike (.renaming verbosity injective constantsKept) first second)
    (shallow : (Ending.ofResult first.1).isTooDeep = false)
    : Ending.ofResult second.1 = (Ending.ofResult first.1).renamed rename
      ∧ second.2.printed = first.2.printed
      ∧ second.2.forest = first.2.forest.renamed rename := by
  have nothing (printed : String) : "" ++ printed = printed := by simp
  cases alike with
  | tooDeep => simp [Ending.ofResult, Ending.isTooDeep] at shallow
  | value value worlds => exact ⟨rfl, worlds.printed.trans (nothing _), worlds.forest⟩
  | halt halts worlds =>
      exact ⟨congrArg Ending.halted halts.eq_renamed, worlds.printed.trans (nothing _),
        worlds.forest⟩

end Alike

/-- A forest without scopes has no names. -/
theorem Forest.renamed_empty : Forest.empty.renamed rename = .empty := by
  ext1
  simp [renamed, empty]

/-- The bindings of a renamed forest are the renamed bindings. -/
theorem Forest.bindings_renamed (forest : Forest) (id : Nat)
    : (forest.renamed rename).bindings id = (forest.bindings id).renamed rename := by
  rw [bindings, getElem?_scopes_renamed, bindings]
  cases forest.scopes[id]? <;> rfl

namespace Session

/-- A program under other names does the same from a fresh start, if different names stay different
and the names of constants and functions are kept: it prints the same, ends in the same way at
the corresponding token, and binds the other names to the same values. -/
theorem runProgram_renamed (verbosity limit : Nat) (injective : Function.Injective rename)
    (constantsKept : ∀ name ∈ constants.map Prod.fst, rename name = name) {program : List Stmt}
    (functionsKept : ∀ stmt ∈ program, ∀ name ∈ stmt.functionNames, rename name = name)
    {ending ending' : Ending} {after after' : Session}
    (ran : (start verbosity).runProgram limit program = (ending, after))
    (ran' : (start verbosity).runProgram limit (program.map (Stmt.renamed rename))
      = (ending', after'))
    (shallow : ending.isTooDeep = false)
    : ending' = ending.renamed rename
      ∧ after'.world.printed = after.world.printed
      ∧ after'.globals = after.globals.renamed rename
      ∧ ∀ name, after'.globals.get? (rename name) = after.globals.get? name := by
  obtain ⟨rfl, rfl⟩ := Prod.mk.inj ran
  obtain ⟨rfl, rfl⟩ := Prod.mk.inj ran'
  have fresh : World.Like (.renaming verbosity injective constantsKept) (start verbosity).world
      (start verbosity).world := by
    refine ⟨?_, .nil, rfl, rfl, rfl, rfl⟩
    exact ((Forest.renamed_addScope _ none).trans
      (congrArg (Forest.addScope · none) Forest.renamed_empty)).symm
  have alike : List.Forall₂ (Stmt.Like (.renaming verbosity injective constantsKept)) program
      (program.map (Stmt.renamed rename)) :=
    forall₂_map_of_forall fun stmt member => stmt.like_renamed (functionsKept stmt member)
  obtain ⟨endings, printed, forests⟩ :=
    (Run.program_like (Nat.le_refl limit) alike globalScope _ _ fresh).eq_renamed shallow
  have bindings := (congrArg (Forest.bindings · globalScope) forests).trans
    (Forest.bindings_renamed _ _)
  refine ⟨endings, printed, bindings, fun name => ?_⟩
  exact (congrArg (Bindings.get? · (rename name)) bindings).trans
    (Bindings.get?_renamed injective _ name)

/-- Two names change places, among them a parameter that is listed twice, a variable that is
assigned to from inside a function, and a name that is not defined where it is used. -/
theorem runProgram_renamed_swap
    : ∃ program, (Lexed.ofSource
          "var a = \"x\"; fun f(b, b) { a = a + b; { var a = b; print a; } } f(1, \"z\"); print a; b;"
        ).stream.program 30 = .ok program
      ∧ ((start 0).runProgram 30 program).1
        = .halted (.failed ⟨.undefinedVariable "b", ⟨.identifier, "b", none, ⟨1, 85⟩⟩⟩)
      ∧ ((start 0).runProgram 30 (program.map (Stmt.renamed (Equiv.swap "a" "b")))).1
        = .halted (.failed ⟨.undefinedVariable "a", ⟨.identifier, "a", none, ⟨1, 85⟩⟩⟩)
      ∧ ((start 0).runProgram 30 (program.map (Stmt.renamed (Equiv.swap "a" "b")))
        ).2.world.printed = "z\nxz\n"
      ∧ ((start 0).runProgram 30 (program.map (Stmt.renamed (Equiv.swap "a" "b")))).2.globals.names
        = ["b", "f"] := by
  let read := (Lexed.ofSource
    "var a = \"x\"; fun f(b, b) { a = a + b; { var a = b; print a; } } f(1, \"z\"); print a; b;"
    ).stream.program 30
  have reads : read = .ok (read.toOption.getD []) := ok_getD_toOption (by decide +kernel) []
  have ends : ((start 0).runProgram 30 (read.toOption.getD [])).1
      = .halted (.failed ⟨.undefinedVariable "b", ⟨.identifier, "b", none, ⟨1, 85⟩⟩⟩) := by
    decide +kernel
  have kept : ∀ stmt ∈ read.toOption.getD [], ∀ name ∈ stmt.functionNames,
      Equiv.swap "a" "b" name = name := by
    decide +kernel
  have injective : Function.Injective (Equiv.swap "a" "b") := (Equiv.swap "a" "b").injective
  obtain ⟨endings, printed, globals, _⟩ := runProgram_renamed 0 30 injective
    (by decide +kernel) kept (Prod.eta _).symm (Prod.eta _).symm (congrArg Ending.isTooDeep ends)
  refine ⟨_, reads, ends, ?_, ?_, ?_⟩
  · exact endings.trans ((congrArg _ ends).trans (by decide +kernel))
  · exact printed.trans (by decide +kernel)
  · exact (congrArg Bindings.names globals).trans (by decide +kernel)

end Session

end Sprig
