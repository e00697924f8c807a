import Sprig.Proofs.Machine.Simulation
import Sprig.Proofs.Tree.Stripped
import Sprig.Session

/-! Parentheses and places carry no meaning: programs that are equal without them run alike.
Both are compared with what is left of them.
-/

namespace Sprig

/-- The likeness of a program and what is left of it. -/
def Likeness.layout (verbosity : Nat) : Likeness where
  rename := id
  token := fun first second => second.kind = first.kind ∧ second.lexeme = first.lexeme
  verbosity := verbosity
  verbosity' := verbosity
  injective := fun _ _ same => same
  rename_constant := fun _ _ => rfl
  verbosity_le := Nat.le_refl verbosity

/-- The likeness of a program and what is left of it, which runs after `before` has been printed. -/
def Likeness.continued (verbosity : Nat) (before : String) : Likeness :=
  { Likeness.layout verbosity with before }

variable {verbosity : Nat} {before : String}

/-- A name without its place is the same name. -/
theorem Token.name_unplaced (token : Token)
    : (Likeness.layout verbosity).Name token token.unplaced :=
  ⟨⟨rfl, rfl⟩, rfl⟩

/-- A sign without its place is the same sign. -/
theorem Token.sign_unplaced (token : Token)
    : (Likeness.layout verbosity).Sign token token.unplaced :=
  ⟨⟨rfl, rfl⟩, rfl, rfl⟩

/-- Items that are related to their images are so as lists. -/
theorem forall₂_map_of_forall {α β : Type} {related : α → β → Prop} {change : α → β}
    {items : List α} (each : ∀ item ∈ items, related item (change item))
    : List.Forall₂ related items (items.map change) := by
  rw [List.forall₂_map_right_iff, List.forall₂_same]
  exact each

/-- An expression is like itself without parentheses and places, by induction on it. -/
theorem Expr.like_stripped (expr : Expr) : expr.Like (.layout verbosity) expr.stripped := by
  induction expr with
  | literal value => exact .literal value
  | grouping inner ih => exact .unwrapped ih
  | reference name => exact .reference name.name_unplaced
  | assign name value ih => exact .assign name.name_unplaced ih
  | unary operator operand ih => exact .unary operator.sign_unplaced ih
  | binary left operator right ihl ihr => exact .binary ihl operator.sign_unplaced ihr
  | call callee paren arguments ih ihs =>
      simp only [stripped, strippedAll_eq]
      exact .call ih paren.sign_unplaced (forall₂_map_of_forall ihs)

/-- A statement is like itself without parentheses and places, by induction on it. -/
theorem Stmt.like_stripped (stmt : Stmt) : stmt.Like (.layout verbosity) stmt.stripped := by
  induction stmt with
  | expression expr => exact .expression expr.like_stripped
  | print expr => exact .print expr.like_stripped
  | declare name initial =>
      refine .declare name.name_unplaced ?_
      cases initial with
      | none => exact .none
      | some expr => exact .some expr.like_stripped
  | block body ih =>
      simp only [stripped, strippedAll_eq]
      exact .block (forall₂_map_of_forall ih)
  | function name params body ih =>
      simp only [stripped, strippedAll_eq]
      refine .function name.name_unplaced rfl ?_ (forall₂_map_of_forall ih)
      exact forall₂_map_of_forall fun param _ => param.name_unplaced

-- Programs whose tokens stand for themselves

section Itself

variable {likeness : Likeness} (names : ∀ token, likeness.Name token token)
  (signs : ∀ token, likeness.Sign token token)

include names signs

/-- An expression whose tokens stand for themselves is like itself, by induction on it. -/
theorem Expr.like_self (expr : Expr) : expr.Like likeness expr := by
  induction expr with
  | literal value => exact .literal value
  | grouping inner ih => exact .grouping ih
  | reference name => exact .reference (names name)
  | assign name value ih => exact .assign (names name) ih
  | unary operator operand ih => exact .unary (signs operator) ih
  | binary left operator right ihl ihr => exact .binary ihl (signs operator) ihr
  | call callee paren arguments ih ihs =>
      exact .call ih (signs paren) (List.forall₂_same.mpr ihs)

/-- A statement whose tokens stand for themselves is like itself, by induction on it. -/
theorem Stmt.like_self (stmt : Stmt) : stmt.Like likeness stmt := by
  induction stmt with
  | expression expr => exact .expression (expr.like_self names signs)
  | print expr => exact .print (expr.like_self names signs)
  | declare name initial =>
      refine .declare (names name) ?_
      cases initial with
      | none => exact .none
      | some expr => exact .some (expr.like_self names signs)
  | block body ih => exact .block (List.forall₂_same.mpr ih)
  | function name params body ih =>
      exact .function (names name) (names name).2.symm
        (List.forall₂_same.mpr fun param _ => names param) (List.forall₂_same.mpr ih)

/-- A closure whose tokens stand for themselves is like itself. -/
theorem Closure.like_self (closure : Closure) : closure.Like likeness closure :=
  ⟨List.forall₂_same.mpr fun param _ => names param,
    List.forall₂_same.mpr fun stmt _ => stmt.like_self names signs, rfl⟩

end Itself

-- What two programs with the same remains have in common

/-- The same reason, at tokens of the same kind and text. -/
inductive Halt.Matches : Halt → Halt → Prop where
  | failed (fault : Fault) {token token' : Token} : token'.kind = token.kind →
      token'.lexeme = token.lexeme → Matches (.failed ⟨fault, token⟩) (.failed ⟨fault, token'⟩)
  | unsupportedUnary (lexeme : String) :
      Matches (.unsupportedUnary lexeme) (.unsupportedUnary lexeme)
  | unsupportedBinary (lexeme : String) :
      Matches (.unsupportedBinary lexeme) (.unsupportedBinary lexeme)

/-- Both completed, or both halted for the same reason. -/
inductive Ending.Matches : Ending → Ending → Prop where
  | completed : Matches .completed .completed
  | halted {halt halt' : Halt} : halt.Matches halt' → Matches (.halted halt) (.halted halt')

/-- Alike reasons to halt match: they name the same fault at tokens that read the same. -/
theorem Halt.Like.matches {halt halt' : Halt} (like : halt.Like (.continued verbosity before) halt')
    : halt.Matches halt' := by
  cases like with
  | undefined names => exact .failed _ names.1.1 names.1.2
  | failed _ signs => exact .failed _ signs.2.1 signs.2.2
  | unsupportedUnary lexeme => exact .unsupportedUnary lexeme
  | unsupportedBinary lexeme => exact .unsupportedBinary lexeme

/-- Two reasons that match a third one match each other. -/
theorem Halt.Matches.of_common {halt halt' other : Halt} (left : halt.Matches other)
    (right : halt'.Matches other)
    : halt.Matches halt' := by
  cases left with
  | failed fault kinds lexemes =>
      cases right with
      | failed fault kinds' lexemes' =>
          exact .failed fault (kinds'.symm.trans kinds) (lexemes'.symm.trans lexemes)
  | unsupportedUnary lexeme =>
      cases right
      exact .unsupportedUnary lexeme
  | unsupportedBinary lexeme =>
      cases right
      exact .unsupportedBinary lexeme

/-- Two worlds that are like a third one have printed, bound and recorded the same. -/
theorem World.Like.same_effects {first second other : World}
    (left : first.Like (.layout verbosity) other) (right : second.Like (.layout verbosity) other)
    : second.printed = first.printed ∧ second.forest = first.forest
      ∧ second.events = first.events := by
  have renamed_eq : TraceEvent.renamed id = id := funext TraceEvent.renamed_id
  have forests := right.forest.symm.trans left.forest
  have events := right.events.symm.trans left.events
  simp only [Likeness.layout, Forest.renamed_id, renamed_eq, List.map_id] at forests events
  exact ⟨right.printed.symm.trans left.printed, forests, Array.toList_inj.mp events⟩

/-- Runs that match the same run match each other, unless one of them nests too deep. -/
theorem Run.EndsAlike.matches {first second other : Except Halt Unit × World}
    (left : Run.EndsAlike (.layout verbosity) first other)
    (right : Run.EndsAlike (.layout verbosity) second other)
    (shallow : (Ending.ofResult first.1).isTooDeep = false)
    (shallow' : (Ending.ofResult second.1).isTooDeep = false)
    : (Ending.ofResult first.1).Matches (Ending.ofResult second.1)
      ∧ second.2.printed = first.2.printed ∧ second.2.forest = first.2.forest
      ∧ second.2.events = first.2.events := by
  cases left with
  | tooDeep => simp [Ending.ofResult, Ending.isTooDeep] at shallow
  | value value worlds =>
      cases right with
      | tooDeep => simp [Ending.ofResult, Ending.isTooDeep] at shallow'
      | value value' worlds' => exact ⟨.completed, worlds.same_effects worlds'⟩
  | halt halts worlds =>
      cases right with
      | tooDeep => simp [Ending.ofResult, Ending.isTooDeep] at shallow'
      | halt halts' worlds' =>
          exact ⟨.halted (halts.matches.of_common halts'.matches), worlds.same_effects worlds'⟩

/-- A program from a fresh start, compared with what is left of it. -/
theorem Session.program_like_stripped (verbosity : Nat) {limit limit' : Nat} (more : limit ≤ limit')
    (program : List Stmt)
    : Run.EndsAlike (.layout verbosity)
        ((Run.program limit program globalScope).run.run (start verbosity).world)
        ((Run.program limit' (program.map Stmt.stripped) globalScope).run.run
          (start verbosity).world) := by
  have fresh : World.Like (.layout verbosity) (start verbosity).world (start verbosity).world :=
    ⟨(Forest.renamed_id _).symm, .nil, rfl, rfl, rfl, rfl⟩
  have alike : List.Forall₂ (Stmt.Like (.layout verbosity)) program (program.map Stmt.stripped) :=
    forall₂_map_of_forall fun stmt _ => stmt.like_stripped
  exact Run.program_like more alike globalScope _ _ fresh

/-- Programs that are equal without their parentheses and places do the same from a fresh start,
whatever their limits, if they stay within them: they print the same, end in the same way and
bind the same names to the same values. -/
theorem Session.runProgram_of_stripped_eq (verbosity limit limit' : Nat)
    {program program' : List Stmt}
    (same : program.map Stmt.stripped = program'.map Stmt.stripped)
    (shallow : ((start verbosity).runProgram limit program).1.isTooDeep = false)
    (shallow' : ((start verbosity).runProgram limit' program').1.isTooDeep = false)
    : let first := (start verbosity).runProgram limit program
      let second := (start verbosity).runProgram limit' program'
      first.1.Matches second.1
        ∧ second.2.world.printed = first.2.world.printed
        ∧ second.2.globals = first.2.globals
        ∧ second.2.trace = first.2.trace := by
  have left := program_like_stripped verbosity (Nat.le_max_left limit limit') program
  have right := program_like_stripped verbosity (Nat.le_max_right limit limit') program'
  rw [← same] at right
  obtain ⟨endings, printed, forests, events⟩ := left.matches right shallow shallow'
  refine ⟨endings, printed, ?_, ?_⟩
  · exact congrArg (Forest.bindings · globalScope) forests
  · exact congrArg (TraceEvent.lines ·.toList) events

/-- A function that prints a sum, called with a text and with nil, in one line and in three with
parentheses around the operands. -/
theorem Session.runProgram_of_stripped_eq_sum
    : ∃ program program' : List Stmt,
        program.map Stmt.stripped = program'.map Stmt.stripped
        ∧ ((start 0).runProgram 20 program).1
          = .halted (.failed ⟨.cannotCombine .add .nil .text, ⟨.plus, "+", none, ⟨1, 20⟩⟩⟩)
        ∧ ((start 0).runProgram 20 program).1.Matches ((start 0).runProgram 20 program').1
        ∧ ((start 0).runProgram 20 program').2.world.printed = "hi!\n"
        ∧ ((start 0).runProgram 20 program').2.globals = [("f", .function ⟨0, "f", 1⟩)] := by
  let program : List Stmt :=
    [.function ⟨.identifier, "f", none, ⟨1, 5⟩⟩ [⟨.identifier, "a", none, ⟨1, 7⟩⟩]
        [.print (.binary (.reference ⟨.identifier, "a", none, ⟨1, 18⟩⟩)
          ⟨.plus, "+", none, ⟨1, 20⟩⟩ (.literal (.text "!")))],
      .expression (.call (.reference ⟨.identifier, "f", none, ⟨1, 29⟩⟩)
        ⟨.rightParen, ")", none, ⟨1, 35⟩⟩ [.literal (.text "hi")]),
      .expression (.call (.reference ⟨.identifier, "f", none, ⟨1, 38⟩⟩)
        ⟨.rightParen, ")", none, ⟨1, 43⟩⟩ [.literal .nil])]
  let program' : List Stmt :=
    [.function ⟨.identifier, "f", none, ⟨1, 5⟩⟩ [⟨.identifier, "a", none, ⟨1, 7⟩⟩]
        [.print (.binary (.grouping (.reference ⟨.identifier, "a", none, ⟨1, 19⟩⟩))
          ⟨.plus, "+", none, ⟨1, 22⟩⟩ (.grouping (.literal (.text "!"))))],
      .expression (.call (.grouping (.reference ⟨.identifier, "f", none, ⟨2, 2⟩⟩))
        ⟨.rightParen, ")", none, ⟨2, 9⟩⟩ [.literal (.text "hi")]),
      .expression (.call (.reference ⟨.identifier, "f", none, ⟨3, 1⟩⟩)
        ⟨.rightParen, ")", none, ⟨3, 8⟩⟩ [.grouping (.literal .nil)])]
  have same : program.map Stmt.stripped = program'.map Stmt.stripped := rfl
  have shallow : ((start 0).runProgram 20 program).1.isTooDeep = false := by decide +kernel
  have shallow' : ((start 0).runProgram 20 program').1.isTooDeep = false := by decide +kernel
  obtain ⟨endings, printed, globals, _⟩ := runProgram_of_stripped_eq 0 20 20 same shallow shallow'
  refine ⟨program, program', same, by decide +kernel, endings, ?_, ?_⟩
  · exact printed.trans (by decide +kernel)
  · exact globals.trans (by decide +kernel)

end Sprig
