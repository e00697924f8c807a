import Sprig.Proofs.Grammar.EarliestError
import Sprig.Proofs.Lexing.Division
import Sprig.Proofs.Machine.Checked
import Sprig.Proofs.Number.Numeral

/-! No text leads to an error of the language itself. Its tokens are a stream, its numerals can be
read, and where its trees have operators, these can be applied. Functions keep such trees for as
long as a session goes on.
-/

namespace Sprig

-- The tokens of a text

namespace Lexed

/-- A text ends where its tokens end. -/
theorem ofList?_tokens (source : String)
    : TokenStream.ofList? (ofSource source).tokens = some (ofSource source).stream :=
  TokenStream.ofList?_toList _ rfl fun _ member => (isGenuine member).isLexeme.ne_endOfText

end Lexed

-- Operators of trees

/-- Whether the operator of an expression, if it has one, can be applied. -/
def Expr.canApply : Expr → Bool
  | .unary operator _ => (UnaryOperator.ofKind? operator.kind).isSome
  | .binary _ operator _ => (BinaryOperator.ofKind? operator.kind).isSome
  | _ => true

/-- The operators of a phrase can be applied, by induction on it: the signs that it may have are
all known to the evaluator. -/
theorem Grammar.Phrase.canApply_tree {category : Category} (phrase : Phrase category)
    : phrase.tree.canApply := by
  induction phrase with
  | plain looser inner ih => exact ih
  | chain left operator joins right _ _ =>
      have applies : ∀ kind ∈ Precedence.binarySigns, (BinaryOperator.ofKind? kind).isSome := by
        decide
      exact applies _ (Expr.mem_binarySigns joins)
  | unary operator isUnary operand _ =>
      have applies : ∀ kind ∈ unarySigns, (UnaryOperator.ofKind? kind).isSome := by decide
      exact applies _ isUnary
  | assign | call | literal | reference | grouping => rfl

/-- A known unary sign halts with an error of the program at most. -/
theorem Token.internalMessage?_applyUnary {operator : Token}
    (applies : (UnaryOperator.ofKind? operator.kind).isSome) {operand : Value} {halt : Halt}
    (applied : operator.applyUnary operand = .error halt)
    : halt.internalMessage? = none := by
  rcases applyUnary_eq_error applied with ⟨_, fault, _, _, rfl⟩ | ⟨unknown, _⟩
  · rfl
  · simp [unknown] at applies

/-- A known binary sign halts with an error of the program at most. -/
theorem Token.internalMessage?_applyBinary {operator : Token}
    (applies : (BinaryOperator.ofKind? operator.kind).isSome) {left right : Value} {halt : Halt}
    (applied : operator.applyBinary left right = .error halt)
    : halt.internalMessage? = none := by
  rcases applyBinary_eq_error applied with ⟨_, fault, _, _, rfl⟩ | ⟨unknown, _⟩
  · rfl
  · simp [unknown] at applies

/-- An operator that can be applied is not to blame for an error of the language itself. -/
theorem Expr.Raises.internalMessage?_eq_none {expr : Expr} {halt : Halt} (raises : expr.Raises halt)
    (applies : expr.canApply)
    : halt.internalMessage? = none := by
  cases raises with
  | reference | assign | call => rfl
  | unary applied => exact Token.internalMessage?_applyUnary applies applied
  | binary applied => exact Token.internalMessage?_applyBinary applies applied

-- Sessions

namespace Session

/-- The operators of every text can be applied. -/
theorem canApply_text (limit : Nat) (source : String)
    : (Lexed.ofSource source).stream.Passes Expr.canApply limit :=
  TokenStream.passes_of_phrases (fun phrase _ => phrase.canApply_tree) limit

/-- After any texts, all operators in the closures of a session can be applied. -/
theorem isOperable_after (verbosity limit : Nat) (texts : List String)
    : ((start verbosity).after limit texts).world.Passes Expr.canApply :=
  passes_after (passes_start verbosity) fun source _ => canApply_text limit source

/-- How a text ends where the operators of all functions can be applied. -/
theorem ending_cases (limit : Nat) {session : Session}
    (passes : session.world.Passes Expr.canApply) (source : String)
    : (session.run limit source).1.ending.isTooDeep
      ∨ (session.run limit source).1.ending = .completed
      ∨ (∃ error, error.expected ≠ .operator
          ∧ (session.run limit source).1.ending = .rejected error)
      ∨ ∃ error, (session.run limit source).1.ending = .halted (.failed error) := by
  cases reads : (Lexed.ofSource source).stream.program limit with
  | error failure =>
      rw [run_of_failure reads]
      cases failure with
      | tooDeep => exact .inl rfl
      | rejected error =>
          exact .inr (.inr (.inl ⟨error, TokenStream.program_rejected_ne_operator reads, rfl⟩))
  | ok program =>
      have halts := (Run.program_checked limit passes (canApply_text limit source program reads)
        globalScope).2
      rw [run_of_program reads (Prod.eta _).symm]
      cases result : ((Run.program limit program globalScope).run.run session.world).1 with
      | ok => exact .inr (.inl rfl)
      | error halt =>
          rcases halts halt result with rfl | ⟨expr, applies, raises⟩
          · exact .inl rfl
          · have ordinary := raises.internalMessage?_eq_none applies
            cases halt with
            | tooDeep => exact .inl rfl
            | failed error => exact .inr (.inr (.inr ⟨error, rfl⟩))
            | unsupportedUnary | unsupportedBinary => exact nomatch ordinary

/-- However many texts a session has run, the next one is a stream of tokens whose numbers are
numerals, and it runs to its end unless the nesting is too deep, it is no program, or its program
is at fault. No operator is ever missed, and no token is applied that is no operator.
-/
theorem run_never_internal (verbosity limit : Nat) (texts : List String) (source : String)
    : TokenStream.ofList? (Lexed.ofSource source).tokens = some (Lexed.ofSource source).stream
      ∧ (∀ token ∈ (Lexed.ofSource source).tokens, token.kind = .number →
          ∃ whole fraction, whole ≠ [] ∧ (∀ c ∈ whole ++ fraction, c.isDigit = true)
            ∧ token.lexeme.toList = Decimal.numeral whole fraction
            ∧ token.literal = some (.number (.ofDecimal (.ofDigits whole fraction))))
      ∧ ((((start verbosity).after limit texts).run limit source).1.ending.isTooDeep
        ∨ (((start verbosity).after limit texts).run limit source).1.ending = .completed
        ∨ (∃ error, error.expected ≠ .operator
            ∧ (((start verbosity).after limit texts).run limit source).1.ending = .rejected error)
        ∨ ∃ error,
            (((start verbosity).after limit texts).run limit source).1.ending
              = .halted (.failed error)) := by
  refine ⟨Lexed.ofList?_tokens source, fun _ => Lexed.exists_digits, ?_⟩
  exact ending_cases limit (isOperable_after verbosity limit texts) source

end Session

end Sprig
