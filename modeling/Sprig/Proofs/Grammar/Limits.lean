import Sprig.Proofs.Grammar.EarliestError

/-! The nesting limit only tells how far reading goes. With a higher limit, whatever was read is
read again and whatever was refused is refused at the same token.
-/

namespace Sprig

open Grammar Reader

namespace Reader

variable {α β : Type}

/-- The second reader does what the first does, unless the first reaches its limit. -/
def DeepensTo (reader deeper : Reader α) : Prop :=
  ∀ tokens, UpToDepth (reader tokens) (deeper tokens)

namespace DeepensTo

/-- A reader deepens to itself. -/
theorem refl (reader : Reader α) : DeepensTo reader reader :=
  fun tokens => .refl (reader tokens)

/-- A reader that has run out of depth deepens to any other. -/
theorem tooDeep (deeper : Reader α) : DeepensTo Reader.tooDeep deeper :=
  fun _ => .inl rfl

/-- A sequence deepens in both parts: where the first runs out of depth the sequence does, and
otherwise both read the same. -/
theorem bind {first first' : Reader α} {next next' : α → Reader β}
    (deepens : DeepensTo first first') (continues : ∀ value, DeepensTo (next value) (next' value))
    : DeepensTo (first >>= next) (first' >>= next') := by
  intro tokens
  rcases deepens tokens with deep | same
  · exact .inl (bind_of_error deep)
  · cases reads : first' tokens with
    | error refusal =>
        exact .of_eq ((bind_of_error (same.trans reads)).trans (bind_of_error reads).symm)
    | ok pair =>
        rw [bind_of_ok (same.trans reads), bind_of_ok reads]
        exact continues pair.1 pair.2

/-- Converting the value keeps the relation, as `bind` with `pure`. -/
theorem map {reader deeper : Reader α} (deepens : DeepensTo reader deeper) (convert : α → β)
    : DeepensTo (convert <$> reader) (convert <$> deeper) := by
  rw [← bind_pure_comp, ← bind_pure_comp]
  exact deepens.bind fun value => .refl _

/-- A loop goes on for as long as its condition holds, whatever its steps are. -/
theorem repeatWhile {condition : List Token → Bool} {step step' : α → Reader α}
    (deepens : ∀ state, DeepensTo (step state) (step' state)) (bound : List Token) (state : α)
    : DeepensTo (Reader.repeatWhile condition step bound state)
        (Reader.repeatWhile condition step' bound state) := by
  induction bound generalizing state with
  | nil => exact .refl _
  | cons _ bound ih =>
      intro tokens
      by_cases continues : condition tokens = true
      · rw [repeatWhile_of_true continues, repeatWhile_of_true continues]
        exact (deepens state).bind ih tokens
      · simp only [Bool.not_eq_true] at continues
        rw [repeatWhile_of_false _ _ continues, repeatWhile_of_false _ _ continues]
        exact .refl _

/-- Items deepen one by one, since gathering them is a loop. -/
theorem many {item deeper : Reader α} (deepens : DeepensTo item deeper)
    (condition : List Token → Bool)
    : DeepensTo (Reader.many condition item) (Reader.many condition deeper) := by
  intro tokens
  exact (DeepensTo.repeatWhile (fun found => deepens.map (· :: found)) tokens []).map List.reverse
    tokens

/-- Items between commas deepen: the first by itself, the others as items after a comma. -/
theorem separated {item deeper : Reader α} (deepens : DeepensTo item deeper) (close : TokenKind)
    : DeepensTo (Reader.separated close item) (Reader.separated close deeper) := by
  intro tokens
  simp only [Reader.separated]
  split
  · exact .refl _
  · have others := (DeepensTo.refl (takeIf .comma)).bind fun _ => deepens
    exact (deepens.bind fun first => (others.many _).bind fun rest => .refl _) tokens

end DeepensTo

end Reader

namespace Expr

section Parts

variable {inner deeper : Nat → Reader Expr}
  (deepens : ∀ level, DeepensTo (inner level) (deeper level))

include deepens

/-- A grouping deepens with its inner expression. -/
theorem readGrouping_deepens : DeepensTo (readGrouping inner) (readGrouping deeper) :=
  (deepens _).bind fun _ => .refl _

/-- The arguments of a call deepen with the inner expressions. -/
theorem readCall_deepens (callee : Expr)
    : DeepensTo (readCall inner callee) (readCall deeper callee) :=
  ((deepens _).separated _).bind fun _ => .refl _

/-- An operand deepens with the inner expressions, by the kind of its first token. -/
theorem readOperand_deepens : DeepensTo (readOperand inner) (readOperand deeper) := by
  intro tokens
  cases tokens with
  | nil => exact .refl _
  | cons token rest =>
      by_cases isLiteral : token.kind ∈ literalKinds
      · rw [readOperand_literal inner rest isLiteral, readOperand_literal deeper rest isLiteral]
        exact .refl _
      by_cases isName : token.kind = .identifier
      · rw [readOperand_name inner rest isName, readOperand_name deeper rest isName]
        exact .refl _
      by_cases isUnary : token.kind ∈ unarySigns
      · rw [readOperand_unary inner rest isUnary, readOperand_unary deeper rest isUnary]
        exact (deepens _).map _ rest
      by_cases isOpening : token.kind = .leftParen
      · rw [readOperand_opening inner rest isOpening, readOperand_opening deeper rest isOpening]
        exact readGrouping_deepens deepens rest
      have starts := not_mem_startKinds isLiteral isName isUnary isOpening
      rw [readOperand_refused inner rest starts, readOperand_refused deeper rest starts]
      exact .refl _

/-- An operation deepens with the inner expressions, by the kind of its sign. -/
theorem readOperation_deepens (left : Expr)
    : DeepensTo (readOperation inner left) (readOperation deeper left) := by
  intro tokens
  cases tokens with
  | nil => exact .refl _
  | cons token rest =>
      simp only [readOperation]
      split
      · exact (deepens _).map _ rest
      · exact .refl _
      · exact readCall_deepens deepens _ rest
      · split
        · exact (deepens _).map _ rest
        · exact .refl _

end Parts

/-- A higher limit reads every expression at least as far, by induction on the limit; the operand
and the loop of operations deepen one after the other. -/
theorem read_deepens {limit limit' : Nat} (le : limit ≤ limit') (level : Nat)
    : DeepensTo (read limit level) (read limit' level) := by
  induction limit generalizing limit' level with
  | zero => exact .tooDeep _
  | succ limit ih =>
      obtain ⟨limit', rfl⟩ : ∃ more, limit' = more + 1 := Nat.exists_eq_succ_of_ne_zero (by omega)
      have inner := fun level => ih (Nat.le_of_succ_le_succ le) level
      intro tokens
      exact ((readOperand_deepens inner).bind
        fun left => .repeatWhile (readOperation_deepens inner) tokens left) tokens

end Expr

namespace Stmt

section Parts

variable {expr expr' : Reader Expr} {stmt stmt' : Reader Stmt}

/-- A declaration deepens with its initial value. -/
theorem readDeclaration_deepens (deepens : DeepensTo expr expr')
    : DeepensTo (readDeclaration expr) (readDeclaration expr') := by
  refine (DeepensTo.refl _).bind fun name => (DeepensTo.refl _).bind fun isSign => ?_
  cases isSign with
  | true => exact (deepens.map some).bind fun _ => .refl _
  | false => exact .refl _

/-- A body deepens with its statements. -/
theorem readBody_deepens (deepens : DeepensTo stmt stmt')
    : DeepensTo (readBody stmt) (readBody stmt') :=
  (deepens.many _).bind fun _ => .refl _

/-- A function declaration deepens with its body, which comes after the parts that read no inner
statement. -/
theorem readFunction_deepens (deepens : DeepensTo stmt stmt')
    : DeepensTo (readFunction stmt) (readFunction stmt') := by
  refine (DeepensTo.refl _).bind fun name => (DeepensTo.refl _).bind fun _ => ?_
  refine (DeepensTo.refl _).bind fun params => (DeepensTo.refl _).bind fun _ => ?_
  exact (DeepensTo.refl _).bind fun _ => (readBody_deepens deepens).bind fun _ => .refl _

end Parts

/-- A higher limit reads every statement at least as far, by induction on the limit and by the
word that leads the statement. -/
theorem read_deepens {limit limit' : Nat} (le : limit ≤ limit')
    : DeepensTo (read limit) (read limit') := by
  induction limit generalizing limit' with
  | zero => exact .tooDeep _
  | succ limit ih =>
      obtain ⟨limit', rfl⟩ : ∃ more, limit' = more + 1 := Nat.exists_eq_succ_of_ne_zero (by omega)
      have inner := ih (Nat.le_of_succ_le_succ le)
      have expr := Expr.read_deepens (Nat.le_of_succ_le_succ le) Precedence.lowest
      intro tokens
      simp only [read]
      split
      · exact readDeclaration_deepens expr _
      · exact (expr.bind fun _ => .refl _) _
      · exact readFunction_deepens inner _
      · exact (readBody_deepens inner).map _ _
      · exact (expr.bind fun _ => .refl _) _

end Stmt

namespace TokenStream

/-- A stream that is read without reaching the limit is read in the same way with any higher one.
-/
theorem program_of_le (stream : TokenStream) {limit limit' : Nat} (le : limit ≤ limit')
    (shallow : stream.program limit ≠ .error .tooDeep)
    : stream.program limit' = stream.program limit := by
  rcases (Stmt.read_deepens le).many (!·.isEmpty) stream.body with deep | same
  · exact absurd (by rw [program, readAll, deep]) shallow
  · rw [program, program, readAll, readAll, same]

end TokenStream

end Sprig
