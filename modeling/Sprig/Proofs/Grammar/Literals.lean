import Sprig.Proofs.Grammar.Derived
import Sprig.Token.Lexed

/-! Texts hold data only: every literal of a tree that is read from a text has a value, and none
stands for a function.
-/

namespace Sprig

/-- Whether a token that is a number or a text carries its value. -/
def Token.holdsData (token : Token) : Bool :=
  token.kind ∉ [.number, .string] || token.literal.any Value.isData

/-- The tokens of a text hold data, since a number or text gets its value when it is cut out. -/
theorem Lexed.holdsData {text : List Char} {token : Token}
    (member : token ∈ (Lexed.ofChars text).stream.body)
    : token.holdsData := by
  obtain ⟨segment, _, isToken⟩ := List.mem_filterMap.mp member
  unfold Segment.token? at isToken
  split at isToken
  · next kind _ =>
    obtain rfl := Option.some.inj isToken
    cases kind <;> rfl
  · simp at isToken

namespace Grammar

/-- The value of a literal is a datum: a word stands for one, other literals carry one. -/
theorem isData_literalValue {token : Token} (isLiteral : token.kind ∈ literalKinds)
    (data : token.holdsData)
    : (literalValue token).isData := by
  have carried (isCarrier : token.kind ∈ [.number, .string])
      : (token.literal.getD .absent).isData := by
    have holds : token.literal.any Value.isData := by simpa [Token.holdsData, isCarrier] using data
    cases isLiteral : token.literal with
    | none => simp [isLiteral] at holds
    | some value => simpa [isLiteral] using holds
  simp only [literalKinds, List.mem_cons, List.not_mem_nil, or_false] at isLiteral
  rcases isLiteral with isKind | isKind | isKind | isKind | isKind <;>
    simp only [literalValue, isKind]
  · exact carried (by simp [isKind])
  · exact carried (by simp [isKind])
  · rfl
  · rfl
  · rfl

/-- Only a literal takes its value from a token. -/
theorem Phrase.passesAsLiteral_tree {category : Category} (phrase : Phrase category)
    (data : ∀ token ∈ phrase.yield, token.holdsData)
    : phrase.tree.passesAsLiteral Value.isData := by
  induction phrase with
  | plain looser inner ih => exact ih data
  | literal token isLiteral =>
      simp only [yield, List.forall_mem_singleton] at data
      exact isData_literalValue isLiteral data
  | assign | chain | unary | call | reference | grouping => rfl

/-- A derived literal is a datum when the tokens that derive it hold data. -/
theorem Derives.passesAsLiteral {tokens : List Token} (data : ∀ token ∈ tokens, token.holdsData)
    {expr : Expr} (derives : Derives tokens expr)
    : expr.passesAsLiteral Value.isData := by
  obtain ⟨category, phrase, rfl, fewer⟩ := derives
  exact phrase.passesAsLiteral_tree fun token inside => data token (fewer inside)

end Grammar

namespace Lexed

open Grammar

variable {source : String} {limit : Nat} {check : Value → Bool}
  (lets : ∀ value : Value, value.isData → check value)

include lets

/-- The literals of an expression that is read from a text pass every check that data pass, since
each part of the expression stands for tokens of the text. -/
theorem literalsPass_expression {expr : Expr}
    (reads : (ofSource source).stream.expression limit = .ok expr)
    : expr.literalsPass check :=
  List.all_eq_true.mpr fun part member => Expr.passesAsLiteral_mono lets
    ((TokenStream.derives_of_expression reads part member).passesAsLiteral fun _ => holdsData)

/-- The literals of a program that is read from a text pass every check that data pass, since each
of its expressions is derived by tokens of the text. -/
theorem literalsPass_program {program : List Stmt}
    (reads : (ofSource source).stream.program limit = .ok program)
    : ∀ stmt ∈ program, stmt.literalsPass check :=
  fun _ isStmt => List.all_eq_true.mpr fun part member => Expr.passesAsLiteral_mono lets
    ((TokenStream.derives_of_program reads isStmt part member).passesAsLiteral fun _ => holdsData)

omit lets

/-- No literal of an expression that is read from a text is a function. -/
theorem isPlain_expression {expr : Expr}
    (reads : (ofSource source).stream.expression limit = .ok expr)
    : expr.isPlain :=
  literalsPass_expression (fun _ data => by simp [Value.not_isFunction_of_isData data]) reads

/-- No literal of a program that is read from a text is a function. -/
theorem isPlain_program {program : List Stmt}
    (reads : (ofSource source).stream.program limit = .ok program)
    : ∀ stmt ∈ program, stmt.isPlain :=
  literalsPass_program (fun _ data => by simp [Value.not_isFunction_of_isData data]) reads

/-- Every literal of a program that is read from a text has a value. -/
theorem hasValues_program {program : List Stmt}
    (reads : (ofSource source).stream.program limit = .ok program)
    : ∀ stmt ∈ program, stmt.hasValues :=
  literalsPass_program (fun _ data => by simp [Value.ne_absent_of_isData data]) reads

end Lexed

end Sprig
