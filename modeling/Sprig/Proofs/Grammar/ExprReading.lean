import Sprig.Proofs.Grammar.Climbing

/-! What the reader of expressions accepts is a phrase, and every phrase is accepted. Both
directions follow the loop over operators: its state is a phrase already read and the tokens
after it, which start with no operator that the phrase should have taken.
-/

namespace Sprig.Expr

open Grammar Reader

-- Operators at the front of the tokens left

/-- A token that continues no expression at a level continues none at a higher one. -/
theorem bindsTighter_mono {low high : Nat} (le : low ≤ high) {tokens : List Token}
    (stopped : bindsTighter low tokens = false)
    : bindsTighter high tokens = false := by
  cases tokens with
  | nil => rfl
  | cons token rest =>
      simp only [bindsTighter, List.head?_cons, Option.any_some, decide_eq_false_iff_not,
        Nat.not_lt] at stopped ⊢
      exact Nat.le_trans stopped le

/-- No operator binds tighter than a call, by cases on the kind of the token. -/
theorem bindsTighter_call (tokens : List Token) : bindsTighter Precedence.call tokens = false := by
  cases tokens with
  | nil => rfl
  | cons token rest =>
      simp only [bindsTighter, List.head?_cons, Option.any_some, decide_eq_false_iff_not,
        Nat.not_lt]
      cases token.kind <;> decide

/-- An operation goes on when its operator binds tighter than the level. -/
theorem bindsTighter_cons (level : Nat) (token : Token) (rest : List Token)
    : bindsTighter level (token :: rest) = decide (level < Precedence.ofKind token.kind) :=
  rfl

/-- A token that is no operator continues no expression. -/
theorem bindsTighter_terminal {kind : TokenKind} (token : Terminal kind)
    (none : Precedence.ofKind kind = Precedence.lowest) (level : Nat) (rest : List Token)
    : bindsTighter level (token.val :: rest) = false := by
  simp [bindsTighter_cons, token.property, none, Precedence.lowest]

-- One equation for each way an operand starts

section Operand

variable (inner : Nat → Reader Expr) {token : Token} (rest : List Token)

/-- A literal is an operand by itself, by cases on its kind. -/
theorem readOperand_literal (isLiteral : token.kind ∈ literalKinds)
    : readOperand inner (token :: rest) = .ok (.literal (literalValue token), rest) := by
  simp only [literalKinds, List.mem_cons, List.not_mem_nil, or_false] at isLiteral
  rcases isLiteral with isKind | isKind | isKind | isKind | isKind <;>
    simp [readOperand, literalValue, isKind]

/-- A name is an operand by itself. -/
theorem readOperand_name (isName : token.kind = .identifier)
    : readOperand inner (token :: rest) = .ok (.reference token, rest) := by
  simp [readOperand, isName]

/-- After a unary sign the operand is an expression at the level of unary operators. -/
theorem readOperand_unary (isUnary : token.kind ∈ unarySigns)
    : readOperand inner (token :: rest)
      = (Expr.unary token <$> inner Precedence.unary) rest := by
  simp only [unarySigns, List.mem_cons, List.not_mem_nil, or_false] at isUnary
  rcases isUnary with isKind | isKind <;> simp [readOperand, isKind]

/-- After an opening sign the operand is a grouping. -/
theorem readOperand_opening (isOpening : token.kind = .leftParen)
    : readOperand inner (token :: rest) = readGrouping inner rest := by
  simp [readOperand, isOpening]

/-- Every other kind of token is refused as the start of an operand, by cases on it. -/
theorem readOperand_refused (starts : token.kind ∉ Phrase.startKinds)
    : readOperand inner (token :: rest) = refuse .expression (token :: rest) := by
  revert starts
  simp only [readOperand]
  cases token.kind <;> simp [Phrase.startKinds, literalKinds]

end Operand

/-- The kinds that start a phrase are those of literals, names, unary signs and the opening sign. -/
theorem not_mem_startKinds {kind : TokenKind} (isLiteral : kind ∉ literalKinds)
    (isName : kind ≠ .identifier) (isUnary : kind ∉ unarySigns) (isOpening : kind ≠ .leftParen)
    : kind ∉ Phrase.startKinds := by
  simp only [unarySigns, List.mem_cons, List.not_mem_nil, or_false, not_or] at isUnary
  simp [Phrase.startKinds, isLiteral, isName, isUnary, isOpening]

-- One equation for each way an operation goes on

section Operation

variable (inner : Nat → Reader Expr) (left : Expr) {token : Token} (rest : List Token)

/-- After a name the sign of assignment goes on with the assigned expression. -/
theorem readOperation_assign (name : Token) (isEqual : token.kind = .equal)
    : readOperation inner (.reference name) (token :: rest)
      = (Expr.assign name <$> inner Precedence.lowest) rest := by
  simp [readOperation, isEqual]

/-- After anything but a name the sign of assignment is refused. -/
theorem readOperation_refused (isEqual : token.kind = .equal)
    (noName : ∀ name, left ≠ .reference name)
    : readOperation inner left (token :: rest) = refuse .assignmentTarget (token :: rest) := by
  cases left with
  | reference name => exact absurd rfl (noName name)
  | literal | grouping | assign | unary | binary | call => simp [readOperation, isEqual]

/-- The opening sign goes on with the arguments of a call. -/
theorem readOperation_call (isOpening : token.kind = .leftParen)
    : readOperation inner left (token :: rest) = readCall inner left rest := by
  simp [readOperation, isOpening]

/-- The signs that join a chain are binary operators, by cases on the category. -/
theorem mem_binarySigns {category : Category} {kind : TokenKind} (joins : kind ∈ category.signs)
    : kind ∈ Precedence.binarySigns := by
  revert joins
  cases category <;> revert kind <;> decide

/-- A sign that joins a chain goes on with the right operand at the level that follows it, since
it is the sign of neither an assignment nor a call. -/
theorem readOperation_binary {category : Category} (joins : token.kind ∈ category.signs)
    : readOperation inner left (token :: rest)
      = (Expr.binary left token <$> inner category.follow) rest := by
  obtain ⟨notEqual, notOpening⟩ := ne_of_mem_signs joins
  rw [← Category.ofKind_of_mem_signs joins]
  simp only [readOperation]
  split
  · next isEqual => exact absurd isEqual notEqual
  · next isEqual _ => exact absurd isEqual notEqual
  · next isOpening => exact absurd isOpening notOpening
  · rw [if_pos (mem_binarySigns joins)]

end Operation

-- Soundness

/-- The tokens up to the rest are a phrase of the category that stands for the expression. -/
def Spells (category : Category) (tokens rest : List Token) (expr : Expr) : Prop :=
  ∃ phrase : Phrase category, tokens = phrase.yield ++ rest ∧ phrase.tree = expr

/-- A reader of expressions at a level finds phrases of the category at that level and takes
all operators that belong to them.
-/
def Sound (inner : Nat → Reader Expr) : Prop :=
  ∀ level tokens expr rest, inner level tokens = .ok (expr, rest) →
    Spells (Category.atLevel level) tokens rest expr ∧ bindsTighter level rest = false

/-- A left operand of some category that is tight enough, with no operator after it that it
should have taken.
-/
def LeftOperand (floor : Nat) (tokens rest : List Token) (expr : Expr) : Prop :=
  ∃ category : Category, floor ≤ category.rank ∧ Spells category tokens rest expr
    ∧ bindsTighter category.follow rest = false

/-- What a grouping accepts spells a primary phrase: an inner phrase between its two signs. -/
theorem readGrouping_sound {inner : Nat → Reader Expr} (sound : Sound inner)
    (opening : Terminal .leftParen) {tokens rest : List Token} {expr : Expr}
    (read : readGrouping inner tokens = .ok (expr, rest))
    : Spells .primary (opening.val :: tokens) rest expr := by
  obtain ⟨value, middle, readsInner, read⟩ := bind_eq_ok.mp read
  obtain ⟨closing, left, readsClosing, read⟩ := bind_eq_ok.mp read
  obtain ⟨rfl, rfl⟩ := Prod.mk.inj (Except.ok.inj read)
  obtain ⟨⟨phrase, rfl, rfl⟩, _⟩ : Spells .expression _ _ _ ∧ _ := sound _ _ _ _ readsInner
  obtain ⟨rfl, isClosing⟩ := take_eq_ok.mp readsClosing
  exact ⟨.grouping opening phrase ⟨closing, isClosing⟩, by simp [Phrase.yield], rfl⟩

/-- What an operand accepts can stand to the left of an operator, by the kind of its first token. -/
theorem readOperand_sound {inner : Nat → Reader Expr} (sound : Sound inner) {floor : Nat}
    (le : floor ≤ Category.unary.rank) {tokens rest : List Token} {expr : Expr}
    (read : readOperand inner tokens = .ok (expr, rest))
    : LeftOperand floor tokens rest expr := by
  have primary : ∀ {tokens rest : List Token} {expr : Expr}, Spells .primary tokens rest expr →
      LeftOperand floor tokens rest expr :=
    fun spells => ⟨.primary, Nat.le_trans le (by decide), spells, bindsTighter_call _⟩
  cases tokens with
  | nil => simp [readOperand, refuse] at read
  | cons token tail =>
      by_cases isLiteral : token.kind ∈ literalKinds
      · rw [readOperand_literal inner tail isLiteral] at read
        obtain ⟨rfl, rfl⟩ := Prod.mk.inj (Except.ok.inj read)
        exact primary ⟨.literal token isLiteral, rfl, rfl⟩
      by_cases isName : token.kind = .identifier
      · rw [readOperand_name inner tail isName] at read
        obtain ⟨rfl, rfl⟩ := Prod.mk.inj (Except.ok.inj read)
        exact primary ⟨.reference ⟨token, isName⟩, rfl, rfl⟩
      by_cases isUnary : token.kind ∈ unarySigns
      · rw [readOperand_unary inner tail isUnary] at read
        obtain ⟨operand, reads, rfl⟩ := map_eq_ok.mp read
        obtain ⟨⟨phrase, rfl, rfl⟩, stopped⟩ := sound _ _ _ _ reads
        exact ⟨.unary, le, ⟨.unary token isUnary phrase, rfl, rfl⟩, stopped⟩
      by_cases isOpening : token.kind = .leftParen
      · rw [readOperand_opening inner tail isOpening] at read
        exact primary (readGrouping_sound sound ⟨token, isOpening⟩ read)
      have refused := not_mem_startKinds isLiteral isName isUnary isOpening
      rw [readOperand_refused inner tail refused] at read
      simp [refuse] at read

/-- What is accepted after a callee spells a call, with arguments that are phrases separated by
commas, and takes at least the closing sign. -/
theorem readCall_sound {inner : Nat → Reader Expr} (sound : Sound inner)
    (callee : Phrase .call) (opening : Terminal .leftParen) {tokens rest : List Token}
    {expr : Expr} (read : readCall inner callee.tree tokens = .ok (expr, rest))
    : Spells .call (callee.yield ++ opening.val :: tokens) rest expr
      ∧ rest.length < tokens.length := by
  obtain ⟨arguments, middle, readsArguments, read⟩ := bind_eq_ok.mp read
  obtain ⟨closing, left, readsClosing, read⟩ := bind_eq_ok.mp read
  obtain ⟨rfl, rfl⟩ := Prod.mk.inj (Except.ok.inj read)
  obtain ⟨rfl, isClosing⟩ := take_eq_ok.mp readsClosing
  obtain ⟨row, rfl, rfl⟩ := separated_sound (fun phrase : Phrase .expression => phrase.yield)
    Phrase.tree (fun tokens value rest reads =>
      (sound Precedence.lowest tokens value rest reads).1) readsArguments
  refine ⟨⟨.call callee opening row ⟨closing, isClosing⟩, ?_, ?_⟩, ?_⟩
  · simp [Phrase.yield]
  · simp [Phrase.tree]
  · simp only [List.length_append, List.length_cons]
    omega

/-- An operation extends the left operand to a larger one. -/
theorem readOperation_sound {inner : Nat → Reader Expr} (sound : Sound inner) {level : Nat}
    {tokens middle rest : List Token} {left expr : Expr}
    (continues : bindsTighter level middle = true)
    (operand : LeftOperand (Category.atLevel level).rank tokens middle left)
    (read : readOperation inner left middle = .ok (expr, rest))
    : LeftOperand (Category.atLevel level).rank tokens rest expr
      ∧ rest.length < middle.length := by
  obtain ⟨category, tight, ⟨phrase, rfl, rfl⟩, stopped⟩ := operand
  have floor := Category.rank_atLevel_le level
  cases middle with
  | nil => simp [bindsTighter] at continues
  | cons token tail =>
      simp only [bindsTighter_cons, decide_eq_true_eq] at continues
      simp only [bindsTighter_cons, decide_eq_false_iff_not, Nat.not_lt] at stopped
      -- what binds tighter than a level is an assignment, a call or a sign that joins a chain
      rcases operator_cases (Nat.lt_of_le_of_lt (Nat.zero_le _) continues)
        with isEqual | isOpening | joins
      · have lowest : level = 0 := by
          simp only [isEqual, Precedence.ofKind, Precedence.assignment] at continues
          omega
        subst lowest
        by_cases isName : ∃ name, phrase.tree = .reference name
        · obtain ⟨name, isName⟩ := isName
          obtain ⟨yields, isIdentifier⟩ := phrase.yield_of_tree_reference isName
          rw [isName, readOperation_assign inner tail name isEqual] at read
          obtain ⟨value, reads, rfl⟩ := map_eq_ok.mp read
          obtain ⟨⟨valuePhrase, rfl, rfl⟩, ended⟩ := sound _ _ _ _ reads
          refine ⟨⟨.expression, Nat.le_refl _, ?_, ended⟩, ?_⟩
          · exact ⟨.assign ⟨name, isIdentifier⟩ ⟨token, isEqual⟩ valuePhrase,
              by rw [yields]; rfl, rfl⟩
          · simp only [List.length_cons, List.length_append]
            omega
        · rw [readOperation_refused inner _ tail isEqual (by simpa using isName)] at read
          simp [refuse] at read
      · rw [isOpening] at stopped
        obtain ⟨callee, yields, trees⟩ := phrase.loosen (Category.rank_call_le stopped)
        rw [readOperation_call inner _ tail isOpening, ← trees] at read
        obtain ⟨spells, shorter⟩ := readCall_sound sound callee ⟨token, isOpening⟩ read
        rw [← yields]
        have loose : (Category.atLevel level).rank ≤ Category.call.rank :=
          Nat.le_trans (Category.rank_atLevel_le_unary level) (by decide)
        exact ⟨⟨.call, loose, spells, bindsTighter_call rest⟩, Nat.lt_succ_of_lt shorter⟩
      · obtain ⟨_, _, ranked, arrives, _⟩ := Category.levels_of_mem_signs joins
        have followed := Category.ofKind_of_mem_signs joins
        rw [followed] at stopped continues
        obtain ⟨chain, yields, trees⟩ :=
          phrase.loosen (Category.rank_le_of_follow_le joins stopped)
        rw [readOperation_binary inner _ tail joins, ← trees] at read
        obtain ⟨right, reads, rfl⟩ := map_eq_ok.mp read
        obtain ⟨spells, ended⟩ := sound _ _ _ _ reads
        rw [arrives] at spells
        obtain ⟨rightPhrase, rfl, rfl⟩ := spells
        rw [← yields]
        refine ⟨⟨_, ?_, ⟨.chain chain token joins rightPhrase, by simp [Phrase.yield], rfl⟩,
          ended⟩, ?_⟩
        · omega
        · simp only [List.length_cons, List.length_append]
          omega

/-- What is read at a level is a phrase of the category at that level. The loop over the
operators keeps a left operand, by induction on the limit.
-/
theorem read_sound (limit : Nat) : Sound (read limit) := by
  induction limit with
  | zero => exact fun _ _ _ _ reads => by simp [read, tooDeep] at reads
  | succ limit ih =>
      intro level tokens expr rest reads
      obtain ⟨operand, middle, readsOperand, loop⟩ := bind_eq_ok.mp reads
      have start : LeftOperand (Category.atLevel level).rank tokens middle operand :=
        readOperand_sound ih (Category.rank_atLevel_le_unary level) readsOperand
      have shorter : middle.length ≤ tokens.length := by
        obtain ⟨_, _, ⟨phrase, rfl, _⟩, _⟩ := start
        simp
      -- the invariant of the loop is that what was read so far can stand to the left of an operator
      obtain ⟨⟨category, tight, ⟨phrase, rfl, rfl⟩, _⟩, stopped⟩ := repeatWhile_invariant
        (fun left rest => LeftOperand (Category.atLevel level).rank tokens rest left) rfl
        (fun left middle next rest continues operand stepped =>
          readOperation_sound ih continues operand stepped)
        shorter start loop
      obtain ⟨same, yields, trees⟩ := phrase.loosen tight
      exact ⟨⟨same, by rw [yields], trees⟩, stopped⟩

end Sprig.Expr
