import Sprig.Proofs.Grammar.ExprReading

/-! Every phrase is read back as its tree, whatever may follow it, and on few enough tokens
the nesting limit plays no part. Reading a phrase arrives at the loop over operators with the
phrase as left operand, by induction on the derivation.
-/

namespace Sprig.Expr

open Grammar Reader

/-- Reading arrives at the loop over operators after the phrase, with enough steps left. -/
def Arrives {category : Category} (phrase : Phrase category) (limit level : Nat)
    (rest : List Token)
    : Prop :=
  ∃ bound : List Token, rest.length ≤ bound.length
    ∧ UpToDepth (read (limit + 1) level (phrase.yield ++ rest))
      (repeatWhile (bindsTighter level) (readOperation (read limit)) bound phrase.tree rest)

/-- Reading arrives after the phrase at every level that reads its category whole, if no
operator follows that would have to be part of it.
-/
def Complete {category : Category} (phrase : Phrase category) : Prop :=
  ∀ limit level rest, level ≤ category.level → bindsTighter category.follow rest = false →
    Arrives phrase limit level rest

/-- At the end of what belongs to a phrase its tree is the result. -/
theorem Complete.reads {category : Category} {phrase : Phrase category}
    (complete : Complete phrase) (limit : Nat) {level : Nat} {rest : List Token}
    (whole : level ≤ category.level) (follows : bindsTighter category.follow rest = false)
    (stopped : bindsTighter level rest = false)
    : UpToDepth (read limit level (phrase.yield ++ rest)) (.ok (phrase.tree, rest)) := by
  cases limit with
  | zero => exact Or.inl rfl
  | succ limit =>
      obtain ⟨bound, _, arrives⟩ := complete limit level rest whole follows
      rwa [repeatWhile_of_false bound phrase.tree stopped] at arrives

/-- At the lowest level a complete phrase is read whole before any token that continues no
expression. -/
theorem Complete.reads_lowest {phrase : Phrase .expression} (complete : Complete phrase)
    (limit : Nat) {rest : List Token}
    (stopped : bindsTighter Precedence.lowest rest = false)
    : UpToDepth (read limit Precedence.lowest (phrase.yield ++ rest))
        (.ok (phrase.tree, rest)) :=
  complete.reads limit (Nat.le_refl _) stopped stopped

/-- An operand that is read at once is where the loop starts. -/
theorem arrives_of_operand {category : Category} {phrase : Phrase category} {limit : Nat}
    (level : Nat) {rest : List Token}
    (reads : UpToDepth (readOperand (read limit) (phrase.yield ++ rest))
      (.ok (phrase.tree, rest)))
    : Arrives phrase limit level rest :=
  ⟨phrase.yield ++ rest, by simp, reads.bind (.refl _)⟩

/-- The loop takes an operation after a left operand and arrives after both. -/
theorem Arrives.extend {category larger : Category} {left : Phrase category}
    {whole : Phrase larger} {limit level : Nat} {token : Token} {others rest : List Token}
    (arrives : Arrives left limit level (token :: others ++ rest))
    (yields : whole.yield = left.yield ++ token :: others)
    (continues : level < Precedence.ofKind token.kind)
    (reads : UpToDepth (readOperation (read limit) left.tree (token :: others ++ rest))
      (.ok (whole.tree, rest)))
    : Arrives whole limit level rest := by
  obtain ⟨bound, enough, arrives⟩ := arrives
  simp only [List.cons_append, List.length_cons, List.length_append] at enough
  obtain ⟨first, bound, rfl⟩ := List.exists_cons_of_length_pos (show 0 < bound.length by omega)
  refine ⟨bound, by simp only [List.length_cons] at enough; omega, ?_⟩
  have binds : bindsTighter level (token :: others ++ rest) = true := by
    simpa [bindsTighter_cons] using continues
  rw [repeatWhile_of_true binds] at arrives
  rw [yields, List.append_assoc]
  exact arrives.trans (reads.bind (.refl _))

/-- The arguments of a call are read back as their trees, since a comma and the closing sign
continue no expression. -/
theorem readCall_complete {arguments : Row (Phrase .expression)} (limit : Nat) (callee : Expr)
    (closing : Terminal .rightParen) (rest : List Token)
    (complete : ∀ argument ∈ arguments.toList, Complete argument)
    : UpToDepth
        (readCall (read limit) callee (arguments.yield Phrase.yield ++ closing.val :: rest))
        (.ok (.call callee closing (arguments.toList.map Phrase.tree), rest)) := by
  have stops : ∀ (token : Token) (after : List Token),
      Precedence.ofKind token.kind = Precedence.lowest →
      bindsTighter Precedence.lowest (token :: after) = false := by
    intro token after lowest
    simp [bindsTighter_cons, lowest]
  refine UpToDepth.bind
    (separated_complete Phrase.yield Phrase.tree
      (fun rest => bindsTighter Precedence.lowest rest = false) arguments ?_ ?_ ?_ ?_ ?_ ?_)
    (UpToDepth.take closing (.refl _))
  · simp [closing.property]
  · simp [closing.property]
  · exact stops closing.val rest (by rw [closing.property]; rfl)
  · exact fun comma after => stops comma.val after (by rw [comma.property]; rfl)
  · intro argument _ after
    obtain ⟨first, others, yields, starts⟩ := argument.yield_eq_cons
    rw [yields]
    simp only [List.cons_append, startsWith_cons, beq_eq_false_iff_ne, ne_eq]
    intro isClosing
    simp [isClosing, Phrase.startKinds, literalKinds] at starts
  · exact fun argument member after stopped =>
      (complete argument member).reads_lowest limit stopped

/-- Every phrase arrives at its tree, by induction on the phrase; a chain extends the arrival of
its left part, and a plain phrase arrives as its inner one. -/
theorem complete {category : Category} (phrase : Phrase category) : Complete phrase := by
  induction phrase with
  | literal token isLiteral =>
      intro limit level rest _ _
      exact arrives_of_operand level (.of_eq (readOperand_literal _ rest isLiteral))
  | reference name =>
      intro limit level rest _ _
      exact arrives_of_operand level (.of_eq (readOperand_name _ rest name.property))
  | grouping opening inner closing ih =>
      intro limit level rest _ _
      refine arrives_of_operand level ?_
      simp only [Phrase.yield, List.cons_append, List.append_assoc, List.nil_append,
        readOperand_opening _ _ opening.property]
      have stopped : bindsTighter Precedence.lowest (closing.val :: rest) = false := by
        simp [bindsTighter_cons, closing.property, Precedence.ofKind]
      exact (ih.reads_lowest limit stopped).bind (UpToDepth.take closing (.refl _))
  | unary operator isUnary operand ih =>
      intro limit level rest _ follows
      refine arrives_of_operand level ?_
      simp only [Phrase.yield, List.cons_append, readOperand_unary _ _ isUnary]
      exact (ih.reads limit (Nat.le_refl _) follows follows).map
  | plain looser inner ih =>
      intro limit level rest whole follows
      exact ih limit level rest (Nat.le_trans whole (Category.level_le_tighter _))
        (bindsTighter_mono (Category.follow_le_tighter _) follows)
  -- the reader arrives at the left part before the operator and goes on with the loop from there
  | chain left operator joins right ihl ihr =>
      intro limit level rest whole follows
      obtain ⟨below, fits, _, _, _⟩ := Category.levels_of_mem_signs joins
      have followed := Category.ofKind_of_mem_signs joins
      refine Arrives.extend (ihl limit level (operator :: right.yield ++ rest) whole ?_) rfl ?_ ?_
      · simp [bindsTighter_cons, followed]
      · omega
      · rw [List.cons_append, readOperation_binary _ _ _ joins]
        exact (ihr.reads limit fits (bindsTighter_mono (Category.follow_le_tighter _) follows)
          follows).map
  | call callee opening arguments closing ihc iha =>
      intro limit level rest whole follows
      have isCall : Precedence.ofKind opening.val.kind = Precedence.call := by
        rw [opening.property]
        rfl
      refine Arrives.extend (ihc limit level
        (opening.val :: (Phrase.rowYield arguments ++ [closing.val]) ++ rest) whole ?_) rfl ?_ ?_
      · exact bindsTighter_call _
      · exact isCall ▸ Nat.lt_of_le_of_lt whole (by decide)
      · rw [List.cons_append, readOperation_call _ _ _ opening.property, List.append_assoc,
          Phrase.rowYield_eq, Phrase.tree, Phrase.rowTrees_eq]
        exact readCall_complete limit callee.tree closing rest iha
  | assign name sign value ih =>
      intro limit level rest whole follows
      -- only the lowest level reads an assignment
      obtain rfl : level = Precedence.lowest := Nat.le_zero.mp whole
      have isAssign : Precedence.ofKind sign.val.kind = Precedence.assignment := by
        rw [sign.property]
        rfl
      have target : Arrives (.reference name) limit Precedence.lowest
          (sign.val :: value.yield ++ rest) :=
        arrives_of_operand _ (.of_eq (readOperand_name _ _ name.property))
      refine target.extend rfl ?_ ?_
      · exact isAssign ▸ (by decide)
      · simp only [Phrase.tree, List.cons_append, readOperation_assign _ _ _ sign.property]
        exact (ih.reads_lowest limit follows).map

/-- A phrase at the end of the tokens is read as its tree. -/
theorem read_yield (phrase : Phrase .expression) (limit : Nat)
    : UpToDepth (read limit Precedence.lowest phrase.yield) (.ok (phrase.tree, [])) := by
  have stopped : bindsTighter Precedence.lowest [] = false := rfl
  simpa using (complete phrase).reads_lowest limit stopped

-- The nesting limit

section Limit

variable {inner : Nat → Reader Expr} {size : Nat}

/-- A grouping runs into the limit only if its inner expression does. -/
theorem readGrouping_settles (settles : ∀ level, Settles size (inner level))
    : Settles size (readGrouping inner) :=
  (settles _).bind (fun expr => (Settles.take size _ _).bind (fun _ =>
    Settles.pure size (Expr.grouping expr)))

/-- The arguments of a call run into the limit only if one of them does. -/
theorem readCall_settles (settles : ∀ level, Settles size (inner level)) (callee : Expr)
    : Settles size (readCall inner callee) :=
  ((settles _).separated _).bind (fun arguments => (Settles.take size _ _).bind (fun paren =>
    Settles.pure size (Expr.call callee paren arguments)))

/-- An operand has taken a token before it reads an inner expression, so that one has fewer tokens
left. -/
theorem readOperand_settles (settles : ∀ fewer < size, ∀ level, Settles fewer (inner level))
    : Settles size (readOperand inner) := by
  intro tokens fits
  cases tokens with
  | nil => exact ⟨by simp [readOperand, refuse], by simp [readOperand, refuse]⟩
  | cons token rest =>
      have inside := settles rest.length fits
      by_cases isLiteral : token.kind ∈ literalKinds
      · rw [readOperand_literal inner rest isLiteral]
        exact (Settles.pure rest.length _).tail token
      by_cases isName : token.kind = .identifier
      · rw [readOperand_name inner rest isName]
        exact (Settles.pure rest.length _).tail token
      by_cases isUnary : token.kind ∈ unarySigns
      · rw [readOperand_unary inner rest isUnary]
        exact ((inside _).map _).tail token
      by_cases isOpening : token.kind = .leftParen
      · rw [readOperand_opening inner rest isOpening]
        exact (readGrouping_settles inside).tail token
      rw [readOperand_refused inner rest (not_mem_startKinds isLiteral isName isUnary isOpening)]
      exact ⟨by simp [refuse], by simp [refuse]⟩

/-- An operation has taken its sign before it reads an inner expression, so that one has fewer
tokens left. -/
theorem readOperation_settles (settles : ∀ fewer < size, ∀ level, Settles fewer (inner level))
    (left : Expr)
    : Settles size (readOperation inner left) := by
  intro tokens fits
  cases tokens with
  | nil => exact Settles.pure size left [] fits
  | cons token rest =>
      have inside := settles rest.length fits
      simp only [readOperation]
      split
      · exact ((inside _).map _).tail token
      · exact ⟨by simp [refuse], by simp [refuse]⟩
      · exact (readCall_settles inside _).tail token
      · split
        · exact ((inside _).map _).tail token
        · exact ⟨by simp [refuse], by simp [refuse]⟩

end Limit

/-- The limit cannot be reached with fewer tokens than it allows levels: every level of
nesting takes a token.
-/
theorem read_settles (limit level : Nat) {size : Nat} (few : size < limit)
    : Settles size (read limit level) := by
  induction limit generalizing level size with
  | zero => omega
  | succ limit ih =>
      intro tokens fits
      have inside : ∀ fewer < size, ∀ level, Settles fewer (read limit level) :=
        fun fewer lt level => ih level (by omega)
      exact ((readOperand_settles inside).bind (fun operand =>
        Settles.repeatWhile (fun left => readOperation_settles inside left) tokens operand))
        tokens fits

end Sprig.Expr
