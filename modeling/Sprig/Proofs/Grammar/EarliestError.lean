import Sprig.Proofs.Grammar.Lookahead
import Sprig.Proofs.Grammar.Programs

/-! A syntax error is found at the earliest token: the tokens up to it start no program, and the
tokens before it do.
-/

namespace Sprig

open Grammar Reader

namespace Expr

/-- Whether an operation goes on is seen from the first token alone. -/
theorem bindsTighter_looksAhead (level : Nat) : LooksAhead (bindsTighter level) := by
  intro tokens back same
  simp only [bindsTighter, same]

/-- No operation goes on at a token that is no operator. -/
theorem bindsTighter_of_startsWith {kind : TokenKind}
    (none : Precedence.ofKind kind = Precedence.lowest) (level : Nat) {tokens : List Token}
    (starts : startsWith kind tokens = true)
    : bindsTighter level tokens = false := by
  cases tokens with
  | nil => rfl
  | cons token rest => exact bindsTighter_terminal ⟨token, by simpa using starts⟩ none level rest

/-- A reader of expressions decides at all levels that operands are read at. A missing operand
can be supplied as a literal.
-/
def Decided (inner : Nat → Reader Expr) : Prop :=
  ∀ level ≤ Precedence.unary, ∀ tokens,
    Decides (startsWith .nilWord · = true) (bindsTighter level · = false) (inner level) tokens

variable {inner : Nat → Reader Expr}

/-- A whole expression before a token that is no operator. -/
theorem Decided.before (decided : Decided inner) (kind : TokenKind)
    (none : Precedence.ofKind kind = Precedence.lowest) (tokens : List Token)
    : Decides (startsWith .nilWord · = true) (startsWith kind · = true) (inner Precedence.lowest)
        tokens :=
  (decided Precedence.lowest (Nat.zero_le _) tokens).mono (fun _ entry => entry)
    fun _ starts => bindsTighter_of_startsWith none _ starts

/-- An expression is never empty. -/
theorem Decided.takes (decided : Decided inner) (tokens : List Token) (expr : Expr)
    : inner Precedence.lowest tokens ≠ .ok (expr, tokens) :=
  (decided Precedence.lowest (Nat.zero_le _) tokens).takes rfl nofun expr

/-- A grouping decides, as a decided expression that is closed by its sign. -/
theorem readGrouping_decides (decided : Decided inner) (tokens : List Token)
    : Decides (startsWith .nilWord · = true) (fun _ => True) (readGrouping inner) tokens :=
  (decided.before .rightParen rfl tokens).closed .rightParen (by decide) .parenAfterExpression
    (by decide) (fun expr _ => Expr.grouping expr) (Or.inr (decided.takes tokens))

/-- An operand decides: what cannot start one is refused at once, where the word `nil` would have
started one, and every other start goes on with decided readers. -/
theorem readOperand_decides (decided : Decided inner) (tokens : List Token)
    : Decides (startsWith .nilWord · = true) (bindsTighter Precedence.unary · = false)
        (readOperand inner) tokens := by
  have refused (refuses : ∀ back : List Token, back.head? = tokens.head? →
        readOperand inner back = .error (.unmet .expression back))
      : Decides (startsWith .nilWord · = true) (bindsTighter Precedence.unary · = false)
          (readOperand inner) tokens :=
    .unmet [] [Token.ofKind .nilWord] (.literal .nil) rfl (by decide) refuses (by decide)
      (fun _ _ => rfl) fun _ _ _ => rfl
  cases tokens with
  | nil =>
      refine refused fun back same => ?_
      obtain rfl := List.head?_eq_none_iff.mp same
      rfl
  | cons token tail =>
      by_cases isLiteral : token.kind ∈ literalKinds
      · exact .read [token] _ rfl (fun back _ => readOperand_literal inner back isLiteral) nofun
      by_cases isName : token.kind = .identifier
      · exact .read [token] _ rfl (fun back _ => readOperand_name inner back isName) nofun
      by_cases isUnary : token.kind ∈ unarySigns
      · have operand := (decided Precedence.unary (Nat.le_refl _) tail).map (Expr.unary token)
        exact operand.after fun back => readOperand_unary inner back isUnary
      by_cases isOpening : token.kind = .leftParen
      · exact (readGrouping_decides decided tail).everywhere.after
          fun back => readOperand_opening inner back isOpening
      refine refused fun back same => ?_
      obtain ⟨rest, rfl⟩ := List.head?_eq_some_iff.mp same
      exact readOperand_refused inner rest (not_mem_startKinds isLiteral isName isUnary isOpening)

/-- The arguments of a call decide, as items between commas that are closed by their sign. -/
theorem readCall_decides (decided : Decided inner) (callee : Expr) (tokens : List Token)
    : Decides (startsWith .rightParen · = true) (fun _ => True) (readCall inner callee) tokens := by
  have arguments := Decides.separated .rightParen (by decide)
    (decided Precedence.lowest (Nat.zero_le _)) rfl nofun
    (fun _ closes => bindsTighter_of_startsWith rfl _ closes)
    (fun _ starts => startsWith_of_ne (by decide) starts) tokens
  exact arguments.closed .rightParen (by decide) .parenAfterArguments (by decide)
    (fun arguments paren => Expr.call callee paren arguments) (Or.inl fun _ closes => closes)

/-- What cannot be assigned to can still be called. -/
theorem readOperation_decides_refused {left : Expr} (noName : ∀ name, left ≠ .reference name)
    {token : Token} (isEqual : token.kind = .equal) (rest : List Token)
    : Decides (bindsTighter Precedence.lowest · = true) (bindsTighter Precedence.lowest · = false)
        (readOperation inner left) (token :: rest) := by
  have refuses (back : List Token) (same : back.head? = (token :: rest).head?)
      : readOperation inner left back = .error (.unmet .assignmentTarget back) := by
    obtain ⟨tail, rfl⟩ := List.head?_eq_some_iff.mp same
    exact readOperation_refused inner left tail isEqual noName
  have called (back : List Token)
      : readOperation inner left (Token.ofKind .leftParen :: Token.ofKind .rightParen :: back)
        = .ok (.call left (Token.ofKind .rightParen) [], back) := by
    rw [readOperation_call inner left _ rfl]
    rfl
  exact .unmet [] [Token.ofKind .leftParen, Token.ofKind .rightParen] _ rfl (by decide) refuses
    (by decide) (fun back _ => called back) fun _ _ _ => rfl

/-- An operator and what belongs to it, where the operator binds tightly enough. -/
theorem readOperation_decides (decided : Decided inner) {level : Nat} (left : Expr)
    {tokens : List Token} (continues : bindsTighter level tokens = true)
    : Decides (bindsTighter level · = true) (bindsTighter level · = false)
        (readOperation inner left) tokens := by
  cases tokens with
  | nil => exact nomatch continues
  | cons token rest =>
      have tighter : level < Precedence.ofKind token.kind := by
        simpa [bindsTighter_cons] using continues
      rcases operator_cases (Nat.zero_lt_of_lt tighter) with isEqual | isOpening | joins
      · rw [isEqual] at tighter
        obtain rfl : level = Precedence.lowest := Nat.lt_one_iff.mp tighter
        by_cases isName : ∃ name, left = .reference name
        · obtain ⟨name, rfl⟩ := isName
          have value := (decided Precedence.lowest (Nat.zero_le _) rest).map (Expr.assign name)
          exact value.after fun back => readOperation_assign inner back name isEqual
        · exact readOperation_decides_refused (not_exists.mp isName) isEqual rest
      · exact (readCall_decides decided left rest).everywhere.after
          fun back => readOperation_call inner left back isOpening
      · have right := (decided _ (Category.follow_le_unary joins) rest).map (Expr.binary left token)
        refine (right.mono (fun _ entry => entry) fun _ stopped => ?_).after
          fun back => readOperation_binary inner left back joins
        rw [← Category.ofKind_of_mem_signs joins]
        exact bindsTighter_mono (Nat.le_of_lt tighter) stopped

/-- An expression is an operand, and a loop over the operations after it. -/
theorem read_succ {limit : Nat} (decided : Decided (read limit)) (level : Nat) (tokens : List Token)
    : read (limit + 1) level tokens
      = (readOperand (read limit)
          >>= loop (bindsTighter level) (readOperation (read limit))) tokens := by
  cases operand : readOperand (read limit) tokens with
  | error => exact (bind_of_error operand).trans (bind_of_error operand).symm
  | ok pair =>
      obtain ⟨left, rest⟩ := pair
      obtain ⟨front, divided, _⟩ := (readOperand_decides decided tokens).of_ok operand
      refine (bind_of_ok operand).trans (Eq.trans ?_ (bind_of_ok operand).symm)
      refine repeatWhile_eq rfl (fun left tokens value rest continues => ?_) ?_ (Nat.le_refl _) left
      · exact (readOperation_decides decided left continues).shorter rfl nofun
      · simp [divided]

/-- Expressions of every nesting are read with one token of lookahead. -/
theorem read_decided (limit : Nat) : Decided (read limit) := by
  induction limit with
  | zero => exact fun _ _ _ => .tooDeep rfl
  | succ limit ih =>
      intro level le tokens
      have operations (left : Expr) (rest : List Token)
          : Decides (bindsTighter level · = false) (bindsTighter level · = false)
              (loop (bindsTighter level) (readOperation (read limit)) left) rest :=
        Decides.loop (bindsTighter_looksAhead level) rfl (fun _ stopped => stopped)
          (fun left tokens continues => readOperation_decides ih left continues) rfl
          (fun _ stopped => stopped) left rest
      have loosen (back : List Token) (stopped : bindsTighter level back = false)
          : bindsTighter Precedence.unary back = false :=
        bindsTighter_mono le stopped
      rw [funext (read_succ ih level)]
      exact (readOperand_decides ih tokens).bind
        (fun left rest _ => (operations left rest).mono loosen fun _ stopped => stopped)
        (fun left => nofun) (Or.inr ((readOperand_decides ih tokens).takes rfl nofun))

end Expr

namespace Stmt

/-- Whether the tokens start with a word of a statement's own. -/
def startsWithLead (tokens : List Token) : Bool :=
  tokens.head?.any (·.kind ∈ leadKinds)

/-- Whether a word of its own leads a statement is seen from the first token alone. -/
theorem startsWithLead_looksAhead : LooksAhead startsWithLead := by
  intro tokens back same
  simp only [startsWithLead, same]

/-- A statement that is led by a word of its own has that word as its first token. -/
theorem exists_of_startsWithLead {tokens : List Token} (leads : startsWithLead tokens = true)
    : ∃ token rest, tokens = token :: rest ∧ token.kind ∈ leadKinds := by
  cases tokens with
  | nil => exact nomatch leads
  | cons token rest => exact ⟨token, rest, rfl, by simpa [startsWithLead] using leads⟩

/-- A statement that no word leads is read as an expression with its end. -/
theorem read_expression (limit : Nat) {tokens : List Token} (other : startsWithLead tokens = false)
    : read (limit + 1) tokens = readExpression (Expr.read limit Precedence.lowest) tokens := by
  cases tokens with
  | nil => rfl
  | cons token rest => exact read_other limit rest (by simpa [startsWithLead] using other)

/-- A print statement decides, as a decided expression that is closed by a semicolon. -/
theorem readPrint_decides (limit : Nat) (tokens : List Token)
    : Decides (startsWith .nilWord · = true) (fun _ => True)
        (readPrint (Expr.read limit Precedence.lowest)) tokens :=
  ((Expr.read_decided limit).before .semicolon rfl tokens).closed .semicolon (by decide)
    .semicolonAfterValue (by decide) (fun value _ => Stmt.print value)
    (Or.inr ((Expr.read_decided limit).takes tokens))

/-- An expression statement decides for the same reason. -/
theorem readExpression_decides (limit : Nat) (tokens : List Token)
    : Decides (startsWith .nilWord · = true) (fun _ => True)
        (readExpression (Expr.read limit Precedence.lowest)) tokens :=
  ((Expr.read_decided limit).before .semicolon rfl tokens).closed .semicolon (by decide)
    .semicolonAfterExpression (by decide) (fun value _ => Stmt.expression value)
    (Or.inr ((Expr.read_decided limit).takes tokens))

/-- A declaration goes on with an initial value or ends at once. -/
theorem readDeclaration_decides (limit : Nat) (tokens : List Token)
    : Decides (startsWith .identifier · = true) (fun _ => True)
        (readDeclaration (Expr.read limit Precedence.lowest)) tokens := by
  refine Decides.take_bind (by decide) (by decide) tokens (fun name rest => ?_) fun name => nofun
  by_cases isSign : startsWith .equal rest = true
  · cases rest with
    | nil => exact nomatch isSign
    | cons sign rest =>
        have initial := ((Expr.read_decided limit).before .semicolon rfl rest).map some
        have declaration := initial.closed .semicolon (by decide) .semicolonAfterDeclaration
          (by decide) (fun initial _ => Stmt.declare name initial) (Or.inr fun found same => by
            obtain ⟨value, reads, _⟩ := map_eq_ok.mp same
            exact (Expr.read_decided limit).takes rest value reads)
        refine declaration.after fun back => ?_
        exact bind_of_ok (takeIf_of_eq ⟨sign, by simpa using isSign⟩ back)
  · have plain : Decides (startsWith .semicolon · = true) (fun _ => True)
        (take .semicolon .semicolonAfterDeclaration >>= fun _ => pure (Stmt.declare name none))
        rest :=
      Decides.take_bind (by decide) (by decide) rest
        (fun _ _ => .pure _ fun _ _ => trivial) fun _ => nofun
    refine (plain.congr (startsWith_looksAhead .equal).not (fun back noSign => ?_)
      (fun back starts => ?_) ?_).unrestricted
    · have reads : takeIf .equal back = .ok (false, back) := by
        simp only [takeIf, Bool.not_eq_true'] at noSign ⊢
        rw [noSign]
        rfl
      exact bind_of_ok reads
    · rw [startsWith_of_ne (by decide) starts]
      rfl
    · simpa using isSign

/-- A body decides, as statements up to the closing brace; a word that starts a statement closes
no body. -/
theorem readBody_decides {stmt : Reader Stmt}
    (decides : ∀ tokens, Decides (startsWith .nilWord · = true) (fun _ => True) stmt tokens)
    (tokens : List Token)
    : Decides (startsWith .rightBrace · = true) (fun _ => True) (readBody stmt) tokens := by
  let goesOn (tokens : List Token) : Bool := !tokens.isEmpty && !startsWith .rightBrace tokens
  have starts (back : List Token) (isWord : startsWith .nilWord back = true)
      : goesOn back = true := by
    cases back with
    | nil => exact absurd isWord Bool.false_ne_true
    | cons token rest =>
        have noBrace : startsWith .rightBrace (token :: rest) = false :=
          startsWith_of_ne (by decide) isWord
        simp only [goesOn, noBrace, List.isEmpty_cons, Bool.not_false, Bool.and_self]
  have body : Decides (startsWith .rightBrace · = true) (startsWith .rightBrace · = true)
      (many goesOn stmt) tokens :=
    Decides.many (isEmpty_looksAhead.not.and (startsWith_looksAhead .rightBrace).not) rfl
      (fun back closes => by simp [closes])
      (fun tokens _ => (decides tokens).mono starts fun _ follows => follows) trivial
      (fun _ _ => trivial) tokens
  exact body.closed .rightBrace (by decide) .braceAfterBlock (by decide) (fun body _ => body)
    (Or.inl fun _ closes => closes)

/-- A function declaration decides, part after part: its name, its parameters between signs, its
body. -/
theorem readFunction_decides {stmt : Reader Stmt}
    (decides : ∀ tokens, Decides (startsWith .nilWord · = true) (fun _ => True) stmt tokens)
    (tokens : List Token)
    : Decides (startsWith .identifier · = true) (fun _ => True) (readFunction stmt) tokens := by
  have params (tokens : List Token)
      : Decides (startsWith .rightParen · = true) (startsWith .rightParen · = true)
          (separated .rightParen (take .identifier .parameterName)) tokens :=
    Decides.separated .rightParen (by decide) (Decides.take (by decide) (by decide)) trivial nofun
      (fun _ _ => trivial) (fun _ starts => startsWith_of_ne (by decide) starts) tokens
  refine Decides.take_bind (by decide) (by decide) tokens (fun name rest => ?_) fun _ => nofun
  refine (Decides.take_bind (by decide) (by decide) rest (fun _ rest => ?_)
    fun _ => by nofun).unrestricted
  refine ((params rest).bind (fun params rest _ => ?_) (fun _ => by nofun)
    (Or.inl fun _ closes => closes)).unrestricted
  refine Decides.take_bind (by decide) (by decide) rest (fun _ rest => ?_) fun _ => nofun
  refine (Decides.take_bind (by decide) (by decide) rest (fun _ rest => ?_)
    fun _ => by nofun).unrestricted
  exact ((readBody_decides decides rest).map (Stmt.function name params)).unrestricted

/-- Statements of every nesting are read with one token of lookahead, and what follows a
statement does not matter.
-/
theorem read_decides (limit : Nat) (tokens : List Token)
    : Decides (startsWith .nilWord · = true) (fun _ => True) (read limit) tokens := by
  induction limit generalizing tokens with
  | zero => exact .tooDeep rfl
  | succ limit ih =>
      by_cases leads : startsWithLead tokens = true
      · obtain ⟨token, rest, rfl, isLead⟩ := exists_of_startsWithLead leads
        simp only [leadKinds, List.mem_cons, List.not_mem_nil, or_false] at isLead
        rcases isLead with isVar | isPrint | isFun | isBrace
        · exact (readDeclaration_decides limit rest).after fun back => read_var limit back isVar
        · exact (readPrint_decides limit rest).after fun back => read_print limit back isPrint
        · exact (readFunction_decides ih rest).after fun back => read_fun limit back isFun
        · exact ((readBody_decides ih rest).map Stmt.block).after
            fun back => read_brace limit back isBrace
      · refine (readExpression_decides limit tokens).congr startsWithLead_looksAhead.not
          (fun back other => read_expression limit (by simpa using other)) (fun back isWord => ?_)
          (by simpa using leads)
        cases back with
        | nil => exact absurd isWord Bool.false_ne_true
        | cons token rest =>
            have isWord : token.kind = .nilWord := by simpa using isWord
            simp [startsWithLead, isWord, leadKinds]

end Stmt

namespace TokenStream

/-- Only the tokens of a program that is complete can be followed by nothing. -/
theorem statements_decides (limit : Nat) (tokens : List Token)
    : Decides (· = []) (· = []) (statements limit) tokens := by
  have starts (back : List Token) (isWord : startsWith .nilWord back = true)
      : (!back.isEmpty) = true := by
    cases back with
    | nil => exact absurd isWord Bool.false_ne_true
    | cons token rest => rfl
  exact Decides.many isEmpty_looksAhead.not rfl (fun back nothing => by simp [nothing])
    (fun tokens _ => (Stmt.read_decides limit tokens).mono starts fun _ follows => follows)
    trivial (fun _ _ => trivial) tokens

/-- A stream is rejected as a whole just where its reader meets an unmet expectation, and the
error stands at the front of what was left. -/
theorem readAll_eq_rejected_iff {α : Type} {reader : Reader α} (stream : TokenStream)
    {error : SyntaxError}
    : stream.readAll reader = .error (.rejected error)
      ↔ ∃ expected rest, reader stream.body = .error (.unmet expected rest)
        ∧ error = ⟨expected, stream.front rest⟩ := by
  simp only [readAll]
  split
  · next found rest reads => simp [reads]
  · next expected rest reads =>
    simp only [reads, Except.error.injEq, ReadFailure.rejected.injEq, Refusal.unmet.injEq]
    constructor
    · rintro rfl
      exact ⟨expected, rest, ⟨rfl, rfl⟩, rfl⟩
    · rintro ⟨_, _, ⟨rfl, rfl⟩, same⟩
      exact same.symm
  · next reads => simp [reads]

/-- No program is ever rejected for want of an operator: an unmet expectation of a decided reader
is never that one. -/
theorem program_rejected_ne_operator {stream : TokenStream} {limit : Nat} {error : SyntaxError}
    (rejected : stream.program limit = .error (.rejected error))
    : error.expected ≠ .operator := by
  obtain ⟨expected, rest, refused, rfl⟩ := (readAll_eq_rejected_iff stream).mp rejected
  exact ((statements_decides limit stream.body).of_unmet refused).1

/-- A list that ends with an end of text is a stream, up to the first end of text in it. -/
theorem exists_ofList? {tokens : List Token} {last : Token} (isLast : tokens.getLast? = some last)
    (isEnd : last.kind = .endOfText)
    : ∃ stop, tokens.find? (·.kind == .endOfText) = some stop
      ∧ ofList? tokens = some ⟨tokens.takeWhile (·.kind != .endOfText), stop⟩ := by
  have found : (tokens.find? (·.kind == .endOfText)).isSome :=
    List.find?_isSome.mpr ⟨last, List.mem_of_getLast? isLast, by simp [isEnd]⟩
  obtain ⟨stop, found⟩ := Option.isSome_iff_exists.mp found
  exact ⟨stop, found, by simp [ofList?, isLast, isEnd, found]⟩

/-- A stream that begins like another one, up to a certain token, has the same tokens before that
one and stops at it if the other does.
-/
theorem exists_ofList?_of_begins {front rest tokens : List Token} {stop last : Token}
    (isEnd : stop.kind = .endOfText) (inner : ∀ token ∈ front ++ rest, token.kind ≠ .endOfText)
    (begins : front ++ [rest.head?.getD stop] <+: tokens) (isLast : tokens.getLast? = some last)
    (lastEnds : last.kind = .endOfText)
    : ∃ rest' stop', ofList? tokens = some ⟨front ++ rest', stop'⟩ ∧ rest'.head? = rest.head?
      ∧ rest'.head?.getD stop' = rest.head?.getD stop := by
  obtain ⟨frontInner, restInner⟩ := List.forall_mem_append.mp inner
  obtain ⟨stop', found, isStream⟩ := exists_ofList? isLast lastEnds
  obtain ⟨more, rfl⟩ := begins
  have passes : front.find? (·.kind == .endOfText) = none := by simpa using frontInner
  rw [List.append_assoc, List.takeWhile_append_of_pos (by simpa using frontInner)] at isStream
  rw [List.append_assoc, List.find?_append, passes, Option.none_or] at found
  refine ⟨_, stop', by rw [List.append_assoc, isStream], ?_⟩
  cases rest with
  | nil => simpa [isEnd, eq_comm] using found
  | cons token rest =>
      have goesOn : token.kind ≠ .endOfText := restInner token (by simp)
      simp [goesOn]

/-- A program is rejected at the first token that no program has after the tokens before. However
the tokens go on after it, the error is the same, and without it they can be completed.
-/
theorem program_rejected_earliest (body : List Token) (stop : Token)
    (isEnd : stop.kind = .endOfText) (inner : ∀ token ∈ body, token.kind ≠ .endOfText)
    (limit : Nat) (stream : TokenStream) (isStream : ofList? (body ++ [stop]) = some stream)
    (error : SyntaxError) (rejected : stream.program limit = .error (.rejected error))
    : ∃ front back, body ++ [stop] = front ++ error.token :: back
      ∧ (∀ tokens last, front ++ [error.token] <+: tokens → tokens.getLast? = some last →
          last.kind = .endOfText →
          ∃ other, ofList? tokens = some other
            ∧ other.program limit = .error (.rejected error))
      ∧ ∃ added other program, (∀ token ∈ added, token.kind ≠ .endOfText)
          ∧ ofList? (front ++ added ++ [stop]) = some other
          ∧ other.program limit = .ok program := by
  obtain rfl : ⟨body, stop⟩ = stream :=
    Option.some.inj ((ofList?_toList ⟨body, stop⟩ isEnd inner).symm.trans isStream)
  obtain ⟨expected, rest, refused, rfl⟩ := (readAll_eq_rejected_iff _).mp rejected
  obtain ⟨_, front, added, program, divided, refuses, addedInner, mended⟩ :=
    (statements_decides limit body).of_unmet refused
  subst divided
  obtain ⟨frontInner, _⟩ := List.forall_mem_append.mp inner
  have spelled : rest ++ [stop] = rest.head?.getD stop :: (rest ++ [stop]).tail := by
    cases rest <;> rfl
  refine ⟨front, (rest ++ [stop]).tail, ?_, fun tokens last begins isLast lastEnds => ?_, added,
    ⟨front ++ added, stop⟩, program, addedInner, ?_, ?_⟩
  · rw [List.append_assoc, spelled]
    rfl
  · obtain ⟨rest', stop', isOther, next, token⟩ :=
      exists_ofList?_of_begins isEnd inner begins isLast lastEnds
    refine ⟨_, isOther, (readAll_eq_rejected_iff _).mpr ⟨expected, rest', refuses _ next, ?_⟩⟩
    exact congrArg (SyntaxError.mk expected) token.symm
  · exact ofList?_toList ⟨front ++ added, stop⟩ isEnd
      (List.forall_mem_append.mpr ⟨frontInner, addedInner⟩)
  · have reads := mended [] rfl
    rw [List.append_nil] at reads
    exact (readAll_eq_ok_iff _).mpr ⟨[], reads⟩

/-- In `a + b = c;` the equals sign is refused, whatever comes after it, and `a + b` starts a
program.
-/
theorem program_rejected_earliest_sum
    : ∃ front back,
        [.identifier, .plus, .identifier, .equal, .identifier, .semicolon].map Token.ofKind
            ++ [Token.ofKind .endOfText]
          = front ++ Token.ofKind .equal :: back
        ∧ (∀ tokens last, front ++ [Token.ofKind .equal] <+: tokens →
            tokens.getLast? = some last → last.kind = .endOfText →
            ∃ other, ofList? tokens = some other
              ∧ other.program 3
                = .error (.rejected ⟨.assignmentTarget, Token.ofKind .equal⟩))
        ∧ ∃ added other program, (∀ token ∈ added, token.kind ≠ .endOfText)
            ∧ ofList? (front ++ added ++ [Token.ofKind .endOfText]) = some other
            ∧ other.program 3 = .ok program :=
  program_rejected_earliest
    ([.identifier, .plus, .identifier, .equal, .identifier, .semicolon].map Token.ofKind)
    (Token.ofKind .endOfText) rfl (by decide) 3 _ rfl
    ⟨.assignmentTarget, Token.ofKind .equal⟩ rfl

end TokenStream

end Sprig
