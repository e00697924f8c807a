import Sprig.Proofs.Grammar.CursorLaws

/-! Expressions, statements and whole lists of tokens are read by a cursor to the same end as by the
readers of streams. So the cursor has been nowhere but in the tokens up to the first end of text.
-/

namespace Sprig

/-- Every statement takes up a token. -/
theorem Stmt.shorter_of_read {limit : Nat} {tokens rest : List Token} {stmt : Stmt}
    (reads : read limit tokens = .ok (stmt, rest))
    : rest.length < tokens.length :=
  (read_decides limit tokens).shorter trivial nofun reads

namespace Scan

variable {α : Type}

-- Expressions

section Expressions

variable {stream : TokenStream} (ended : stream.IsEnded) {inner : Nat → Scan Expr}
  {inner' : Nat → Reader Expr} {rest : List Token}
  (follows : ∀ level rest, Ends stream rest (inner level) (inner' level rest))

include ended follows

/-- A grouping is its inner expression followed by the closing sign. -/
theorem grouping_ends : Ends stream rest (grouping inner) (Expr.readGrouping inner' rest) :=
  (follows _ rest).bind fun expr _ _ => .closing ended (by decide) fun _ => Expr.grouping expr

/-- What an operand does after its first token depends on the kind of the token alone, by cases on
it; kinds that start no operand are refused at the token itself. -/
theorem operandAfter_ends {token : Token} (suffix : token :: rest <:+ stream.body)
    : Ends stream rest (operandAfter inner token) (Expr.readOperand inner' (token :: rest)) := by
  simp only [operandAfter, Expr.readOperand]
  cases token.kind
  case minus | bang => exact (follows _ rest).map (Expr.unary token)
  case leftParen => exact grouping_ends ended follows
  case number | string | trueWord | falseWord | nilWord | identifier => exact .pure _
  all_goals exact .refuse .expression suffix

/-- An operand is refused at the end of the text and otherwise read from its first token, so it
takes at least one token, as completing it demands. -/
theorem operand_ends (decided : Expr.Decided inner')
    : Ends stream rest (operand inner) (Expr.readOperand inner' rest) := by
  refine Ends.completing (.of_suffix fun suffix => Ends.peek.bind_ok ?_)
    (fun value rest' reads => ?_) .operand
  · cases rest with
    | nil =>
        rw [if_pos (show (stream.front []).kind = .endOfText from ended.stop)]
        exact .refuse .expression suffix
    | cons token rest =>
        have isOther : (stream.front (token :: rest)).kind ≠ .endOfText :=
          ended.body token (suffix.subset (by simp))
        rw [if_neg isOther]
        exact (Ends.advance ended).bind_ok (operandAfter_ends ended follows suffix)
  · exact (Expr.readOperand_decides decided rest).shorter rfl nofun reads

/-- A call is its arguments up to the closing sign, each of them read as an inner expression. -/
theorem call_ends (decided : Expr.Decided inner') (callee : Expr)
    : Ends stream rest (call inner callee) (Expr.readCall inner' callee rest) := by
  have arguments : Ends stream rest (separated .rightParen (inner Precedence.lowest))
      (Reader.separated .rightParen (inner' Precedence.lowest) rest) :=
    .separated ended (by decide) (follows _) fun tokens value rest reads => by
      exact Nat.le_of_lt ((decided _ (Nat.zero_le _) tokens).shorter rfl nofun reads)
  exact arguments.bind fun arguments _ _ =>
    .closing ended (by decide) fun paren => Expr.call callee paren arguments

/-- An operation goes on by the kind of its sign: an assignment asks for a name to its left, a
call for arguments, any other sign for a right operand. -/
theorem operationAfter_ends (decided : Expr.Decided inner') (left : Expr) {operator : Token}
    (suffix : operator :: rest <:+ stream.body)
    : Ends stream rest (operationAfter inner left operator)
        (Expr.readOperation inner' left (operator :: rest)) := by
  simp only [operationAfter, Expr.readOperation]
  cases operator.kind
  case equal =>
    cases left with
    | reference name => exact (follows _ rest).map (Expr.assign name)
    | literal | grouping | assign | unary | binary | call =>
        exact .refuse .assignmentTarget suffix
  case leftParen => exact call_ends ended follows decided left
  all_goals
    dsimp only
    split
    · exact (follows _ rest).map (Expr.binary left operator)
    · exact .refuse .operator suffix

/-- An operation takes its sign and goes on after it. -/
theorem operation_ends (decided : Expr.Decided inner') (left : Expr) (operator : Token)
    : Ends stream (operator :: rest) (operation inner left)
        (Expr.readOperation inner' left (operator :: rest)) :=
  .of_suffix fun suffix =>
    (Ends.advance ended).bind_ok (operationAfter_ends ended follows decided left suffix)

end Expressions

section Ended

variable {stream : TokenStream} (ended : stream.IsEnded)

include ended

/-- The end of text binds no tighter than any level. -/
theorem bindsTighter_ends (level : Nat) (rest : List Token)
    : Ends stream rest (bindsTighter level) (.ok (Expr.bindsTighter level rest, rest)) := by
  have tighter : decide (level < Precedence.ofKind (stream.front rest).kind)
      = Expr.bindsTighter level rest := by
    cases rest with
    | nil =>
        simp [TokenStream.front, ended.stop, Expr.bindsTighter, Precedence.ofKind,
          Precedence.lowest]
    | cons token rest => rfl
  rw [← tighter]
  exact Ends.peek.bind_ok (.pure _)

/-- The cursor and the reader read expressions to the same end, by induction on the limit; the
operand is one step, and the loop of operations that bind tighter is `repeatWhile`. -/
theorem expression_ends (limit level : Nat) (rest : List Token)
    : Ends stream rest (expression limit level) (Expr.read limit level rest) := by
  induction limit generalizing level rest with
  | zero => exact .tooDeep
  | succ limit ih =>
      have decided := Expr.read_decided limit
      rw [Expr.read_succ decided]
      refine (operand_ends ended ih decided).bind fun left rest' _ => ?_
      refine .repeatWhile rfl (fun left tokens value rest continues reads => ?_)
        (fun rest stopped => ?_) (fun rest continues => ?_) left
      · exact (Expr.readOperation_decides decided left continues).shorter rfl nofun reads
      · rw [← stopped]
        exact bindsTighter_ends ended level rest
      · have looks := bindsTighter_ends ended level rest
        rw [continues] at looks
        cases rest with
        | nil => exact absurd continues Bool.false_ne_true
        | cons operator rest =>
            exact ⟨_, looks, fun left => operation_ends ended ih decided left operator⟩

-- Statements

section Parts

variable {expr : Scan Expr} {expr' : Reader Expr} {stmt : Scan Stmt} {stmt' : Reader Stmt}
  {rest : List Token}

/-- A declaration of a variable takes a name, an initial value where there is a sign for one, and
its end. -/
theorem declaration_ends (follows : ∀ rest, Ends stream rest expr (expr' rest))
    : Ends stream rest (declaration expr) (Stmt.readDeclaration expr' rest) := by
  refine (Ends.consume ended (by decide) _).bind fun name rest' _ => ?_
  refine (Ends.accept ended (by decide)).bind fun isSign rest' _ => ?_
  cases isSign with
  | true =>
      exact ((follows rest').map some).bind fun initial _ _ =>
        .closing ended (by decide) fun _ => Stmt.declare name initial
  | false => exact .closing ended (by decide) fun _ => Stmt.declare name none

/-- A print statement is an expression with its end. -/
theorem print_ends (follows : ∀ rest, Ends stream rest expr (expr' rest))
    : Ends stream rest (print expr) (Stmt.readPrint expr' rest) :=
  (follows rest).bind fun value _ _ => .closing ended (by decide) fun _ => Stmt.print value

/-- An expression statement is an expression with its end. -/
theorem expressionStatement_ends (follows : ∀ rest, Ends stream rest expr (expr' rest))
    : Ends stream rest (expressionStatement expr) (Stmt.readExpression expr' rest) :=
  (follows rest).bind fun value _ _ => .closing ended (by decide) fun _ => Stmt.expression value

/-- A body goes on as long as something is left that does not close it, by the two answers of
`check`. -/
theorem bodyGoesOn_ends (rest : List Token)
    : Ends stream rest bodyGoesOn
        (.ok (!rest.isEmpty && !Reader.startsWith .rightBrace rest, rest)) := by
  have checks : Ends stream rest (check .rightBrace) _ := .check ended (by decide)
  cases closes : Reader.startsWith .rightBrace rest with
  | true =>
      rw [closes] at checks
      rw [Bool.not_true, Bool.and_false]
      exact checks.bind_ok (.pure false)
  | false =>
      rw [closes] at checks
      rw [Bool.not_false, Bool.and_true]
      exact checks.bind_ok ((Ends.isAtEnd ended).bind_ok (.pure _))

/-- A body is as many statements as go on, followed by the closing brace. -/
theorem body_ends (follows : ∀ rest, Ends stream rest stmt (stmt' rest))
    (shorter : ∀ tokens value rest, stmt' tokens = .ok (value, rest) → rest.length < tokens.length)
    : Ends stream rest (body stmt) (Stmt.readBody stmt' rest) := by
  have statements : Ends stream rest (many bodyGoesOn stmt) _ :=
    .many rfl (fun tokens value rest _ => shorter tokens value rest)
      (fun rest stopped => stopped ▸ bodyGoesOn_ends ended rest)
      fun rest goesOn => ⟨rest, goesOn ▸ bodyGoesOn_ends ended rest, follows rest⟩
  exact statements.bind fun statements _ _ => .closing ended (by decide) fun _ => statements

/-- A function declaration takes its name, its parameters between signs and its body, in this
order. -/
theorem function_ends (follows : ∀ rest, Ends stream rest stmt (stmt' rest))
    (shorter : ∀ tokens value rest, stmt' tokens = .ok (value, rest) → rest.length < tokens.length)
    : Ends stream rest (function stmt) (Stmt.readFunction stmt' rest) := by
  have params (rest : List Token)
      : Ends stream rest (separated .rightParen (consume .identifier .parameterName)) _ :=
    .separated ended (by decide) (fun rest => .consume ended (by decide) _)
      fun tokens name rest reads => by
        obtain ⟨rfl, _⟩ := Reader.take_eq_ok.mp reads
        exact Nat.le_succ _
  refine (Ends.consume ended (by decide) _).bind fun name rest' _ => ?_
  refine (Ends.consume ended (by decide) _).bind fun _ rest' _ => ?_
  refine (params rest').bind fun params rest' _ => ?_
  refine (Ends.consume ended (by decide) _).bind fun _ rest' _ => ?_
  refine (Ends.consume ended (by decide) _).bind fun _ rest' _ => ?_
  exact (body_ends ended follows shorter).bind fun body _ _ =>
    .pure (Stmt.function name params body)

/-- A choice by the first token, which is taken with one of the two. -/
theorem choose_ends {kind : TokenKind} (isOther : kind ≠ .endOfText) {chosen otherwise : Scan Stmt}
    {result : Except Refusal (Stmt × List Token)}
    (chooses : ∀ token rest', rest = token :: rest' → token.kind = kind →
      Ends stream rest' chosen result)
    (passes : Reader.startsWith kind rest = false → Ends stream rest otherwise result)
    : Ends stream rest (choose kind chosen otherwise) result := by
  have accepts : Ends stream rest (accept kind) _ := .accept ended isOther
  cases starts : Reader.startsWith kind rest with
  | false =>
      rw [Reader.takeIf, if_neg (by simp [starts])] at accepts
      exact accepts.bind_ok (passes starts)
  | true =>
      rw [Reader.takeIf, if_pos starts] at accepts
      cases rest with
      | nil => exact absurd starts Bool.false_ne_true
      | cons token rest => exact accepts.bind_ok (chooses token rest rfl (by simpa using starts))

end Parts

/-- The cursor and the reader read statements to the same end, by induction on the limit. The
cursor asks for one first word after another and the reader splits on the kind of the first token,
so each word is one `choose_ends`. -/
theorem statement_ends (limit : Nat) (rest : List Token)
    : Ends stream rest (statement limit) (Stmt.read limit rest) := by
  induction limit generalizing rest with
  | zero => exact .tooDeep
  | succ limit ih =>
      have expr := expression_ends ended limit Precedence.lowest
      refine .completing ?_ (fun stmt rest' => Stmt.shorter_of_read) .statement
      refine choose_ends ended (by decide) (fun word rest' starts isWord => ?_) fun noVar => ?_
      · subst starts
        rw [Stmt.read_var limit rest' isWord]
        exact declaration_ends ended expr
      refine choose_ends ended (by decide) (fun word rest' starts isWord => ?_) fun noPrint => ?_
      · subst starts
        rw [Stmt.read_print limit rest' isWord]
        exact print_ends ended expr
      refine choose_ends ended (by decide) (fun word rest' starts isWord => ?_) fun noFun => ?_
      · subst starts
        rw [Stmt.read_fun limit rest' isWord]
        exact function_ends ended ih fun _ _ _ => Stmt.shorter_of_read
      refine choose_ends ended (by decide) (fun brace rest' starts isBrace => ?_) fun noBrace => ?_
      · subst starts
        rw [Stmt.read_brace limit rest' isBrace]
        exact (body_ends ended ih fun _ _ _ => Stmt.shorter_of_read).map Stmt.block
      have other : Stmt.startsWithLead rest = false := by
        cases rest with
        | nil => rfl
        | cons token rest =>
            simp only [Reader.startsWith_cons, beq_eq_false_iff_ne] at noVar noPrint noFun noBrace
            simp [Stmt.startsWithLead, Stmt.leadKinds, noVar, noPrint, noFun, noBrace]
      rw [Stmt.read_expression limit other]
      exact expressionStatement_ends ended expr

-- Whole lists of tokens

/-- A program goes on until the end of the text. -/
theorem goesOn_ends (rest : List Token) : Ends stream rest goesOn (.ok (!rest.isEmpty, rest)) :=
  (Ends.isAtEnd ended).bind_ok (.pure _)

/-- A program is as many statements as there are before the end. -/
theorem program_ends (limit : Nat) (rest : List Token)
    : Ends stream rest (program limit) (TokenStream.statements limit rest) :=
  .many rfl (fun _ _ _ _ => Stmt.shorter_of_read)
    (fun rest stopped => stopped ▸ goesOn_ends ended rest)
    fun rest continues =>
      ⟨rest, continues ▸ goesOn_ends ended rest, statement_ends ended limit rest⟩

/-- An expression that is a whole text is followed by its end, and refused at the first token
after it otherwise. -/
theorem wholeExpression_ends (limit : Nat) (rest : List Token)
    : Ends stream rest (wholeExpression limit) (TokenStream.wholeExpression limit rest) := by
  refine (expression_ends ended limit Precedence.lowest rest).bind fun expr rest' _ => ?_
  refine .of_suffix fun suffix => (Ends.isAtEnd ended).bind_ok ?_
  cases rest' with
  | nil => exact .pure expr
  | cons token rest => exact Ends.peek.bind_ok (.refuse .endOfExpression suffix)

end Ended

-- Up to the first end of text

/-- Where the first end of text stands. -/
def firstEnd (tokens : List Token) : Nat :=
  tokens.findIdx (·.kind == .endOfText)

/-- Reading came to a tree, or to an error that blames one of the tokens. -/
def IsAnswer (tokens : List Token) (result : Except CursorHalt α) : Prop :=
  (∃ tree, result = .ok tree)
  ∨ ∃ error : SyntaxError, result = .error (.failed (.rejected error)) ∧ error.token ∈ tokens

/-- Reading the tokens with a cursor has the given result, and the cursor has nothing to do with
what follows the first end of text.
-/
structure Confined (tokens : List Token) (scan : Scan α) (result : Except ReadFailure α)
    : Prop where
  ends : (scan.on tokens).1 = result.mapError .failed
  answers : IsAnswer tokens (scan.on tokens).1 ∨ (scan.on tokens).1 = .error (.failed .tooDeep)
  position_le : (scan.on tokens).2.position ≤ firstEnd tokens
  looked : ∀ position, .looked position ∈ (scan.on tokens).2.history → position ≤ firstEnd tokens
  /-- The token before the cursor is asked for only where there is one. -/
  lookedBack : ∀ position, .lookedBack position ∈ (scan.on tokens).2.history →
    0 < position ∧ position ≤ firstEnd tokens
  advanced : ∀ position, .advanced position ∈ (scan.on tokens).2.history →
    position < firstEnd tokens
    ∧ ∃ token, tokens[position]? = some token ∧ token.kind ≠ .endOfText
  /-- Every statement and every operand that was read took up a token. -/
  completed : ∀ part start stop, .completed part start stop ∈ (scan.on tokens).2.history →
    start < stop
  cut : (scan.on (tokens.take (firstEnd tokens + 1))).1 = (scan.on tokens).1

section Stream

variable {stream : TokenStream} {tokens : List Token}

/-- The first end of text in a list that begins with a stream stands right after the body of the
stream, since no token of the body is one. -/
theorem firstEnd_eq (ended : stream.IsEnded) (begins : stream.toList <+: tokens)
    : firstEnd tokens = stream.body.length := by
  obtain ⟨after, rfl⟩ := begins
  have none : stream.body.findIdx (·.kind == .endOfText) = stream.body.length :=
    List.findIdx_eq_length.mpr (by simpa using ended.body)
  simp [firstEnd, TokenStream.toList, List.findIdx_append, List.findIdx_cons, none, ended.stop]

/-- What a cursor answers is what the stream read as a whole answers, by the three ways to agree. -/
theorem Agrees.fst_eq {done : Except CursorHalt α × Cursor} {reader : Reader α}
    (agrees : Agrees stream done (reader stream.body))
    : done.1 = (stream.readAll reader).mapError .failed := by
  rw [TokenStream.readAll]
  generalize reader stream.body = result at agrees
  cases agrees <;> rfl

/-- A cursor that agrees is still within its stream, whichever way it ended. -/
theorem Agrees.within {done : Except CursorHalt α × Cursor}
    {result : Except Refusal (α × List Token)} (agrees : Agrees stream done result)
    : done.2.Within stream := by
  cases agrees <;> assumption

/-- An agreeing cursor gives a tree, refuses at a token of the list or runs out of depth, by the
three ways to agree. -/
theorem Agrees.answers {done : Except CursorHalt α × Cursor}
    {result : Except Refusal (α × List Token)} (agrees : Agrees stream done result)
    (begins : stream.toList <+: tokens)
    : IsAnswer tokens done.1 ∨ done.1 = .error (.failed .tooDeep) := by
  cases agrees with
  | read value within left => exact .inl (.inl ⟨value, rfl⟩)
  | @unmet expected cursor rest within suffix =>
      refine .inl (.inr ⟨_, rfl, begins.subset ?_⟩)
      cases rest with
      | nil => exact List.mem_append_right _ (List.mem_singleton.mpr rfl)
      | cons token rest => exact List.mem_append_left _ (suffix.subset List.mem_cons_self)
  | tooDeep within => exact .inr rfl

/-- With enough depth a confined scan answers with a tree or with a token of the list: the third
way is excluded by the result. -/
theorem Confined.isAnswer {scan : Scan α} {result : Except ReadFailure α}
    (confined : Confined tokens scan result) (shallow : result ≠ .error .tooDeep)
    : IsAnswer tokens (scan.on tokens).1 := by
  refine confined.answers.resolve_right fun deep => ?_
  rw [confined.ends] at deep
  cases result with
  | ok tree =>
      have same : (.ok tree : Except CursorHalt α) = .error (.failed .tooDeep) := deep
      simp at same
  | error failure =>
      have same : (.error (.failed failure) : Except CursorHalt α) = .error (.failed .tooDeep) :=
        deep
      exact shallow (by simpa using same)

/-- A scan that follows a reader on one stream is confined to that stream in every list that
begins with it, since its law holds for all such lists alike. -/
theorem confined {scan : Scan α} {reader : Reader α} (ended : stream.IsEnded)
    (begins : stream.toList <+: tokens)
    (follows : Ends stream stream.body scan (reader stream.body))
    : Confined tokens scan (stream.readAll reader) := by
  have agrees {tokens : List Token} (begins : stream.toList <+: tokens)
      : Agrees stream (scan.on tokens) (reader stream.body) :=
    follows (.start tokens) ⟨begins, Nat.zero_le _, nofun⟩ rfl
  have within := (agrees begins).within
  have atEnd := firstEnd_eq ended begins
  have cut : tokens.take (firstEnd tokens + 1) = stream.toList := by
    rw [atEnd, List.prefix_iff_eq_take.mp begins, TokenStream.toList, List.length_append]
    rfl
  refine ⟨(agrees begins).fst_eq, (agrees begins).answers begins, ?_, ?_, ?_, ?_, ?_, ?_⟩
  · exact atEnd ▸ within.position_le
  · exact fun position mem => atEnd ▸ within.history _ mem
  · exact fun position mem => atEnd ▸ within.history _ mem
  · intro position mem
    have inside : position < stream.body.length := within.history _ mem
    obtain ⟨after, rfl⟩ := begins
    refine ⟨atEnd ▸ inside, stream.body[position], ?_, ended.body _ (List.getElem_mem inside)⟩
    rw [TokenStream.toList, List.append_assoc, List.getElem?_append_left inside,
      List.getElem?_eq_getElem inside]
  · exact fun part start stop mem => (within.history _ mem).1
  · rw [cut, (agrees List.prefix_rfl).fst_eq, (agrees begins).fst_eq]

end Stream

/-- Whatever tokens a list has before the end of text at its end, a cursor reads it up to its first
end of text and no further: it always stands and looks at or before that end, is moved over no end,
and takes up a token with every statement and every operand. With enough levels it comes to a tree
or to an error, the same as for the tokens up to the first end alone.
-/
theorem confined_to_first_end (tokens : List Token) (last : Token)
    (isLast : tokens.getLast? = some last) (isEnd : last.kind = .endOfText)
    : ∃ stream, TokenStream.ofList? tokens = some stream
      ∧ ∀ limit, Confined tokens (program limit) (stream.program limit)
        ∧ Confined tokens (wholeExpression limit) (stream.expression limit)
        ∧ (tokens.length < limit →
            IsAnswer tokens ((program limit).on tokens).1
            ∧ IsAnswer tokens ((wholeExpression limit).on tokens).1) := by
  obtain ⟨stop, _, isStream⟩ := TokenStream.exists_ofList? isLast isEnd
  refine ⟨_, isStream, fun limit => ?_⟩
  generalize TokenStream.mk _ stop = stream at isStream
  obtain ⟨ended, begins⟩ := TokenStream.IsEnded.of_ofList? isStream
  have statements := confined ended begins (program_ends ended limit stream.body)
  have single := confined ended begins (wholeExpression_ends ended limit stream.body)
  refine ⟨statements, single, fun few => ?_⟩
  have shorter : stream.body.length + 1 ≤ tokens.length := by
    simpa [TokenStream.toList] using begins.length_le
  refine ⟨statements.isAnswer (stream.program_ne_tooDeep (by omega)), single.isAnswer ?_⟩
  rw [ne_eq, TokenStream.readAll_eq_tooDeep_iff]
  exact (TokenStream.wholeExpression_settles limit (by omega) stream.body (Nat.le_refl _)).1

/-- Two tokens that belong to no program, between two ends of text, are not looked at. -/
theorem confined_to_first_end_print
    : ∃ tokens : List Token,
        tokens = [.printWord, .nilWord, .semicolon, .endOfText, .equal, .equal, .endOfText].map
          Token.ofKind
        ∧ firstEnd tokens = 3
        ∧ Confined tokens (program 8) (.ok [.print (.literal .nil)])
        ∧ Confined tokens (wholeExpression 8)
            (.error (.rejected ⟨.expression, .ofKind .printWord⟩))
        ∧ IsAnswer tokens ((program 8).on tokens).1
        ∧ IsAnswer tokens ((wholeExpression 8).on tokens).1 := by
  refine ⟨_, rfl, rfl, ?_⟩
  obtain ⟨stream, isStream, reads⟩ := confined_to_first_end
    ([.printWord, .nilWord, .semicolon, .endOfText, .equal, .equal, .endOfText].map Token.ofKind)
    (.ofKind .endOfText) rfl rfl
  obtain rfl := Option.some.inj isStream
  obtain ⟨statements, single, answers⟩ := reads 8
  exact ⟨statements, single, answers (by decide)⟩

end Scan

end Sprig
