import Sprig.Proofs.Grammar.Programs
import Sprig.Proofs.Lexing.Division
import Sprig.Proofs.Number.Numeral
import Sprig.Proofs.Tree.Stripped
import Sprig.Tree.Written

/-! The written form of an expression is read as the same expression, up to parentheses and
places. Wherever the text stands, it consists of the tokens of one phrase, and the tree of the
phrase is written as the text again.
-/

namespace Sprig

open Grammar Segment

/-- Moving a token changes only its place. -/
@[simp] theorem Token.unplaced_movedTo (token : Token) (position : Position)
    : (token.movedTo position).unplaced = token.unplaced :=
  rfl

/-- The number is neither an infinity nor `nan`. -/
def Number.isFinite : Number → Bool
  | nan => false
  | signed _ magnitude => !magnitude.isInfinite

/-- The number is finite, and its text is one token, which stands for it. -/
structure Number.RoundTrips (number : Number) : Prop where
  isFinite : number.isFinite = true
  reads : ∃ token, (Lexed.ofSource number.text).stream.body = [token]
    ∧ token.kind = .number ∧ token.literal = some (.number number)

/-- A number that is written in a program has no sign. -/
theorem Token.IsGenuine.exists_magnitude {token : Token} (isGenuine : token.IsGenuine)
    (isNumber : token.kind = .number)
    : ∃ magnitude, literalValue token = .number (.signed false magnitude) :=
  ⟨_, by simp [literalValue, isNumber, isGenuine.literal, Segment.literal]; rfl⟩

namespace Expr

mutual

/-- The numbers that an expression holds as literals. -/
def numbers : Expr → List Number
  | .literal (.number value) => [value]
  | .literal _ | .reference _ => []
  | .grouping inner => inner.numbers
  | .assign _ value => value.numbers
  | .unary _ operand => operand.numbers
  | .binary left _ right => left.numbers ++ right.numbers
  | .call callee _ arguments => callee.numbers ++ numbersAll arguments

def numbersAll : List Expr → List Number
  | [] => []
  | expr :: rest => expr.numbers ++ numbersAll rest

end

/-- The numbers of expressions are those of each in turn. -/
@[simp] theorem numbersAll_eq (exprs : List Expr) : numbersAll exprs = exprs.flatMap numbers := by
  induction exprs with
  | nil => rfl
  | cons expr rest ih => simp [numbersAll, ih]

/-- The written forms of expressions are those of each. -/
@[simp] theorem writtenAll_eq (exprs : List Expr) : writtenAll exprs = exprs.map written := by
  induction exprs with
  | nil => rfl
  | cons expr rest ih => simp [writtenAll, ih]

/-- The expression `again` says what `expr` says and is written as it is. -/
structure Restores (expr again : Expr) : Prop where
  stripped : again.stripped = expr.stripped
  written : again.written = expr.written
  isEnclosed : again.isEnclosed = expr.isEnclosed

/-- The text of an expression can stand before anything that no token takes in: it consists of
the tokens of an operand that restores the expression.
-/
structure ReadsBack (expr : Expr) : Prop where
  head : ∃ c rest, expr.written.toList = c :: rest ∧ c ≠ '='
  lexes : ∀ position after, Separates after →
    ∃ phrase : Phrase .call,
      LexesAs position expr.written.toList after phrase.yield ∧ Restores expr phrase.tree

/-- The same for the phrase of any category that an operand can stand for. -/
theorem ReadsBack.loosen {expr : Expr} (readsBack : ReadsBack expr) (category : Category)
    (loose : category.rank ≤ Category.call.rank) (position : Position) {after : List Char}
    (separates : Separates after)
    : ∃ phrase : Phrase category,
        LexesAs position expr.written.toList after phrase.yield ∧ Restores expr phrase.tree := by
  obtain ⟨phrase, lexes, restores⟩ := readsBack.lexes position after separates
  obtain ⟨same, yields, trees⟩ := phrase.loosen loose
  exact ⟨same, yields ▸ lexes, trees ▸ restores⟩

-- The characters between the parts of a written expression

/-- A text in parentheses is the tokens of the text with those of the parentheses. -/
theorem lexesAs_parens {position : Position} {text after : List Char} {tokens : List Token}
    (lexes : LexesAs (position.next '(') text (')' :: after) tokens)
    : ∃ (opening : Terminal .leftParen) (closing : Terminal .rightParen),
        LexesAs position ('(' :: (text ++ [')'])) after
          (opening.val :: (tokens ++ [closing.val])) := by
  have opens : LexesAs position ['('] (text ++ [')'] ++ after)
      [⟨.leftParen, "(", none, position⟩] := .token rfl
  have closes : LexesAs ((position.next '(').advance text) [')'] after
      [⟨.rightParen, ")", none, (position.next '(').advance text⟩] := .token rfl
  exact ⟨⟨⟨.leftParen, "(", none, position⟩, rfl⟩,
    ⟨⟨.rightParen, ")", none, (position.next '(').advance text⟩, rfl⟩,
    opens.append (lexes.append closes)⟩

/-- An expression that is written in parentheses reads back if what they enclose does. -/
theorem readsBack_of_body {expr : Expr} {body : List Char} (isEnclosed : expr.isEnclosed = true)
    (written : expr.written.toList = '(' :: (body ++ [')']))
    (lexes : ∀ position after, Separates after →
      ∃ phrase : Phrase .expression,
        LexesAs position body after phrase.yield ∧ Restores expr phrase.tree)
    : ReadsBack expr := by
  refine ⟨⟨_, _, written, by decide⟩, ?_⟩
  intro position after separates
  obtain ⟨phrase, lexes, restores⟩ := lexes (position.next '(') (')' :: after)
    (.closing after)
  obtain ⟨opening, closing, lexes⟩ := lexesAs_parens lexes
  have enclosed : phrase.tree.isEnclosed = true := restores.isEnclosed.trans isEnclosed
  refine ⟨.plain (by decide) (.grouping opening phrase closing), ?_, ?_, ?_, ?_⟩
  · rw [written]
    exact lexes
  · exact restores.stripped
  · simp [Phrase.tree, Expr.written, enclosed, restores.written]
  · exact isEnclosed.symm

/-- A grouping reads back: it is written as its inner expression if that one has parentheses of
its own, and gets a pair otherwise. -/
theorem readsBack_grouping {inner : Expr} (readsBack : ReadsBack inner)
    : ReadsBack (.grouping inner) := by
  cases enclosed : inner.isEnclosed with
  | true =>
      have written : (grouping inner).written = inner.written := by
        simp [Expr.written, enclosed]
      refine ⟨written ▸ readsBack.head, ?_⟩
      intro position after separates
      obtain ⟨phrase, lexes, restores⟩ := readsBack.lexes position after separates
      exact ⟨phrase, written ▸ lexes, restores.stripped, written ▸ restores.written,
        restores.isEnclosed.trans enclosed⟩
  | false =>
      have written : (grouping inner).written.toList = '(' :: (inner.written.toList ++ [')']) := by
        simp [Expr.written, enclosed]
      refine ⟨⟨_, _, written, by decide⟩, ?_⟩
      intro position after separates
      obtain ⟨phrase, lexes, restores⟩ := readsBack.loosen .expression (by decide)
        (position.next '(') (.closing after)
      obtain ⟨opening, closing, lexes⟩ := lexesAs_parens lexes
      refine ⟨.plain (by decide) (.grouping opening phrase closing), ?_, ?_, ?_, rfl⟩
      · rw [written]
        exact lexes
      · exact restores.stripped
      · simp [Phrase.tree, Expr.written, enclosed, restores.isEnclosed, restores.written]

/-- An assignment reads back as a name, the sign and the value between parentheses, with spaces
that keep them apart. -/
theorem readsBack_assign {name : Token} (isName : name.kind = .identifier)
    (isGenuine : name.IsGenuine) {value : Expr} (readsBack : ReadsBack value)
    : ReadsBack (.assign name value) := by
  have written : (assign name value).written.toList
      = '(' :: (name.lexeme.toList ++ ' ' :: (['='] ++ ' ' :: value.written.toList) ++ [')']) := by
    simp [Expr.written]
  refine readsBack_of_body rfl written ?_
  intro position after separates
  let signAt := (position.advance name.lexeme.toList).next ' '
  obtain ⟨phrase, lexesValue, restores⟩ := readsBack.loosen .expression (by decide)
    ((signAt.next '=').next ' ') separates
  have lexesName : LexesAs position name.lexeme.toList
      (' ' :: (['='] ++ ' ' :: value.written.toList ++ after)) [name.movedTo position] :=
    .genuine isGenuine (.space _)
  have lexesSign : LexesAs signAt ['='] (' ' :: (value.written.toList ++ after))
      [⟨.equal, "=", none, signAt⟩] := .token rfl
  refine ⟨.assign ⟨name.movedTo position, isName⟩ ⟨⟨.equal, "=", none, signAt⟩, rfl⟩ phrase,
    lexesName.spaced (lexesSign.spaced lexesValue), ?_, ?_, rfl⟩
  · simp [Phrase.tree, Expr.stripped, restores.stripped]
  · simp [Phrase.tree, Expr.written, restores.written]

/-- A sign before a single operand is one character, which does not take in what follows. -/
theorem lexesAs_unarySign {operator : Token} (isUnary : operator.kind ∈ unarySigns)
    (isGenuine : operator.IsGenuine) {after : List Char} (position : Position)
    (apart : after.head? ≠ some '=')
    : LexesAs position operator.lexeme.toList after [operator.movedTo position] := by
  simp only [unarySigns, List.mem_cons, List.not_mem_nil, or_false] at isUnary
  rcases isUnary with isMinus | isBang
  · have text : operator.lexeme.toList = ['-'] :=
      isGenuine.isLexeme.eq_signText (by rw [isMinus]; rfl)
    exact .moved isGenuine text (isMinus ▸ extent_of_sign rfl after)
  · have text : operator.lexeme.toList = ['!'] :=
      isGenuine.isLexeme.eq_signText (by rw [isBang]; rfl)
    refine .moved isGenuine text ?_
    rw [isBang, List.nil_append, extent_of_extensible rfl, if_neg apart]
    rfl

/-- A unary operation reads back although no space follows its sign: no written operand continues
that sign. -/
theorem readsBack_unary {operator : Token} (isUnary : operator.kind ∈ unarySigns)
    (isGenuine : operator.IsGenuine) {operand : Expr} (readsBack : ReadsBack operand)
    : ReadsBack (.unary operator operand) := by
  have written : (unary operator operand).written.toList
      = '(' :: (operator.lexeme.toList ++ operand.written.toList ++ [')']) := by
    simp [Expr.written]
  refine readsBack_of_body rfl written ?_
  intro position after separates
  obtain ⟨phrase, lexesOperand, restores⟩ := readsBack.loosen .unary (by decide)
    (position.advance operator.lexeme.toList) separates
  obtain ⟨first, others, starts, notEqual⟩ := readsBack.head
  have lexesSign : LexesAs position operator.lexeme.toList (operand.written.toList ++ after)
      [operator.movedTo position] :=
    lexesAs_unarySign isUnary isGenuine position (by simpa [starts] using notEqual)
  obtain ⟨same, yields, trees⟩ : ∃ same : Phrase .expression,
      same.yield = operator.movedTo position :: phrase.yield
        ∧ same.tree = .unary (operator.movedTo position) phrase.tree :=
    (Phrase.unary (operator.movedTo position) isUnary phrase).loosen (by decide)
  refine ⟨same, ?_, ?_, ?_, ?_⟩
  · rw [yields]
    exact lexesSign.append lexesOperand
  · simp [trees, Expr.stripped, restores.stripped]
  · simp [trees, Expr.written, restores.written]
  · rw [trees]
    rfl

/-- A binary operation reads back as its operands with the operator between spaces. -/
theorem readsBack_binary {category : Category} {operator : Token}
    (joins : operator.kind ∈ category.signs) (isGenuine : operator.IsGenuine)
    {left right : Expr} (readsLeft : ReadsBack left) (readsRight : ReadsBack right)
    : ReadsBack (.binary left operator right) := by
  have written : (binary left operator right).written.toList
      = '(' :: (left.written.toList
          ++ ' ' :: (operator.lexeme.toList ++ ' ' :: right.written.toList) ++ [')']) := by
    simp [Expr.written]
  have loose : category.rank ≤ Category.call.rank ∧ category.tighter.rank ≤ Category.call.rank := by
    cases category <;> simp only [Category.signs, List.not_mem_nil] at joins <;> decide
  refine readsBack_of_body rfl written ?_
  intro position after separates
  let operatorAt := (position.advance left.written.toList).next ' '
  obtain ⟨leftPhrase, lexesLeft, restoresLeft⟩ := readsLeft.loosen category loose.1 position
    (.space (operator.lexeme.toList ++ ' ' :: right.written.toList ++ after))
  have lexesSign : LexesAs operatorAt operator.lexeme.toList
      (' ' :: (right.written.toList ++ after)) [operator.movedTo operatorAt] :=
    .genuine isGenuine (.space _)
  obtain ⟨rightPhrase, lexesRight, restoresRight⟩ := readsRight.loosen category.tighter loose.2
    ((operatorAt.advance operator.lexeme.toList).next ' ') separates
  obtain ⟨same, yields, trees⟩ : ∃ same : Phrase .expression,
      same.yield = leftPhrase.yield ++ operator.movedTo operatorAt :: rightPhrase.yield
        ∧ same.tree = .binary leftPhrase.tree (operator.movedTo operatorAt) rightPhrase.tree :=
    (Phrase.chain leftPhrase (operator.movedTo operatorAt) joins rightPhrase).loosen
      (Nat.zero_le _)
  refine ⟨same, ?_, ?_, ?_, ?_⟩
  · rw [yields]
    exact lexesLeft.spaced (lexesSign.spaced lexesRight)
  · simp [trees, Expr.stripped, restoresLeft.stripped, restoresRight.stripped]
  · simp [trees, Expr.written, restoresLeft.written, restoresRight.written]
  · rw [trees]
    rfl

-- Calls

/-- Arguments with commas between them are the tokens of a row. -/
theorem lexesAs_arguments (first : Expr) (rest : List Expr) (position : Position)
    {after : List Char} (separates : Separates after)
    (readsBack : ∀ argument ∈ first :: rest, ReadsBack argument)
    : ∃ (phrase : Phrase .expression) (others : List (Terminal .comma × Phrase .expression)),
        LexesAs position (", ".intercalate ((first :: rest).map written)).toList after
          (phrase.yield ++ others.flatMap (fun other => other.1.val :: other.2.yield))
        ∧ Restores first phrase.tree
        ∧ others.map (fun other => other.2.tree.stripped) = rest.map stripped
        ∧ others.map (fun other => other.2.tree.written) = rest.map written := by
  induction rest generalizing first position with
  | nil =>
      obtain ⟨phrase, lexes, restores⟩ := (readsBack first (by simp)).loosen .expression
        (by decide) position separates
      exact ⟨phrase, [], by simpa using lexes, restores, rfl, rfl⟩
  | cons second rest ih =>
      let commaAt := position.advance first.written.toList
      let text := (", ".intercalate ((second :: rest).map written)).toList
      obtain ⟨phrase, lexes, restores⟩ := (readsBack first (by simp)).loosen .expression
        (by decide) position (.comma (' ' :: (text ++ after)))
      obtain ⟨next, others, lexesOthers, restoresNext, stripped, written⟩ :=
        ih second ((commaAt.next ',').next ' ')
          (fun argument mem => readsBack argument (List.mem_cons_of_mem _ mem))
      have lexesComma : LexesAs commaAt [','] (' ' :: (text ++ after))
          [⟨.comma, ",", none, commaAt⟩] := .token rfl
      refine ⟨phrase, (⟨⟨.comma, ",", none, commaAt⟩, rfl⟩, next) :: others, ?_, restores, ?_, ?_⟩
      · have lexesAll := lexes.append (lexesComma.spaced lexesOthers)
        simpa [text] using lexesAll
      · simp [stripped, restoresNext.stripped]
      · simp [written, restoresNext.written]

/-- Arguments in parentheses are the tokens of a row in parentheses. -/
theorem lexesAs_row (arguments : List Expr) (position : Position) {after : List Char}
    (separates : Separates after) (readsBack : ∀ argument ∈ arguments, ReadsBack argument)
    : ∃ row : Row (Phrase .expression),
        LexesAs position (", ".intercalate (arguments.map written)).toList after
          (row.yield fun phrase => phrase.yield)
        ∧ row.toList.map (fun phrase => phrase.tree.stripped) = arguments.map stripped
        ∧ row.toList.map (fun phrase => phrase.tree.written) = arguments.map written := by
  cases arguments with
  | nil => exact ⟨.empty, .nil after, rfl, rfl⟩
  | cons first rest =>
      obtain ⟨phrase, others, lexes, restores, stripped, written⟩ :=
        lexesAs_arguments first rest position separates readsBack
      refine ⟨.items phrase others, lexes, ?_, ?_⟩
      · simpa [Row.toList, restores.stripped, Function.comp_def] using stripped
      · simpa [Row.toList, restores.written, Function.comp_def] using written

/-- A call reads back as its callee and the row of its arguments. -/
theorem readsBack_call {callee : Expr} {paren : Token} (isClosing : paren.kind = .rightParen)
    (isGenuine : paren.IsGenuine) {arguments : List Expr} (readsCallee : ReadsBack callee)
    (readsArguments : ∀ argument ∈ arguments, ReadsBack argument)
    : ReadsBack (.call callee paren arguments) := by
  have parenText : paren.lexeme.toList = [')'] :=
    isGenuine.isLexeme.eq_signText (by rw [isClosing]; rfl)
  let inner := (", ".intercalate (arguments.map Expr.written)).toList
  have written : (call callee paren arguments).written.toList
      = callee.written.toList ++ (['('] ++ (inner ++ paren.lexeme.toList)) := by
    simp [Expr.written, inner, parenText]
  obtain ⟨c, rest, head, notEqual⟩ := readsCallee.head
  refine ⟨⟨c, _, by rw [written, head, List.cons_append], notEqual⟩, ?_⟩
  intro position after separates
  let openingAt := position.advance callee.written.toList
  let closingAt := (openingAt.next '(').advance inner
  obtain ⟨phrase, lexesCallee, restores⟩ := readsCallee.lexes position
    ('(' :: (inner ++ paren.lexeme.toList ++ after)) (.opening _)
  have lexesOpening : LexesAs openingAt ['('] (inner ++ paren.lexeme.toList ++ after)
      [⟨.leftParen, "(", none, openingAt⟩] := .token rfl
  obtain ⟨row, lexesRow, stripped, writtens⟩ := lexesAs_row arguments (openingAt.next '(')
    (parenText ▸ Separates.closing after : Separates (paren.lexeme.toList ++ after))
    readsArguments
  have lexesClosing : LexesAs closingAt paren.lexeme.toList after [paren.movedTo closingAt] :=
    .genuine isGenuine separates
  refine ⟨.call phrase ⟨⟨.leftParen, "(", none, openingAt⟩, rfl⟩ row
    ⟨paren.movedTo closingAt, isClosing⟩, ?_, ?_, ?_, rfl⟩
  · rw [written]
    simpa [Phrase.yield] using
      lexesCallee.append (lexesOpening.append (lexesRow.append lexesClosing))
  · simp [Phrase.tree, Expr.stripped, restores.stripped, Function.comp_def, stripped]
  · simp [Phrase.tree, Expr.written, restores.written, Function.comp_def, writtens]

-- Operands of one token

/-- What one token stands for reads back if it is written as a text of such a token. -/
theorem readsBack_of_token {expr : Expr} {kind : TokenKind}
    (isLexeme : IsLexeme kind expr.written.toList) (notEqual : kind ≠ .equal ∧ kind ≠ .equalEqual)
    (restores : ∀ position, ∃ phrase : Phrase .call,
      phrase.yield = [⟨kind, expr.written, Segment.literal kind expr.written.toList, position⟩]
        ∧ Restores expr phrase.tree)
    : ReadsBack expr := by
  obtain ⟨c, tail, text⟩ := isLexeme.exists_cons
  constructor
  · refine ⟨c, tail, text, ?_⟩
    rintro rfl
    rw [text] at isLexeme
    exact isLexeme.kind_of_equal.elim notEqual.1 notEqual.2
  · intro position after separates
    obtain ⟨phrase, yields, restores⟩ := restores position
    refine ⟨phrase, ?_, restores⟩
    have lexes : LexesAs position expr.written.toList after _ := .lexeme isLexeme separates
    rw [String.ofList_toList] at lexes
    rw [yields]
    exact lexes

/-- A name reads back as itself. -/
theorem readsBack_reference {name : Token} (isName : name.kind = .identifier)
    (isGenuine : name.IsGenuine)
    : ReadsBack (.reference name) := by
  have isLexeme : IsLexeme .identifier (reference name).written.toList :=
    isName ▸ isGenuine.isLexeme
  refine readsBack_of_token isLexeme (by decide) ?_
  intro position
  have same : (⟨.identifier, name.lexeme, Segment.literal .identifier name.lexeme.toList,
      position⟩ : Token) = name.movedTo position := by
    rw [← isName, ← isGenuine.literal]
    rfl
  refine ⟨(Phrase.reference ⟨name.movedTo position, isName⟩).plain (by decide), ?_, ?_⟩
  · simp [Phrase.yield, written, same]
  · exact ⟨rfl, rfl, rfl⟩

/-- A literal reads back if its written form is a lexeme that stands for its value. -/
theorem readsBack_literal {value : Value} {kind : TokenKind} (isLiteral : kind ∈ literalKinds)
    (isLexeme : IsLexeme kind value.written.toList)
    (stands : ∀ position,
      literalValue ⟨kind, value.written, Segment.literal kind value.written.toList, position⟩
        = value)
    : ReadsBack (.literal value) := by
  have notEqual : kind ≠ .equal ∧ kind ≠ .equalEqual := by
    constructor <;> rintro rfl <;> exact absurd isLiteral (by decide)
  have isLexeme : IsLexeme kind (literal value).written.toList := isLexeme
  refine readsBack_of_token isLexeme notEqual ?_
  intro position
  let token : Token :=
    ⟨kind, value.written, Segment.literal kind value.written.toList, position⟩
  refine ⟨(Phrase.literal token isLiteral).plain (by decide), rfl, ?_⟩
  have tree : (Phrase.plain (by decide) (Phrase.literal token isLiteral) : Phrase .call).tree
      = literal value := congrArg literal (stands position)
  rw [tree]
  exact ⟨rfl, rfl, rfl⟩

/-- The three words that are values are written as themselves. -/
theorem readsBack_word {token : Token}
    (isWord : token.kind = .trueWord ∨ token.kind = .falseWord ∨ token.kind = .nilWord)
    : ReadsBack (.literal (literalValue token)) := by
  have isTrueWord : IsLexeme .trueWord "true".toList :=
    @IsLexeme.word 't' ['r', 'u', 'e'] rfl (List.all_eq_true.mp rfl)
  have isFalseWord : IsLexeme .falseWord "false".toList :=
    @IsLexeme.word 'f' ['a', 'l', 's', 'e'] rfl (List.all_eq_true.mp rfl)
  have isNilWord : IsLexeme .nilWord "nil".toList :=
    @IsLexeme.word 'n' ['i', 'l'] rfl (List.all_eq_true.mp rfl)
  rcases isWord with isTrue | isFalse | isNil
  · rw [show literalValue token = .boolean true by simp [literalValue, isTrue]]
    exact readsBack_literal (by decide) isTrueWord fun _ => rfl
  · rw [show literalValue token = .boolean false by simp [literalValue, isFalse]]
    exact readsBack_literal (by decide) isFalseWord fun _ => rfl
  · rw [show literalValue token = .nil by simp [literalValue, isNil]]
    exact readsBack_literal (by decide) isNilWord fun _ => rfl

/-- A text that a token stands for holds no quotes, so it can be put in quotes again. -/
theorem readsBack_string {token : Token} (isString : token.kind = .string)
    (isGenuine : token.IsGenuine)
    : ReadsBack (.literal (literalValue token)) := by
  have isLexeme := isGenuine.isLexeme
  rw [isString] at isLexeme
  obtain ⟨inner, text, noQuote⟩ := isLexeme.exists_inner
  have value : literalValue token = .text (String.ofList inner) := by
    simp [literalValue, isString, isGenuine.literal, Segment.literal, text]
  have written : (Value.text (String.ofList inner)).written.toList = '"' :: (inner ++ ['"']) := by
    simp [Value.written, Value.display]
  have isLexeme : IsLexeme .string (Value.text (String.ofList inner)).written.toList := by
    rw [written]
    exact .string noQuote
  rw [value]
  refine readsBack_literal (by decide) isLexeme ?_
  intro position
  simp [literalValue, Segment.literal, written]

/-- A number literal reads back if its number survives being written and read. -/
theorem readsBack_number {token : Token} (isNumber : token.kind = .number)
    (isGenuine : token.IsGenuine)
    (roundTrips : ∀ number, literalValue token = .number number → number.RoundTrips)
    : ReadsBack (.literal (literalValue token)) := by
  obtain ⟨magnitude, value⟩ := isGenuine.exists_magnitude isNumber
  obtain ⟨isFinite, again, body, _, stands⟩ := roundTrips _ value
  have text : (Number.signed false magnitude).text = magnitude.text := by simp [Number.text]
  have finite : magnitude.isInfinite = false := by simpa [Number.isFinite] using isFinite
  have isLexeme : IsLexeme .number (Number.signed false magnitude).text.toList :=
    text ▸ Magnitude.isLexeme_text finite
  have lexes : LexesAs .start (Number.signed false magnitude).text.toList [] _ :=
    .lexeme isLexeme .nil
  rw [Lexed.ofSource, lexes.ofChars.1, List.cons.injEq] at body
  rw [← body.1] at stands
  rw [value]
  refine readsBack_literal (by decide) isLexeme ?_
  intro position
  exact congrArg (fun literal => literal.getD .absent) stands

-- All phrases

/-- The tree of a phrase of genuine tokens reads back. -/
theorem readsBack_tree {category : Category} (phrase : Phrase category)
    (genuine : ∀ token ∈ phrase.yield, token.IsGenuine)
    (roundTrips : ∀ number ∈ phrase.tree.numbers, number.RoundTrips)
    : ReadsBack phrase.tree := by
  induction phrase with
  | assign name sign value ih =>
      refine readsBack_assign name.property (genuine _ (by simp [Phrase.yield])) (ih ?_ roundTrips)
      intro token mem
      exact genuine token (by simp [Phrase.yield, mem])
  | plain looser inner ih => exact ih genuine roundTrips
  | chain left operator joins right ihl ihr =>
      simp only [Phrase.yield, List.mem_append, List.mem_cons] at genuine
      simp only [Phrase.tree, numbers, List.mem_append] at roundTrips
      refine readsBack_binary joins (genuine operator (by simp)) (ihl ?_ ?_) (ihr ?_ ?_)
      · exact fun token mem => genuine token (Or.inl mem)
      · exact fun number mem => roundTrips number (Or.inl mem)
      · exact fun token mem => genuine token (Or.inr (Or.inr mem))
      · exact fun number mem => roundTrips number (Or.inr mem)
  | unary operator isUnary operand ih =>
      refine readsBack_unary isUnary (genuine _ (by simp [Phrase.yield])) (ih ?_ roundTrips)
      intro token mem
      exact genuine token (by simp [Phrase.yield, mem])
  | call callee opening arguments closing ih ihs =>
      simp only [Phrase.yield, Phrase.rowYield_eq, List.mem_append, List.mem_cons] at genuine
      simp only [Phrase.tree, Phrase.rowTrees_eq, numbers, numbersAll_eq, List.mem_append,
        List.mem_flatMap, List.mem_map] at roundTrips
      rw [Phrase.tree, Phrase.rowTrees_eq]
      refine readsBack_call closing.property (genuine closing.val (by simp)) (ih ?_ ?_) ?_
      · exact fun token mem => genuine token (Or.inl mem)
      · exact fun number mem => roundTrips number (Or.inl mem)
      · intro argument mem
        obtain ⟨phrase, among, rfl⟩ := List.mem_map.mp mem
        refine ihs phrase among ?_ ?_
        · intro token inside
          exact genuine token (Or.inr (Or.inr (Or.inl (Row.yield_subset among inside))))
        · intro number inside
          exact roundTrips number (Or.inr ⟨_, ⟨phrase, among, rfl⟩, inside⟩)
  | literal token isLiteral =>
      have isGenuine : token.IsGenuine := genuine token (by simp [Phrase.yield])
      simp only [literalKinds, List.mem_cons, List.not_mem_nil, or_false] at isLiteral
      rcases isLiteral with isNumber | isString | isWord
      · refine readsBack_number isNumber isGenuine ?_
        intro number value
        exact roundTrips number (by simp [Phrase.tree, value, numbers])
      · exact readsBack_string isString isGenuine
      · exact readsBack_word isWord
  | reference name => exact readsBack_reference name.property (genuine _ (by simp [Phrase.yield]))
  | grouping opening inner closing ih =>
      refine readsBack_grouping (ih ?_ roundTrips)
      intro token mem
      exact genuine token (by simp [Phrase.yield, mem])

end Expr

/-- An expression that was read, written out and read again is the same up to parentheses and
places. So it has the same bracketed form, and writing it once more changes nothing.
-/
theorem expression_written (source : String) (limit : Nat) (expr : Expr)
    (reads : (Lexed.ofSource source).stream.expression limit = .ok expr)
    (roundTrips : ∀ number ∈ expr.numbers, number.RoundTrips)
    : (Lexed.ofSource expr.written).diagnostics = []
      ∧ ∃ again : Expr,
          (∀ limit, (Lexed.ofSource expr.written).stream.expression limit = .ok again
            ∨ (Lexed.ofSource expr.written).stream.expression limit = .error .tooDeep)
          ∧ (∀ limit, (Lexed.ofSource expr.written).stream.body.length < limit →
            (Lexed.ofSource expr.written).stream.expression limit = .ok again)
          ∧ again.stripped = expr.stripped
          ∧ again.bracketed = expr.bracketed
          ∧ again.written = expr.written := by
  obtain ⟨phrase, yields, rfl⟩ := TokenStream.expression_sound _ reads
  have genuine : ∀ token ∈ phrase.yield, token.IsGenuine := by
    intro token mem
    rw [yields] at mem
    exact Lexed.isGenuine mem
  obtain ⟨again, lexes, restores⟩ := (Expr.readsBack_tree phrase genuine roundTrips).loosen
    .expression (by decide) .start .nil
  obtain ⟨body, silent⟩ := lexes.ofChars
  refine ⟨silent, again.tree, ?_, ?_, restores.stripped, ?_, restores.written⟩
  · exact fun limit => TokenStream.expression_of_yield _ limit body
  · exact fun limit few => TokenStream.expression_of_few _ few body
  · calc again.tree.bracketed
        = again.tree.stripped.bracketed := again.tree.bracketed_stripped.symm
      _ = phrase.tree.stripped.bracketed := by rw [restores.stripped]
      _ = phrase.tree.bracketed := phrase.tree.bracketed_stripped

/-- A comparison of a negated call with a name in parentheses, written and read again. -/
theorem expression_written_comparison
    : ∃ expr again : Expr,
        (Lexed.ofSource "!f(1)==(x)").stream.expression 20 = .ok expr
        ∧ (∀ number ∈ expr.numbers, number.RoundTrips)
        ∧ expr.written = "((!f(1)) == (x))"
        ∧ (Lexed.ofSource "((!f(1)) == (x))").diagnostics = []
        ∧ (Lexed.ofSource "((!f(1)) == (x))").stream.expression 20 = .ok again
        ∧ again.stripped = expr.stripped ∧ again.written = expr.written := by
  let one : Number := .ofBits 0x3F800000
  let expr : Expr :=
    .binary
      (.unary ⟨.bang, "!", none, ⟨1, 1⟩⟩
        (.call (.reference ⟨.identifier, "f", none, ⟨1, 2⟩⟩) ⟨.rightParen, ")", none, ⟨1, 5⟩⟩
          [.literal (.number one)]))
      ⟨.equalEqual, "==", none, ⟨1, 6⟩⟩
      (.grouping (.reference ⟨.identifier, "x", none, ⟨1, 9⟩⟩))
  have lexes : (Lexed.ofSource "!f(1)==(x)").stream
      = ⟨[⟨.bang, "!", none, ⟨1, 1⟩⟩, ⟨.identifier, "f", none, ⟨1, 2⟩⟩,
          ⟨.leftParen, "(", none, ⟨1, 3⟩⟩, ⟨.number, "1", some (.number one), ⟨1, 4⟩⟩,
          ⟨.rightParen, ")", none, ⟨1, 5⟩⟩, ⟨.equalEqual, "==", none, ⟨1, 6⟩⟩,
          ⟨.leftParen, "(", none, ⟨1, 8⟩⟩, ⟨.identifier, "x", none, ⟨1, 9⟩⟩,
          ⟨.rightParen, ")", none, ⟨1, 10⟩⟩],
        ⟨.endOfText, "", none, ⟨1, 11⟩⟩⟩ := by
    decide +kernel
  have reads : (Lexed.ofSource "!f(1)==(x)").stream.expression 20 = .ok expr := by
    rw [lexes]
    rfl
  have roundTrips : ∀ number ∈ expr.numbers, number.RoundTrips := by
    intro number mem
    obtain rfl : number = one := List.mem_singleton.mp mem
    refine ⟨by decide +kernel, ⟨.number, "1", some (.number one), .start⟩, ?_, rfl, rfl⟩
    decide +kernel
  have written : expr.written = "((!f(1)) == (x))" := by decide +kernel
  obtain ⟨silent, again, _, few, stripped, _, same⟩ := expression_written _ _ _ reads roundTrips
  rw [written] at few silent
  exact ⟨expr, again, reads, roundTrips, written, silent, few 20 (by decide +kernel), stripped,
    same⟩

end Sprig
