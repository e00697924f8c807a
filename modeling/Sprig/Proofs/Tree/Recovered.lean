import Sprig.Proofs.Grammar.Derived
import Sprig.Proofs.Number.PrintedDigits
import Sprig.Proofs.Tree.Outline
import Sprig.Proofs.Tree.Rereading

/-! The bracketed form of a tree tells the tree, parentheses and places apart: every word of its
outline is one token, or the text of a number, and the first word of a group tells what the other
parts belong to. Texts and infinite numbers are left out, for they can look like anything else.
-/

namespace Sprig

open Grammar Segment TokenKind

-- Words

/-- The token that a text spells. -/
def Token.ofLexeme? (text : String) : Option Token :=
  (Lexed.ofSource text).stream.body.head?

/-- A lexeme is read as the token that it spells, since it lexes as that one token. -/
theorem Token.ofLexeme?_of_isLexeme {kind : TokenKind} {text : String}
    (isLexeme : IsLexeme kind text.toList)
    : ofLexeme? text = some ⟨kind, text, Segment.literal kind text.toList, .start⟩ := by
  have lexes : LexesAs .start text.toList [] _ := .lexeme isLexeme .nil
  rw [ofLexeme?, Lexed.ofSource, lexes.ofChars.1, String.ofList_toList]
  rfl

/-- The lexeme of a genuine token is read as the token without its place. -/
theorem Token.IsGenuine.ofLexeme?_lexeme {token : Token} (isGenuine : token.IsGenuine)
    : ofLexeme? token.lexeme = some token.unplaced := by
  rw [ofLexeme?_of_isLexeme isGenuine.isLexeme, ← isGenuine.literal]
  rfl

/-- What words of the language are made of stands in words of outlines, since parentheses and
spaces lie outside the codes of both. -/
theorem isWordChar_of_isWordPart {c : Char} (isPart : isWordPart c = true)
    : Outline.isWordChar c = true := by
  have bounds := toNat_bounds_of_isWordPart isPart
  simp only [Outline.isWordChar, Bool.and_eq_true, bne_iff_ne]
  refine ⟨⟨?_, ?_⟩, ?_⟩ <;> rintro rfl <;> exact absurd bounds (by decide)

/-- The kinds of tokens whose text is one word. -/
def TokenKind.isWord (kind : TokenKind) : Bool :=
  kind ∉ [.string, .leftParen, .rightParen]

/-- The only tokens with parentheses or spaces are those of parentheses and quoted texts. -/
theorem Segment.IsLexeme.isWordChar {kind : TokenKind} {text : List Char}
    (isLexeme : IsLexeme kind text) (isWord : kind.isWord = true)
    : ∀ c ∈ text, Outline.isWordChar c = true := by
  have digit {c : Char} (isDigit : c.isDigit = true) : Outline.isWordChar c = true :=
    isWordChar_of_isWordPart (by simp [isWordPart, isDigit])
  cases isLexeme with
  | sign found =>
      unfold ofSign? at found
      split at found <;> cases found <;> simp [Outline.isWordChar, TokenKind.isWord] at isWord ⊢
  | alone extensible | extended extensible =>
      unfold ofExtensibleSign? at extensible
      split at extensible <;> cases extensible <;> simp [Outline.isWordChar]
  | slash => exact List.forall_mem_singleton.mpr rfl
  | string => exact absurd isWord (by decide)
  | number isDigit isTail =>
      cases isTail with
      | whole all =>
          exact List.forall_mem_cons.mpr ⟨digit isDigit, fun c member => digit (all c member)⟩
      | pointed all some allPlaces =>
          refine List.forall_mem_cons.mpr ⟨digit isDigit, List.forall_mem_append.mpr ⟨?_, ?_⟩⟩
          · exact fun c member => digit (all c member)
          · exact List.forall_mem_cons.mpr
              ⟨by decide, fun c member => digit (allPlaces c member)⟩
  | word starts parts =>
      refine List.forall_mem_cons.mpr ⟨isWordChar_of_isWordPart (by simp [isWordPart, starts]), ?_⟩
      exact fun c member => isWordChar_of_isWordPart (parts c member)

/-- A lexeme that is a word is a legible word. -/
theorem Outline.isLegible_of_isLexeme {kind : TokenKind} {text : String}
    (isLexeme : IsLexeme kind text.toList) (isWord : kind.isWord = true)
    : (word text).IsLegible := by
  refine .word ?_ (isLexeme.isWordChar isWord)
  rintro rfl
  obtain ⟨c, tail, isText⟩ := isLexeme.exists_cons
  cases isText

/-- The lexeme of a genuine token that is a word is legible. -/
theorem Token.IsGenuine.isLegible {token : Token} (isGenuine : token.IsGenuine)
    (isWord : token.kind.isWord = true)
    : (Outline.word token.lexeme).IsLegible :=
  Outline.isLegible_of_isLexeme isGenuine.isLexeme isWord

/-- A genuine name is legible. -/
theorem Token.IsGenuine.isLegible_name {name : Token} (isGenuine : name.IsGenuine)
    (isName : name.kind = .identifier)
    : (Outline.word name.lexeme).IsLegible :=
  isGenuine.isLegible (by rw [isName]; rfl)

/-- Reading outlines one by one, if each is read on its own. -/
theorem mapM_map_eq_some {α β γ : Type} {outline : α → β} {read : β → Option γ} {result : α → γ}
    {items : List α} (reads : ∀ item ∈ items, read (outline item) = some (result item))
    : (items.map outline).mapM read = some (items.map result) := by
  induction items with
  | nil => rfl
  | cons item others ih =>
      rw [List.forall_mem_cons] at reads
      simp [List.mapM_cons, reads.1, ih reads.2]

namespace Expr

/-- The expression that a word stands for. A number is rounded once, as it was for its text. -/
def ofWord? (text : String) : Option Expr :=
  (Token.ofLexeme? text).map fun token =>
    match token.kind with
    | .identifier => .reference token
    | .number => .literal (.number (.signed false (.ofDecimal (.ofText text.toList))))
    | _ => .literal (literalValue token)

/-- The expression with the given first word and operands. -/
def ofOperation? (head : String) (operands : List Expr) : Option Expr :=
  match head, operands with
  | "call", callee :: arguments => (Token.ofLexeme? ")").map (call callee · arguments)
  | "=", [reference name, value] => some (assign name value)
  | sign, [operand] => (Token.ofLexeme? sign).map (unary · operand)
  | sign, [left, right] => (Token.ofLexeme? sign).map (binary left · right)
  | _, _ => none

mutual

/-- The expression that an outline shows. -/
def ofOutline? : Outline → Option Expr
  | .word text => ofWord? text
  | .group (.word head :: parts) => (ofOutlines? parts).bind (ofOperation? head)
  | .group _ => none

def ofOutlines? : List Outline → Option (List Expr)
  | [] => some []
  | part :: rest => do
      let expr ← ofOutline? part
      let others ← ofOutlines? rest
      return expr :: others

end

/-- Outlines are read as expressions one by one. -/
@[simp] theorem ofOutlines?_eq (parts : List Outline)
    : ofOutlines? parts = parts.mapM ofOutline? := by
  induction parts with
  | nil => rfl
  | cons part rest ih => simp [ofOutlines?, ih]

/-- The expression, parentheses and places apart, can be told from its bracketed form. -/
structure IsRecovered (expr : Expr) : Prop where
  legible : expr.outline.IsLegible
  reads : ofOutline? expr.outline = some expr.stripped

/-- An operation is recovered if its operands are. -/
theorem isRecovered_of_operands {expr : Expr} (head : String) (operands : List Expr)
    (outlines : expr.outline = .group (.word head :: operands.map outline))
    (legible : (Outline.word head).IsLegible)
    (recovered : ∀ operand ∈ operands, operand.IsRecovered)
    (reads : ofOperation? head (operands.map stripped) = some expr.stripped)
    : expr.IsRecovered := by
  constructor
  · rw [outlines]
    refine .group (List.forall_mem_cons.mpr ⟨legible, ?_⟩)
    exact List.forall_mem_map.mpr fun operand member => (recovered operand member).legible
  · have operandsRead : ofOutlines? (operands.map outline) = some (operands.map stripped) := by
      rw [ofOutlines?_eq]
      exact mapM_map_eq_some fun operand member => (recovered operand member).reads
    rw [outlines, ofOutline?, operandsRead]
    exact reads

/-- A reference is recovered from its name. -/
theorem isRecovered_reference {name : Token} (isName : name.kind = .identifier)
    (isGenuine : name.IsGenuine)
    : (reference name).IsRecovered := by
  refine ⟨isGenuine.isLegible_name isName, ?_⟩
  simp [outline, ofOutline?, ofWord?, isGenuine.ofLexeme?_lexeme, isName, stripped]

/-- An assignment is recovered from the word for it, its name and its value. -/
theorem isRecovered_assign {name : Token} (isName : name.kind = .identifier)
    (isGenuine : name.IsGenuine) {value : Expr} (recovered : value.IsRecovered)
    : (assign name value).IsRecovered := by
  refine isRecovered_of_operands "=" [reference name, value] rfl
    (Outline.isLegible_word (by decide) (by decide)) ?_ rfl
  simpa using ⟨isRecovered_reference isName isGenuine, recovered⟩

/-- A sign is neither the word for calls nor that for assignments. -/
theorem lexeme_ne_of_isSign {operator : Token} (isGenuine : operator.IsGenuine)
    (isSign : operator.kind ∈ unarySigns ++ Precedence.binarySigns)
    : operator.lexeme ≠ "call" ∧ operator.lexeme ≠ "=" := by
  have table : ∀ kind ∈ unarySigns ++ Precedence.binarySigns, ∃ text, signText? kind = some text
      ∧ text ≠ "call".toList ∧ text ≠ "=".toList := by
    simp [unarySigns, Precedence.binarySigns, signText?]
  obtain ⟨text, isText, notCall, notAssign⟩ := table _ isSign
  have same : operator.lexeme.toList = text := isGenuine.isLexeme.eq_signText isText
  exact ⟨fun isCall => notCall (by rw [← same, isCall]),
    fun isAssign => notAssign (by rw [← same, isAssign])⟩

/-- The signs of operators are words, by looking through them. -/
theorem isWord_of_isSign {kind : TokenKind} (isSign : kind ∈ unarySigns ++ Precedence.binarySigns)
    : kind.isWord = true := by
  have table : ∀ kind ∈ unarySigns ++ Precedence.binarySigns, kind.isWord = true := by decide
  exact table kind isSign

/-- A unary operation is recovered from its sign and one operand; no sign is the word of a call or
of an assignment. -/
theorem isRecovered_unary {operator : Token} (isUnary : operator.kind ∈ unarySigns)
    (isGenuine : operator.IsGenuine) {operand : Expr} (recovered : operand.IsRecovered)
    : (unary operator operand).IsRecovered := by
  have isSign := List.mem_append_left Precedence.binarySigns isUnary
  obtain ⟨notCall, notAssign⟩ := lexeme_ne_of_isSign isGenuine isSign
  refine isRecovered_of_operands operator.lexeme [operand] rfl
    (isGenuine.isLegible (isWord_of_isSign isSign)) (by simpa using recovered) ?_
  simp [ofOperation?, isGenuine.ofLexeme?_lexeme, stripped]

/-- A binary operation is recovered from its sign and two operands. -/
theorem isRecovered_binary {operator : Token} (isBinary : operator.kind ∈ Precedence.binarySigns)
    (isGenuine : operator.IsGenuine) {left right : Expr} (recovered : left.IsRecovered)
    (recovered' : right.IsRecovered)
    : (binary left operator right).IsRecovered := by
  have isSign := List.mem_append_right unarySigns isBinary
  obtain ⟨notCall, notAssign⟩ := lexeme_ne_of_isSign isGenuine isSign
  refine isRecovered_of_operands operator.lexeme [left, right] rfl
    (isGenuine.isLegible (isWord_of_isSign isSign)) (by simpa using ⟨recovered, recovered'⟩) ?_
  simp [ofOperation?, notAssign, isGenuine.ofLexeme?_lexeme, stripped]

/-- A call is recovered from the word for it, its callee and its arguments; its closing sign is
the only one of its kind. -/
theorem isRecovered_call {paren : Token} (isClosing : paren.kind = .rightParen)
    (isGenuine : paren.IsGenuine) {callee : Expr} (recovered : callee.IsRecovered)
    {arguments : List Expr} (recovereds : ∀ argument ∈ arguments, argument.IsRecovered)
    : (call callee paren arguments).IsRecovered := by
  have closing : paren.lexeme = ")" :=
    String.toList_inj.mp (isGenuine.isLexeme.eq_signText (by rw [isClosing]; rfl))
  refine isRecovered_of_operands "call" (callee :: arguments) (by simp [outline])
    (Outline.isLegible_word (by decide) (by decide))
    (List.forall_mem_cons.mpr ⟨recovered, recovereds⟩) ?_
  simp [ofOperation?, ← closing, isGenuine.ofLexeme?_lexeme, stripped]

/-- Whether an expression is not itself a literal that can look like something else. -/
def isClear : Expr → Bool
  | .literal (.text _) => false
  | .literal (.number (.signed _ magnitude)) => !magnitude.isInfinite
  | _ => true

/-- A number literal is recovered from its text, since no other finite number has that text. -/
theorem isRecovered_number {token : Token} (isNumber : token.kind = .number)
    (isGenuine : token.IsGenuine) (clear : (literal (literalValue token)).isClear = true)
    : (literal (literalValue token)).IsRecovered := by
  obtain ⟨magnitude, value⟩ := isGenuine.exists_magnitude isNumber
  rw [value] at clear ⊢
  have finite : magnitude.isInfinite = false := by simpa [isClear] using clear
  have isLexeme : IsLexeme .number magnitude.text.toList := Magnitude.isLexeme_text finite
  have outlines : (literal (.number (.signed false magnitude))).outline = .word magnitude.text := by
    simp [outline, Value.display, Number.text]
  constructor
  · rw [outlines]
    exact Outline.isLegible_of_isLexeme isLexeme rfl
  · rw [outlines, ofOutline?, ofWord?, Token.ofLexeme?_of_isLexeme isLexeme, Option.map_some,
      Magnitude.ofDecimal_ofText_text finite]
    rfl

/-- The three words for values are recovered from themselves. -/
theorem isRecovered_word {token : Token}
    (isWord : token.kind = .trueWord ∨ token.kind = .falseWord ∨ token.kind = .nilWord)
    : (literal (literalValue token)).IsRecovered := by
  rcases isWord with isTrue | isFalse | isNil
  · rw [show literalValue token = .boolean true by simp [literalValue, isTrue]]
    exact ⟨Outline.isLegible_word (by decide) (by decide), rfl⟩
  · rw [show literalValue token = .boolean false by simp [literalValue, isFalse]]
    exact ⟨Outline.isLegible_word (by decide) (by decide), rfl⟩
  · rw [show literalValue token = .nil by simp [literalValue, isNil]]
    exact ⟨Outline.isLegible_word (by decide) (by decide), rfl⟩

/-- The tree of a phrase of genuine tokens is recovered from its outline, by induction on the
phrase. -/
theorem isRecovered_tree {category : Category} (phrase : Phrase category)
    (genuine : ∀ token ∈ phrase.yield, token.IsGenuine)
    (clear : ∀ part ∈ phrase.tree.parts, part.isClear = true)
    : phrase.tree.IsRecovered := by
  induction phrase with
  | plain looser inner ih => exact ih genuine clear
  | assign name sign value ih =>
      refine isRecovered_assign name.property (genuine _ (by simp [Phrase.yield])) (ih ?_ ?_)
      · exact fun token member => genuine token (by simp [Phrase.yield, member])
      · exact fun part member => clear part (by simp [Phrase.tree, parts, member])
  | chain left operator joins right ihl ihr =>
      simp only [Phrase.yield, List.mem_append, List.mem_cons] at genuine
      simp only [Phrase.tree, parts, List.mem_cons, List.mem_append] at clear
      refine isRecovered_binary (mem_binarySigns joins) (genuine operator (by simp)) (ihl ?_ ?_)
        (ihr ?_ ?_)
      · exact fun token member => genuine token (Or.inl member)
      · exact fun part member => clear part (Or.inr (Or.inl member))
      · exact fun token member => genuine token (Or.inr (Or.inr member))
      · exact fun part member => clear part (Or.inr (Or.inr member))
  | unary operator isUnary operand ih =>
      refine isRecovered_unary isUnary (genuine _ (by simp [Phrase.yield])) (ih ?_ ?_)
      · exact fun token member => genuine token (by simp [Phrase.yield, member])
      · exact fun part member => clear part (by simp [Phrase.tree, parts, member])
  | call callee opening arguments closing ih ihs =>
      simp only [Phrase.yield, Phrase.rowYield_eq, List.mem_append, List.mem_cons] at genuine
      simp only [Phrase.tree, Phrase.rowTrees_eq, parts, partsAll_eq, List.mem_cons,
        List.mem_append, List.mem_flatMap] at clear
      rw [Phrase.tree, Phrase.rowTrees_eq]
      refine isRecovered_call closing.property (genuine closing.val (by simp)) (ih ?_ ?_)
        (List.forall_mem_map.mpr fun argument isArgument => ihs argument isArgument ?_ ?_)
      · exact fun token member => genuine token (Or.inl member)
      · exact fun part member => clear part (Or.inr (Or.inl member))
      · exact fun token member =>
          genuine token (Or.inr (Or.inr (Or.inl (Row.yield_subset isArgument member))))
      · exact fun part member =>
          clear part (Or.inr (Or.inr ⟨_, List.mem_map_of_mem isArgument, member⟩))
  | literal token isLiteral =>
      have isGenuine : token.IsGenuine := genuine token (by simp [Phrase.yield])
      have clear : (literal (literalValue token)).isClear = true := clear _ (mem_parts_self _)
      simp only [literalKinds, List.mem_cons, List.not_mem_nil, or_false] at isLiteral
      rcases isLiteral with isNumber | isString | isWord
      · exact isRecovered_number isNumber isGenuine clear
      · simp [literalValue, isString, isGenuine.literal, Segment.literal, isClear] at clear
      · exact isRecovered_word isWord
  | reference name =>
      exact isRecovered_reference name.property (genuine _ (by simp [Phrase.yield]))
  | grouping opening inner closing ih =>
      have recovered : inner.tree.IsRecovered := by
        refine ih ?_ ?_
        · exact fun token member => genuine token (by simp [Phrase.yield, member])
        · exact fun part member => clear part (by simp [Phrase.tree, parts, member])
      exact ⟨recovered.legible, recovered.reads⟩

/-- Expressions that are shown alike are the same, parentheses and places apart. -/
theorem IsRecovered.stripped_eq {first second : Expr} (recovered : first.IsRecovered)
    (recovered' : second.IsRecovered) (same : first.bracketed = second.bracketed)
    : first.stripped = second.stripped := by
  have outlines : first.outline = second.outline := by
    refine recovered.legible.eq_of_text_eq recovered'.legible ?_
    rw [text_outline, text_outline, same]
  exact Option.some.inj (by rw [← recovered.reads, outlines, recovered'.reads])

end Expr

/-- The token that a word spells. -/
def Outline.token? : Outline → Option Token
  | .word text => Token.ofLexeme? text
  | .group _ => none

namespace Stmt

mutual

/-- The statement that an outline shows. -/
def ofOutline? : Outline → Option Stmt
  | .group [.word "expr", value] => (Expr.ofOutline? value).map expression
  | .group [.word "print", value] => (Expr.ofOutline? value).map print
  | .group [.word "var", name] => name.token?.map (declare · none)
  | .group [.word "var", name, initial] => do
      let name ← name.token?
      let initial ← Expr.ofOutline? initial
      return declare name (some initial)
  | .group (.word "block" :: body) => (ofOutlines? body).map block
  | .group (.word "fun" :: name :: .group params :: body) => do
      let name ← name.token?
      let params ← params.mapM Outline.token?
      let body ← ofOutlines? body
      return function name params body
  | _ => none

def ofOutlines? : List Outline → Option (List Stmt)
  | [] => some []
  | part :: rest => do
      let stmt ← ofOutline? part
      let others ← ofOutlines? rest
      return stmt :: others

end

/-- Outlines are read as statements one by one. -/
@[simp] theorem ofOutlines?_eq (parts : List Outline)
    : ofOutlines? parts = parts.mapM ofOutline? := by
  induction parts with
  | nil => rfl
  | cons part rest ih => simp [ofOutlines?, ih]

@[inherit_doc Expr.IsRecovered]
structure IsRecovered (stmt : Stmt) : Prop where
  legible : stmt.outline.IsLegible
  reads : ofOutline? stmt.outline = some stmt.stripped

/-- An expression statement is recovered from its expression. -/
theorem isRecovered_expression {value : Expr} (recovered : value.IsRecovered)
    : (expression value).IsRecovered := by
  have head : (Outline.word "expr").IsLegible := Outline.isLegible_word (by decide) (by decide)
  constructor
  · exact .group (by simpa using ⟨head, recovered.legible⟩)
  · simp [outline, ofOutline?, recovered.reads, stripped]

/-- A print statement is recovered from its expression. -/
theorem isRecovered_print {value : Expr} (recovered : value.IsRecovered)
    : (print value).IsRecovered := by
  have head : (Outline.word "print").IsLegible := Outline.isLegible_word (by decide) (by decide)
  constructor
  · exact .group (by simpa using ⟨head, recovered.legible⟩)
  · simp [outline, ofOutline?, recovered.reads, stripped]

/-- A declaration is recovered from its name and its initial value, if it has one. -/
theorem isRecovered_declare {name : Token} (isName : name.kind = .identifier)
    (isGenuine : name.IsGenuine) {initial : Option Expr}
    (recovered : ∀ value ∈ initial, value.IsRecovered)
    : (declare name initial).IsRecovered := by
  have head : (Outline.word "var").IsLegible := Outline.isLegible_word (by decide) (by decide)
  have legible := isGenuine.isLegible_name isName
  cases initial with
  | none =>
      constructor
      · exact .group (by simpa using ⟨head, legible⟩)
      · simp [outline, ofOutline?, Outline.token?, isGenuine.ofLexeme?_lexeme, stripped]
  | some value =>
      have recovered : value.IsRecovered := recovered value rfl
      constructor
      · exact .group (by simpa using ⟨head, legible, recovered.legible⟩)
      · simp [outline, ofOutline?, Outline.token?, isGenuine.ofLexeme?_lexeme, recovered.reads,
          stripped]

/-- A block is recovered from its statements. -/
theorem isRecovered_block {body : List Stmt} (recovereds : ∀ stmt ∈ body, stmt.IsRecovered)
    : (block body).IsRecovered := by
  have head : (Outline.word "block").IsLegible := Outline.isLegible_word (by decide) (by decide)
  constructor
  · refine .group (List.forall_mem_cons.mpr ⟨head, ?_⟩)
    simpa using fun stmt member => (recovereds stmt member).legible
  · have bodyRead : (body.map outline).mapM ofOutline? = some (body.map stripped) :=
      mapM_map_eq_some fun stmt member => (recovereds stmt member).reads
    simp [outline, ofOutline?, bodyRead, stripped]

/-- A function declaration is recovered from its name, the group of its parameters and the
statements of its body. -/
theorem isRecovered_function {name : Token} (isName : name.kind = .identifier)
    (isGenuine : name.IsGenuine) {params : List Token}
    (areNames : ∀ param ∈ params, param.kind = .identifier ∧ param.IsGenuine) {body : List Stmt}
    (recovereds : ∀ stmt ∈ body, stmt.IsRecovered)
    : (function name params body).IsRecovered := by
  have head : (Outline.word "fun").IsLegible := Outline.isLegible_word (by decide) (by decide)
  constructor
  · have legible : (Outline.group (params.map fun param => .word param.lexeme)).IsLegible := by
      refine .group (List.forall_mem_map.mpr fun param member => ?_)
      exact (areNames param member).2.isLegible_name (areNames param member).1
    refine .group (List.forall_mem_cons.mpr ⟨head, List.forall_mem_cons.mpr
      ⟨isGenuine.isLegible_name isName, List.forall_mem_cons.mpr ⟨legible, ?_⟩⟩⟩)
    simpa using fun stmt member => (recovereds stmt member).legible
  · have paramsRead : (params.map fun param => .word param.lexeme).mapM Outline.token?
        = some (params.map Token.unplaced) :=
      mapM_map_eq_some fun param member => (areNames param member).2.ofLexeme?_lexeme
    have bodyRead : (body.map outline).mapM ofOutline? = some (body.map stripped) :=
      mapM_map_eq_some fun stmt member => (recovereds stmt member).reads
    simp [outline, ofOutline?, Outline.token?, isGenuine.ofLexeme?_lexeme, paramsRead, bodyRead,
      stripped]

/-- The statements of a body are recovered if each sentence of it is. -/
theorem isRecovered_body {body : List Sentence}
    (recover : ∀ sentence ∈ body, (∀ token ∈ sentence.yield, token.IsGenuine) →
      (∀ part ∈ sentence.tree.parts, part.isClear = true) → sentence.tree.IsRecovered)
    (genuine : ∀ token ∈ Sentence.yieldAll body, token.IsGenuine)
    (clear : ∀ part ∈ partsAll (Sentence.treeAll body), part.isClear = true)
    : ∀ stmt ∈ Sentence.treeAll body, stmt.IsRecovered := by
  simp only [Sentence.yieldAll_eq, Sentence.treeAll_eq, partsAll_eq, List.mem_flatMap]
    at genuine clear ⊢
  refine List.forall_mem_map.mpr fun sentence member => recover sentence member ?_ ?_
  · exact fun token inside => genuine token ⟨sentence, member, inside⟩
  · exact fun part inside => clear part ⟨_, List.mem_map_of_mem member, inside⟩

/-- The tree of a sentence of genuine tokens is recovered from its outline, by induction on the
sentence. -/
theorem isRecovered_tree (sentence : Sentence)
    (genuine : ∀ token ∈ sentence.yield, token.IsGenuine)
    (clear : ∀ part ∈ sentence.tree.parts, part.isClear = true)
    : sentence.tree.IsRecovered := by
  induction sentence with
  | declare word name initial stop =>
      refine isRecovered_declare name.property (genuine _ (by simp [Sentence.yield])) ?_
      cases initial with
      | none => simp
      | some pair =>
          simp only [Option.map_some, Option.mem_some_iff, forall_eq']
          refine Expr.isRecovered_tree pair.2 ?_ ?_
          · exact fun token member =>
              genuine token (by simp [Sentence.yield, Sentence.initialYield, member])
          · exact fun part member => clear part (by simp [Sentence.tree, parts, member])
  | print word value stop =>
      refine isRecovered_print (Expr.isRecovered_tree value ?_ clear)
      exact fun token member => genuine token (by simp [Sentence.yield, member])
  | function word name opening params closing left body right ihs =>
      refine isRecovered_function name.property (genuine _ (by simp [Sentence.yield])) ?_
        (isRecovered_body ihs ?_ clear)
      · refine List.forall_mem_map.mpr fun param member => ⟨param.property, genuine _ ?_⟩
        have among : param.val ∈ params.yield fun param => [param.val] :=
          Row.yield_subset member (List.mem_singleton.mpr rfl)
        simp only [Sentence.yield, List.mem_cons, List.mem_append, among, true_or, or_true]
      · refine fun token member => genuine token ?_
        simp only [Sentence.yield, List.mem_cons, List.mem_append, member, true_or, or_true]
  | block left body right ihs =>
      refine isRecovered_block (isRecovered_body ihs ?_ clear)
      refine fun token member => genuine token ?_
      simp only [Sentence.yield, List.mem_cons, List.mem_append, member, true_or, or_true]
  | expression value stop =>
      refine isRecovered_expression (Expr.isRecovered_tree value ?_ clear)
      exact fun token member => genuine token (by simp [Sentence.yield, member])

@[inherit_doc Expr.IsRecovered.stripped_eq]
theorem IsRecovered.stripped_eq {first second : Stmt} (recovered : first.IsRecovered)
    (recovered' : second.IsRecovered) (same : first.bracketed = second.bracketed)
    : first.stripped = second.stripped := by
  have outlines : first.outline = second.outline := by
    refine recovered.legible.eq_of_text_eq recovered'.legible ?_
    rw [text_outline, text_outline, same]
  exact Option.some.inj (by rw [← recovered.reads, outlines, recovered'.reads])

end Stmt

-- Trees of texts

/-- The expression stands in an expression or a program that was read from a text. -/
inductive Expr.IsRead (expr : Expr) : Prop where
  | ofExpression {source : String} {limit : Nat} {whole : Expr}
      (reads : (Lexed.ofSource source).stream.expression limit = .ok whole)
      (part : expr ∈ whole.parts)
  | ofProgram {source : String} {limit : Nat} {program : List Stmt} {stmt : Stmt}
      (reads : (Lexed.ofSource source).stream.program limit = .ok program)
      (member : stmt ∈ program) (part : expr ∈ stmt.parts)

/-- The statement stands in a program that was read from a text, at any depth. -/
inductive Stmt.IsRead (stmt : Stmt) : Prop where
  | ofProgram {source : String} {limit : Nat} {program around : List Stmt}
      (reads : (Lexed.ofSource source).stream.program limit = .ok program)
      (stands : Stands [program] around stmt)

/-- A clear expression that was read is recovered, since a phrase of genuine tokens stands for it.
-/
theorem Expr.IsRead.isRecovered {expr : Expr} (isRead : expr.IsRead)
    (clear : ∀ part ∈ expr.parts, part.isClear = true)
    : expr.IsRecovered := by
  obtain ⟨source, derives⟩ : ∃ source, Derives (Lexed.ofSource source).stream.body expr := by
    cases isRead with
    | @ofExpression source limit whole reads part =>
        exact ⟨source, TokenStream.derives_of_expression reads expr part⟩
    | @ofProgram source limit program stmt reads member part =>
        exact ⟨source, TokenStream.derives_of_program reads member expr part⟩
  obtain ⟨category, phrase, rfl, yields⟩ := derives
  exact isRecovered_tree phrase (fun token member => Lexed.isGenuine (yields member)) clear

/-- A clear statement that was read is recovered, since a sentence of genuine tokens stands for
it. -/
theorem Stmt.IsRead.isRecovered {stmt : Stmt} (isRead : stmt.IsRead)
    (clear : ∀ part ∈ stmt.parts, part.isClear = true)
    : stmt.IsRecovered := by
  obtain ⟨reads, stands⟩ := isRead
  obtain ⟨sentence, rfl, yields⟩ := TokenStream.exists_sentence_of_stands reads stands
  exact isRecovered_tree sentence (fun token member => Lexed.isGenuine (yields member)) clear

/-- Two trees that were read are shown alike exactly if they are the same, parentheses and places
apart, unless they hold texts or infinite numbers.
-/
theorem bracketed_unambiguous
    : (∀ first second : Expr, first.IsRead → second.IsRead →
        (∀ part ∈ first.parts, part.isClear = true) →
        (∀ part ∈ second.parts, part.isClear = true) →
        (first.bracketed = second.bracketed ↔ first.stripped = second.stripped))
      ∧ ∀ first second : Stmt, first.IsRead → second.IsRead →
          (∀ part ∈ first.parts, part.isClear = true) →
          (∀ part ∈ second.parts, part.isClear = true) →
          (first.bracketed = second.bracketed ↔ first.stripped = second.stripped) := by
  constructor
  · intro first second isRead isRead' clear clear'
    refine ⟨(isRead.isRecovered clear).stripped_eq (isRead'.isRecovered clear'), ?_⟩
    intro same
    rw [← first.bracketed_stripped, same, second.bracketed_stripped]
  · intro first second isRead isRead' clear clear'
    refine ⟨(isRead.isRecovered clear).stripped_eq (isRead'.isRecovered clear'), ?_⟩
    intro same
    rw [← first.bracketed_stripped, same, second.bracketed_stripped]

/-- A call of a function named `call`, written in two ways, and a function with another inside,
written in two ways.
-/
theorem bracketed_unambiguous_call
    : (∃ first second : Expr,
        (Lexed.ofSource "call(-(a), 1)").stream.expression 9 = .ok first
        ∧ (Lexed.ofSource "(call) ((-a), (1.0))").stream.expression 9 = .ok second
        ∧ first.bracketed = "(call call (- a) 1)" ∧ second.bracketed = "(call call (- a) 1)"
        ∧ first.stripped = second.stripped)
      ∧ ∃ first second : Stmt,
          (Lexed.ofSource "fun f(a, b) \x7b fun g() \x7b\x7d print (a) - b; \x7d").stream.program 9
            = .ok [first]
          ∧ (Lexed.ofSource "fun f(a,b)\x7bfun g()\x7b\x7dprint(a-b);\x7d").stream.program 9
            = .ok [second]
          ∧ first.bracketed = "(fun f (a b) (fun g ()) (print (- a b)))"
          ∧ second.bracketed = "(fun f (a b) (fun g ()) (print (- a b)))"
          ∧ first.stripped = second.stripped := by
  have expression (text shown : String)
      (check : ((Lexed.ofSource text).stream.expression 9).toOption.any
        (fun expr => expr.parts.all Expr.isClear && expr.bracketed == shown) = true)
      : ∃ expr : Expr, (Lexed.ofSource text).stream.expression 9 = .ok expr ∧ expr.IsRead
        ∧ (∀ part ∈ expr.parts, part.isClear = true) ∧ expr.bracketed = shown := by
    cases reads : (Lexed.ofSource text).stream.expression 9 with
    | error failure => simp [reads, Except.toOption] at check
    | ok expr =>
        rw [reads] at check
        obtain ⟨clear, isShown⟩ := Bool.and_eq_true_iff.mp check
        exact ⟨expr, rfl, .ofExpression reads expr.mem_parts_self, List.all_eq_true.mp clear,
          eq_of_beq isShown⟩
  have statement (text shown : String)
      (check : ((Lexed.ofSource text).stream.program 9).toOption.any
        (fun program => program.length == 1 && program.all fun stmt =>
          stmt.parts.all Expr.isClear && stmt.bracketed == shown) = true)
      : ∃ stmt : Stmt, (Lexed.ofSource text).stream.program 9 = .ok [stmt] ∧ stmt.IsRead
        ∧ (∀ part ∈ stmt.parts, part.isClear = true) ∧ stmt.bracketed = shown := by
    cases reads : (Lexed.ofSource text).stream.program 9 with
    | error failure => simp [reads, Except.toOption] at check
    | ok program =>
        rw [reads] at check
        obtain ⟨isOne, all⟩ := Bool.and_eq_true_iff.mp check
        obtain ⟨stmt, rfl⟩ := List.length_eq_one_iff.mp (eq_of_beq isOne)
        have member : stmt ∈ [stmt] := List.mem_singleton_self stmt
        obtain ⟨clear, isShown⟩ := Bool.and_eq_true_iff.mp (List.all_eq_true.mp all stmt member)
        exact ⟨stmt, rfl, .ofProgram reads (.top (List.mem_singleton_self _) member),
          List.all_eq_true.mp clear, eq_of_beq isShown⟩
  constructor
  · obtain ⟨first, reads, isRead, clear, shown⟩ := expression "call(-(a), 1)"
      "(call call (- a) 1)" (by decide +kernel)
    obtain ⟨second, reads', isRead', clear', shown'⟩ := expression "(call) ((-a), (1.0))"
      "(call call (- a) 1)" (by decide +kernel)
    refine ⟨first, second, reads, reads', shown, shown', ?_⟩
    exact (bracketed_unambiguous.1 first second isRead isRead' clear clear').mp
      (shown.trans shown'.symm)
  · obtain ⟨first, reads, isRead, clear, shown⟩ := statement
      "fun f(a, b) \x7b fun g() \x7b\x7d print (a) - b; \x7d"
      "(fun f (a b) (fun g ()) (print (- a b)))"
      (by decide +kernel)
    obtain ⟨second, reads', isRead', clear', shown'⟩ := statement
      "fun f(a,b)\x7bfun g()\x7b\x7dprint(a-b);\x7d" "(fun f (a b) (fun g ()) (print (- a b)))"
      (by decide +kernel)
    refine ⟨first, second, reads, reads', shown, shown', ?_⟩
    exact (bracketed_unambiguous.2 first second isRead isRead' clear clear').mp
      (shown.trans shown'.symm)

end Sprig
