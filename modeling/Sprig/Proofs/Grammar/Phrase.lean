import Sprig.Tree.Basic

/-! The grammar of the language, as the type of its derivations. Expressions are stratified
into categories from the loosest to the tightest; a derivation carries the tokens it spells
and determines the tree it stands for.
-/

namespace Sprig.Grammar

/-- A token of a given kind. -/
abbrev Terminal (kind : TokenKind) := { token : Token // token.kind = kind }

/-- The categories of expressions, from the loosest to the tightest. -/
inductive Category where
  | expression
  | equality
  | comparison
  | term
  | factor
  | unary
  | call
  | primary
deriving DecidableEq, Repr

namespace Category

/-- The category whose phrases are the parts of a chain, and phrases of this one by
themselves.
-/
def tighter : Category → Category
  | expression => equality
  | equality => comparison
  | comparison => term
  | term => factor
  | factor => unary
  | unary => call
  | call | primary => primary

/-- The signs that stand between the parts of a chain. -/
def signs : Category → List TokenKind
  | equality => [.equalEqual, .bangEqual]
  | comparison => [.less, .lessEqual, .greater, .greaterEqual]
  | term => [.plus, .minus]
  | factor => [.star, .slash]
  | expression | unary | call | primary => []

end Category

/-- The signs that stand before a single operand. -/
def unarySigns : List TokenKind := [.minus, .bang]

/-- The tokens that are an expression by themselves, names apart. -/
def literalKinds : List TokenKind := [.number, .string, .trueWord, .falseWord, .nilWord]

/-- The value that a literal token stands for. -/
def literalValue (token : Token) : Value :=
  match token.kind with
  | .trueWord => .boolean true
  | .falseWord => .boolean false
  | .nilWord => .nil
  | _ => token.literal.getD .absent

/-- Items with commas between them, `(item (',' item)*)?`. -/
inductive Row (α : Type) where
  | empty
  | items (first : α) (others : List (Terminal .comma × α))

namespace Row

def toList {α : Type} : Row α → List α
  | empty => []
  | items first others => first :: others.map Prod.snd

/-- The tokens of a row, given the tokens of an item. -/
def yield {α : Type} (itemYield : α → List Token) : Row α → List Token
  | empty => []
  | items first others =>
      itemYield first ++ others.flatMap (fun other => other.1.val :: itemYield other.2)

/-- The tokens of an item are among the tokens of its row, whether it stands first or after a
comma. -/
theorem yield_subset {α : Type} {itemYield : α → List Token} {row : Row α} {item : α}
    (member : item ∈ row.toList)
    : itemYield item ⊆ row.yield itemYield := by
  cases row with
  | empty => simp [toList] at member
  | items first others =>
      intro token inside
      simp only [toList, List.mem_cons, List.mem_map] at member
      rcases member with rfl | ⟨other, member, rfl⟩
      · exact List.mem_append_left _ inside
      · exact List.mem_append_right _
          (List.mem_flatMap.mpr ⟨other, member, List.mem_cons_of_mem _ inside⟩)

end Row

/-- The derivations of a category. -/
inductive Phrase : Category → Type where
  /-- `expression = IDENT '=' expression` -/
  | assign (name : Terminal .identifier) (sign : Terminal .equal) (value : Phrase .expression)
    : Phrase .expression
  /-- A phrase of the tighter category. -/
  | plain {category : Category} (looser : category ≠ .primary) (inner : Phrase category.tighter)
    : Phrase category
  /-- One more link of a chain, which grows on its right end. -/
  | chain {category : Category} (left : Phrase category) (operator : Token)
      (joins : operator.kind ∈ category.signs) (right : Phrase category.tighter)
    : Phrase category
  /-- `unary = ('-' | '!') unary` -/
  | unary (operator : Token) (isUnary : operator.kind ∈ unarySigns) (operand : Phrase .unary)
    : Phrase .unary
  /-- `call = call '(' (expression (',' expression)*)? ')'` -/
  | call (callee : Phrase .call) (opening : Terminal .leftParen)
      (arguments : Row (Phrase .expression)) (closing : Terminal .rightParen)
    : Phrase .call
  /-- `primary = NUMBER | STRING | 'true' | 'false' | 'nil'` -/
  | literal (token : Token) (isLiteral : token.kind ∈ literalKinds) : Phrase .primary
  /-- `primary = IDENT` -/
  | reference (name : Terminal .identifier) : Phrase .primary
  /-- `primary = '(' expression ')'` -/
  | grouping (opening : Terminal .leftParen) (inner : Phrase .expression)
      (closing : Terminal .rightParen)
    : Phrase .primary

namespace Phrase

/-- Induction over derivations; the arguments of a call are reached through its row. -/
@[elab_as_elim, induction_eliminator]
theorem induction {motive : {category : Category} → Phrase category → Prop}
    (assign : ∀ name sign value, motive value → motive (assign name sign value))
    (plain : ∀ {category : Category} (looser : category ≠ .primary)
      (inner : Phrase category.tighter), motive inner → motive (plain looser inner))
    (chain : ∀ {category : Category} (left : Phrase category) (operator : Token)
      (joins : operator.kind ∈ category.signs) (right : Phrase category.tighter),
      motive left → motive right → motive (chain left operator joins right))
    (unary : ∀ operator isUnary operand, motive operand →
      motive (unary operator isUnary operand))
    (call : ∀ callee opening arguments closing, motive callee →
      (∀ argument ∈ arguments.toList, motive argument) →
      motive (call callee opening arguments closing))
    (literal : ∀ token isLiteral, motive (literal token isLiteral))
    (reference : ∀ name, motive (reference name))
    (grouping : ∀ opening inner closing, motive inner →
      motive (grouping opening inner closing))
    {category : Category} (phrase : Phrase category)
    : motive phrase :=
  @Phrase.rec (fun _ phrase => motive phrase)
    (fun row => ∀ argument ∈ row.toList, motive argument)
    (fun others => ∀ argument ∈ others.map Prod.snd, motive argument)
    (fun other => motive other.2)
    assign plain chain unary call literal reference grouping
    (by simp [Row.toList])
    (fun first others hf ho => by simpa [Row.toList] using ⟨hf, by simpa using ho⟩)
    (by simp)
    (fun other others hf ho => by simpa using ⟨hf, by simpa using ho⟩)
    (fun _ _ hp => hp)
    category phrase

-- The tokens of a phrase and the tree it stands for

mutual

/-- The tokens that a phrase spells. -/
def yield {category : Category} : Phrase category → List Token
  | assign name sign value => name.val :: sign.val :: value.yield
  | plain _ inner => inner.yield
  | chain left operator _ right => left.yield ++ operator :: right.yield
  | unary operator _ operand => operator :: operand.yield
  | call callee opening arguments closing =>
      callee.yield ++ opening.val :: (rowYield arguments ++ [closing.val])
  | literal token _ => [token]
  | reference name => [name.val]
  | grouping opening inner closing => opening.val :: (inner.yield ++ [closing.val])

def rowYield : Row (Phrase .expression) → List Token
  | .empty => []
  | .items first others => first.yield ++ othersYield others

def othersYield : List (Terminal .comma × Phrase .expression) → List Token
  | [] => []
  | (comma, argument) :: rest => comma.val :: argument.yield ++ othersYield rest

end

mutual

/-- The tree of a phrase. Chains and calls nest to the left and assignments to the right. -/
def tree {category : Category} : Phrase category → Expr
  | assign name _ value => .assign name value.tree
  | plain _ inner => inner.tree
  | chain left operator _ right => .binary left.tree operator right.tree
  | unary operator _ operand => .unary operator operand.tree
  | call callee _ arguments closing => .call callee.tree closing (rowTrees arguments)
  | literal token _ => .literal (literalValue token)
  | reference name => .reference name
  | grouping _ inner _ => .grouping inner.tree

def rowTrees : Row (Phrase .expression) → List Expr
  | .empty => []
  | .items first others => first.tree :: othersTrees others

def othersTrees : List (Terminal .comma × Phrase .expression) → List Expr
  | [] => []
  | (_, argument) :: rest => argument.tree :: othersTrees rest

end

/-- The tokens of a row of phrases are those of the row as such, by induction on its items. -/
@[simp] theorem rowYield_eq (row : Row (Phrase .expression))
    : rowYield row = row.yield yield := by
  cases row with
  | empty => rfl
  | items first others =>
      simp only [rowYield, Row.yield, List.append_cancel_left_eq]
      induction others with
      | nil => rfl
      | cons other rest ih => simp [othersYield, ih]

/-- The trees of a row of phrases are the trees of its items, by induction on them. -/
@[simp] theorem rowTrees_eq (row : Row (Phrase .expression))
    : rowTrees row = row.toList.map tree := by
  cases row with
  | empty => rfl
  | items first others =>
      simp only [rowTrees, Row.toList, List.map_cons, List.cons.injEq, true_and]
      induction others with
      | nil => rfl
      | cons other rest ih => simp [othersTrees, ih]

end Phrase

/-- The derivations of a statement. -/
inductive Sentence where
  /-- `'var' IDENT ('=' expression)? ';'` -/
  | declare (word : Terminal .varWord) (name : Terminal .identifier)
      (initial : Option (Terminal .equal × Phrase .expression)) (stop : Terminal .semicolon)
  /-- `'print' expression ';'` -/
  | print (word : Terminal .printWord) (value : Phrase .expression)
      (stop : Terminal .semicolon)
  /-- `'fun' IDENT '(' (IDENT (',' IDENT)*)? ')' '{' statement* '}'` -/
  | function (word : Terminal .funWord) (name : Terminal .identifier)
      (opening : Terminal .leftParen) (params : Row (Terminal .identifier))
      (closing : Terminal .rightParen) (left : Terminal .leftBrace) (body : List Sentence)
      (right : Terminal .rightBrace)
  /-- `'{' statement* '}'` -/
  | block (left : Terminal .leftBrace) (body : List Sentence) (right : Terminal .rightBrace)
  /-- `expression ';'` -/
  | expression (value : Phrase .expression) (stop : Terminal .semicolon)

namespace Sentence

/-- Induction over statements, with a hypothesis for every statement of a body. -/
@[elab_as_elim, induction_eliminator]
theorem induction {motive : Sentence → Prop}
    (declare : ∀ word name initial stop, motive (declare word name initial stop))
    (print : ∀ word value stop, motive (print word value stop))
    (function : ∀ word name opening params closing left body right,
      (∀ sentence ∈ body, motive sentence) →
      motive (function word name opening params closing left body right))
    (block : ∀ left body right, (∀ sentence ∈ body, motive sentence) →
      motive (block left body right))
    (expression : ∀ value stop, motive (expression value stop))
    (sentence : Sentence)
    : motive sentence :=
  @Sentence.rec motive (fun body => ∀ sentence ∈ body, motive sentence)
    declare print function block expression (by simp)
    (fun first rest hf hr => by simpa using ⟨hf, hr⟩)
    sentence

/-- The tokens of the initial value of a declaration. -/
def initialYield : Option (Terminal .equal × Phrase .expression) → List Token
  | none => []
  | some (sign, value) => sign.val :: value.yield

mutual

/-- The tokens that a statement spells. -/
def yield : Sentence → List Token
  | declare word name initial stop =>
      word.val :: name.val :: (initialYield initial ++ [stop.val])
  | print word value stop => word.val :: (value.yield ++ [stop.val])
  | function word name opening params closing left body right =>
      word.val :: name.val :: opening.val
        :: (params.yield (fun param => [param.val])
          ++ closing.val :: left.val :: (yieldAll body ++ [right.val]))
  | block left body right => left.val :: (yieldAll body ++ [right.val])
  | expression value stop => value.yield ++ [stop.val]

/-- The tokens of statements one after the other. -/
def yieldAll : List Sentence → List Token
  | [] => []
  | sentence :: rest => sentence.yield ++ yieldAll rest

end

mutual

/-- The tree of a statement. -/
def tree : Sentence → Stmt
  | declare _ name initial _ => .declare name (initial.map (fun pair => pair.2.tree))
  | print _ value _ => .print value.tree
  | function _ name _ params _ _ body _ =>
      .function name (params.toList.map Subtype.val) (treeAll body)
  | block _ body _ => .block (treeAll body)
  | expression value _ => .expression value.tree

/-- The trees of statements one after the other. -/
def treeAll : List Sentence → List Stmt
  | [] => []
  | sentence :: rest => sentence.tree :: treeAll rest

end

/-- The tokens of a body are those of its sentences in turn, by induction on the body. -/
@[simp] theorem yieldAll_eq (body : List Sentence) : yieldAll body = body.flatMap yield := by
  induction body with
  | nil => rfl
  | cons sentence rest ih => simp [yieldAll, ih]

/-- The tree of a body is the trees of its sentences, by induction on the body. -/
@[simp] theorem treeAll_eq (body : List Sentence) : treeAll body = body.map tree := by
  induction body with
  | nil => rfl
  | cons sentence rest ih => simp [treeAll, ih]

end Sentence

end Sprig.Grammar
