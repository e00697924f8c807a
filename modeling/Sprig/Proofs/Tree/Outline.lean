import Sprig.Proofs.Tree.Stripped

/-! The bracketed form of a tree as words in nested parentheses. The text of such an outline can be
cut into words and parentheses in one way only, so outlines with the same text are the same.
-/

namespace Sprig

/-- Parts in brackets are written one after the other, each later one after a space. -/
theorem toList_bracket_cons (first : String) (others : List String)
    : (bracket (first :: others)).toList
      = '(' :: (first.toList ++ (others.flatMap (fun part => ' ' :: part.toList) ++ [')'])) := by
  induction others generalizing first with
  | nil => simp [bracket]
  | cons second others ih => simpa [bracket] using ih second

/-- Words in nested parentheses. -/
inductive Outline where
  | word (text : String)
  | group (parts : List Outline)

namespace Outline

/-- Induction over outlines, with a hypothesis for every part of a group. -/
@[elab_as_elim, induction_eliminator]
theorem induction {motive : Outline → Prop} (word : ∀ text, motive (word text))
    (group : ∀ parts, (∀ part ∈ parts, motive part) → motive (group parts)) (outline : Outline)
    : motive outline :=
  @Outline.rec motive (fun parts => ∀ part ∈ parts, motive part) word group (by simp)
    (fun first rest hf hr => by simpa using ⟨hf, hr⟩)
    outline

mutual

def text : Outline → String
  | .word text => text
  | .group parts => bracket (textAll parts)

def textAll : List Outline → List String
  | [] => []
  | part :: rest => part.text :: textAll rest

end

/-- The texts of parts are those of each part. -/
@[simp] theorem textAll_eq (parts : List Outline) : textAll parts = parts.map text := by
  induction parts with
  | nil => rfl
  | cons part rest ih => simp [textAll, ih]

/-- The characters that do not end a word. -/
def isWordChar (c : Char) : Bool :=
  c != ' ' && c != '(' && c != ')'

/-- Every word can be told from what stands around it. -/
inductive IsLegible : Outline → Prop where
  | word {text : String} (some : text ≠ "") (plain : ∀ c ∈ text.toList, isWordChar c = true)
    : IsLegible (.word text)
  | group {parts : List Outline} (legible : ∀ part ∈ parts, IsLegible part)
    : IsLegible (.group parts)

/-- A word without spaces and parentheses is legible. -/
theorem isLegible_word {text : String} (some : text ≠ "")
    (plain : text.toList.all isWordChar = true)
    : (word text).IsLegible :=
  .word some (List.all_eq_true.mp plain)

/-- A text that no word can take in. -/
def Closes (rest : List Char) : Prop :=
  ∀ c ∈ rest.head?, isWordChar c = false

/-- Parts of a group after the first one, each with the space before it. -/
def rowText (parts : List Outline) : List Char :=
  parts.flatMap fun part => ' ' :: part.text.toList

/-- What follows a part in a group ends a word: a space or the closing parenthesis. -/
theorem closes_rowText (parts : List Outline) (rest : List Char)
    : Closes (rowText parts ++ ')' :: rest) := by
  cases parts with
  | nil => simp [Closes, rowText, isWordChar]
  | cons part others => simp [Closes, rowText, isWordChar]

/-- The empty group is a pair of parentheses. -/
theorem toList_text_nil : (group []).text.toList = ['(', ')'] := by
  decide

/-- A group is its first part and the row of the others between parentheses. -/
theorem toList_text_cons (first : Outline) (others : List Outline)
    : (group (first :: others)).text.toList
      = '(' :: (first.text.toList ++ (rowText others ++ [')'])) := by
  rw [text, textAll_eq, List.map_cons, toList_bracket_cons, List.flatMap_map, rowText]

/-- A group starts with an opening parenthesis. -/
theorem exists_toList_group (parts : List Outline)
    : ∃ tail, (group parts).text.toList = '(' :: tail := by
  cases parts with
  | nil => exact ⟨_, toList_text_nil⟩
  | cons first others => exact ⟨_, toList_text_cons first others⟩

/-- A word starts with a character of words. -/
theorem exists_toList_word {text : String} (some : text ≠ "")
    (plain : ∀ c ∈ text.toList, isWordChar c = true)
    : ∃ c tail, text.toList = c :: tail ∧ isWordChar c = true := by
  cases chars : text.toList with
  | nil => exact absurd (String.toList_eq_nil_iff.mp chars) some
  | cons c tail => exact ⟨c, tail, rfl, plain c (by simp [chars])⟩

/-- No legible outline starts with a closing parenthesis, by cases on it. -/
theorem IsLegible.exists_head {outline : Outline} (legible : outline.IsLegible)
    : ∃ c tail, outline.text.toList = c :: tail ∧ c ≠ ')' := by
  cases legible with
  | word some plain =>
      obtain ⟨c, tail, starts, isChar⟩ := exists_toList_word some plain
      refine ⟨c, tail, starts, ?_⟩
      rintro rfl
      exact absurd isChar (by decide)
  | @group parts _ =>
      obtain ⟨tail, starts⟩ := exists_toList_group parts
      exact ⟨'(', tail, starts, by decide⟩

-- One way to cut a text

/-- A word ends where a character stands that no word has. -/
theorem word_append_inj {first second rest rest' : List Char}
    (plain : ∀ c ∈ first, isWordChar c = true) (plain' : ∀ c ∈ second, isWordChar c = true)
    (closes : Closes rest) (closes' : Closes rest') (same : first ++ rest = second ++ rest')
    : first = second ∧ rest = rest' := by
  have taken {word after : List Char} (plain : ∀ c ∈ word, isWordChar c = true)
      (closes : Closes after) : (word ++ after).takeWhile isWordChar = word := by
    rw [List.takeWhile_append_of_pos plain]
    cases after with
    | nil => simp
    | cons c more => simp [closes c rfl]
  have words : first = second := by rw [← taken plain closes, same, taken plain' closes']
  subst words
  exact ⟨rfl, List.append_cancel_left same⟩

/-- The outline is known from any text that starts with it. -/
def StandsOut (outline : Outline) : Prop :=
  ∀ {other : Outline} {rest rest' : List Char}, other.IsLegible → Closes rest → Closes rest' →
    outline.text.toList ++ rest = other.text.toList ++ rest' → outline = other ∧ rest = rest'

/-- The parts of a group are told one after the other, up to the closing parenthesis. -/
theorem row_append_inj {parts others : List Outline} (standOut : ∀ part ∈ parts, part.StandsOut)
    (legible : ∀ other ∈ others, other.IsLegible) {rest rest' : List Char}
    (same : rowText parts ++ ')' :: rest = rowText others ++ ')' :: rest')
    : parts = others ∧ rest = rest' := by
  induction parts generalizing others with
  | nil =>
      cases others with
      | nil => exact ⟨rfl, by simpa [rowText] using same⟩
      | cons other others => simp [rowText] at same
  | cons part parts ih =>
      cases others with
      | nil => simp [rowText] at same
      | cons other others =>
          have inner : part.text.toList ++ (rowText parts ++ ')' :: rest)
              = other.text.toList ++ (rowText others ++ ')' :: rest') := by
            simpa [rowText] using same
          obtain ⟨rfl, tails⟩ := standOut part List.mem_cons_self (legible other List.mem_cons_self)
            (closes_rowText parts rest) (closes_rowText others rest') inner
          obtain ⟨rfl, rests⟩ :=
            ih (fun part member => standOut part (List.mem_cons_of_mem _ member))
              (fun other member => legible other (List.mem_cons_of_mem _ member)) tails
          exact ⟨rfl, rests⟩

/-- A group is cut off a text in one way if its parts are: its first part fixes where the row of
the others begins. -/
theorem group_append_inj {parts others : List Outline} (standOut : ∀ part ∈ parts, part.StandsOut)
    (legible : ∀ part ∈ parts, part.IsLegible) (legible' : ∀ other ∈ others, other.IsLegible)
    {rest rest' : List Char}
    (same : (group parts).text.toList ++ rest = (group others).text.toList ++ rest')
    : parts = others ∧ rest = rest' := by
  cases parts with
  | nil =>
      cases others with
      | nil => exact ⟨rfl, List.append_cancel_left same⟩
      | cons other others =>
          obtain ⟨c, tail, starts, notClosing⟩ := (legible' other List.mem_cons_self).exists_head
          rw [toList_text_nil, toList_text_cons, starts] at same
          simp [Ne.symm notClosing] at same
  | cons part parts =>
      cases others with
      | nil =>
          obtain ⟨c, tail, starts, notClosing⟩ := (legible part List.mem_cons_self).exists_head
          rw [toList_text_nil, toList_text_cons, starts] at same
          simp [notClosing] at same
      | cons other others =>
          have rows : rowText (part :: parts) ++ ')' :: rest
              = rowText (other :: others) ++ ')' :: rest' := by
            rw [toList_text_cons, toList_text_cons] at same
            simpa [rowText] using same
          exact row_append_inj standOut legible' rows

/-- No text starts both with a word and with a group, since parentheses are in no word. -/
theorem word_ne_group {text : String} (some : text ≠ "")
    (plain : ∀ c ∈ text.toList, isWordChar c = true) (parts : List Outline) (rest rest' : List Char)
    : text.toList ++ rest ≠ (group parts).text.toList ++ rest' := by
  obtain ⟨c, tail, starts, isChar⟩ := exists_toList_word some plain
  obtain ⟨tail', opens⟩ := exists_toList_group parts
  intro same
  rw [starts, opens, List.cons_append, List.cons_append] at same
  injection same with heads
  exact absurd isChar (by rw [heads]; decide)

/-- A legible outline is cut off a text in one way, by induction on it: words end at the first
character that is in no word, groups part by part. -/
theorem IsLegible.standsOut {outline : Outline} (legible : outline.IsLegible)
    : outline.StandsOut := by
  induction outline with
  | word text =>
      intro other rest rest' legible' closes closes' same
      obtain ⟨some, plain⟩ := legible
      cases legible' with
      | word some' plain' =>
          obtain ⟨words, rests⟩ := word_append_inj plain plain' closes closes' same
          exact ⟨congrArg Outline.word (String.toList_inj.mp words), rests⟩
      | group inner' => exact absurd same (word_ne_group some plain _ _ _)
  | group parts ih =>
      intro other rest rest' legible' closes closes' same
      cases legible with
      | group inner =>
          cases legible' with
          | word some' plain' => exact absurd same.symm (word_ne_group some' plain' _ _ _)
          | group inner' =>
              obtain ⟨rfl, rests⟩ :=
                group_append_inj (fun part member => ih part member (inner part member)) inner
                  inner' same
              exact ⟨rfl, rests⟩

/-- Legible outlines with one text are equal: cut off a whole text, nothing is left of either. -/
theorem IsLegible.eq_of_text_eq {first second : Outline} (legible : first.IsLegible)
    (legible' : second.IsLegible) (same : first.text = second.text) : first = second :=
  (legible.standsOut legible' (by simp [Closes]) (by simp [Closes])
    (congrArg (·.toList ++ []) same)).1

end Outline

-- The outline of a tree

mutual

def Expr.outline : Expr → Outline
  | .literal value => .word value.display
  | .grouping inner => inner.outline
  | .reference name => .word name.lexeme
  | .assign name value => .group [.word "=", .word name.lexeme, value.outline]
  | .unary operator operand => .group [.word operator.lexeme, operand.outline]
  | .binary left operator right => .group [.word operator.lexeme, left.outline, right.outline]
  | .call callee _ arguments =>
      .group (.word "call" :: callee.outline :: Expr.outlineAll arguments)

def Expr.outlineAll : List Expr → List Outline
  | [] => []
  | expr :: rest => expr.outline :: Expr.outlineAll rest

end

/-- The outlines of expressions are those of each. -/
@[simp] theorem Expr.outlineAll_eq (exprs : List Expr) : outlineAll exprs = exprs.map outline := by
  induction exprs with
  | nil => rfl
  | cons expr rest ih => simp [outlineAll, ih]

/-- The text of the outline of an expression is its bracketed form, by induction on the
expression. -/
theorem Expr.text_outline (expr : Expr) : expr.outline.text = expr.bracketed := by
  induction expr with
  | literal value => rfl
  | grouping inner ih => simpa [outline, bracketed] using ih
  | reference name => rfl
  | assign name value ih => simp [outline, bracketed, Outline.text, ih]
  | unary operator operand ih => simp [outline, bracketed, Outline.text, ih]
  | binary left operator right ihl ihr => simp [outline, bracketed, Outline.text, ihl, ihr]
  | call callee paren arguments ih ihs =>
      have texts : arguments.map (fun argument => argument.outline.text)
          = arguments.map bracketed :=
        List.map_congr_left ihs
      simp [outline, bracketed, Outline.text, ih, texts, Function.comp_def]

mutual

def Stmt.outline : Stmt → Outline
  | .expression expr => .group [.word "expr", expr.outline]
  | .print expr => .group [.word "print", expr.outline]
  | .declare name none => .group [.word "var", .word name.lexeme]
  | .declare name (some initial) => .group [.word "var", .word name.lexeme, initial.outline]
  | .block body => .group (.word "block" :: Stmt.outlineAll body)
  | .function name params body =>
      .group (.word "fun" :: .word name.lexeme
        :: .group (params.map fun param => .word param.lexeme) :: Stmt.outlineAll body)

def Stmt.outlineAll : List Stmt → List Outline
  | [] => []
  | stmt :: rest => stmt.outline :: Stmt.outlineAll rest

end

/-- The outlines of statements are those of each. -/
@[simp] theorem Stmt.outlineAll_eq (stmts : List Stmt) : outlineAll stmts = stmts.map outline := by
  induction stmts with
  | nil => rfl
  | cons stmt rest ih => simp [outlineAll, ih]

/-- The text of the outline of a statement is its bracketed form, by induction on the statement. -/
theorem Stmt.text_outline (stmt : Stmt) : stmt.outline.text = stmt.bracketed := by
  have texts {body : List Stmt} (ihs : ∀ stmt ∈ body, stmt.outline.text = stmt.bracketed)
      : body.map (fun stmt => stmt.outline.text) = body.map bracketed :=
    List.map_congr_left ihs
  induction stmt with
  | expression expr | print expr => simp [outline, bracketed, Outline.text, expr.text_outline]
  | declare name initial =>
      cases initial with
      | none => simp [outline, bracketed, Outline.text]
      | some value => simp [outline, bracketed, Outline.text, value.text_outline]
  | block body ihs => simp [outline, bracketed, Outline.text, texts ihs, Function.comp_def]
  | function name params body ihs =>
      simp [outline, bracketed, Outline.text, texts ihs, Function.comp_def]

end Sprig
