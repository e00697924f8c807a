import Sprig.Proofs.Grammar.Climbing

/-! A derivation is determined by its tree and the tokens it spells. The tree tells at every
category whether a phrase is one of the tighter category, and with the tree known the tokens
can be divided in one way only.
-/

namespace Sprig.Grammar

/-- The rank of the category that an expression is built in. -/
def outerRank : Expr → Nat
  | .assign .. => Category.expression.rank
  | .binary _ operator _ => Precedence.ofKind operator.kind - 1
  | .unary .. => Category.unary.rank
  | .call .. => Category.call.rank
  | .literal _ | .reference _ | .grouping _ => Category.primary.rank

/-- What is built in a category does not come from the tighter one. -/
theorem rank_le_outerRank {category : Category} (phrase : Phrase category)
    : category.rank ≤ outerRank phrase.tree := by
  induction phrase with
  | plain looser inner ih =>
      rename_i category
      refine Nat.le_trans ?_ ih
      cases category <;> decide
  | chain left operator joins right _ _ =>
      have followed := Category.ofKind_of_mem_signs joins
      obtain ⟨_, _, ranked, _⟩ := Category.levels_of_mem_signs joins
      simp only [Phrase.tree, outerRank]
      omega
  | assign | unary | call | literal | reference | grouping => exact Nat.le_refl _

/-- The next tighter category is one rank higher, by cases on the category. -/
theorem rank_tighter {category : Category} (looser : category ≠ .primary)
    : category.tighter.rank = category.rank + 1 := by
  revert looser
  cases category <;> decide

/-- A phrase of the tighter category is not built in this one. -/
theorem Phrase.plain_ne_of_outerRank {category : Category} (looser : category ≠ .primary)
    (inner : Phrase category.tighter) {expr : Expr} (outer : outerRank expr = category.rank)
    : inner.tree ≠ expr := by
  rintro rfl
  have tight := rank_le_outerRank inner
  rw [outer, rank_tighter looser] at tight
  omega

/-- A chain has the rank of the category that its sign joins. -/
theorem outerRank_chain {category : Category} (left : Expr) {operator : Token}
    (joins : operator.kind ∈ category.signs) (right : Expr)
    : outerRank (.binary left operator right) = category.rank := by
  obtain ⟨_, _, ranked, _⟩ := Category.levels_of_mem_signs joins
  simp [outerRank, Category.ofKind_of_mem_signs joins, ranked]

-- Dividing tokens

/-- The spelling of an item, followed by anything, determines the item among those with the
same tree.
-/
def Divides {δ α : Type} (spelling : δ → List Token) (tree : δ → α) (item : δ) : Prop :=
  ∀ (other : δ) (rest rest' : List Token), tree item = tree other →
    spelling item ++ rest = spelling other ++ rest' → item = other ∧ rest = rest'

/-- Lists of items that divide do so as wholes, by induction on the list: the first item fixes
where the others begin. -/
theorem divides_flatMap {δ α : Type} (spelling : δ → List Token) (tree : δ → α) (items : List δ)
    (divides : ∀ item ∈ items, Divides spelling tree item)
    : Divides (fun items => items.flatMap spelling) (fun items => items.map tree) items := by
  intro others rest rest' trees spelled
  induction items generalizing others with
  | nil =>
      obtain rfl : others = [] := by simpa using trees.symm
      exact ⟨rfl, by simpa using spelled⟩
  | cons item items ih =>
      cases others with
      | nil => simp at trees
      | cons other others =>
          simp only [List.map_cons, List.cons.injEq] at trees
          simp only [List.flatMap_cons, List.append_assoc] at spelled
          obtain ⟨rfl, after⟩ := divides item (by simp) other _ _ trees.1 spelled
          obtain ⟨rfl, same⟩ := ih (fun item member => divides item (by simp [member])) others
            trees.2 after
          exact ⟨rfl, same⟩

/-- Rows of items that divide do so as wholes, since the commas stand between the items. -/
theorem divides_row {δ α : Type} {spelling : δ → List Token} {tree : δ → α} (row : Row δ)
    (divides : ∀ item ∈ row.toList, Divides spelling tree item)
    : Divides (Row.yield spelling) (fun row => row.toList.map tree) row := by
  intro other rest rest' trees spelled
  cases row with
  | empty =>
      cases other with
      | empty => exact ⟨rfl, spelled⟩
      | items first others => simp [Row.toList] at trees
  | items first others =>
      cases other with
      | empty => simp [Row.toList] at trees
      | items first' others' =>
          simp only [Row.toList, List.map_cons, List.cons.injEq] at trees
          simp only [Row.yield, List.append_assoc] at spelled
          obtain ⟨rfl, after⟩ := divides first (by simp [Row.toList]) first' _ _ trees.1 spelled
          -- a comma and the item after it are again an item with a tree
          obtain ⟨rfl, same⟩ := divides_flatMap
            (fun other : Terminal .comma × δ => other.1.val :: spelling other.2)
            (fun other => tree other.2) others
            (by
              intro item member another rest rest' trees spelled
              simp only [List.cons_append, List.cons.injEq] at spelled
              have isItem : item.2 ∈ (Row.items first others).toList :=
                List.mem_cons_of_mem _ (List.mem_map_of_mem member)
              obtain ⟨sameItem, same⟩ := divides item.2 isItem another.2 _ _ trees spelled.2
              exact ⟨Prod.ext (Subtype.ext spelled.1) sameItem, same⟩)
            others' rest rest' (by simpa [Function.comp_def] using trees.2) after
          exact ⟨rfl, same⟩

/-- A phrase is fixed by its tree and its tokens, by induction on it. The rank of the tree tells
which rule made it, and where there is a chain the tree gives its parts. -/
theorem divides_phrase {category : Category} (phrase : Phrase category)
    : Divides Phrase.yield Phrase.tree phrase := by
  induction phrase with
  -- a plain phrase has the tree of a tighter one, which no other rule of its category makes
  | plain looser inner ih =>
      intro other rest rest' trees spelled
      cases other with
      | plain _ inner' =>
          obtain ⟨rfl, same⟩ := ih inner' rest rest' trees spelled
          exact ⟨rfl, same⟩
      | chain left operator joins right =>
          exact absurd trees (inner.plain_ne_of_outerRank looser (outerRank_chain _ joins _))
      | assign | unary | call | literal | reference | grouping =>
          exact absurd trees (inner.plain_ne_of_outerRank looser rfl)
  -- the left part ends where its tree says, so the sign and the right part are found after it
  | chain left operator joins right ihl ihr =>
      intro other rest rest' trees spelled
      cases other with
      | plain looser inner =>
          exact absurd trees.symm
            (inner.plain_ne_of_outerRank looser (outerRank_chain _ joins _))
      | chain left' operator' joins' right' =>
          simp only [Phrase.tree, Expr.binary.injEq] at trees
          simp only [Phrase.yield, List.append_assoc] at spelled
          obtain ⟨rfl, after⟩ := ihl left' _ _ trees.1 spelled
          simp only [List.cons_append, List.cons.injEq] at after
          obtain ⟨rfl, after⟩ := after
          obtain ⟨rfl, same⟩ := ihr right' _ _ trees.2.2 after
          exact ⟨rfl, same⟩
      | assign | unary | call | literal | reference | grouping => simp [Phrase.tree] at trees
  | assign name sign value ih =>
      intro other rest rest' trees spelled
      cases other with
      | plain looser inner => exact absurd trees.symm (inner.plain_ne_of_outerRank looser rfl)
      | chain => simp [Phrase.tree] at trees
      | assign name' sign' value' =>
          simp only [Phrase.tree, Expr.assign.injEq] at trees
          simp only [Phrase.yield, List.cons_append, List.cons.injEq] at spelled
          obtain ⟨rfl, same⟩ := ih value' _ _ trees.2 spelled.2.2
          rw [Subtype.ext spelled.1, Subtype.ext spelled.2.1]
          exact ⟨rfl, same⟩
  | unary operator isUnary operand ih =>
      intro other rest rest' trees spelled
      cases other with
      | plain looser inner => exact absurd trees.symm (inner.plain_ne_of_outerRank looser rfl)
      | chain => simp [Phrase.tree] at trees
      | unary operator' isUnary' operand' =>
          simp only [Phrase.tree, Expr.unary.injEq] at trees
          simp only [Phrase.yield, List.cons_append, List.cons.injEq] at spelled
          obtain ⟨rfl, after⟩ := spelled
          obtain ⟨rfl, same⟩ := ih operand' _ _ trees.2 after
          exact ⟨rfl, same⟩
  | call callee opening arguments closing ihc iha =>
      intro other rest rest' trees spelled
      cases other with
      | plain looser inner => exact absurd trees.symm (inner.plain_ne_of_outerRank looser rfl)
      | chain => simp [Phrase.tree] at trees
      | call callee' opening' arguments' closing' =>
          simp only [Phrase.tree, Expr.call.injEq, Phrase.rowTrees_eq] at trees
          simp only [Phrase.yield, Phrase.rowYield_eq, List.append_assoc] at spelled
          obtain ⟨rfl, after⟩ := ihc callee' _ _ trees.1 spelled
          simp only [List.cons_append, List.append_assoc, List.nil_append,
            List.cons.injEq] at after
          obtain ⟨rfl, closed⟩ := divides_row arguments iha arguments' _ _ trees.2.2 after.2
          simp only [List.cons.injEq] at closed
          rw [Subtype.ext after.1, Subtype.ext closed.1]
          exact ⟨rfl, closed.2⟩
  -- the tightest phrases start with tokens of different kinds of trees
  | literal token isLiteral =>
      intro other rest rest' trees spelled
      cases other with
      | plain looser => exact absurd rfl looser
      | chain => simp [Phrase.tree] at trees
      | literal token' isLiteral' =>
          simp only [Phrase.yield, List.cons_append, List.cons.injEq] at spelled
          obtain ⟨rfl, same⟩ := spelled
          exact ⟨rfl, same⟩
      | reference | grouping => simp [Phrase.tree] at trees
  | reference name =>
      intro other rest rest' trees spelled
      cases other with
      | plain looser => exact absurd rfl looser
      | reference name' =>
          simp only [Phrase.yield, List.cons_append, List.cons.injEq] at spelled
          rw [Subtype.ext spelled.1]
          exact ⟨rfl, spelled.2⟩
      | chain | literal | grouping => simp [Phrase.tree] at trees
  | grouping opening inner closing ih =>
      intro other rest rest' trees spelled
      cases other with
      | plain looser => exact absurd rfl looser
      | grouping opening' inner' closing' =>
          simp only [Phrase.tree, Expr.grouping.injEq] at trees
          simp only [Phrase.yield, List.cons_append, List.append_assoc, List.nil_append,
            List.cons.injEq] at spelled
          obtain ⟨rfl, after⟩ := ih inner' _ _ trees spelled.2
          simp only [List.cons.injEq] at after
          rw [Subtype.ext spelled.1, Subtype.ext after.1]
          exact ⟨rfl, after.2⟩
      | chain | literal | reference => simp [Phrase.tree] at trees

/-- A parameter is its token. -/
theorem divides_param (param : Terminal .identifier)
    : Divides (fun param : Terminal .identifier => [param.val]) Subtype.val param := by
  intro other rest rest' _ spelled
  simp only [List.cons_append, List.nil_append, List.cons.injEq] at spelled
  exact ⟨Subtype.ext spelled.1, spelled.2⟩

/-- The initial value of a declaration is fixed by its tree and its tokens, as its phrase is. -/
theorem divides_initial (initial : Option (Terminal .equal × Phrase .expression))
    : Divides Sentence.initialYield (Option.map (fun pair => pair.2.tree)) initial := by
  intro other rest rest' trees spelled
  cases initial with
  | none =>
      obtain rfl : other = none := by simpa using trees.symm
      exact ⟨rfl, spelled⟩
  | some pair =>
      cases other with
      | none => simp at trees
      | some pair' =>
          obtain ⟨sign, value⟩ := pair
          obtain ⟨sign', value'⟩ := pair'
          simp only [Option.map_some, Option.some.injEq] at trees
          simp only [Sentence.initialYield, List.cons_append, List.cons.injEq] at spelled
          obtain ⟨rfl, same⟩ := divides_phrase value value' _ _ trees spelled.2
          rw [Subtype.ext spelled.1]
          exact ⟨rfl, same⟩

/-- A sentence is fixed by its tree and its tokens, by induction on it; its bodies are lists of
sentences that divide. -/
theorem divides_sentence (sentence : Sentence)
    : Divides Sentence.yield Sentence.tree sentence := by
  induction sentence with
  | declare word name initial stop =>
      intro other rest rest' trees spelled
      cases other with
      | declare word' name' initial' stop' =>
          simp only [Sentence.tree, Stmt.declare.injEq] at trees
          simp only [Sentence.yield, List.cons_append, List.append_assoc, List.nil_append,
            List.cons.injEq] at spelled
          obtain ⟨rfl, after⟩ := divides_initial initial initial' _ _ trees.2 spelled.2.2
          simp only [List.cons.injEq] at after
          rw [Subtype.ext spelled.1, Subtype.ext spelled.2.1, Subtype.ext after.1]
          exact ⟨rfl, after.2⟩
      | print | function | block | expression => simp [Sentence.tree] at trees
  | print word value stop =>
      intro other rest rest' trees spelled
      cases other with
      | print word' value' stop' =>
          simp only [Sentence.tree, Stmt.print.injEq] at trees
          simp only [Sentence.yield, List.cons_append, List.append_assoc, List.nil_append,
            List.cons.injEq] at spelled
          obtain ⟨rfl, after⟩ := divides_phrase value value' _ _ trees spelled.2
          simp only [List.cons.injEq] at after
          rw [Subtype.ext spelled.1, Subtype.ext after.1]
          exact ⟨rfl, after.2⟩
      | declare | function | block | expression => simp [Sentence.tree] at trees
  -- parameters and body are found one after the other, each by the tree
  | function word name opening params closing left body right ih =>
      intro other rest rest' trees spelled
      cases other with
      | function word' name' opening' params' closing' left' body' right' =>
          simp only [Sentence.tree, Stmt.function.injEq, Sentence.treeAll_eq] at trees
          simp only [Sentence.yield, Sentence.yieldAll_eq, List.cons_append, List.append_assoc,
            List.nil_append, List.cons.injEq] at spelled
          obtain ⟨sameWord, sameName, sameOpening, spelled⟩ := spelled
          obtain ⟨rfl, after⟩ := divides_row params (fun param _ => divides_param param) params'
            _ _ trees.2.1 spelled
          simp only [List.cons.injEq] at after
          obtain ⟨rfl, closed⟩ := divides_flatMap _ _ body ih body' _ _ trees.2.2 after.2.2
          simp only [List.cons.injEq] at closed
          rw [Subtype.ext sameWord, Subtype.ext sameName, Subtype.ext sameOpening,
            Subtype.ext after.1, Subtype.ext after.2.1, Subtype.ext closed.1]
          exact ⟨rfl, closed.2⟩
      | declare | print | block | expression => simp [Sentence.tree] at trees
  | block left body right ih =>
      intro other rest rest' trees spelled
      cases other with
      | block left' body' right' =>
          simp only [Sentence.tree, Stmt.block.injEq, Sentence.treeAll_eq] at trees
          simp only [Sentence.yield, Sentence.yieldAll_eq, List.cons_append, List.append_assoc,
            List.nil_append, List.cons.injEq] at spelled
          obtain ⟨rfl, after⟩ := divides_flatMap _ _ body ih body' _ _ trees spelled.2
          simp only [List.cons.injEq] at after
          rw [Subtype.ext spelled.1, Subtype.ext after.1]
          exact ⟨rfl, after.2⟩
      | declare | print | function | expression => simp [Sentence.tree] at trees
  | expression value stop =>
      intro other rest rest' trees spelled
      cases other with
      | expression value' stop' =>
          simp only [Sentence.tree, Stmt.expression.injEq] at trees
          simp only [Sentence.yield, List.append_assoc, List.cons_append,
            List.nil_append] at spelled
          obtain ⟨rfl, after⟩ := divides_phrase value value' _ _ trees spelled
          simp only [List.cons.injEq] at after
          rw [Subtype.ext after.1]
          exact ⟨rfl, after.2⟩
      | declare | print | function | block => simp [Sentence.tree] at trees

end Sprig.Grammar
