import Sprig.Proofs.Grammar.ReaderLaws
import Sprig.Tree.ExprReader

/-! Reading expressions by climbing the levels of operators agrees with the stratified
grammar. Each category has the highest level at which its phrases are read whole and the
highest level of an operator that may follow them; a phrase that has been read is the left
operand of whatever comes next.
-/

namespace Sprig.Grammar

namespace Category

/-- The place of a category, counted from the loosest. -/
def rank : Category → Nat
  | expression => 0
  | equality => 1
  | comparison => 2
  | term => 3
  | factor => 4
  | unary => 5
  | call => 6
  | primary => 7

/-- The highest level at which phrases of the category are read whole. -/
def level : Category → Nat
  | expression => Precedence.lowest
  | equality => Precedence.assignment
  | comparison => Precedence.equality
  | term => Precedence.comparison
  | factor => Precedence.term
  | unary | call | primary => Precedence.unary

/-- The highest level of an operator that may follow a phrase of the category. -/
def follow : Category → Nat
  | expression => Precedence.lowest
  | equality => Precedence.equality
  | comparison => Precedence.comparison
  | term => Precedence.term
  | factor => Precedence.factor
  | unary => Precedence.unary
  | call | primary => Precedence.call

/-- The category that reading at a level arrives at. -/
def atLevel : Nat → Category
  | 0 => expression
  | 1 => equality
  | 2 => comparison
  | 3 => term
  | 4 => factor
  | _ => unary

/-- A tighter category is asked for at no lower a level, by cases on the categories. -/
theorem level_le_tighter (category : Category) : category.level ≤ category.tighter.level := by
  cases category <;> decide

/-- What may follow a tighter category binds at least as tightly, by cases. -/
theorem follow_le_tighter (category : Category) : category.follow ≤ category.tighter.follow := by
  cases category <;> decide

/-- The category read at a level is ranked no higher than the level, by cases up to the last level
and by the default beyond it. -/
theorem rank_atLevel_le (level : Nat) : (atLevel level).rank ≤ level := by
  match level with
  | 0 | 1 | 2 | 3 | 4 => decide
  | level + 5 => simp [atLevel, rank]

/-- No level asks for more than a unary expression, which is where the levels of `atLevel` stop. -/
theorem rank_atLevel_le_unary (level : Nat) : (atLevel level).rank ≤ unary.rank := by
  match level with
  | 0 | 1 | 2 | 3 | 4 => decide
  | level + 5 => exact Nat.le_refl _

/-- A sign that joins chains has the level that may follow the category of the chains. -/
theorem ofKind_of_mem_signs {category : Category} {kind : TokenKind}
    (joins : kind ∈ category.signs)
    : Precedence.ofKind kind = category.follow := by
  cases category <;> simp only [signs, List.mem_cons, List.not_mem_nil, or_false] at joins
  case equality => rcases joins with rfl | rfl <;> rfl
  case comparison => rcases joins with rfl | rfl | rfl | rfl <;> rfl
  case term => rcases joins with rfl | rfl <;> rfl
  case factor => rcases joins with rfl | rfl <;> rfl

/-- Where signs join chains, the levels of neighbouring categories fit together. -/
theorem levels_of_mem_signs {category : Category} {kind : TokenKind}
    (joins : kind ∈ category.signs)
    : category.level < category.follow ∧ category.follow ≤ category.tighter.level
      ∧ category.follow = category.rank + 1
      ∧ atLevel category.follow = category.tighter ∧ category ≠ .primary := by
  cases category <;> simp only [signs, List.not_mem_nil] at joins <;> decide

/-- What follows a joining sign is read at one of the levels of operands. -/
theorem follow_le_unary {category : Category} {kind : TokenKind} (joins : kind ∈ category.signs)
    : category.follow ≤ Precedence.unary := by
  cases category <;> simp only [signs, List.not_mem_nil] at joins <;> decide

/-- A category that a joining sign may follow is no looser than the chains it joins. -/
theorem rank_le_of_follow_le {chain category : Category} {kind : TokenKind}
    (joins : kind ∈ chain.signs) (le : chain.follow ≤ category.follow)
    : chain.rank ≤ category.rank := by
  revert le
  cases chain <;> simp only [signs, List.not_mem_nil] at joins <;> cases category <;> decide

/-- Only calls and what is tighter are followed at the level of calls, by cases. -/
theorem rank_call_le {category : Category} (le : Precedence.call ≤ category.follow)
    : call.rank ≤ category.rank := by
  revert le
  cases category <;> decide

end Category

/-- A token that continues an expression is an equals sign, opens arguments, or joins the
chains of the category just below its level.
-/
theorem operator_cases {kind : TokenKind} (positive : 0 < Precedence.ofKind kind)
    : kind = .equal ∨ kind = .leftParen
      ∨ kind ∈ (Category.atLevel (Precedence.ofKind kind - 1)).signs := by
  revert positive
  cases kind <;> decide

/-- No binary operator is written like an assignment or a call, by looking through the signs of
each category. -/
theorem ne_of_mem_signs {category : Category} {kind : TokenKind}
    (joins : kind ∈ category.signs)
    : kind ≠ .equal ∧ kind ≠ .leftParen := by
  constructor
  · rintro rfl
    cases category <;> simp [Category.signs] at joins
  · rintro rfl
    cases category <;> simp [Category.signs] at joins

namespace Phrase

/-- A phrase is also a phrase of every looser category, with the same tokens and tree. -/
theorem loosen {category : Category} (phrase : Phrase category) {looser : Category}
    (le : looser.rank ≤ category.rank)
    : ∃ same : Phrase looser, same.yield = phrase.yield ∧ same.tree = phrase.tree := by
  by_cases equal : looser = category
  · subst equal
    exact ⟨phrase, rfl, rfl⟩
  · have next : looser.tighter.rank ≤ category.rank ∧ looser ≠ .primary
        ∧ looser.tighter.rank = looser.rank + 1 := by
      revert equal le
      cases looser <;> cases category <;> decide
    obtain ⟨same, yields, trees⟩ := phrase.loosen next.1
    exact ⟨plain next.2.1 same, yields, trees⟩
termination_by category.rank - looser.rank
decreasing_by omega

/-- Only a name by itself has a reference as its tree. -/
theorem yield_of_tree_reference {category : Category} (phrase : Phrase category) {name : Token}
    (isReference : phrase.tree = .reference name)
    : phrase.yield = [name] ∧ name.kind = .identifier := by
  induction phrase with
  | plain looser inner ih => exact ih isReference
  | reference found =>
      obtain rfl : found.val = name := by simpa [tree] using isReference
      exact ⟨rfl, found.property⟩
  | assign | chain | unary | call | literal | grouping => simp [tree] at isReference

/-- Tokens that an expression can start with. -/
def startKinds : List TokenKind :=
  [.identifier, .minus, .bang, .leftParen] ++ literalKinds

/-- A phrase starts with a token that starts expressions. -/
theorem yield_eq_cons {category : Category} (phrase : Phrase category)
    : ∃ first others, phrase.yield = first :: others ∧ first.kind ∈ startKinds := by
  induction phrase with
  | assign name sign value _ => exact ⟨_, _, rfl, by simp [startKinds, name.property]⟩
  | plain looser inner ih => exact ih
  | chain left operator joins right ihl _ =>
      obtain ⟨first, others, yields, starts⟩ := ihl
      exact ⟨first, _, by rw [yield, yields, List.cons_append], starts⟩
  | unary operator isUnary operand _ =>
      refine ⟨_, _, rfl, ?_⟩
      simp only [unarySigns, List.mem_cons, List.not_mem_nil, or_false] at isUnary
      rcases isUnary with isMinus | isBang
      · simp [startKinds, isMinus]
      · simp [startKinds, isBang]
  | call callee opening arguments closing ih _ =>
      obtain ⟨first, others, yields, starts⟩ := ih
      exact ⟨first, _, by rw [yield, yields, List.cons_append], starts⟩
  | literal token isLiteral => exact ⟨_, _, rfl, List.mem_append_right _ isLiteral⟩
  | reference name => exact ⟨_, _, rfl, by simp [startKinds, name.property]⟩
  | grouping opening inner closing _ => exact ⟨_, _, rfl, by simp [startKinds, opening.property]⟩

end Phrase

end Sprig.Grammar
