import Mathlib.Logic.ExistsUnique
import Sprig.Proofs.Number.Nearest
import Sprig.Proofs.Value.Data

/-! Equality and order of values. Numbers are compared by their places on the number line, where
both zeros share a place and `nan` has none; any other value is equal only to itself. What the signs
for equality and order say about values follows from that.
-/

namespace Sprig

/-- Magnitudes are numbered in the order of their values. -/
theorem Magnitude.rank_lt_rank_iff {first second : Magnitude}
    : first.rank < second.rank ↔ first.value < second.value := by
  constructor
  · exact value_lt_value
  · intro lt
    by_contra above
    rcases Nat.lt_or_eq_of_le (Nat.le_of_not_lt above) with greater | same
    · exact lt_asymm lt (value_lt_value greater)
    · exact lt.ne (by rw [ext_rank same])

/-- A magnitude has a rank above zero just when its value is, as zero has rank zero. -/
theorem Magnitude.rank_pos_iff {magnitude : Magnitude}
    : 0 < magnitude.rank ↔ 0 < magnitude.value := by
  have none : Magnitude.zero.value = 0 := Number.withSign_zero false
  rw [← none]
  exact @rank_lt_rank_iff zero magnitude

namespace Number

variable {a b c : Number}

-- Places

/-- The place of a signed number is its rank, counted down if it is negative. -/
theorem place?_signed (negative : Bool) (magnitude : Magnitude)
    : (signed negative magnitude).place?
      = some (if negative then -(magnitude.rank : Int) else magnitude.rank) := by
  cases negative <;> rfl

/-- Every number but `nan` has a place. -/
theorem exists_place (isNumber : a ≠ nan) : ∃ place, a.place? = some place := by
  cases a with
  | nan => exact absurd rfl isNumber
  | signed negative magnitude => exact ⟨_, place?_signed negative magnitude⟩

/-- What has a place is not `nan`. -/
theorem ne_nan_of_place {place : Int} (isPlace : a.place? = some place) : a ≠ nan := by
  rintro rfl
  simp [place?] at isPlace

/-- Two numbers are equal just when they share a place. -/
theorem equals_iff
    : a.equals b = true ↔ ∃ place, a.place? = some place ∧ b.place? = some place := by
  unfold equals
  split
  · next p q isPlace isPlace' =>
    rw [isPlace, isPlace', beq_iff_eq]
    constructor
    · rintro rfl
      exact ⟨p, rfl, rfl⟩
    · rintro ⟨place, isP, isQ⟩
      exact Option.some.inj (isP.trans isQ.symm)
  · next missing =>
    simp only [Bool.false_eq_true, false_iff, not_exists]
    rintro place ⟨isPlace, isPlace'⟩
    exact missing place place isPlace isPlace'

/-- A number is less than another just when its place is. -/
theorem less_iff
    : a.less b = true ↔ ∃ p q, a.place? = some p ∧ b.place? = some q ∧ p < q := by
  unfold less
  split
  · next p q isPlace isPlace' =>
    rw [isPlace, isPlace']
    simp
  · next missing =>
    simp only [Bool.false_eq_true, false_iff, not_exists]
    rintro p q ⟨isPlace, isPlace', _⟩
    exact missing p q isPlace isPlace'

-- Laws of numbers

/-- Equality of numbers is symmetric, since sharing a place is. -/
theorem equals_comm (a b : Number) : a.equals b = b.equals a := by
  rw [Bool.eq_iff_iff, equals_iff, equals_iff]
  simp only [and_comm]

/-- Equality of numbers is transitive, since each has one place. -/
theorem equals_trans (first : a.equals b = true) (second : b.equals c = true)
    : a.equals c = true := by
  obtain ⟨place, isPlace, shared⟩ := equals_iff.mp first
  obtain ⟨place', shared', isPlace'⟩ := equals_iff.mp second
  obtain rfl := Option.some.inj (shared.symm.trans shared')
  exact equals_iff.mpr ⟨place, isPlace, isPlace'⟩

/-- A number equals itself just when it is not `nan`, since all others have a place. -/
theorem equals_self_iff : a.equals a = true ↔ a ≠ nan := by
  rw [equals_iff]
  constructor
  · rintro ⟨place, isPlace, _⟩
    exact ne_nan_of_place isPlace
  · intro isNumber
    obtain ⟨place, isPlace⟩ := exists_place isNumber
    exact ⟨place, isPlace, isPlace⟩

/-- Only zeros share their place with another number. -/
theorem eq_or_isZero_of_equals (equal : a.equals b = true)
    : a = b ∨ a.isZero = true ∧ b.isZero = true := by
  obtain ⟨place, isPlace, isPlace'⟩ := equals_iff.mp equal
  cases a with
  | nan => exact absurd rfl (ne_nan_of_place isPlace)
  | signed negative first =>
      cases b with
      | nan => exact absurd rfl (ne_nan_of_place isPlace')
      | signed negative' second =>
          rw [place?_signed, Option.some.injEq] at isPlace isPlace'
          by_cases sign : negative = negative'
          · subst sign
            have ranks : first.rank = second.rank := by
              split at isPlace <;> omega
            exact .inl (by rw [Magnitude.ext_rank ranks])
          · -- numbers on different sides meet only in the middle
            have ranks : first.rank = 0 ∧ second.rank = 0 := by
              cases negative <;> cases negative' <;> simp at sign isPlace isPlace' <;> omega
            exact .inr (by simpa [isZero, Magnitude.isZero] using ranks)

/-- The order of numbers is transitive, since that of places is. -/
theorem less_trans (first : a.less b = true) (second : b.less c = true) : a.less c = true := by
  obtain ⟨p, q, isP, isQ, lt⟩ := less_iff.mp first
  obtain ⟨q', r, isQ', isR, lt'⟩ := less_iff.mp second
  obtain rfl := Option.some.inj (isQ.symm.trans isQ')
  exact less_iff.mpr ⟨p, r, isP, isR, lt.trans lt'⟩

/-- Less or equal is less, or equal. -/
theorem lessEqual_eq (a b : Number) : a.lessEqual b = (a.less b || a.equals b) := by
  unfold lessEqual less equals
  split
  · rw [Bool.eq_iff_iff]
    simp [Int.le_iff_lt_or_eq]
  · rfl

/-- Of two numbers that have places, one comes first or they share a place. -/
theorem trichotomy (isNumber : a ≠ nan) (isNumber' : b ≠ nan)
    : (a.less b = true ∧ a.equals b = false ∧ b.less a = false)
      ∨ (a.less b = false ∧ a.equals b = true ∧ b.less a = false)
      ∨ (a.less b = false ∧ a.equals b = false ∧ b.less a = true) := by
  obtain ⟨p, isP⟩ := exists_place isNumber
  obtain ⟨q, isQ⟩ := exists_place isNumber'
  simp only [less, equals, isP, isQ, decide_eq_true_eq, decide_eq_false_iff_not, beq_iff_eq,
    beq_eq_false_iff_ne]
  omega

/-- Numbers are ordered as their values are. -/
theorem less_signed_iff {negative negative' : Bool} {first second : Magnitude}
    : (signed negative first).less (signed negative' second) = true
      ↔ withSign negative first.value < withSign negative' second.value := by
  have places : (signed negative first).less (signed negative' second) = true
      ↔ (if negative then -(first.rank : Int) else first.rank)
        < if negative' then -(second.rank : Int) else second.rank := by
    simp only [less, place?_signed, decide_eq_true_eq]
  rw [places]
  have nonneg := first.value_nonneg
  have nonneg' := second.value_nonneg
  cases negative with
  | false =>
      cases negative' with
      | false => simpa [withSign] using Magnitude.rank_lt_rank_iff
      | true =>
          simp only [withSign, if_true, Bool.false_eq_true, if_false]
          constructor
          · intro lt
            omega
          · intro lt
            linarith
  | true =>
      cases negative' with
      | false =>
          simp only [withSign, if_true, Bool.false_eq_true, if_false]
          -- the zeros alone are not told apart by their signs
          have apart : -(first.rank : Int) < second.rank ↔ 0 < first.rank ∨ 0 < second.rank := by
            omega
          rw [apart, Magnitude.rank_pos_iff, Magnitude.rank_pos_iff]
          constructor
          · rintro (pos | pos) <;> linarith
          · intro lt
            by_contra! zeros
            linarith [zeros.1, zeros.2]
      | true => simpa [withSign] using Magnitude.rank_lt_rank_iff

end Number

/-- What signs of a kind answer about two values, wherever they stand. -/
def TokenKind.Answers (kind : TokenKind) (left right : Value) (truth : Bool) : Prop :=
  ∀ token : Token, token.kind = kind → token.applyBinary left right = .ok (.boolean truth)

namespace TokenKind

/-- The signs that tell which value is the greater one. -/
def orderSigns : List TokenKind :=
  [less, lessEqual, greater, greaterEqual]

/-- A sign answers a truth just when its operator gives it, whatever token carries the sign. -/
theorem answers_iff {kind : TokenKind} {operator : BinaryOperator}
    (isOperator : BinaryOperator.ofKind? kind = some operator) {left right : Value} {truth : Bool}
    : kind.Answers left right truth ↔ operator.apply left right = .ok (.boolean truth) := by
  constructor
  · intro answers
    have applied := answers ⟨kind, "", none, .start⟩ rfl
    simp only [Token.applyBinary, isOperator] at applied
    exact Token.blame_eq_ok applied
  · rintro applied token rfl
    simp only [Token.applyBinary, isOperator, applied]
    rfl

/-- How the signs for equality and order relate numbers. -/
def relation? : TokenKind → Option (Number → Number → Bool)
  | equalEqual => some Number.equals
  | less => some Number.less
  | lessEqual => some Number.lessEqual
  | greater => some fun a b => b.less a
  | greaterEqual => some fun a b => b.lessEqual a
  | _ => none

/-- The sign of equality answers whether two values are equal. -/
theorem answers_equals (a b : Value) : equalEqual.Answers a b (a.equals b) :=
  (answers_iff rfl).mpr rfl

/-- The signs for order stand for operators that compare. -/
theorem exists_comparison {kind : TokenKind} (ordering : kind ∈ orderSigns)
    : ∃ operator relation, BinaryOperator.ofKind? kind = some operator
      ∧ operator.apply = BinaryOperator.comparison relation ∧ kind.relation? = some relation := by
  simp only [orderSigns, List.mem_cons, List.not_mem_nil, or_false] at ordering
  rcases ordering with rfl | rfl | rfl | rfl <;> exact ⟨_, _, rfl, rfl, rfl⟩

/-- The signs of equality and order each stand for a relation between numbers. -/
theorem exists_relation {kind : TokenKind} (relating : kind ∈ equalEqual :: orderSigns)
    : ∃ relation, kind.relation? = some relation := by
  rcases List.mem_cons.mp relating with rfl | ordering
  · exact ⟨_, rfl⟩
  · obtain ⟨_, relation, _, _, relates⟩ := exists_comparison ordering
    exact ⟨relation, relates⟩

/-- On numbers a sign answers what its relation says, by cases on the sign. -/
theorem answers_number_iff {kind : TokenKind} {relation : Number → Number → Bool}
    (relates : kind.relation? = some relation) {a b : Number} {truth : Bool}
    : kind.Answers (.number a) (.number b) truth ↔ relation a b = truth := by
  cases kind <;> simp only [relation?, Option.some.injEq, reduceCtorEq] at relates
  all_goals
    subst relates
    rw [answers_iff rfl]
    simp [BinaryOperator.apply, BinaryOperator.comparison, BinaryOperator.onNumbers, Value.equals]

/-- Which of three signs affirm something about two numbers. -/
theorem answers_affirmed_iff {kind : TokenKind} {a b : Number}
    : kind ∈ [less, equalEqual, greater] ∧ kind.Answers (.number a) (.number b) true
      ↔ (kind = less ∧ a.less b = true) ∨ (kind = equalEqual ∧ a.equals b = true)
        ∨ (kind = greater ∧ b.less a = true) := by
  constructor
  · rintro ⟨member, answers⟩
    simp only [List.mem_cons, List.not_mem_nil, or_false] at member
    rcases member with rfl | rfl | rfl <;> rw [answers_number_iff rfl] at answers
    · exact .inl ⟨rfl, answers⟩
    · exact .inr (.inl ⟨rfl, answers⟩)
    · exact .inr (.inr ⟨rfl, answers⟩)
  · rintro (⟨rfl, holds⟩ | ⟨rfl, holds⟩ | ⟨rfl, holds⟩)
    · exact ⟨by decide, (answers_number_iff rfl).mpr holds⟩
    · exact ⟨by decide, (answers_number_iff rfl).mpr holds⟩
    · exact ⟨by decide, (answers_number_iff rfl).mpr holds⟩

/-- Nothing holds between `nan` and a number. -/
theorem relation_nan {kind : TokenKind} {relation : Number → Number → Bool}
    (relates : kind.relation? = some relation) {a b : Number} (either : a = .nan ∨ b = .nan)
    : relation a b = false := by
  have noPlace (number : Number) (isNan : number = .nan) : number.place? = none := by
    rw [isNan]
    rfl
  cases kind <;> simp only [relation?, Option.some.injEq, reduceCtorEq] at relates
  all_goals
    subst relates
    rcases either with isNan | isNan <;>
      simp [Number.equals, Number.less, Number.lessEqual, noPlace _ isNan]

end TokenKind

/-- Comparing anything but two numbers is refused, with the types of both. -/
theorem BinaryOperator.comparison_of_other {left right : Value}
    (other : ¬ (left.type = .number ∧ right.type = .number)) (relation : Number → Number → Bool)
    : comparison relation left right = .error (.cannotCombine .compare left.type right.type) := by
  unfold comparison onNumbers
  split
  · exact absurd ⟨rfl, rfl⟩ other
  · rfl

namespace Value

variable {a b c : Value}

def isZero : Value → Bool
  | number value => value.isZero
  | _ => false

/-- A value is equal only to itself, unless it is a number. -/
theorem equals_iff
    : a.equals b = true
      ↔ (∃ x y, a = .number x ∧ b = .number y ∧ x.equals y = true)
        ∨ a = b ∧ a.type ≠ .number := by
  cases a <;> cases b <;> simp [equals, type]

/-- A value of the type of numbers is one. -/
theorem exists_number (isNumber : a.type = .number) : ∃ x, a = .number x := by
  cases a with
  | number x => exact ⟨x, rfl⟩
  | nil | boolean _ | text _ | function _ | absent => exact ValueType.noConfusion isNumber

/-- Equality of values is symmetric: of numbers as such, and of other values as identity. -/
theorem equals_symm (equal : a.equals b = true) : b.equals a = true := by
  rcases equals_iff.mp equal with ⟨x, y, rfl, rfl, same⟩ | ⟨rfl, _⟩
  · exact (Number.equals_comm y x).trans same
  · exact equal

/-- Equality of values is transitive: of numbers as such, and of other values as identity. -/
theorem equals_trans (first : a.equals b = true) (second : b.equals c = true)
    : a.equals c = true := by
  rcases equals_iff.mp first with ⟨x, y, rfl, rfl, same⟩ | ⟨rfl, _⟩
  · rcases equals_iff.mp second with ⟨y', z, isY, rfl, same'⟩ | ⟨_, other⟩
    · obtain rfl := Value.number.inj isY
      exact Number.equals_trans same same'
    · exact absurd rfl other
  · exact second

/-- A value equals itself just when it is not `nan`, by whether it is a number. -/
theorem equals_self_iff : a.equals a = true ↔ a ≠ .number .nan := by
  by_cases isNumber : a.type = .number
  · obtain ⟨x, rfl⟩ := exists_number isNumber
    rw [ne_eq, Value.number.injEq]
    exact Number.equals_self_iff
  · have itself : a.equals a = true := equals_iff.mpr (.inr ⟨rfl, isNumber⟩)
    exact iff_of_true itself fun isNan => isNumber (by rw [isNan]; rfl)

/-- Equal values are the same value, or zeros. -/
theorem eq_or_isZero_of_equals (equal : a.equals b = true)
    : a = b ∨ a.isZero = true ∧ b.isZero = true := by
  rcases equals_iff.mp equal with ⟨x, y, rfl, rfl, same⟩ | ⟨same, _⟩
  · exact (Number.eq_or_isZero_of_equals same).imp_left (congrArg Value.number)
  · exact .inl same

/-- Only numbers are zero. -/
theorem type_eq_of_isZero (zero : a.isZero = true) : a.type = .number := by
  cases a with
  | number x => rfl
  | nil | boolean _ | text _ | function _ | absent => exact absurd zero Bool.false_ne_true

/-- Zero is falsy, with either sign. -/
theorem isFalsy_of_isZero (zero : a.isZero = true) : a.isFalsy = true := by
  obtain ⟨x, rfl⟩ := exists_number (type_eq_of_isZero zero)
  exact zero

/-- The value is a number that has a place. -/
def IsOrdered (value : Value) : Prop :=
  value.type = .number ∧ value ≠ .number .nan

/-- Ordered values are the numbers other than `nan`. -/
theorem IsOrdered.exists_number (ordered : a.IsOrdered) : ∃ x, a = .number x ∧ x ≠ .nan := by
  obtain ⟨x, rfl⟩ := Value.exists_number ordered.1
  exact ⟨x, rfl, fun isNan => ordered.2 (congrArg Value.number isNan)⟩

/-- What equality is to three values. -/
structure EqualityLaws (a b c : Value) : Prop where
  /-- The sign for equality finds fault with no values. -/
  answers : TokenKind.equalEqual.Answers a b (a.equals b)
  symm : a.equals b = true → b.equals a = true
  trans : a.equals b = true → b.equals c = true → a.equals c = true
  self_iff : a.equals a = true ↔ a ≠ .number .nan
  sameType : a.equals b = true → a.type = b.type
  sameTruth : a.equals b = true → a.isFalsy = b.isFalsy
  /-- The two zeros are equal, and written differently. -/
  sameText : a.equals b = true → ¬ (a.isZero = true ∧ b.isZero = true) → a.display = b.display

/-- What order is to three values. -/
structure OrderLaws (a b c : Value) : Prop where
  compares : a.type = .number → b.type = .number →
    ∀ kind ∈ TokenKind.orderSigns, ∃ truth, kind.Answers a b truth
  /-- Nothing but two numbers can be compared. -/
  refuses : ¬ (a.type = .number ∧ b.type = .number) →
    ∀ token : Token, token.kind ∈ TokenKind.orderSigns →
      token.applyBinary a b = .error (.failed ⟨.cannotCombine .compare a.type b.type, token⟩)
  trichotomy : a.IsOrdered → b.IsOrdered →
    ∃! kind, kind ∈ [TokenKind.less, .equalEqual, .greater] ∧ kind.Answers a b true
  lessEqual_iff : a.IsOrdered → b.IsOrdered →
    (TokenKind.lessEqual.Answers a b true
      ↔ TokenKind.less.Answers a b true ∨ TokenKind.equalEqual.Answers a b true)
  greaterEqual_iff : a.IsOrdered → b.IsOrdered →
    (TokenKind.greaterEqual.Answers a b true
      ↔ TokenKind.greater.Answers a b true ∨ TokenKind.equalEqual.Answers a b true)
  less_trans : TokenKind.less.Answers a b true → TokenKind.less.Answers b c true →
    TokenKind.less.Answers a c true
  /-- Numbers are ordered as their values are. -/
  byValue : ∀ negative magnitude negative' magnitude',
    a = .number (.signed negative magnitude) → b = .number (.signed negative' magnitude') →
    (TokenKind.less.Answers a b true
      ↔ Number.withSign negative magnitude.value < Number.withSign negative' magnitude'.value)
  unordered : a.type = .number → b.type = .number → a = .number .nan ∨ b = .number .nan →
    ∀ kind ∈ .equalEqual :: TokenKind.orderSigns, kind.Answers a b false

/-- The laws of equality, each from the law of numbers and from identity elsewhere. -/
theorem equalityLaws (a b c : Value) : EqualityLaws a b c where
  answers := TokenKind.answers_equals a b
  symm := equals_symm
  trans := equals_trans
  self_iff := equals_self_iff
  sameType equal := by
    rcases eq_or_isZero_of_equals equal with rfl | ⟨zero, zero'⟩
    · rfl
    · rw [type_eq_of_isZero zero, type_eq_of_isZero zero']
  sameTruth equal := by
    rcases eq_or_isZero_of_equals equal with rfl | ⟨zero, zero'⟩
    · rfl
    · rw [isFalsy_of_isZero zero, isFalsy_of_isZero zero']
  sameText equal distinct := by
    rcases eq_or_isZero_of_equals equal with rfl | zeros
    · rfl
    · exact absurd zeros distinct

/-- A sign that has an answer about the order of two values stands between numbers. -/
theorem exists_numbers_of_answers {kind : TokenKind} (ordering : kind ∈ TokenKind.orderSigns)
    {truth : Bool} (answers : kind.Answers a b truth)
    : ∃ x y, a = .number x ∧ b = .number y := by
  obtain ⟨operator, relation, isOperator, compares, _⟩ := TokenKind.exists_comparison ordering
  rw [TokenKind.answers_iff isOperator, compares] at answers
  by_cases numbers : a.type = .number ∧ b.type = .number
  · obtain ⟨x, isX⟩ := exists_number numbers.1
    obtain ⟨y, isY⟩ := exists_number numbers.2
    exact ⟨x, y, isX, isY⟩
  · simp [BinaryOperator.comparison_of_other numbers] at answers

/-- The laws of order, each carried over from the relations between numbers that the signs stand
for. -/
theorem orderLaws (a b c : Value) : OrderLaws a b c where
  compares isNumber isNumber' kind ordering := by
    obtain ⟨x, rfl⟩ := exists_number isNumber
    obtain ⟨y, rfl⟩ := exists_number isNumber'
    obtain ⟨_, relation, _, _, relates⟩ := TokenKind.exists_comparison ordering
    exact ⟨relation x y, (TokenKind.answers_number_iff relates).mpr rfl⟩
  refuses other token ordering := by
    obtain ⟨operator, relation, isOperator, compares, _⟩ := TokenKind.exists_comparison ordering
    simp only [Token.applyBinary, isOperator, compares,
      BinaryOperator.comparison_of_other other relation]
    rfl
  trichotomy ordered ordered' := by
    obtain ⟨x, rfl, isNumber⟩ := ordered.exists_number
    obtain ⟨y, rfl, isNumber'⟩ := ordered'.exists_number
    simp only [TokenKind.answers_affirmed_iff]
    rcases Number.trichotomy isNumber isNumber' with
      ⟨lt, eq, gt⟩ | ⟨lt, eq, gt⟩ | ⟨lt, eq, gt⟩ <;> simp [lt, eq, gt]
  lessEqual_iff ordered ordered' := by
    obtain ⟨x, rfl, _⟩ := ordered.exists_number
    obtain ⟨y, rfl, _⟩ := ordered'.exists_number
    rw [TokenKind.answers_number_iff rfl, TokenKind.answers_number_iff rfl,
      TokenKind.answers_number_iff rfl, Number.lessEqual_eq, Bool.or_eq_true]
  greaterEqual_iff ordered ordered' := by
    obtain ⟨x, rfl, _⟩ := ordered.exists_number
    obtain ⟨y, rfl, _⟩ := ordered'.exists_number
    rw [TokenKind.answers_number_iff rfl, TokenKind.answers_number_iff rfl,
      TokenKind.answers_number_iff rfl, Number.lessEqual_eq, Bool.or_eq_true, Number.equals_comm]
  less_trans first second := by
    obtain ⟨x, y, rfl, rfl⟩ := exists_numbers_of_answers (by decide) first
    obtain ⟨_, z, _, rfl⟩ := exists_numbers_of_answers (by decide) second
    rw [TokenKind.answers_number_iff rfl] at first second ⊢
    exact Number.less_trans first second
  byValue negative magnitude negative' magnitude' := by
    rintro rfl rfl
    rw [TokenKind.answers_number_iff rfl]
    exact Number.less_signed_iff
  unordered isNumber isNumber' either kind relating := by
    obtain ⟨x, rfl⟩ := exists_number isNumber
    obtain ⟨y, rfl⟩ := exists_number isNumber'
    obtain ⟨relation, relates⟩ := TokenKind.exists_relation relating
    rw [TokenKind.answers_number_iff relates]
    exact TokenKind.relation_nan relates (either.imp Value.number.inj Value.number.inj)

/-- Equality and order fit together. Equality never fails, relates only values of one type, and sees
no difference but that between the zeros; only `nan` is not equal to itself. Order compares numbers
and nothing else: of two numbers other than `nan`, the one is less than, equal to or greater than
the other, and about `nan` every sign answers no.
-/
theorem equality_order_coherent (a b c : Value) : EqualityLaws a b c ∧ OrderLaws a b c :=
  ⟨equalityLaws a b c, orderLaws a b c⟩

/-- Negative infinity, the zeros, which are equal but not written alike, and the least positive
number.
-/
theorem equality_order_coherent_zeros
    : ∃ a b b' c, a = .number (.ofBits 0xFF800000) ∧ b = .number (.ofBits 0x80000000)
      ∧ b' = .number (.ofBits 0x00000000) ∧ c = .number (.ofBits 0x00000001)
      ∧ b.equals b' = true ∧ b'.equals b = true ∧ b.isFalsy = b'.isFalsy
      ∧ b.display = "-0" ∧ b'.display = "0"
      ∧ TokenKind.less.Answers a b true ∧ TokenKind.less.Answers b c true
      ∧ TokenKind.less.Answers a c true := by
  obtain ⟨a, isA⟩ : ∃ a, a = Value.number (.ofBits 0xFF800000) := ⟨_, rfl⟩
  obtain ⟨b, isB⟩ : ∃ b, b = Value.number (.ofBits 0x80000000) := ⟨_, rfl⟩
  obtain ⟨b', isB'⟩ : ∃ b', b' = Value.number (.ofBits 0x00000000) := ⟨_, rfl⟩
  obtain ⟨c, isC⟩ : ∃ c, c = Value.number (.ofBits 0x00000001) := ⟨_, rfl⟩
  have equal : b.equals b' = true := by
    rw [isB, isB']
    decide
  have below : TokenKind.less.Answers a b true := by
    rw [isA, isB, TokenKind.answers_number_iff rfl]
    decide
  have above : TokenKind.less.Answers b c true := by
    rw [isB, isC, TokenKind.answers_number_iff rfl]
    decide
  have order := (equality_order_coherent a b c).2
  have zeros := (equality_order_coherent b b' c).1
  refine ⟨a, b, b', c, isA, isB, isB', isC, equal, zeros.symm equal, zeros.sameTruth equal, ?_, ?_,
    below, above, order.less_trans below above⟩
  · rw [isB]
    decide
  · rw [isB']
    decide

end Value

end Sprig
