import Sprig.Proofs.Number.ShortestDecimal

/-! Numerals are read faithfully. A numeral is rounded twice, so it need not be read as the nearest
number. But both roundings keep the order and leave the magnitudes of single precision as they are,
so it is read as one of the two magnitudes around its value.
-/

namespace Sprig

open Format

namespace Format

/-- Every value has a magnitude just below it and one just above it, which may be infinity. -/
theorem exists_bracket (format : Format) {x : ℚ} (nonneg : 0 ≤ x) (last : Nat)
    : ∃ rank ≤ last, format.units rank ≤ x ∧ (rank = last ∨ x < format.units (rank + 1)) := by
  induction last with
  | zero =>
      refine ⟨0, Nat.le_refl 0, ?_, .inl rfl⟩
      rw [format.units_of_lt format.block_pos]
      exact_mod_cast nonneg
  | succ last ih =>
      obtain ⟨rank, bounded, below, isLast | above⟩ := ih
      · subst isLast
        by_cases next : format.units (rank + 1) ≤ x
        · exact ⟨rank + 1, Nat.le_refl _, next, .inl rfl⟩
        · exact ⟨rank, Nat.le_succ rank, below, .inr (not_le.mp next)⟩
      · exact ⟨rank, Nat.le_succ_of_le bounded, below, .inr above⟩

/-- A magnitude is a number of few digits, times a power of two. -/
theorem exists_significand (format : Format) (rank : Nat)
    : ∃ significand shift, format.units rank = significand * 2 ^ shift
      ∧ significand < 2 * format.block ∧ shift ≤ rank / format.block := by
  rcases format.rank_cases rank with small | ⟨shift, offset, inside, rfl⟩
  · refine ⟨rank, 0, ?_, by omega, Nat.zero_le _⟩
    rw [format.units_of_lt small, Nat.pow_zero, Nat.mul_one]
  · refine ⟨format.block + offset, shift, format.units_block shift offset inside.le, by omega, ?_⟩
    rw [format.div_block _ _ inside]
    exact Nat.le_succ shift

end Format

/-- The units of double precision are smaller by this power of two. -/
def surplus : Nat :=
  double.unitExponent - single.unitExponent

/-- One has more units in double precision than in single precision by the surplus of its
exponent. -/
theorem unitsPerOne_double : double.unitsPerOne = single.unitsPerOne * 2 ^ surplus := by
  have finer : double.unitExponent = single.unitExponent + surplus := rfl
  rw [unitsPerOne, unitsPerOne, Nat.pow_eq, Nat.pow_eq, finer, Nat.pow_add]

/-- The magnitudes of single precision are magnitudes of double precision. -/
theorem exists_double_units {rank : Nat} (bounded : rank ≤ single.infinityRank)
    : ∃ wide ≤ double.infinityRank, double.units wide = single.units rank * 2 ^ surplus := by
  obtain ⟨significand, shift, value, few, small⟩ := single.exists_significand rank
  have singleBlock : single.block = 2 ^ 23 := rfl
  have doubleBlock : double.block = 2 ^ 52 := rfl
  have moderate : surplus = 925 := rfl
  have shifted : shift ≤ 255 := by
    refine small.trans (Nat.div_le_of_le_mul (bounded.trans ?_))
    rw [Nat.mul_comm]
    exact Nat.le_refl _
  obtain ⟨wide, wideValue, inside⟩ := double.exists_units significand (shift + surplus)
    (by rw [doubleBlock]; rw [singleBlock] at few; omega)
  refine ⟨wide, ?_, ?_⟩
  · have infinite : double.infinityRank = 2047 * double.block := rfl
    rw [infinite]
    exact inside.le.trans (Nat.mul_le_mul_right _ (by omega))
  · rw [wideValue, value, Nat.pow_add, Nat.mul_assoc]

namespace Magnitude

/-- The magnitude that a decimal is read as: rounded to double precision first, then to single. -/
def read (decimal : Decimal) : Magnitude :=
  .ofUnits (double.units (double.rankOfQuotient decimal.numerator decimal.denominator))
    (Nat.pow 2 surplus)

/-- Reading rounds a decimal to double precision and the result to single precision. -/
theorem rank_read (decimal : Decimal)
    : (read decimal).rank = single.rankOfUnits
        (double.units (double.rankOfUnits (decimal.numerator * double.unitsPerOne)
          decimal.denominator)) (2 ^ surplus) := by
  simp only [read, ofUnits, rankOfQuotient, Nat.pow_eq]

/-- The decimal in units of double precision. -/
theorem scaled_wide (decimal : Decimal)
    : ((decimal.numerator * double.unitsPerOne : Nat) / decimal.denominator : ℚ)
      = decimal.inUnits * 2 ^ surplus := by
  rw [unitsPerOne_double, Decimal.inUnits, ← decimal.numerator_div_denominator]
  push_cast
  ring

variable {first second decimal : Decimal} {magnitude : Magnitude}

/-- Greater decimals are not read as lesser magnitudes. -/
theorem rank_read_mono (le : first.value ≤ second.value)
    : (read first).rank ≤ (read second).rank := by
  have positive : 0 < 2 ^ surplus := Nat.pow_pos (by decide)
  have wide : double.rankOfUnits (first.numerator * double.unitsPerOne) first.denominator
      ≤ double.rankOfUnits (second.numerator * double.unitsPerOne) second.denominator := by
    refine rankOfUnits_mono (by decide) first.denominator_pos second.denominator_pos ?_
    rw [scaled_wide, scaled_wide, Decimal.inUnits, Decimal.inUnits]
    exact mul_le_mul_of_nonneg_right (mul_le_mul_of_nonneg_right le unitsPerOne_pos.le)
      (pow_pos two_pos surplus).le
  rw [rank_read, rank_read]
  refine rankOfUnits_mono (by decide) positive positive ?_
  exact div_le_div_of_nonneg_right (by exact_mod_cast double.units_strictMono.monotone wide)
    (Nat.cast_nonneg _)

/-- A decimal that is a magnitude is read as it. -/
theorem read_of_value_eq (same : decimal.value = magnitude.value) : read decimal = magnitude := by
  obtain ⟨wide, bounded, value⟩ := exists_double_units magnitude.rank_le
  have exact : double.rankOfUnits (decimal.numerator * double.unitsPerOne) decimal.denominator
      = wide := by
    rw [← rankOfUnits_units (by decide) bounded]
    refine rankOfUnits_congr (by decide) decimal.denominator_pos one_pos ?_
    rw [scaled_wide, Decimal.inUnits, same, value_mul_unitsPerOne, value, Nat.cast_one, div_one]
    push_cast
    rfl
  apply ext_rank
  rw [rank_read, exact, value]
  conv_rhs => rw [← rankOfUnits_units (by decide) magnitude.rank_le]
  refine rankOfUnits_congr (by decide) (Nat.pow_pos (by decide)) one_pos ?_
  push_cast
  field_simp

/-- A magnitude lies below a decimal just when its units do. -/
theorem value_le_iff
    : magnitude.value ≤ decimal.value ↔ (single.units magnitude.rank : ℚ) ≤ decimal.inUnits :=
  div_le_iff₀ unitsPerOne_pos

/-- A magnitude lies above a decimal just when its units do. -/
theorem lt_value_iff
    : decimal.value < magnitude.value ↔ decimal.inUnits < (single.units magnitude.rank : ℚ) :=
  lt_div_iff₀ unitsPerOne_pos

/-- The exact decimal of a magnitude has its value. -/
theorem value_exactDecimal (magnitude : Magnitude)
    : magnitude.exactDecimal.value = magnitude.value := by
  rw [value, eq_div_iff unitsPerOne_pos.ne']
  exact magnitude.inUnits_exactDecimal

/-- A decimal above a magnitude is not read as a lesser one, and not as a greater one if it is
below.
-/
theorem rank_le_rank_read (le : magnitude.value ≤ decimal.value)
    : magnitude.rank ≤ (read decimal).rank := by
  rw [← value_exactDecimal] at le
  exact read_of_value_eq magnitude.value_exactDecimal ▸ rank_read_mono le

/-- A decimal below a magnitude is read as no more than it, since reading is monotone and reads
the magnitude's exact decimal as itself. -/
theorem rank_read_le_rank (le : decimal.value ≤ magnitude.value)
    : (read decimal).rank ≤ magnitude.rank := by
  rw [← value_exactDecimal] at le
  exact read_of_value_eq magnitude.value_exactDecimal ▸ rank_read_mono le

/-- A decimal is read as one of the two magnitudes around it. -/
theorem read_bracketed (decimal : Decimal)
    : ∃ lower upper : Magnitude, upper.rank = lower.rank + 1 ∧ lower.value ≤ decimal.value
      ∧ (upper.isInfinite = true ∨ decimal.value < upper.value)
      ∧ (read decimal = lower ∨ read decimal = upper) := by
  have nonneg : 0 ≤ decimal.inUnits := by
    rw [← decimal.scaled_div_denominator]
    positivity
  obtain ⟨rank, bounded, below, above⟩ := single.exists_bracket nonneg (single.infinityRank - 1)
  have some : 0 < single.infinityRank := by decide
  obtain ⟨lower, isLower⟩ : ∃ lower : Magnitude, lower.rank = rank := ⟨⟨rank, by omega⟩, rfl⟩
  obtain ⟨upper, isUpper⟩ : ∃ upper : Magnitude, upper.rank = rank + 1 :=
    ⟨⟨rank + 1, by omega⟩, rfl⟩
  have least : lower.value ≤ decimal.value := by rwa [value_le_iff, isLower]
  have greatest : upper.isInfinite = true ∨ decimal.value < upper.value := by
    rcases above with isLast | above
    · left
      rw [isInfinite, beq_iff_eq]
      omega
    · right
      rwa [lt_value_iff, isUpper]
  -- reading is monotone and exact on both neighbours, so it cannot leave the interval
  have low := rank_le_rank_read least
  have high : (read decimal).rank ≤ upper.rank := by
    rcases greatest with infinite | above
    · have isLast : upper.rank = single.infinityRank := beq_iff_eq.mp infinite
      have capped := (read decimal).rank_le
      omega
    · exact rank_read_le_rank above.le
  refine ⟨lower, upper, by omega, least, greatest, ?_⟩
  rcases Nat.lt_or_eq_of_le low with next | same
  · exact .inr (ext_rank (by omega))
  · exact .inl (ext_rank same.symm)

end Magnitude

-- Literals

/-- A decimal stands for the magnitude that is read from it, without a sign. -/
theorem Number.ofDecimal_eq_read (decimal : Decimal)
    : ofDecimal decimal = signed false (.read decimal) := by
  simp only [ofDecimal, Magnitude.read, surplus]

namespace Decimal

/-- The lexeme is a row of digits that a point may divide, and `x` is its exact value. -/
def Writes (lexeme : List Char) (x : ℚ) : Prop :=
  ∃ whole fraction, whole ≠ [] ∧ (∀ c ∈ whole ++ fraction, c.isDigit = true)
    ∧ lexeme = numeral whole fraction ∧ x = numeralValue whole fraction

end Decimal

namespace Lexed

/-- A number token with this lexeme stands for the number, in some text. -/
def Reads (lexeme : List Char) (literal : Number) : Prop :=
  ∃ (source : String) (token : Token), token ∈ (ofSource source).tokens ∧ token.kind = .number
    ∧ token.lexeme.toList = lexeme ∧ token.literal = some (.number literal)

/-- A numeral is read as the same number wherever it stands. -/
theorem exists_reads {lexeme : List Char} {x : ℚ} (writes : Decimal.Writes lexeme x)
    : ∃ decimal : Decimal, decimal.value = x
      ∧ ∀ literal, Reads lexeme literal ↔ literal = .signed false (.read decimal) := by
  obtain ⟨whole, fraction, isSome, digits, rfl, rfl⟩ := writes
  refine ⟨.ofDigits whole fraction, Decimal.value_ofDigits whole fraction, fun literal => ?_⟩
  constructor
  · rintro ⟨source, token, member, isNumber, isLexeme, stands⟩
    obtain ⟨whole', fraction', _, digits', text, literal'⟩ := exists_digits member isNumber
    have same : Decimal.ofDigits whole' fraction' = .ofDigits whole fraction := by
      rw [← Decimal.ofText_numeral digits', ← Decimal.ofText_numeral digits, ← isLexeme, text]
    rw [stands, same] at literal'
    rw [← Number.ofDecimal_eq_read]
    exact Value.number.inj (Option.some.inj literal')
  · rintro rfl
    have lexes : Segment.LexesAs .start (Decimal.numeral whole fraction) [] _ :=
      .lexeme (Decimal.isLexeme_numeral isSome digits) .nil
    let text := Decimal.numeral whole fraction
    refine ⟨String.ofList text,
      ⟨.number, String.ofList text, Segment.literal .number text, .start⟩, ?_, rfl,
      String.toList_ofList, ?_⟩
    · rw [tokens, TokenStream.toList, ofSource, String.toList_ofList, lexes.ofChars.1]
      exact List.mem_append_left _ (List.mem_singleton.mpr rfl)
    · rw [Segment.literal, Decimal.ofText_numeral digits, Number.ofDecimal_eq_read]

end Lexed

/-- Numbers without a sign are ordered as their ranks are. -/
theorem Number.lessEqual_iff {first second : Magnitude}
    : (signed false first).lessEqual (signed false second) = true ↔ first.rank ≤ second.rank := by
  simp [lessEqual, place?]

namespace Lexed

/-- Numerals are read in order: a numeral of greater value is not read as a lesser number, and
numerals of the same value are read as the same number. A numeral that is a finite number is read as
that number, and any other as one of the two numbers around it, where infinity comes after the
largest finite number.
-/
theorem literals_faithful {lexeme : List Char} {x : ℚ} (writes : Decimal.Writes lexeme x)
    : ∃ literal : Number, (∀ other, Reads lexeme other ↔ other = literal)
      ∧ (∀ magnitude : Magnitude, magnitude.isInfinite = false → x = magnitude.value →
          literal = .signed false magnitude)
      ∧ (∃ lower upper : Magnitude, upper.rank = lower.rank + 1 ∧ lower.value ≤ x
          ∧ (upper.isInfinite = true ∨ x < upper.value)
          ∧ (literal = .signed false lower ∨ literal = .signed false upper))
      ∧ ∀ (lexeme' : List Char) (x' : ℚ) (literal' : Number),
          Decimal.Writes lexeme' x' → Reads lexeme' literal' →
          (x ≤ x' → literal.lessEqual literal' = true) ∧ (x = x' → literal = literal') := by
  obtain ⟨decimal, rfl, reads⟩ := exists_reads writes
  refine ⟨_, reads, ?_, ?_, ?_⟩
  · intro magnitude _ same
    rw [Magnitude.read_of_value_eq same]
  · obtain ⟨lower, upper, next, below, above, read⟩ := Magnitude.read_bracketed decimal
    exact ⟨lower, upper, next, below, above,
      read.imp (congrArg (Number.signed false)) (congrArg (Number.signed false))⟩
  · intro lexeme' x' literal' writes' isRead'
    obtain ⟨decimal', rfl, reads'⟩ := exists_reads writes'
    obtain rfl := (reads' literal').mp isRead'
    constructor
    · intro le
      exact Number.lessEqual_iff.mpr (Magnitude.rank_read_mono le)
    · intro same
      have equal := Magnitude.ext_rank (le_antisymm (Magnitude.rank_read_mono same.le)
        (Magnitude.rank_read_mono same.ge))
      rw [equal]

/-- A numeral half way between two numbers, and the numeral of the greater one. -/
theorem literals_faithful_between
    : Decimal.Writes "16777217.0".toList 16777217 ∧ Decimal.Writes "16777218".toList 16777218
      ∧ Reads "16777218".toList (.ofBits 0x4B800001)
      ∧ ∃ literal, Reads "16777217.0".toList literal
        ∧ literal.lessEqual (.ofBits 0x4B800001) = true
        ∧ ∃ lower upper : Magnitude, upper.rank = lower.rank + 1 ∧ lower.value ≤ 16777217
          ∧ (upper.isInfinite = true ∨ 16777217 < upper.value)
          ∧ (literal = .signed false lower ∨ literal = .signed false upper) := by
  have digits : Nat.ofDigitChars 10 ("16777217".toList ++ ['0']) 0 = 167772170 := by decide
  have between : Decimal.Writes "16777217.0".toList 16777217 :=
    ⟨"16777217".toList, ['0'], by decide, List.all_eq_true.mp (by decide), by decide,
      by norm_num [Decimal.numeralValue, digits]⟩
  have digits' : Nat.ofDigitChars 10 "16777218".toList 0 = 16777218 := by decide
  have greater : Decimal.Writes "16777218".toList 16777218 :=
    ⟨"16777218".toList, [], by decide, List.all_eq_true.mp (by decide), by decide,
      by norm_num [Decimal.numeralValue, digits']⟩
  have isRead : Reads "16777218".toList (.ofBits 0x4B800001) :=
    ⟨"16777218", ⟨.number, "16777218", some (.number (.ofBits 0x4B800001)), .start⟩,
      by decide +kernel, rfl, rfl, rfl⟩
  obtain ⟨literal, reads, _, bracketed, ordered⟩ := literals_faithful between
  refine ⟨between, greater, isRead, literal, (reads literal).mpr rfl, ?_, bracketed⟩
  exact (ordered _ _ _ greater isRead).1 (by norm_num)

end Lexed

end Sprig
