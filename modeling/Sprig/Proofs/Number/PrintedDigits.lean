import Mathlib.Data.List.DropRight
import Sprig.Proofs.Number.ShortestDecimal

/-! The text of a number has as few digits as a text that rounds to the number can have. The grids
are tried from the coarsest on, and what is found on the first grid has the fewest digits: between a
decimal of fewer digits and one of more there is a power of ten, which stands on a coarser grid.
-/

namespace Sprig

open Format

/-- The first success of a search through the natural numbers. -/
theorem exists_of_findSome?_range {α : Type} {find : Nat → Option α} {bound : Nat} {found : α}
    (finds : (List.range bound).findSome? find = some found)
    : ∃ step < bound, find step = some found ∧ ∀ earlier < step, find earlier = none := by
  induction bound with
  | zero => simp at finds
  | succ bound ih =>
      rw [List.range_succ, List.findSome?_append] at finds
      cases before : (List.range bound).findSome? find with
      | some value =>
          obtain rfl : value = found := by simpa [before] using finds
          obtain ⟨step, inside, success⟩ := ih before
          exact ⟨step, Nat.lt_succ_of_lt inside, success⟩
      | none =>
          refine ⟨bound, Nat.lt_succ_self bound, by simpa [before] using finds, ?_⟩
          intro earlier inside
          exact List.findSome?_eq_none_iff.mp before earlier (List.mem_range.mpr inside)

namespace Magnitude

variable {magnitude : Magnitude} {decimal : Decimal}

/-- A decimal rounds to a magnitude just when that magnitude is nearest to it. -/
theorem ofDecimal_eq_iff
    : ofDecimal decimal = magnitude ↔ single.IsNearest decimal.inUnits magnitude.rank := by
  rw [← decimal.scaled_div_denominator, ← rankOfUnits_eq_iff (by decide) decimal.denominator_pos]
  exact ⟨fun same => congrArg rank same, fun same => ext_rank same⟩

/-- Rounding decimals is monotone. -/
theorem rank_ofDecimal_mono {first second : Decimal} (le : first.inUnits ≤ second.inUnits)
    : (ofDecimal first).rank ≤ (ofDecimal second).rank := by
  refine rankOfUnits_mono (by decide) first.denominator_pos second.denominator_pos ?_
  rwa [first.scaled_div_denominator, second.scaled_div_denominator]

/-- The decimals that round to a magnitude form an interval. -/
theorem ofDecimal_of_between {low middle high : Decimal} (lowRounds : ofDecimal low = magnitude)
    (highRounds : ofDecimal high = magnitude) (above : low.inUnits ≤ middle.inUnits)
    (below : middle.inUnits ≤ high.inUnits)
    : ofDecimal middle = magnitude := by
  apply ext_rank
  apply le_antisymm
  · exact highRounds ▸ rank_ofDecimal_mono below
  · exact lowRounds ▸ rank_ofDecimal_mono above

/-- A decimal that rounds to more than zero has a digit. -/
theorem digits_pos_of_rounds (rounds : ofDecimal decimal = magnitude)
    (nonzero : magnitude.isZero = false)
    : 0 < decimal.digits := by
  have positive : 0 < decimal.inUnits :=
    (ofDecimal_eq_iff.mp rounds).pos fun zero => by simp [isZero, zero] at nonzero
  refine Nat.pos_of_ne_zero fun none => positive.ne' ?_
  rw [Decimal.inUnits, Decimal.value, none, Nat.cast_zero, zero_mul, zero_mul]

-- The search through the grids

/-- The neighbours of a magnitude on a grid are the point below it and the next one, in the order
of their distances. -/
theorem mem_neighbours (magnitude : Magnitude) (exponent : Int) {floor : Nat}
    (isFloor : (magnitude.onGrid exponent).1 / (magnitude.onGrid exponent).2 = floor)
    : ⟨floor, exponent⟩ ∈ magnitude.neighbours exponent
      ∧ ⟨floor + 1, exponent⟩ ∈ magnitude.neighbours exponent := by
  rcases roundedQuotient_cases (magnitude.onGrid exponent).1 (magnitude.onGrid exponent).2
    with low | high
  · simp [neighbours, low, isFloor]
  · simp [neighbours, high, isFloor]

/-- A grid with a decimal that rounds to the magnitude is not passed over, because one of the
neighbours lies between the decimal and the magnitude.
-/
theorem isSome_roundTrip? (rounds : ofDecimal decimal = magnitude)
    : (magnitude.roundTrip? decimal.exponent).isSome := by
  generalize isFloor : (magnitude.onGrid decimal.exponent).1 / (magnitude.onGrid decimal.exponent).2
    = floor
  obtain ⟨below, above⟩ := magnitude.floor_bounds decimal.exponent isFloor
  obtain ⟨low, high⟩ := magnitude.mem_neighbours decimal.exponent isFloor
  have step := gridStep_pos decimal.exponent
  have exact := magnitude.ofDecimal_exactDecimal
  have place : decimal.inUnits = decimal.digits * gridStep decimal.exponent := inUnits_eq _ _
  rw [roundTrip?, List.find?_isSome]
  rcases Nat.lt_or_ge floor decimal.digits with greater | less
  · refine ⟨_, high, beq_iff_eq.mpr (ofDecimal_of_between exact rounds ?_ ?_)⟩
    · rw [inUnits_exactDecimal, inUnits_eq]
      push_cast
      exact above
    · rw [inUnits_eq, place]
      exact mul_le_mul_of_nonneg_right (by exact_mod_cast greater) step.le
  · refine ⟨_, low, beq_iff_eq.mpr (ofDecimal_of_between rounds exact ?_ ?_)⟩
    · rw [place, inUnits_eq]
      exact mul_le_mul_of_nonneg_right (by exact_mod_cast less) step.le
    · rw [inUnits_exactDecimal, inUnits_eq]
      exact below

/-- What is found on a grid is a point of that grid. -/
theorem exponent_of_roundTrip? {exponent : Int}
    (found : magnitude.roundTrip? exponent = some decimal)
    : decimal.exponent = exponent := by
  have member := List.mem_of_find?_eq_some found
  simp only [neighbours, List.mem_cons, List.not_mem_nil, or_false] at member
  rcases member with rfl | rfl <;> rfl

/-- The decimal rounds to the magnitude, and no decimal of a coarser grid does. -/
structure IsCoarsest (magnitude : Magnitude) (decimal : Decimal) : Prop where
  rounds : ofDecimal decimal = magnitude
  exponent_le : ∀ other : Decimal, ofDecimal other = magnitude → other.exponent ≤ decimal.exponent

/-- The decimals of all grids that are not tried round to infinity. -/
theorem exponent_le_coarsestExponent (finite : magnitude.isInfinite = false)
    (nonzero : magnitude.isZero = false) (rounds : ofDecimal decimal = magnitude)
    : decimal.exponent ≤ coarsestExponent := by
  by_contra! beyond
  have digits : (1 : ℚ) ≤ decimal.digits := by exact_mod_cast digits_pos_of_rounds rounds nonzero
  have large : (Decimal.mk 1 (coarsestExponent + 1)).inUnits ≤ decimal.inUnits := by
    have steps : gridStep (coarsestExponent + 1) ≤ gridStep decimal.exponent :=
      mul_le_mul_of_nonneg_right (zpow_le_zpow_right₀ (by norm_num) beyond) unitsPerOne_pos.le
    rw [inUnits_eq, inUnits_eq, Nat.cast_one]
    exact mul_le_mul digits steps (gridStep_pos _).le (by linarith)
  have overflow : (ofDecimal ⟨1, coarsestExponent + 1⟩).rank = single.infinityRank := by
    rfl
  have infinite : magnitude.rank = single.infinityRank := by
    apply le_antisymm magnitude.rank_le
    exact overflow ▸ rounds ▸ rank_ofDecimal_mono large
  simp [isInfinite, infinite] at finite

/-- The search succeeds, since the grid of the magnitude itself is tried last. -/
theorem exists_search (magnitude : Magnitude)
    : ∃ decimal, (List.range (coarsestExponent + single.unitExponent + 1)).findSome?
        (fun (step : Nat) => magnitude.roundTrip? (coarsestExponent - step)) = some decimal := by
  rw [← Option.isSome_iff_exists, List.findSome?_isSome_iff]
  refine ⟨coarsestExponent + single.unitExponent, List.mem_range.mpr (Nat.lt_succ_self _), ?_⟩
  have finest : (coarsestExponent - (coarsestExponent + single.unitExponent : Nat) : Int)
      = magnitude.exactDecimal.exponent := by
    rw [Nat.cast_add, sub_add_cancel_left]
    rfl
  rw [finest]
  exact isSome_roundTrip? magnitude.ofDecimal_exactDecimal

/-- The shortest decimal lies on the coarsest grid that has a decimal rounding to the magnitude:
the search goes from coarse to fine, tries all grids that could have one, and misses none that
has. -/
theorem shortest_isCoarsest (finite : magnitude.isInfinite = false)
    (nonzero : magnitude.isZero = false)
    : magnitude.IsCoarsest magnitude.shortest := by
  refine ⟨magnitude.shortest_spec.1, fun other rounds => ?_⟩
  have tried := exponent_le_coarsestExponent finite nonzero rounds
  obtain ⟨decimal, found⟩ := magnitude.exists_search
  obtain ⟨step, _, trips, before⟩ := exists_of_findSome?_range found
  have isShortest : magnitude.shortest = decimal := by
    simp only [shortest, found, Option.getD_some]
  rw [isShortest, exponent_of_roundTrip? trips]
  by_contra! coarser
  obtain ⟨earlier, same⟩ : ∃ earlier : Nat, other.exponent = coarsestExponent - earlier :=
    ⟨(coarsestExponent - other.exponent).toNat, by omega⟩
  have some := isSome_roundTrip? rounds
  rw [same, before earlier (by omega)] at some
  exact absurd some Bool.false_ne_true

-- The coarsest grid has the fewest digits

namespace IsCoarsest

variable (coarsest : magnitude.IsCoarsest decimal)

include coarsest

/-- A power of ten between a decimal and the coarsest one is the coarsest one. -/
theorem digits_lt_pow (nonzero : magnitude.isZero = false) {other : Decimal}
    (rounds : ofDecimal other = magnitude) {count : Nat} (few : other.digits < 10 ^ count)
    : decimal.digits < 10 ^ count := by
  by_contra! many
  have step := gridStep_pos decimal.exponent
  let power : Decimal := ⟨1, decimal.exponent + count⟩
  have place : power.inUnits = 10 ^ count * gridStep decimal.exponent := by
    rw [inUnits_eq, gridStep, gridStep, zpow_add₀ (by norm_num), zpow_natCast]
    push_cast
    ring
  have above : other.inUnits ≤ power.inUnits := by
    have steps : gridStep other.exponent ≤ gridStep decimal.exponent :=
      mul_le_mul_of_nonneg_right (zpow_le_zpow_right₀ (by norm_num)
        (coarsest.exponent_le other rounds)) unitsPerOne_pos.le
    rw [place, show other.inUnits = other.digits * gridStep other.exponent from inUnits_eq _ _]
    exact mul_le_mul (by exact_mod_cast few.le) steps (gridStep_pos _).le (by positivity)
  have below : power.inUnits ≤ decimal.inUnits := by
    have units : decimal.inUnits = decimal.digits * gridStep decimal.exponent := inUnits_eq _ _
    rw [place, units]
    exact mul_le_mul_of_nonneg_right (by exact_mod_cast many) step.le
  have coarser : decimal.exponent + count ≤ decimal.exponent :=
    coarsest.exponent_le power (ofDecimal_of_between rounds coarsest.rounds above below)
  obtain rfl : count = 0 := by omega
  have some := digits_pos_of_rounds rounds nonzero
  omega

/-- The coarsest decimal does not end in a zero. -/
theorem digits_mod_ten : decimal.digits % 10 ≠ 0 := by
  intro trailing
  have same : Decimal.value ⟨decimal.digits / 10, decimal.exponent + 1⟩ = decimal.value := by
    have exact : (decimal.digits : ℚ) = (decimal.digits / 10 : Nat) * 10 := by
      exact_mod_cast (Nat.div_mul_cancel (Nat.dvd_of_mod_eq_zero trailing)).symm
    rw [Decimal.value, Decimal.value, exact, zpow_add₀ (by norm_num), zpow_one]
    ring
  have coarser := coarsest.exponent_le _ ((ofDecimal_congr same).trans coarsest.rounds)
  dsimp only at coarser
  omega

end IsCoarsest

end Magnitude

-- The digits of a text

namespace Decimal

/-- The digits from the first to the last one that is not zero. -/
def significant (digits : List Char) : List Char :=
  (digits.dropWhile (· == '0')).rdropWhile (· == '0')

/-- Only zero is written as the digit zero, by trying the ten digits. -/
theorem digitChar_ne_zero {digit : Nat} (small : digit < 10) (nonzero : digit ≠ 0)
    : digit.digitChar ≠ '0' := by
  have all : ∀ digit < 10, digit ≠ 0 → digit.digitChar ≠ '0' := by decide
  exact all digit small nonzero

/-- A positive number is written without a leading zero, by induction on the number. -/
theorem head?_toDigits {number : Nat} (positive : 0 < number)
    : (Nat.toDigits 10 number).head? ≠ some '0' := by
  induction number using Nat.strongRecOn with
  | ind number ih =>
      by_cases small : number < 10
      · rw [Nat.toDigits_of_lt_base small, List.head?_singleton, ne_eq, Option.some.injEq]
        exact digitChar_ne_zero small positive.ne'
      · rw [Nat.toDigits_of_base_le (by decide) (Nat.le_of_not_lt small),
          List.head?_append_of_ne_nil _ Nat.toDigits_ne_nil]
        exact ih (number / 10) (by omega) (by omega)

/-- A number that ten does not divide is written without a trailing zero. -/
theorem getLast?_toDigits {number : Nat} (trimmed : number % 10 ≠ 0)
    : (Nat.toDigits 10 number).getLast? ≠ some '0' := by
  have last : (number % 10).digitChar ≠ '0' :=
    digitChar_ne_zero (Nat.mod_lt number (by decide)) trimmed
  rw [Nat.toDigits_eq_if (by decide)]
  split
  · next small => simpa [Nat.mod_eq_of_lt small] using last
  · simpa using last

/-- Dropping zeros drops those before a text that starts with none. -/
theorem dropWhile_zeros (count : Nat) {text : List Char} (starts : text.head? ≠ some '0')
    : (List.replicate count '0' ++ text).dropWhile (· == '0') = text := by
  rw [List.dropWhile_append_of_pos (fun c mem => by simp [List.eq_of_mem_replicate mem])]
  cases text with
  | nil => rfl
  | cons c rest => simpa using starts

/-- The significant digits of a padded number are its own, since it neither starts nor ends with a
zero. -/
theorem significant_padded {number : Nat} (trimmed : number % 10 ≠ 0) (before after : Nat)
    : significant (padded before number after) = Nat.toDigits 10 number := by
  have starts : (Nat.toDigits 10 number ++ List.replicate after '0').head? ≠ some '0' := by
    rw [List.head?_append_of_ne_nil _ Nat.toDigits_ne_nil]
    exact head?_toDigits (by omega)
  have ends : (Nat.toDigits 10 number).reverse.head? ≠ some '0' := by
    rw [List.head?_reverse]
    exact getLast?_toDigits trimmed
  rw [significant, padded, List.append_assoc, dropWhile_zeros before starts, List.rdropWhile,
    List.reverse_append, List.reverse_replicate, dropWhile_zeros after ends, List.reverse_reverse]

end Decimal

namespace Number

/-- The number is written with some digits before and after its point. There is no zero at the end
of a fraction, the text rounds to the number and to no other, and every decimal that rounds to it
has at least as many digits that count.
-/
structure IsShortest (number : Number) (negative : Bool) (whole fraction : List Char) : Prop where
  written : number.text.toList
    = (if negative then ['-'] else []) ++ Decimal.numeral whole fraction
  some : whole ≠ []
  digits : ∀ c ∈ whole ++ fraction, c.isDigit = true
  trimmed : fraction.getLast? ≠ Option.some '0'
  rounds : ∀ other,
    IsNearest (withSign negative (Decimal.numeralValue whole fraction)) other ↔ other = number
  fewest : ∀ (digits exponent : Int) (count : Nat), digits.natAbs < 10 ^ count →
    IsNearest (digits * 10 ^ exponent) number →
    (Decimal.significant (whole ++ fraction)).length ≤ count

/-- A number with its own sign is its absolute value. -/
theorem withSign_eq_abs {negative : Bool} {x : ℚ} (positive : 0 < withSign negative x)
    : withSign negative x = |x| := by
  cases negative with
  | false => exact (abs_of_pos positive).symm
  | true => exact (abs_of_neg (neg_pos.mp positive)).symm

/-- A decimal that a number is nearest to rounds to its magnitude, whatever the sign. -/
theorem IsNearest.ofDecimal {negative : Bool} {magnitude : Magnitude}
    (nonzero : magnitude.isZero = false) {digits exponent : Int}
    (nearest : IsNearest (digits * 10 ^ exponent) (signed negative magnitude))
    : Magnitude.ofDecimal ⟨digits.natAbs, exponent⟩ = magnitude := by
  have nearest := nearest.units
  have scaled := nearest.pos fun zero => by simp [Magnitude.isZero, zero] at nonzero
  have positive : 0 < withSign negative (digits * 10 ^ exponent) :=
    pos_of_mul_pos_left scaled unitsPerOne_pos.le
  have power : (0 : ℚ) < 10 ^ exponent := zpow_pos (by norm_num) exponent
  rw [withSign_eq_abs positive, abs_mul, abs_of_pos power, ← Int.cast_abs, ← Nat.cast_natAbs]
    at nearest
  exact Magnitude.ofDecimal_eq_iff.mpr nearest

/-- What is written is the decimal of the coarsest grid, digit by digit. -/
theorem exists_isShortest_of_isCoarsest {negative : Bool} {magnitude : Magnitude}
    (nonzero : magnitude.isZero = false) {decimal : Decimal}
    (coarsest : magnitude.IsCoarsest decimal)
    (written : (signed negative magnitude).text.toList
      = (if negative then ['-'] else []) ++ decimal.positional)
    : ∃ whole fraction, (signed negative magnitude).IsShortest negative whole fraction := by
  have trimmed := coarsest.digits_mod_ten
  have ranked : magnitude.rank ≠ 0 := fun zero => by simp [Magnitude.isZero, zero] at nonzero
  obtain ⟨whole, fraction, before, text, isSome, places, digits⟩ := decimal.positional_eq_padded
  have value : Decimal.numeralValue whole fraction = decimal.value := by
    rw [Decimal.numeralValue, digits, places, ← Decimal.digitsValue_eq, Decimal.digitsValue_padded,
      Decimal.value, Decimal.ten_zpow, Nat.pow_eq]
    push_cast
    ring
  have nearest : single.IsNearest (decimal.value * single.unitsPerOne) magnitude.rank :=
    Magnitude.ofDecimal_eq_iff.mp coarsest.rounds
  refine ⟨whole, fraction, text ▸ written, isSome, ?_, ?_, ?_, ?_⟩
  · exact fun c mem => Decimal.isDigit_of_mem_padded (digits ▸ mem)
  -- a fraction that ended in a zero would end the digits in one
  · intro zero
    have long : 0 < fraction.length := List.length_pos_iff.mpr (by rintro rfl; simp at zero)
    have noExponent : decimal.exponent.toNat = 0 := by omega
    have last := congrArg List.getLast? digits
    rw [List.getLast?_append, zero, Decimal.padded, noExponent, List.replicate_zero,
      List.append_nil, List.getLast?_append_of_ne_nil _ Nat.toDigits_ne_nil] at last
    exact Decimal.getLast?_toDigits trimmed last.symm
  · rw [value]
    have positive : 0 < decimal.value :=
      pos_of_mul_pos_left (nearest.pos ranked) unitsPerOne_pos.le
    have rounds : IsNearest (withSign negative decimal.value) (signed negative magnitude) :=
      isNearest_of_units positive ranked nearest
    exact fun other => ⟨rounds.unique ranked, fun same => same ▸ rounds⟩
  -- another decimal that rounds to the number lies on no coarser grid, so it has no fewer digits
  · intro other exponent count few isNearest
    have rounds := isNearest.ofDecimal nonzero
    have fewer := coarsest.digits_lt_pow nonzero rounds few
    rw [digits, Decimal.significant_padded trimmed]
    cases count with
    | zero =>
        have some := Magnitude.digits_pos_of_rounds coarsest.rounds nonzero
        omega
    | succ count => exact (Nat.length_toDigits_le_iff (by decide) (Nat.succ_pos count)).mpr fewer

/-- The text of a finite number other than zero is a shortest one, since its decimal is the
coarsest. -/
theorem exists_isShortest (negative : Bool) {magnitude : Magnitude}
    (finite : magnitude.isInfinite = false) (nonzero : magnitude.isZero = false)
    : ∃ whole fraction, (signed negative magnitude).IsShortest negative whole fraction := by
  have coarsest := Magnitude.shortest_isCoarsest finite nonzero
  have written := magnitude.toList_text finite nonzero
  generalize magnitude.shortest = decimal at coarsest written
  refine exists_isShortest_of_isCoarsest nonzero coarsest ?_
  rw [Number.text, String.toList_append, written]
  cases negative <;> rfl

end Number

-- Texts tell numbers apart

namespace Magnitude

/-- One rounding of the text of a finite magnitude gives the magnitude back. -/
theorem ofDecimal_ofText_text {magnitude : Magnitude} (finite : magnitude.isInfinite = false)
    : ofDecimal (.ofText magnitude.text.toList) = magnitude := by
  cases zero : magnitude.isZero with
  | true =>
      obtain rfl : magnitude = .zero := ext_rank (beq_iff_eq.mp zero)
      rfl
  | false =>
      have rounds := magnitude.shortest_spec.1
      rw [toList_text finite zero]
      generalize magnitude.shortest = decimal at rounds
      obtain ⟨numerators, denominators⟩ := decimal.ofText_positional
      rw [← rounds, ofDecimal, ofDecimal, numerators, denominators]

/-- The first character of a text tells infinity from finite magnitudes, and is no sign. -/
theorem exists_head_text (magnitude : Magnitude)
    : ∃ c rest, magnitude.text.toList = c :: rest ∧ c ≠ '-'
      ∧ c.isDigit = !magnitude.isInfinite := by
  cases infinite : magnitude.isInfinite with
  | true => exact ⟨'i', ['n', 'f'], by simp [text, infinite], by decide, by decide⟩
  | false =>
      obtain ⟨whole, fraction, text, some, digits⟩ :=
        Decimal.exists_numeral (isLexeme_text infinite)
      obtain ⟨c, others, rfl⟩ := List.exists_cons_of_ne_nil some
      have isDigit : c.isDigit = true := digits c (by simp)
      obtain ⟨rest, starts⟩ : ∃ rest, Decimal.numeral (c :: others) fraction = c :: rest := by
        unfold Decimal.numeral
        split
        · exact ⟨others, rfl⟩
        · exact ⟨others ++ '.' :: fraction, rfl⟩
      refine ⟨c, rest, text.trans starts, ?_, isDigit⟩
      rintro rfl
      exact absurd isDigit (by decide)

/-- Magnitudes with one text are equal: infinity is told by its first character, and the text of a
finite magnitude rounds to it. -/
theorem text_injective {first second : Magnitude} (same : first.text = second.text)
    : first = second := by
  have infinite : first.isInfinite = second.isInfinite := by
    obtain ⟨c, rest, starts, _, isDigit⟩ := first.exists_head_text
    obtain ⟨c', rest', starts', _, isDigit'⟩ := second.exists_head_text
    obtain ⟨rfl, _⟩ : c = c' ∧ rest = rest' := by simpa [← same, starts] using starts'
    exact Bool.not_inj (isDigit.symm.trans isDigit')
  cases finite : first.isInfinite with
  | true =>
      have infinite : second.isInfinite = true := infinite ▸ finite
      apply ext_rank
      rw [beq_iff_eq.mp finite, beq_iff_eq.mp infinite]
  | false =>
      rw [← ofDecimal_ofText_text finite, same, ofDecimal_ofText_text (infinite ▸ finite)]

end Magnitude

namespace Number

/-- The text of a number starts with a minus sign just when the number has one. -/
theorem head?_text_iff (negative : Bool) (magnitude : Magnitude)
    : (signed negative magnitude).text.toList.head? = some '-' ↔ negative = true := by
  obtain ⟨c, rest, starts, unsigned, _⟩ := magnitude.exists_head_text
  cases negative with
  | false => simpa [Number.text, starts] using unsigned
  | true => simp [Number.text]

/-- Numbers that are written alike are the same, if they are numbers. -/
theorem eq_of_text_eq {first second : Number} (isNumber : first ≠ nan) (isNumber' : second ≠ nan)
    (same : first.text = second.text)
    : first = second := by
  cases first with
  | nan => exact absurd rfl isNumber
  | signed negative magnitude =>
      cases second with
      | nan => exact absurd rfl isNumber'
      | signed negative' magnitude' =>
          obtain rfl : negative = negative' := by
            rw [Bool.eq_iff_iff, ← head?_text_iff negative magnitude, same, head?_text_iff]
          have texts : magnitude.text = magnitude'.text := by simpa [Number.text] using same
          rw [Magnitude.text_injective texts]

/-- A pattern of 32 bits is the pattern of its number. -/
theorem toBits?_ofBits {bits : Nat} (bounded : bits < 2 ^ 32) (isNumber : ofBits bits ≠ nan)
    : (ofBits bits).toBits? = some bits := by
  unfold ofBits at isNumber ⊢
  dsimp only at isNumber ⊢
  split
  · simp only [toBits?, signBit, beq_iff_eq, Option.some.injEq]
    split <;> omega
  · next beyond => simp [beyond] at isNumber

/-- The text of a finite number other than zero is the shortest one that rounds to it. So no two
numbers, zeros and infinities included, have the same text.
-/
theorem text_shortest
    : (∀ (negative : Bool) (magnitude : Magnitude),
        magnitude.isInfinite = false → magnitude.isZero = false →
        ∃ whole fraction, (signed negative magnitude).IsShortest negative whole fraction)
      ∧ ∀ bits bits' : Nat, bits < 2 ^ 32 → bits' < 2 ^ 32 →
          ofBits bits ≠ nan → ofBits bits' ≠ nan →
          (ofBits bits).text = (ofBits bits').text → bits = bits' := by
  refine ⟨fun negative magnitude => exists_isShortest negative, ?_⟩
  intro bits bits' bounded bounded' isNumber isNumber' same
  have patterns := congrArg toBits? (eq_of_text_eq isNumber isNumber' same)
  rw [toBits?_ofBits bounded isNumber, toBits?_ofBits bounded' isNumber'] at patterns
  exact Option.some.inj patterns

/-- The least number whose first digit is not hidden, below zero, where the numbers on either side
lie at different distances; and the two zeros.
-/
theorem text_shortest_leastNormal
    : (signed true ⟨0x00800000, by decide⟩).text
        = "-0.000000000000000000000000000000000000011754944"
      ∧ (∃ whole fraction,
          (signed true ⟨0x00800000, by decide⟩).IsShortest true whole fraction)
      ∧ (ofBits 0x00000000).text ≠ (ofBits 0x80000000).text := by
  refine ⟨by decide +kernel, text_shortest.1 true _ (by decide) (by decide), fun same => ?_⟩
  have equal := text_shortest.2 0x00000000 0x80000000 (by decide) (by decide) (by decide)
    (by decide) same
  exact absurd equal (by decide)

end Number

end Sprig
