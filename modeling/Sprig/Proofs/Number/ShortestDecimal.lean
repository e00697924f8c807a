import Sprig.Proofs.Number.Nearest
import Sprig.Proofs.Number.Numeral
import Sprig.Proofs.Number.TwiceRounded

/-! The decimal that a magnitude is written as: it rounds to the magnitude, and it lies within
half a step of its grid, or the neighbour on the other side rounds to something else.
-/

namespace Sprig

open Format

namespace Decimal

/-- The decimal as a rational number. -/
def value (decimal : Decimal) : ℚ :=
  decimal.digits * 10 ^ decimal.exponent

/-- The exact value of the number that is written with some digits before and after its point. -/
def numeralValue (whole fraction : List Char) : ℚ :=
  Nat.ofDigitChars 10 (whole ++ fraction) 0 / 10 ^ fraction.length

/-- A decimal made from the digits of a numeral has the value of the numeral. -/
theorem value_ofDigits (whole fraction : List Char)
    : (ofDigits whole fraction).value = numeralValue whole fraction := by
  rw [value, ofDigits, numeralValue, digitsValue_eq, zpow_neg, zpow_natCast, div_eq_mul_inv]

/-- The decimal in units of single precision. -/
def inUnits (decimal : Decimal) : ℚ :=
  decimal.value * single.unitsPerOne

/-- A power of ten as a fraction of powers with natural exponents, by the sign of the exponent. -/
theorem ten_zpow (exponent : Int)
    : (10 : ℚ) ^ exponent = 10 ^ exponent.toNat / 10 ^ (-exponent).toNat := by
  rcases le_total 0 exponent with nonneg | nonpos
  · lift exponent to Nat using nonneg
    simp
  · obtain ⟨places, rfl⟩ : ∃ places : Nat, exponent = -places := ⟨exponent.natAbs, by omega⟩
    simp

/-- Numerator and denominator of a decimal make its value. -/
theorem numerator_div_denominator (decimal : Decimal)
    : (decimal.numerator / decimal.denominator : ℚ) = decimal.value := by
  rw [value, ten_zpow, numerator, denominator]
  simp only [Nat.pow_eq]
  push_cast
  ring

/-- The fraction that is rounded is the decimal in units. -/
theorem scaled_div_denominator (decimal : Decimal)
    : ((decimal.numerator * single.unitsPerOne : Nat) / decimal.denominator : ℚ)
      = decimal.inUnits := by
  rw [inUnits, ← numerator_div_denominator]
  push_cast
  ring

end Decimal

namespace Magnitude

/-- A decimal rounds to more than a rank if it is beyond the midpoint after it. -/
theorem lt_rank_ofDecimal_iff {rank : Nat} (bounded : rank < single.infinityRank)
    (decimal : Decimal)
    : rank < (ofDecimal decimal).rank ↔ single.Exceeds rank decimal.inUnits := by
  rw [← decimal.scaled_div_denominator]
  exact lt_rankOfUnits_iff_exceeds (by decide) decimal.denominator_pos bounded

/-- Rounding depends on the value of the decimal only. -/
theorem ofDecimal_congr {first second : Decimal} (same : first.value = second.value)
    : ofDecimal first = ofDecimal second := by
  refine ext_rank (rankOfUnits_congr (by decide) first.denominator_pos second.denominator_pos ?_)
  rw [first.scaled_div_denominator, second.scaled_div_denominator, Decimal.inUnits,
    Decimal.inUnits, same]

/-- The exact decimal of a magnitude has its number of units: powers of ten cancel the powers of
two and five. -/
theorem inUnits_exactDecimal (magnitude : Magnitude)
    : magnitude.exactDecimal.inUnits = magnitude.units := by
  have places : (-(single.unitExponent : Int)).toNat = 0 := by omega
  rw [Decimal.inUnits, Decimal.value, Decimal.ten_zpow, exactDecimal, unitsPerOne]
  simp only [Nat.pow_eq, places, neg_neg, Int.toNat_natCast]
  push_cast
  rw [show (10 : ℚ) = 2 * 5 by norm_num, mul_pow]
  field_simp
  rw [mul_pow]
  ring

/-- The exact decimal of a magnitude rounds to it, since a whole number of units rounds to its own
rank. -/
theorem ofDecimal_exactDecimal (magnitude : Magnitude)
    : ofDecimal magnitude.exactDecimal = magnitude := by
  have exact : single.rankOfUnits magnitude.units 1 = magnitude.rank :=
    rankOfUnits_units (by decide) magnitude.rank_le
  refine ext_rank (Eq.trans ?_ exact)
  refine rankOfUnits_congr (by decide) (Decimal.denominator_pos _) one_pos ?_
  rw [Decimal.scaled_div_denominator, inUnits_exactDecimal, Nat.cast_one, div_one]

-- The neighbours on a grid

/-- The distance between decimals of a grid, in units. -/
def gridStep (exponent : Int) : ℚ :=
  10 ^ exponent * single.unitsPerOne

/-- The steps of a grid are positive. -/
theorem gridStep_pos (exponent : Int) : 0 < gridStep exponent := by
  have units : (0 : ℚ) < single.unitsPerOne := by exact_mod_cast Nat.pow_pos (by decide)
  exact mul_pos (zpow_pos (by norm_num) exponent) units

/-- A decimal in units is its digits times the step of its grid. -/
theorem inUnits_eq (digits : Nat) (exponent : Int)
    : (Decimal.mk digits exponent).inUnits = digits * gridStep exponent := by
  rw [Decimal.inUnits, Decimal.value, gridStep, mul_assoc]

/-- The magnitude in steps of a grid. -/
theorem onGrid_eq (magnitude : Magnitude) (exponent : Int)
    : ((magnitude.onGrid exponent).1 / (magnitude.onGrid exponent).2 : ℚ)
      = magnitude.units / gridStep exponent := by
  rw [gridStep, Decimal.ten_zpow, onGrid]
  simp only [Nat.pow_eq]
  push_cast
  field_simp

/-- The place of a magnitude on a grid has a positive denominator. -/
theorem onGrid_pos (magnitude : Magnitude) (exponent : Int) : 0 < (magnitude.onGrid exponent).2 :=
  Nat.mul_pos (Nat.pow_pos (by decide)) (Nat.pow_pos (by decide))

/-- The decimal is within half a step of the magnitude; or it is the farther one of the two
around it, and the nearer one rounds to something else.
-/
def Tight (magnitude : Magnitude) (decimal : Decimal) : Prop :=
  |decimal.inUnits - magnitude.units| ≤ gridStep decimal.exponent / 2
  ∨ ∃ nearer : Decimal, ofDecimal nearer ≠ magnitude
    ∧ (nearer.inUnits = decimal.inUnits - gridStep decimal.exponent
          ∧ nearer.inUnits ≤ magnitude.units ∧ magnitude.units ≤ decimal.inUnits
        ∨ nearer.inUnits = decimal.inUnits + gridStep decimal.exponent
          ∧ decimal.inUnits ≤ magnitude.units ∧ magnitude.units ≤ nearer.inUnits)

/-- The floor on a grid and the step after it enclose the magnitude. -/
theorem floor_bounds (magnitude : Magnitude) (exponent : Int) {floor : Nat}
    (isFloor : (magnitude.onGrid exponent).1 / (magnitude.onGrid exponent).2 = floor)
    : floor * gridStep exponent ≤ magnitude.units
      ∧ magnitude.units ≤ (floor + 1) * gridStep exponent := by
  have step := gridStep_pos exponent
  have positive : (0 : ℚ) < (magnitude.onGrid exponent).2 := by
    exact_mod_cast magnitude.onGrid_pos exponent
  constructor
  · rw [← le_div_iff₀ step, ← onGrid_eq, le_div_iff₀ positive, ← isFloor]
    exact_mod_cast Nat.div_mul_le_self _ _
  · rw [← div_le_iff₀ step, ← onGrid_eq, div_le_iff₀ positive, ← isFloor, mul_comm]
    exact_mod_cast (Nat.lt_mul_div_succ _ (magnitude.onGrid_pos exponent)).le

/-- The nearer neighbour is within half a step. -/
theorem near_bound (magnitude : Magnitude) (exponent : Int) {near : Nat}
    (isNear : roundedQuotient (magnitude.onGrid exponent).1 (magnitude.onGrid exponent).2 = near)
    : |near * gridStep exponent - magnitude.units| ≤ gridStep exponent / 2 := by
  have step := gridStep_pos exponent
  have close := roundedQuotient_near (magnitude.onGrid exponent).1 (magnitude.onGrid_pos exponent)
  rw [isNear, onGrid_eq] at close
  have scaled : |near * gridStep exponent - magnitude.units|
      = |near - magnitude.units / gridStep exponent| * gridStep exponent := by
    rw [← abs_of_pos step, ← abs_mul, abs_of_pos step, sub_mul, div_mul_cancel₀ _ step.ne']
  calc |near * gridStep exponent - magnitude.units|
      ≤ 1 / 2 * gridStep exponent := scaled ▸ mul_le_mul_of_nonneg_right close step.le
    _ = gridStep exponent / 2 := by ring

/-- What is found on a grid rounds to the magnitude and is tight: it is the rounded place or, if
that fails, the point on the other side. -/
theorem roundTrip?_spec {magnitude : Magnitude} {exponent : Int} {decimal : Decimal}
    (found : magnitude.roundTrip? exponent = some decimal)
    : ofDecimal decimal = magnitude ∧ magnitude.Tight decimal := by
  simp only [roundTrip?, neighbours] at found
  generalize isFloor : (magnitude.onGrid exponent).1 / (magnitude.onGrid exponent).2 = floor
    at found
  generalize isNear : roundedQuotient (magnitude.onGrid exponent).1 (magnitude.onGrid exponent).2
    = near at found
  obtain ⟨below, above⟩ := magnitude.floor_bounds exponent isFloor
  have close := magnitude.near_bound exponent isNear
  by_cases first : ofDecimal ⟨near, exponent⟩ = magnitude
  · obtain rfl : Decimal.mk near exponent = decimal := by simpa [first] using found
    exact ⟨first, Or.inl (by rw [inUnits_eq]; exact close)⟩
  · have second : ofDecimal decimal = magnitude := by simpa using List.find?_some found
    refine ⟨second, Or.inr ⟨⟨near, exponent⟩, first, ?_⟩⟩
    rw [List.find?_cons_of_neg (by simpa using first)] at found
    obtain rfl := List.mem_singleton.mp (List.mem_of_find?_eq_some found)
    rcases roundedQuotient_cases (magnitude.onGrid exponent).1 (magnitude.onGrid exponent).2
      with low | high
    · left
      rw [isNear, isFloor] at low
      subst low
      simp only [if_true, inUnits_eq]
      push_cast
      exact ⟨by ring, below, above⟩
    · right
      rw [isNear, isFloor] at high
      subst high
      simp only [Nat.succ_ne_self, if_false, inUnits_eq]
      push_cast
      exact ⟨by ring, below, above⟩

/-- The decimal that a magnitude is written as rounds to it and is tight. -/
theorem shortest_spec (magnitude : Magnitude)
    : ofDecimal magnitude.shortest = magnitude ∧ magnitude.Tight magnitude.shortest := by
  unfold shortest
  dsimp only
  cases found : (List.range (coarsestExponent + single.unitExponent + 1)).findSome?
      (fun (step : Nat) => magnitude.roundTrip? (coarsestExponent - step)) with
  | some decimal =>
      obtain ⟨step, _, trips⟩ := List.exists_of_findSome?_eq_some found
      exact roundTrip?_spec trips
  | none =>
      refine ⟨magnitude.ofDecimal_exactDecimal, Or.inl ?_⟩
      rw [Option.getD_none, inUnits_exactDecimal, sub_self, abs_zero]
      exact (half_pos (gridStep_pos _)).le

-- How coarse the grid must be

variable {magnitude : Magnitude} {decimal : Decimal}

/-- A tight decimal just below the midpoint above its magnitude is on a grid whose steps are
hardly shorter than the distance of the magnitudes.
-/
theorem Tight.coarse_above (tight : magnitude.Tight decimal) (odd : magnitude.rank % 2 = 1)
    (bounded : magnitude.rank < single.infinityRank)
    (near : |decimal.inUnits - single.midpoint magnitude.rank|
      ≤ single.gap magnitude.rank / 2 ^ 30)
    : single.gap magnitude.rank * (1 - 1 / 2 ^ 29) ≤ gridStep decimal.exponent := by
  have positive : (0 : ℚ) < single.gap magnitude.rank := by
    exact_mod_cast single.gap_pos magnitude.rank
  have middle := single.midpoint_eq magnitude.rank
  have units : (magnitude.units : ℚ) = single.units magnitude.rank := rfl
  rw [abs_le] at near
  rcases tight with close | ⟨nearer, differs, ⟨place, below, above⟩ | ⟨place, below, above⟩⟩
  · rw [abs_le] at close
    linarith
  · obtain ⟨lower, next⟩ : ∃ lower, magnitude.rank = lower + 1 :=
      Nat.exists_eq_add_one.mpr (by omega)
    have same : single.gap magnitude.rank = single.gap lower :=
      next ▸ single.gap_succ_of_even (by decide) (by omega)
    have stays : ¬ single.Exceeds magnitude.rank nearer.inUnits := by
      rintro (exceeds | ⟨exceeds, _⟩) <;> linarith
    rw [← lt_rank_ofDecimal_iff bounded] at stays
    have falls : ¬ single.Exceeds lower nearer.inUnits := by
      rw [← lt_rank_ofDecimal_iff (by omega)]
      intro reaches
      exact differs (ext_rank (by omega))
    have small := le_midpoint_of_not_exceeds falls
    rw [single.midpoint_eq_sub, ← next, ← same] at small
    linarith
  · linarith

/-- The same for a decimal just above the midpoint below its magnitude. -/
theorem Tight.coarse_below (tight : magnitude.Tight decimal) {lower : Nat}
    (next : lower + 1 = magnitude.rank) (odd : magnitude.rank % 2 = 1)
    (near : |decimal.inUnits - single.midpoint lower| ≤ single.gap lower / 2 ^ 30)
    : single.gap lower * (1 - 1 / 2 ^ 29) ≤ gridStep decimal.exponent := by
  have positive : (0 : ℚ) < single.gap lower := by exact_mod_cast single.gap_pos lower
  have middle := single.midpoint_eq_sub lower
  have units : (magnitude.units : ℚ) = single.units (lower + 1) := by rw [Magnitude.units, next]
  have bounded := magnitude.rank_le
  rw [abs_le] at near
  rcases tight with close | ⟨nearer, differs, ⟨place, below, above⟩ | ⟨place, below, above⟩⟩
  · rw [abs_le] at close
    linarith
  · linarith
  · have reaches : lower < (ofDecimal nearer).rank := by
      rw [lt_rank_ofDecimal_iff (by omega)]
      left
      linarith
    have passes : magnitude.rank < (ofDecimal nearer).rank := by
      refine lt_of_le_of_ne (by omega) fun same => differs (ext_rank same.symm)
    have finite : magnitude.rank < single.infinityRank := passes.trans_le (ofDecimal nearer).rank_le
    rw [lt_rank_ofDecimal_iff finite] at passes
    have large := passes.midpoint_le
    have same : single.gap magnitude.rank = single.gap lower :=
      next ▸ single.gap_succ_of_even (by decide) (by omega)
    have units' : (magnitude.units : ℚ) = single.units magnitude.rank := rfl
    rw [single.midpoint_eq, same] at large
    linarith

end Magnitude

end Sprig
