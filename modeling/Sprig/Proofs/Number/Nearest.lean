import Sprig.Proofs.Number.Rounding

/-! Rounding to nearest, in terms of distances: no other number is nearer to a rational number than
the one it is rounded to, and if another one is as near, the one it is rounded to is even.
-/

namespace Sprig

/-- The first choice is nearer to `x` than the second; or both are as near, and the first one is
even.
-/
def Prefers (even : Prop) (x first second : ℚ) : Prop :=
  |x - first| < |x - second| ∨ |x - first| = |x - second| ∧ even

section Prefers

variable {even : Prop} {x low high : ℚ}

/-- The greater one of two numbers is nearer above the half way between them. -/
theorem prefers_high_iff (lt : low < high)
    : Prefers even x high low ↔ low + high < 2 * x ∨ low + high = 2 * x ∧ even := by
  rw [Prefers, ← sq_lt_sq, ← sq_eq_sq_iff_abs_eq_abs]
  have product : (x - low) ^ 2 - (x - high) ^ 2 = (high - low) * (2 * x - (low + high)) := by ring
  have positive : 0 < high - low := sub_pos.mpr lt
  refine or_congr ?_ (and_congr_left fun _ => ?_)
  · rw [← sub_pos, product, mul_pos_iff_of_pos_left positive, sub_pos]
  · rw [eq_comm, ← sub_eq_zero, product, mul_eq_zero_iff_left positive.ne', sub_eq_zero, eq_comm]

/-- The lesser one of two numbers is nearer below the half way between them. -/
theorem prefers_low_iff (lt : low < high)
    : Prefers even x low high ↔ 2 * x < low + high ∨ 2 * x = low + high ∧ even := by
  have mirrored : Prefers even x low high ↔ Prefers even (-x) (-low) (-high) := by
    simp only [Prefers, neg_sub_neg, abs_sub_comm]
  rw [mirrored, prefers_high_iff (neg_lt_neg lt)]
  refine or_congr ⟨fun _ => by linarith, fun _ => by linarith⟩ (and_congr_left fun _ => ?_)
  exact ⟨fun _ => by linarith, fun _ => by linarith⟩

/-- What is preferred to a number is preferred to all that lie farther away. -/
theorem Prefers.trans {first second third : ℚ} (prefers : Prefers even x first second)
    (farther : |x - second| ≤ |x - third|)
    : Prefers even x first third := by
  rcases prefers with nearer | ⟨same, isEven⟩
  · exact .inl (nearer.trans_le farther)
  · rcases farther.lt_or_eq with lt | eq
    · exact .inl (same ▸ lt)
    · exact .inr ⟨same.trans eq, isEven⟩

/-- What is preferred does not depend on the unit. -/
theorem prefers_mul_iff {first second unit : ℚ} (positive : 0 < unit)
    : Prefers even (x * unit) (first * unit) (second * unit) ↔ Prefers even x first second := by
  simp only [Prefers, ← sub_mul, abs_mul, abs_of_pos positive, mul_lt_mul_iff_left₀ positive,
    mul_left_inj' positive.ne']

end Prefers

namespace Format

variable (format : Format)

/-- The rank is that of the magnitude nearest to `x` units, and the even one if two are nearest.
Infinity stands where the magnitude after the largest one would be.
-/
structure IsNearest (x : ℚ) (rank : Nat) : Prop where
  bounded : rank ≤ format.infinityRank
  preferred : ∀ other ≤ format.infinityRank, other ≠ rank →
    Prefers (rank % 2 = 0) x (format.units rank) (format.units other)

/-- A higher rank has more units, as rational numbers. -/
theorem units_lt_units {rank other : Nat} (lt : rank < other)
    : (format.units rank : ℚ) < format.units other := by
  exact_mod_cast format.units_strictMono lt

variable {format} {x : ℚ} {rank : Nat}

/-- Exceeding a rank, without the division in its midpoint. -/
theorem exceeds_iff
    : format.Exceeds rank x
      ↔ (format.units rank + format.units (rank + 1) : ℚ) < 2 * x
        ∨ (format.units rank + format.units (rank + 1) : ℚ) = 2 * x ∧ rank % 2 = 1 := by
  rw [Exceeds, Format.midpoint, div_lt_iff₀' two_pos, div_eq_iff two_ne_zero, mul_comm x 2]

/-- To be nearest is to win against the two neighbours, which leaves nothing to those beyond. -/
theorem isNearest_iff
    : format.IsNearest x rank
      ↔ rank ≤ format.infinityRank ∧ (∀ lower, lower + 1 = rank → format.Exceeds lower x)
        ∧ (rank < format.infinityRank → ¬ format.Exceeds rank x) := by
  constructor
  · rintro ⟨bounded, preferred⟩
    refine ⟨bounded, ?_, ?_⟩
    · rintro lower rfl
      have wins := preferred lower (by omega) (by omega)
      rw [prefers_high_iff (format.units_lt_units (Nat.lt_succ_self lower))] at wins
      rcases wins with above | ⟨half, even⟩
      · exact exceeds_iff.mpr (.inl above)
      · exact exceeds_iff.mpr (.inr ⟨half, by omega⟩)
    · intro finite exceeds
      have wins := preferred (rank + 1) finite (by omega)
      rw [prefers_low_iff (format.units_lt_units (Nat.lt_succ_self rank))] at wins
      rcases exceeds_iff.mp exceeds with above | ⟨half, odd⟩
      · rcases wins with below | ⟨half, _⟩ <;> linarith
      · rcases wins with below | ⟨_, even⟩
        · linarith
        · omega
  -- ranks beyond a neighbour lie farther away, so the midpoint to the neighbour decides for all
  · rintro ⟨bounded, reaches, stays⟩
    refine ⟨bounded, fun other among differs => ?_⟩
    rcases Nat.lt_or_gt_of_ne differs with below | above
    · rw [prefers_high_iff (format.units_lt_units below)]
      obtain ⟨lower, rfl⟩ : ∃ lower, rank = lower + 1 := Nat.exists_eq_add_one.mpr (by omega)
      have middle := exceeds_iff.mp (reaches lower rfl)
      rcases Nat.lt_or_eq_of_le (Nat.le_of_lt_succ below) with farther | rfl
      · have less := format.units_lt_units farther
        left
        rcases middle with passed | ⟨half, _⟩ <;> linarith
      · exact middle.imp_right fun half => ⟨half.1, by omega⟩
    · rw [prefers_low_iff (format.units_lt_units above)]
      have middle := stays (above.trans_le among)
      rw [exceeds_iff, not_or, not_lt, not_and] at middle
      rcases Nat.lt_or_eq_of_le (Nat.succ_le_of_lt above) with farther | rfl
      · have less := format.units_lt_units farther
        left
        linarith [middle.1]
      · rcases middle.1.lt_or_eq with passed | half
        · exact .inl passed
        · exact .inr ⟨half, by have := middle.2 half.symm; omega⟩

/-- What exceeds a rank exceeds the lower ones: their midpoints lie below the rank, which lies
below its own midpoint. -/
theorem Exceeds.of_lt {lower : Nat} (exceeds : format.Exceeds rank x) (lt : lower < rank)
    : format.Exceeds lower x := by
  left
  calc format.midpoint lower < format.units rank := format.midpoint_lt_units lt
    _ < format.midpoint rank := format.units_lt_midpoint rank
    _ ≤ x := exceeds.midpoint_le

/-- Only one magnitude is nearest. -/
theorem IsNearest.unique {other : Nat} (nearest : format.IsNearest x rank)
    (nearest' : format.IsNearest x other)
    : rank = other := by
  by_contra differs
  wlog lt : rank < other generalizing rank other with swapped
  · exact swapped nearest' nearest (Ne.symm differs) (by omega)
  · obtain ⟨lower, rfl⟩ : ∃ lower, other = lower + 1 := Nat.exists_eq_add_one.mpr (by omega)
    obtain ⟨bounded, reaches, _⟩ := isNearest_iff.mp nearest'
    have stays := (isNearest_iff.mp nearest).2.2 (by omega)
    rcases Nat.lt_or_eq_of_le (Nat.le_of_lt_succ lt) with farther | rfl
    · exact stays ((reaches lower rfl).of_lt farther)
    · exact stays (reaches rank rfl)

/-- Rounding finds the nearest magnitude. -/
theorem rankOfUnits_eq_iff (fine : 0 < format.fractionBits) {num den : Nat} (positive : 0 < den)
    : format.rankOfUnits num den = rank ↔ format.IsNearest (num / den) rank := by
  rw [isNearest_iff]
  constructor
  · rintro rfl
    refine ⟨format.rankOfUnits_le num den, fun lower next => ?_, fun finite => ?_⟩
    · have bounded := format.rankOfUnits_le num den
      exact (lt_rankOfUnits_iff_exceeds fine positive (by omega)).mp (by omega)
    · rw [← lt_rankOfUnits_iff_exceeds fine positive finite]
      exact Nat.lt_irrefl _
  · rintro ⟨bounded, reaches, stays⟩
    apply le_antisymm
    · by_contra! above
      have finite : rank < format.infinityRank := above.trans_le (format.rankOfUnits_le num den)
      exact stays finite ((lt_rankOfUnits_iff_exceeds fine positive finite).mp above)
    · cases rank with
      | zero => exact Nat.zero_le _
      | succ lower =>
          exact (lt_rankOfUnits_iff_exceeds fine positive bounded).mpr (reaches lower rfl)

/-- Only what is not below the first midpoint rounds to something. -/
theorem IsNearest.pos (nearest : format.IsNearest x rank) (nonzero : rank ≠ 0) : 0 < x := by
  obtain ⟨lower, rfl⟩ := Nat.exists_eq_add_one_of_ne_zero nonzero
  have reached : format.midpoint lower ≤ x := ((isNearest_iff.mp nearest).2.1 lower rfl).midpoint_le
  have nonneg : (0 : ℚ) ≤ format.units lower := Nat.cast_nonneg _
  exact (nonneg.trans_lt (format.units_lt_midpoint lower)).trans_le reached

end Format

open Format

-- Magnitudes and numbers

/-- One has a positive number of units. -/
theorem unitsPerOne_pos : (0 : ℚ) < single.unitsPerOne := by
  exact_mod_cast Nat.pow_pos (by decide)

namespace Magnitude

/-- Magnitudes of one rank are equal. -/
theorem ext_rank {first second : Magnitude} (same : first.rank = second.rank) : first = second := by
  cases first
  cases second
  simpa using same

/-- The exact value of a magnitude. Infinity has the value that would come after the largest finite
one.
-/
def value (magnitude : Magnitude) : ℚ :=
  magnitude.units / single.unitsPerOne

/-- The value of a magnitude in units is its number of units. -/
theorem value_mul_unitsPerOne (magnitude : Magnitude)
    : magnitude.value * single.unitsPerOne = single.units magnitude.rank :=
  div_mul_cancel₀ _ unitsPerOne_pos.ne'

/-- No magnitude is negative. -/
theorem value_nonneg (magnitude : Magnitude) : 0 ≤ magnitude.value :=
  div_nonneg (Nat.cast_nonneg _) unitsPerOne_pos.le

/-- A higher rank has a larger value. -/
theorem value_lt_value {first second : Magnitude} (lt : first.rank < second.rank)
    : first.value < second.value :=
  div_lt_div_of_pos_right (single.units_lt_units lt) unitsPerOne_pos

end Magnitude

namespace Number

/-- The rational number or its negative. -/
def withSign (negative : Bool) (x : ℚ) : ℚ :=
  if negative then -x else x

/-- A sign taken twice is no sign. -/
theorem withSign_withSign (negative : Bool) (x : ℚ)
    : withSign negative (withSign negative x) = x := by
  cases negative <;> simp [withSign]

/-- Signs commute with negation. -/
theorem withSign_neg (negative : Bool) (x : ℚ)
    : withSign negative (-x) = -withSign negative x := by
  cases negative <;> simp [withSign]

/-- The other sign negates. -/
theorem withSign_not (negative : Bool) (x : ℚ) : withSign (!negative) x = -withSign negative x := by
  cases negative <;> simp [withSign]

/-- Zero has the value zero with either sign. -/
theorem withSign_zero (negative : Bool) : withSign negative (Magnitude.zero).value = 0 := by
  have none : Magnitude.zero.value = 0 := by
    rw [Magnitude.value, show Magnitude.zero.units = 0 from rfl, Nat.cast_zero, zero_div]
  cases negative <;> simp [withSign, none]

/-- A sign taken everywhere keeps all distances, so it keeps preferences. -/
theorem prefers_withSign_iff {even : Prop} (negative : Bool) {x first second : ℚ}
    : Prefers even (withSign negative x) (withSign negative first) (withSign negative second)
      ↔ Prefers even x first second := by
  cases negative with
  | false => rfl
  | true => simp only [Prefers, withSign, if_true, neg_sub_neg, abs_sub_comm]

/-- The number is the one that a rational number is rounded to: no other one is nearer, and if
another one is as near, the number is even. Both zeros have the same value.
-/
def IsNearest (x : ℚ) : Number → Prop
  | nan => False
  | signed negative magnitude =>
      ∀ (negative' : Bool) (magnitude' : Magnitude),
        withSign negative' magnitude'.value ≠ withSign negative magnitude.value →
        Prefers (magnitude.rank % 2 = 0) x (withSign negative magnitude.value)
          (withSign negative' magnitude'.value)

variable {x : ℚ} {negative : Bool} {magnitude : Magnitude}

/-- The magnitude of the nearest number is nearest among the magnitudes. -/
theorem IsNearest.units (nearest : IsNearest x (signed negative magnitude))
    : single.IsNearest (withSign negative x * single.unitsPerOne) magnitude.rank := by
  refine ⟨magnitude.rank_le, fun other among differs => ?_⟩
  have apart : withSign negative (Magnitude.value ⟨other, among⟩)
      ≠ withSign negative magnitude.value := by
    intro same
    have same := congrArg (withSign negative) same
    rw [withSign_withSign, withSign_withSign] at same
    rcases Nat.lt_or_gt_of_ne differs with lt | gt
    · exact (Magnitude.value_lt_value lt).ne same
    · exact (Magnitude.value_lt_value gt).ne' same
  have prefers := nearest negative ⟨other, among⟩ apart
  rw [← withSign_withSign negative x, prefers_withSign_iff, ← prefers_mul_iff unitsPerOne_pos,
    Magnitude.value_mul_unitsPerOne, Magnitude.value_mul_unitsPerOne] at prefers
  exact prefers

/-- The nearest magnitude with the right sign is the nearest number: those of the other sign are
farther away.
-/
theorem isNearest_of_units (positive : 0 < x) (nonzero : magnitude.rank ≠ 0)
    (nearest : single.IsNearest (x * single.unitsPerOne) magnitude.rank)
    : IsNearest (withSign negative x) (signed negative magnitude) := by
  have prefers (other : Magnitude) (differs : other.rank ≠ magnitude.rank)
      : Prefers (magnitude.rank % 2 = 0) x magnitude.value other.value := by
    rw [← prefers_mul_iff unitsPerOne_pos, Magnitude.value_mul_unitsPerOne,
      Magnitude.value_mul_unitsPerOne]
    exact nearest.preferred other.rank other.rank_le differs
  intro negative' other apart
  by_cases sign : negative' = negative
  · subst sign
    rw [prefers_withSign_iff]
    exact prefers other fun same => apart (by rw [Magnitude.ext_rank same])
  · rw [Bool.eq_not_of_ne sign, withSign_not, ← withSign_neg, prefers_withSign_iff]
    by_cases same : other.rank = magnitude.rank
    · obtain rfl := Magnitude.ext_rank same
      have valued : 0 < other.value :=
        (Magnitude.value_nonneg .zero).trans_lt
          (Magnitude.value_lt_value (Nat.pos_of_ne_zero nonzero))
      exact (prefers_high_iff (neg_lt_self valued)).mpr (.inl (by linarith))
    · refine (prefers other same).trans ?_
      have nonneg := other.value_nonneg
      rw [sub_neg_eq_add, abs_of_nonneg (by linarith : 0 ≤ x + other.value), abs_le]
      constructor <;> linarith

/-- Apart from the zeros, only one number is nearest. -/
theorem IsNearest.unique {other : Number} (nearest : IsNearest x (signed negative magnitude))
    (nonzero : magnitude.rank ≠ 0) (nearest' : IsNearest x other)
    : other = signed negative magnitude := by
  have sameSign {magnitude' : Magnitude} (nearest' : IsNearest x (signed negative magnitude'))
      : magnitude' = magnitude :=
    Magnitude.ext_rank (nearest'.units.unique nearest.units)
  cases other with
  | nan => exact nearest'.elim
  | signed negative' magnitude' =>
      by_cases sign : negative' = negative
      · subst sign
        rw [sameSign nearest']
      · -- Of the other sign only a zero could be nearest, and then both zeros would be.
        have positive : 0 < withSign negative x :=
          pos_of_mul_pos_left (nearest.units.pos nonzero) unitsPerOne_pos.le
        have units := nearest'.units
        rw [Bool.eq_not_of_ne sign, withSign_not] at units
        have isZero : magnitude' = .zero := by
          by_contra some
          have above := units.pos fun zero => some (Magnitude.ext_rank zero)
          exact lt_asymm (pos_of_mul_pos_left above unitsPerOne_pos.le) (neg_lt_zero.mpr positive)
        subst isZero
        have zero : IsNearest x (signed negative .zero) := by
          simpa only [IsNearest, withSign_zero] using nearest'
        exact absurd (congrArg Magnitude.rank (sameSign zero)) (Ne.symm nonzero)

end Number

end Sprig
