import Mathlib.Data.Nat.ModEq
import Sprig.Proofs.Number.ResidueSearch
import Sprig.Proofs.Number.ShortestDecimal

/-! Decimals of few digits keep away from the midpoints of single precision. For each distance
of neighbouring magnitudes there is a coarsest grid of decimals to consider, and a search over
its points finds them all to lie on a midpoint or well apart from it, with one exception.
-/

namespace Sprig.Midpoints

/-- The finest grid to consider where magnitudes are `2 ^ shift` units apart. -/
def gridExponent (shift : Nat) : Int :=
  -((149 - shift : Int) * 30103 / 100000)

/-- A step of the grid, and the distance that counts as close, both as multiples of the same
small unit.
-/
def step (shift : Nat) : Nat :=
  10 ^ (gridExponent shift).toNat * 2 ^ 179

@[inherit_doc step]
def closeness (shift : Nat) : Nat :=
  2 ^ shift * 10 ^ (-gridExponent shift).toNat

/-- No grid point has a place between two midpoints from `low` to `high`. -/
def noneBetween (shift low high : Nat) : Bool :=
  avoids 40 (step shift) (2 ^ 30 * closeness shift) low high
    ((2 ^ 54 + 1) * closeness shift / step shift)

/-- The number of magnitude distances that occur. -/
def shifts : Nat := 254

/-- The one distance where a grid point comes close to a midpoint, and the point. -/
def exceptionalShift : Nat := 42

@[inherit_doc exceptionalShift]
def exceptionalDigits : Nat := 7038531

/-- The remainder that the exceptional point leaves. -/
def exceptionalPlace : Nat :=
  step exceptionalShift * exceptionalDigits % (2 ^ 30 * closeness exceptionalShift)

-- What the search finds

/-- No grid point lies close above a midpoint of any shift, by running the search for all of them.
-/
theorem none_above {shift : Nat} (bounded : shift < shifts)
    : noneBetween shift (2 ^ 29 * closeness shift + 1)
        (2 ^ 29 * closeness shift + closeness shift) = true := by
  have all : (List.range shifts).all (fun shift =>
      noneBetween shift (2 ^ 29 * closeness shift + 1)
        (2 ^ 29 * closeness shift + closeness shift)) = true := by
    decide +kernel
  exact List.all_eq_true.mp all shift (List.mem_range.mpr bounded)

/-- No grid point lies close below a midpoint of an ordinary shift, by running the search for all
of them. -/
theorem none_below {shift : Nat} (bounded : shift < shifts) (ordinary : shift ≠ exceptionalShift)
    : noneBetween shift (2 ^ 29 * closeness shift - closeness shift)
        (2 ^ 29 * closeness shift - 1) = true := by
  have all : (List.range shifts).all (fun shift => shift == exceptionalShift
      || noneBetween shift (2 ^ 29 * closeness shift - closeness shift)
        (2 ^ 29 * closeness shift - 1)) = true := by
    decide +kernel
  have found := List.all_eq_true.mp all shift (List.mem_range.mpr bounded)
  simpa [ordinary] using found

/-- At the exceptional shift the search finds nothing on either side of the exceptional place. -/
theorem none_around_exception
    : noneBetween exceptionalShift
        (2 ^ 29 * closeness exceptionalShift - closeness exceptionalShift)
        (exceptionalPlace - 1) = true
      ∧ noneBetween exceptionalShift (exceptionalPlace + 1)
        (2 ^ 29 * closeness exceptionalShift - 1) = true := by
  decide +kernel

/-- The next finer grid is too fine. -/
theorem next_grid_too_fine {shift : Nat} (bounded : shift < shifts)
    : 10 ^ (gridExponent shift - 1).toNat * 2 ^ 178
        + 2 ^ shift * 10 ^ (-(gridExponent shift - 1)).toNat
      < 2 ^ shift * 2 ^ 29 * 10 ^ (-(gridExponent shift - 1)).toNat := by
  have all : (List.range shifts).all (fun shift =>
      10 ^ (gridExponent shift - 1).toNat * 2 ^ 178
          + 2 ^ shift * 10 ^ (-(gridExponent shift - 1)).toNat
        < 2 ^ shift * 2 ^ 29 * 10 ^ (-(gridExponent shift - 1)).toNat) = true := by
    decide +kernel
  exact of_decide_eq_true (List.all_eq_true.mp all shift (List.mem_range.mpr bounded))

-- Grid points close to a midpoint

/-- The steps of a grid are positive. -/
theorem step_pos (shift : Nat) : 0 < step shift :=
  Nat.mul_pos (Nat.pow_pos (by decide)) (Nat.pow_pos (by decide))

/-- The bound on distances is positive. -/
theorem closeness_pos (shift : Nat) : 0 < closeness shift :=
  Nat.mul_pos (Nat.pow_pos (by decide)) (Nat.pow_pos (by decide))

/-- A grid point has no place that the search excluded. -/
theorem not_between {shift low high n : Nat} (check : noneBetween shift low high = true)
    (positive : 0 < low) (bounded : step shift * n ≤ (2 ^ 54 + 1) * closeness shift)
    : ¬ (low ≤ step shift * n % (2 ^ 30 * closeness shift)
        ∧ step shift * n % (2 ^ 30 * closeness shift) ≤ high) := by
  refine avoids_sound check positive ?_
  rw [Nat.le_div_iff_mul_le (step_pos shift), Nat.mul_comm]
  exact bounded

/-- No other grid point has the place of the exceptional one. -/
theorem exceptional_unique {n : Nat}
    (bounded : step exceptionalShift * n ≤ (2 ^ 54 + 1) * closeness exceptionalShift)
    (same : step exceptionalShift * n % (2 ^ 30 * closeness exceptionalShift) = exceptionalPlace)
    : n = exceptionalDigits := by
  have congruent : step exceptionalShift * n
      ≡ step exceptionalShift * exceptionalDigits [MOD 2 ^ 30 * closeness exceptionalShift] := same
  have divides : 5 ^ 32 ∣ 2 ^ 30 * closeness exceptionalShift := by decide +kernel
  have coprime : Nat.gcd (5 ^ 32) (step exceptionalShift) = 1 := by decide +kernel
  have small : n < 5 ^ 32 := by
    have large : (2 ^ 54 + 1) * closeness exceptionalShift < step exceptionalShift * 5 ^ 32 := by
      decide +kernel
    exact Nat.lt_of_mul_lt_mul_left (bounded.trans_lt large)
  have reduced := (congruent.of_dvd divides).cancel_left_of_coprime coprime
  exact reduced.eq_of_lt_of_lt small (by decide +kernel)

/-- A grid point that is close to a midpoint is the midpoint, or the exceptional point. -/
theorem eq_of_close {shift offset n : Nat} (bounded : shift < shifts) (inside : offset < 2 ^ 24)
    (below : (2 * offset + 1) * (2 ^ 29 * closeness shift) ≤ step shift * n + closeness shift)
    (above : step shift * n ≤ (2 * offset + 1) * (2 ^ 29 * closeness shift) + closeness shift)
    : step shift * n = (2 * offset + 1) * (2 ^ 29 * closeness shift)
      ∨ shift = exceptionalShift ∧ n = exceptionalDigits := by
  have positive := closeness_pos shift
  have middle : (2 * offset + 1) * (2 ^ 29 * closeness shift)
      = 2 ^ 30 * (offset * closeness shift) + 2 ^ 29 * closeness shift := by ring
  have whole : 2 ^ 30 * closeness shift * offset = 2 ^ 30 * (offset * closeness shift) := by ring
  have product : offset * closeness shift ≤ (2 ^ 24 - 1) * closeness shift :=
    Nat.mul_le_mul_right _ (by omega)
  rw [middle] at below above ⊢
  have few : step shift * n ≤ (2 ^ 54 + 1) * closeness shift := by omega
  -- the place of the grid point between the midpoints around it
  obtain ⟨place, isPlace⟩ : ∃ place,
      step shift * n = 2 ^ 30 * closeness shift * offset + place :=
    Nat.exists_eq_add_of_le (by omega)
  have remainder : step shift * n % (2 ^ 30 * closeness shift) = place := by
    rw [isPlace, Nat.mul_add_mod, Nat.mod_eq_of_lt (by omega)]
  rcases lt_trichotomy place (2 ^ 29 * closeness shift) with less | same | greater
  · right
    by_cases ordinary : shift = exceptionalShift
    · subst ordinary
      refine ⟨rfl, exceptional_unique few ?_⟩
      obtain ⟨low, high⟩ := none_around_exception
      have outside := not_between low (by omega) few
      have outside' := not_between high (by omega) few
      rw [remainder] at outside outside' ⊢
      omega
    · exact absurd ⟨by omega, by omega⟩
        (remainder ▸ not_between (none_below bounded ordinary) (by omega) few)
  · left
    omega
  · exact absurd ⟨by omega, by omega⟩ (remainder ▸ not_between (none_above bounded) (by omega) few)

-- The same for rational numbers

/-- Grids that are not too fine are made of points of the considered one. -/
theorem gridExponent_le {shift : Nat} (bounded : shift < shifts) {exponent : Int}
    (coarse : (2 ^ shift * (1 - 1 / 2 ^ 29) : ℚ) ≤ 10 ^ exponent * 2 ^ 149)
    : gridExponent shift ≤ exponent := by
  by_contra! finer
  have fine : (10 : ℚ) ^ exponent ≤ 10 ^ (gridExponent shift - 1) :=
    zpow_le_zpow_right₀ (by norm_num) (by omega)
  have tooFine : (10 ^ (gridExponent shift - 1).toNat * 2 ^ 178
        + 2 ^ shift * 10 ^ (-(gridExponent shift - 1)).toNat : ℚ)
      < 2 ^ shift * 2 ^ 29 * 10 ^ (-(gridExponent shift - 1)).toNat := by
    exact_mod_cast next_grid_too_fine bounded
  have small : (10 ^ (gridExponent shift - 1) * 2 ^ 149 : ℚ) < 2 ^ shift * (1 - 1 / 2 ^ 29) := by
    rw [Decimal.ten_zpow, div_mul_eq_mul_div, div_lt_iff₀ (by positivity)]
    linarith
  linarith

/-- A decimal close to a midpoint is the midpoint, or the exceptional decimal. -/
theorem value_eq_of_close {shift offset digits : Nat} {exponent : Int} (bounded : shift < shifts)
    (inside : offset < 2 ^ 24)
    (coarse : (2 ^ shift * (1 - 1 / 2 ^ 29) : ℚ) ≤ 10 ^ exponent * 2 ^ 149)
    (close : |(digits * 10 ^ exponent * 2 ^ 149 : ℚ) - (2 * offset + 1) * 2 ^ shift / 2|
      ≤ 2 ^ shift / 2 ^ 30)
    : (digits * 10 ^ exponent * 2 ^ 149 : ℚ) = (2 * offset + 1) * 2 ^ shift / 2
      ∨ (digits * 10 ^ exponent : ℚ) = exceptionalDigits * 10 ^ gridExponent exceptionalShift := by
  obtain ⟨zeros, isExponent⟩ := Int.le.dest (gridExponent_le bounded coarse)
  obtain ⟨n, onGrid⟩ : ∃ n : Nat, (digits * 10 ^ exponent : ℚ) = n * 10 ^ gridExponent shift := by
    refine ⟨digits * 10 ^ zeros, ?_⟩
    rw [← isExponent, zpow_add₀ (by norm_num), zpow_natCast]
    push_cast
    ring
  rw [onGrid] at close ⊢
  -- everything in the unit of the search
  generalize isScale : (2 ^ 30 * 10 ^ (-gridExponent shift).toNat : ℚ) = scale
  have positive : 0 < scale := by
    rw [← isScale]
    positivity
  have point : (step shift * n : ℚ) = n * 10 ^ gridExponent shift * 2 ^ 149 * scale := by
    rw [Decimal.ten_zpow, step, ← isScale]
    push_cast
    field_simp
    ring
  have middle : ((2 * offset + 1) * (2 ^ 29 * closeness shift) : ℚ)
      = (2 * offset + 1) * 2 ^ shift / 2 * scale := by
    rw [closeness, ← isScale]
    push_cast
    ring
  have radius : (closeness shift : ℚ) = 2 ^ shift / 2 ^ 30 * scale := by
    rw [closeness, ← isScale]
    push_cast
    ring
  rw [abs_le] at close
  have below : ((2 * offset + 1) * (2 ^ 29 * closeness shift) : ℚ)
      ≤ step shift * n + closeness shift := by
    rw [point, middle, radius, ← add_mul]
    exact mul_le_mul_of_nonneg_right (by linarith) positive.le
  have above : (step shift * n : ℚ)
      ≤ (2 * offset + 1) * (2 ^ 29 * closeness shift) + closeness shift := by
    rw [point, middle, radius, ← add_mul]
    exact mul_le_mul_of_nonneg_right (by linarith) positive.le
  rcases eq_of_close bounded inside (by exact_mod_cast below) (by exact_mod_cast above)
    with same | ⟨rfl, rfl⟩
  · left
    have same : (step shift * n : ℚ) = (2 * offset + 1) * (2 ^ 29 * closeness shift) := by
      exact_mod_cast same
    rw [point, middle] at same
    exact mul_right_cancel₀ positive.ne' same
  · exact Or.inr rfl

-- The midpoints of single precision

open Format

/-- One has `2 ^ 149` units in single precision. -/
theorem unitsPerOne_single : (single.unitsPerOne : ℚ) = 2 ^ 149 := by
  have exponent : single.unitExponent = 149 := rfl
  rw [unitsPerOne, Nat.pow_eq, exponent]
  norm_num

/-- A midpoint is an odd multiple of half the distance of the magnitudes around it. -/
theorem midpoint_form {rank : Nat} (bounded : rank < single.infinityRank)
    : ∃ shift offset : Nat, shift < shifts ∧ offset < 2 ^ 24
      ∧ (single.gap rank : ℚ) = 2 ^ shift
      ∧ single.midpoint rank = (2 * offset + 1) * 2 ^ shift / 2 := by
  obtain ⟨shift, gap, start, stop⟩ := single.gap_block_bounds rank
  have sum := single.units_add_units_succ start stop
  have block : single.block = 2 ^ 23 := rfl
  have infinity : single.infinityRank = 255 * 2 ^ 23 := rfl
  rw [block] at start stop sum
  rw [infinity] at bounded
  have few : shift < shifts := by
    rw [shifts]
    omega
  have inside : rank - shift * 2 ^ 23 < 2 ^ 24 := by omega
  generalize rank - shift * 2 ^ 23 = offset at sum inside
  refine ⟨shift, offset, few, inside, by exact_mod_cast gap, ?_⟩
  rw [Format.midpoint]
  congr 1
  exact_mod_cast sum

/-- A decimal of a coarse grid that is close to a midpoint is the midpoint, or the exceptional
decimal.
-/
theorem eq_midpoint_or_exceptional {decimal : Decimal} {rank : Nat}
    (bounded : rank < single.infinityRank)
    (coarse : single.gap rank * (1 - 1 / 2 ^ 29) ≤ Magnitude.gridStep decimal.exponent)
    (near : |decimal.inUnits - single.midpoint rank| ≤ single.gap rank / 2 ^ 30)
    : decimal.inUnits = single.midpoint rank
      ∨ decimal.value = exceptionalDigits * 10 ^ gridExponent exceptionalShift := by
  obtain ⟨shift, offset, few, inside, gap, middle⟩ := midpoint_form bounded
  rw [gap, Magnitude.gridStep, unitsPerOne_single] at coarse
  rw [gap, middle, Decimal.inUnits, Decimal.value, unitsPerOne_single] at near
  rw [middle, Decimal.inUnits, Decimal.value, unitsPerOne_single]
  exact value_eq_of_close few inside coarse near

end Sprig.Midpoints
