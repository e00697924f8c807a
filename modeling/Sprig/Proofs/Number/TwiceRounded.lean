import Mathlib.Algebra.Order.Field.Power
import Sprig.Proofs.Number.Rounding

/-! A written number is rounded twice on its way to a number of the language. The midpoints of
the narrow format are magnitudes of the wide one, so the second rounding can only undo what a
single rounding decides if the first one lands on a midpoint.
-/

namespace Sprig

namespace Format

variable (format : Format)

/-- Every number of few digits is a magnitude. -/
theorem exists_units (significand shift : Nat) (few : significand < 2 * format.block)
    : ∃ rank, format.units rank = significand * 2 ^ shift
      ∧ rank < (shift + 2) * format.block := by
  induction shift generalizing significand with
  | zero =>
      refine ⟨significand, ?_, by omega⟩
      by_cases small : significand < format.block
      · rw [format.units_of_lt small, Nat.pow_zero, Nat.mul_one]
      · have large := format.units_block 0 (significand - format.block) (by omega)
        rw [Nat.zero_add, Nat.one_mul, Nat.add_sub_of_le (by omega)] at large
        exact large
  | succ shift ih =>
      by_cases small : significand < format.block
      · obtain ⟨rank, value, lt⟩ := ih (2 * significand) (by omega)
        refine ⟨rank, ?_, lt.trans_le (Nat.mul_le_mul_right _ (by omega))⟩
        rw [value, Nat.pow_succ]
        ring
      · refine ⟨(shift + 1 + 1) * format.block + (significand - format.block), ?_, ?_⟩
        · rw [format.units_block (shift + 1) _ (by omega), Nat.add_sub_of_le (by omega)]
        · rw [show shift + 1 + 2 = shift + 1 + 1 + 1 from rfl, Nat.succ_mul (shift + 1 + 1)]
          omega

/-- Small magnitudes are close together. -/
theorem gap_le {rank shift : Nat} (small : format.units rank < 2 * format.block * 2 ^ shift)
    : format.gap rank ≤ 2 ^ shift := by
  refine Nat.pow_le_pow_right (by decide) ?_
  by_contra! far
  have large : (shift + 2) * format.block ≤ rank := by
    calc (shift + 2) * format.block ≤ rank / format.block * format.block :=
          Nat.mul_le_mul_right _ (by omega)
      _ ≤ rank := Nat.div_mul_le_self rank format.block
  have larger := format.units_strictMono.monotone large
  rw [format.units_two_blocks] at larger
  omega

/-- The block that a rank belongs to, counted from the first where magnitudes are a unit
apart.
-/
theorem gap_block_bounds (rank : Nat)
    : ∃ shift, format.gap rank = 2 ^ shift
      ∧ (shift = 0 ∨ (shift + 1) * format.block ≤ rank)
      ∧ rank < (shift + 2) * format.block := by
  have positive := format.block_pos
  refine ⟨rank / format.block - 1, rfl, ?_, ?_⟩
  · by_cases small : rank / format.block ≤ 1
    · exact Or.inl (by omega)
    · right
      calc (rank / format.block - 1 + 1) * format.block = rank / format.block * format.block := by
            rw [Nat.sub_add_cancel (by omega)]
        _ ≤ rank := Nat.div_mul_le_self rank format.block
  · calc rank < (rank / format.block + 1) * format.block := by
          rw [Nat.succ_mul]
          exact Nat.lt_div_mul_add positive
      _ ≤ (rank / format.block - 1 + 2) * format.block := Nat.mul_le_mul_right _ (by omega)

end Format

open Format

/-- The midpoints of single precision, in small enough units, are magnitudes of double
precision, and those lie much closer together around them.
-/
theorem exists_double_midpoint {rank : Nat} (bounded : rank < single.infinityRank)
    (extra : Nat)
    : ∃ wide, wide < (283 + extra) * double.block
      ∧ double.units wide = (single.units rank + single.units (rank + 1)) * 2 ^ (extra + 28)
      ∧ ∀ lower ≤ wide, double.gap lower ≤ single.gap rank * 2 ^ extra := by
  obtain ⟨shift, gap, start, stop⟩ := single.gap_block_bounds rank
  have singleBlock : single.block = 2 ^ 23 := rfl
  have doubleBlock : double.block = 2 ^ 52 := rfl
  have singleInfinity : single.infinityRank = 255 * 2 ^ 23 := rfl
  have sum := single.units_add_units_succ start stop
  rw [singleBlock] at start stop sum
  rw [singleInfinity] at bounded
  have few : 2 * (rank - shift * 2 ^ 23) + 1 < 2 ^ 25 := by omega
  obtain ⟨wide, value, inside⟩ := double.exists_units (2 * (rank - shift * 2 ^ 23) + 1)
    (shift + (extra + 28)) (by rw [doubleBlock]; omega)
  refine ⟨wide, ?_, ?_, ?_⟩
  · exact inside.trans_le (Nat.mul_le_mul_right _ (by omega))
  · rw [value, sum, Nat.pow_add, Nat.mul_assoc]
  · intro lower le
    rw [gap, ← Nat.pow_add]
    refine double.gap_le ?_
    calc double.units lower ≤ double.units wide := double.units_strictMono.monotone le
      _ = (2 * (rank - shift * 2 ^ 23) + 1) * 2 ^ (shift + (extra + 28)) := value
      _ < 2 ^ 25 * 2 ^ (shift + (extra + 28)) :=
        Nat.mul_lt_mul_of_pos_right few (Nat.pow_pos (by decide))
      _ = 2 * double.block * 2 ^ (shift + extra) := by
        rw [doubleBlock]
        ring

-- The first rounding and the midpoints of the second one

section Wide

variable {num den extra : Nat}

/-- What the wide format makes of a quotient whose units are `2 ^ (extra + 29)` times finer. -/
def wideRank (num den extra : Nat) : Nat :=
  double.rankOfUnits (num * 2 ^ (extra + 29)) den

/-- The same as a number, in units of the narrow format. -/
def wideValue (num den extra : Nat) : ℚ :=
  double.units (wideRank num den extra) / 2 ^ (extra + 29)

/-- A number of double precision with these units is the midpoint of single precision. -/
theorem units_eq_midpoint {rank wide : Nat}
    (value : double.units wide = (single.units rank + single.units (rank + 1)) * 2 ^ (extra + 28))
    : (double.units wide : ℚ) = single.midpoint rank * 2 ^ (extra + 29) := by
  rw [value, Format.midpoint]
  push_cast
  ring

/-- The first rounding does not carry a number over a midpoint. -/
theorem midpoint_le_wideValue {rank : Nat} (positive : 0 < den) (low : 283 + extra ≤ 2047)
    (bounded : rank < single.infinityRank)
    : (single.midpoint rank ≤ num / den → single.midpoint rank ≤ wideValue num den extra)
      ∧ (num / den ≤ single.midpoint rank → wideValue num den extra ≤ single.midpoint rank) := by
  obtain ⟨wide, inside, value, _⟩ := exists_double_midpoint bounded extra
  have middle := units_eq_midpoint value
  have finite : wide ≤ double.infinityRank :=
    inside.le.trans (Nat.mul_le_mul_right _ low)
  have itself : double.rankOfUnits (double.units wide) 1 = wide :=
    rankOfUnits_units (by decide) finite
  have scale : (0 : ℚ) < 2 ^ (extra + 29) := by positivity
  rw [wideValue, le_div_iff₀ scale, div_le_iff₀ scale, ← middle]
  constructor
  · intro le
    have mono : double.rankOfUnits (double.units wide) 1 ≤ wideRank num den extra := by
      refine rankOfUnits_mono (by decide) one_pos positive ?_
      rw [middle]
      push_cast
      rw [div_one, mul_div_right_comm]
      exact mul_le_mul_of_nonneg_right le scale.le
    rw [itself] at mono
    exact_mod_cast double.units_strictMono.monotone mono
  · intro le
    have mono : wideRank num den extra ≤ double.rankOfUnits (double.units wide) 1 := by
      refine rankOfUnits_mono (by decide) positive one_pos ?_
      rw [middle]
      push_cast
      rw [div_one, mul_div_right_comm]
      exact mul_le_mul_of_nonneg_right le scale.le
    rw [itself] at mono
    exact_mod_cast double.units_strictMono.monotone mono

/-- The first rounding lands on a midpoint only from close by. -/
theorem near_of_wideValue_eq {rank : Nat} (positive : 0 < den) (low : 283 + extra ≤ 2047)
    (bounded : rank < single.infinityRank)
    (lands : wideValue num den extra = single.midpoint rank)
    : |num / den - single.midpoint rank| ≤ single.gap rank / 2 ^ 30 := by
  obtain ⟨wide, inside, value, close⟩ := exists_double_midpoint bounded extra
  have middle := units_eq_midpoint value
  have scale : (0 : ℚ) < 2 ^ (extra + 29) := by positivity
  have finite : wide < double.infinityRank := inside.trans_le (Nat.mul_le_mul_right _ low)
  obtain rfl : wideRank num den extra = wide := by
    rw [wideValue, div_eq_iff scale.ne', ← middle] at lands
    exact double.units_strictMono.injective (by exact_mod_cast lands)
  obtain ⟨below, next⟩ : ∃ below, wideRank num den extra = below + 1 := by
    refine Nat.exists_eq_add_one.mpr (Nat.pos_of_ne_zero fun zero => ?_)
    have above : (0 : ℚ) < single.midpoint rank :=
      (Nat.cast_nonneg _).trans_lt (single.units_lt_midpoint rank)
    rw [zero, double.units_of_lt double.block_pos, Nat.cast_zero] at middle
    exact (mul_pos above scale).ne middle
  have gap : ∀ lower ≤ below + 1, (double.gap lower : ℚ) ≤ single.gap rank * 2 ^ extra := by
    intro lower le
    exact_mod_cast close lower (next ▸ le)
  rw [next] at middle finite
  have near := rankOfUnits_near (by decide) positive next finite (gap below (Nat.le_succ below))
    (gap (below + 1) le_rfl)
  have scaled : ((num * 2 ^ (extra + 29) : Nat) : ℚ) / den - double.units (below + 1)
      = (num / den - single.midpoint rank) * 2 ^ (extra + 29) := by
    rw [middle]
    push_cast
    ring
  have grain : (2 : ℚ) ^ (extra + 29) = 2 ^ 29 * 2 ^ extra := by rw [pow_add, mul_comm]
  rw [scaled, abs_mul, abs_of_pos scale, grain, ← mul_assoc, mul_div_right_comm] at near
  have bound := le_of_mul_le_mul_right near (by positivity)
  rw [le_div_iff₀ (by positivity)]
  linarith

/-- Rounding twice differs from rounding once only for odd ranks, and only for numbers close
to a midpoint and not on it.
-/
theorem near_midpoint_of_ne (positive : 0 < den) (low : 283 + extra ≤ 2047)
    (ne : single.rankOfUnits (double.units (wideRank num den extra)) (2 ^ (extra + 29))
      ≠ single.rankOfUnits num den)
    : single.rankOfUnits num den % 2 = 1
      ∧ ∃ rank < single.infinityRank,
          (rank + 1 = single.rankOfUnits num den ∨ rank = single.rankOfUnits num den)
          ∧ (num / den : ℚ) ≠ single.midpoint rank
          ∧ |num / den - single.midpoint rank| ≤ single.gap rank / 2 ^ 30 := by
  -- both roundings are known by the midpoints that they exceed
  have once : ∀ rank < single.infinityRank,
      rank < single.rankOfUnits num den ↔ single.Exceeds rank (num / den) :=
    fun rank bounded => lt_rankOfUnits_iff_exceeds (by decide) positive bounded
  have twice : ∀ rank < single.infinityRank,
      rank < single.rankOfUnits (double.units (wideRank num den extra)) (2 ^ (extra + 29))
        ↔ single.Exceeds rank (wideValue num den extra) := by
    intro rank bounded
    rw [lt_rankOfUnits_iff_exceeds (by decide) (Nat.pow_pos (by decide)) bounded, wideValue]
    push_cast
    rfl
  have onceLe := single.rankOfUnits_le num den
  have twiceLe := single.rankOfUnits_le (double.units (wideRank num den extra)) (2 ^ (extra + 29))
  rcases lt_or_gt_of_ne ne with less | greater
  · -- the second rounding falls short, so the first one landed on the midpoint below
    obtain ⟨rank, next⟩ := Nat.exists_eq_add_one.mpr (Nat.zero_lt_of_lt less)
    have bounded : rank < single.infinityRank := by omega
    have exceeds := (once rank bounded).mp (by omega)
    have stays : ¬ single.Exceeds rank (wideValue num den extra) := by
      rw [← twice rank bounded]
      omega
    have lands : wideValue num den extra = single.midpoint rank :=
      le_antisymm (le_midpoint_of_not_exceeds stays)
        ((midpoint_le_wideValue positive low bounded).1 exceeds.midpoint_le)
    have even : rank % 2 ≠ 1 := fun odd => stays (Or.inr ⟨lands.symm, odd⟩)
    refine ⟨by omega, rank, bounded, Or.inl next.symm, ?_,
      near_of_wideValue_eq positive low bounded lands⟩
    intro same
    exact exceeds.elim (fun above => above.ne same.symm) fun odd => even odd.2
  · -- the second rounding goes too far, so the first one landed on the midpoint above
    have bounded : single.rankOfUnits num den < single.infinityRank := by omega
    have exceeds := (twice _ bounded).mp greater
    have stays : ¬ single.Exceeds (single.rankOfUnits num den) (num / den) := by
      rw [← once _ bounded]
      exact lt_irrefl _
    have capped :=
      (midpoint_le_wideValue positive low bounded).2 (le_midpoint_of_not_exceeds stays)
    obtain ⟨lands, odd⟩ := exceeds.resolve_left capped.not_gt
    refine ⟨odd, _, bounded, Or.inr rfl, ?_, near_of_wideValue_eq positive low bounded lands.symm⟩
    exact fun same => stays (Or.inr ⟨same.symm, odd⟩)

end Wide

end Sprig
