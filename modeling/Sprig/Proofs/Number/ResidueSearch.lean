/-! A search for multiples of a number that leave a remainder in a given range. It follows
Euclid's algorithm: where the range holds no multiple of the factor itself, the multiples that
wrap around the modulus form a search of the same kind with the factor as the modulus.
-/

namespace Sprig

/-- Whether no multiple `factor * n` with `n ≤ bound` leaves a remainder from `low` to `high`
when divided by the modulus.
-/
def avoids : (fuel factor modulus low high bound : Nat) → Bool
  | 0, _, _, _, _, _ => false
  | fuel + 1, factor, modulus, low, high, bound =>
    if factor = 0 then
      true
    else
      -- the first multiple that is not below the range
      let first := (low + factor - 1) / factor
      if factor * first ≤ high then
        bound < first
      else
        avoids fuel (modulus % factor) factor (factor - high % factor) (factor - low % factor)
          ((factor * bound - low) / modulus)

/-- Between two successive multiples the remainder is the distance to the lower one. -/
theorem mod_eq_sub_of_between {factor quotient number : Nat} (le : factor * quotient ≤ number)
    (lt : number < factor * (quotient + 1))
    : number % factor = number - factor * quotient := by
  obtain ⟨rest, rfl⟩ := Nat.exists_eq_add_of_le le
  rw [Nat.mul_add] at lt
  rw [Nat.mul_add_mod, Nat.add_sub_cancel_left, Nat.mod_eq_of_lt (by omega)]

/-- Where a multiple of the factor leaves a remainder that is no multiple of it, the multiple
of the modulus below it has the complementary remainder.
-/
theorem complement_mod {factor modulus n : Nat} (nonzero : 0 < factor)
    (apart : 0 < factor * n % modulus % factor)
    : modulus % factor * (factor * n / modulus) % factor
      = factor - factor * n % modulus % factor := by
  have divided : modulus * (factor * n / modulus) + factor * n % modulus = factor * n :=
    Nat.div_add_mod _ _
  have sum : (modulus % factor * (factor * n / modulus) % factor
      + factor * n % modulus % factor) % factor = 0 := by
    rw [Nat.mod_mul_mod, ← Nat.add_mod, divided, Nat.mul_mod_right]
  have small := Nat.mod_lt (modulus % factor * (factor * n / modulus)) nonzero
  have small' := Nat.mod_lt (factor * n % modulus) nonzero
  generalize modulus % factor * (factor * n / modulus) % factor = left at sum small
  generalize factor * n % modulus % factor = right at sum small' apart
  rcases Nat.lt_or_ge (left + right) factor with lt | ge
  · rw [Nat.mod_eq_of_lt lt] at sum
    omega
  · rw [Nat.mod_eq_sub_mod ge, Nat.mod_eq_of_lt (by omega)] at sum
    omega

/-- The quotients of the multiples in question are bounded as well. -/
theorem quotient_le {factor modulus low bound n : Nat} (le : n ≤ bound)
    (reaches : low ≤ factor * n % modulus)
    : factor * n / modulus ≤ (factor * bound - low) / modulus := by
  rcases Nat.eq_zero_or_pos modulus with rfl | positive
  · simp
  · have divided := Nat.div_add_mod (factor * n) modulus
    have product : factor * n ≤ factor * bound := Nat.mul_le_mul_left factor le
    rw [Nat.le_div_iff_mul_le positive, Nat.mul_comm]
    omega

/-- A search that says so is right: no multiple up to the bound leaves a remainder in the range.
By induction on the fuel; each round replaces the factor and the modulus by smaller ones, as in
the algorithm of Euclid. -/
theorem avoids_sound {fuel factor modulus low high bound : Nat}
    (check : avoids fuel factor modulus low high bound = true) (positive : 0 < low)
    {n : Nat} (le : n ≤ bound)
    : ¬ (low ≤ factor * n % modulus ∧ factor * n % modulus ≤ high) := by
  induction fuel generalizing factor modulus low high bound n with
  | zero => simp [avoids] at check
  | succ fuel ih =>
      rintro ⟨reaches, stays⟩
      simp only [avoids] at check
      split at check
      · next zero =>
          rw [zero, Nat.zero_mul, Nat.zero_mod] at reaches
          omega
      · next nonzero =>
          have factorPos : 0 < factor := Nat.pos_of_ne_zero nonzero
          have rounded := Nat.div_add_mod (low + factor - 1) factor
          have rest := Nat.mod_lt (low + factor - 1) factorPos
          generalize (low + factor - 1) / factor = first at check rounded
          split at check
          · -- multiples below the first one are below the range
            have few : n < first := Nat.lt_of_le_of_lt le (of_decide_eq_true check)
            have product : factor * (n + 1) ≤ factor * first := Nat.mul_le_mul_left factor few
            have below := Nat.mod_le (factor * n) modulus
            rw [Nat.mul_succ] at product
            omega
          · next beyond =>
              -- the range lies between two successive multiples of the factor
              obtain ⟨before, rfl⟩ : ∃ before, first = before + 1 := by
                refine Nat.exists_eq_succ_of_ne_zero fun none => ?_
                rw [none, Nat.mul_zero] at beyond
                omega
              have spread : factor * (before + 1) = factor * before + factor := Nat.mul_succ ..
              have lowRest : low % factor = low - factor * before :=
                mod_eq_sub_of_between (by omega) (by omega)
              have highRest : high % factor = high - factor * before :=
                mod_eq_sub_of_between (by omega) (by omega)
              have rest : factor * n % modulus % factor
                  = factor * n % modulus - factor * before :=
                mod_eq_sub_of_between (by omega) (by omega)
              have complement := complement_mod factorPos (by omega : 0 < factor * n % modulus % factor)
              refine ih check (by omega) (quotient_le le reaches) ?_
              rw [complement]
              omega

end Sprig
