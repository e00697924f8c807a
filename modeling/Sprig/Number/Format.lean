/-!
Binary number formats and rounding to nearest.

The magnitudes of a format are numbered upwards from zero; the number of a magnitude is its
rank, and the rank after the largest finite magnitude is infinity. A rank is also the bit
pattern of its magnitude. Every magnitude is a whole number of units, a unit being the least
positive magnitude, so rounding compares natural numbers only.
-/

namespace Sprig

/-- The quotient `num / den` rounded to the nearest natural number; a half goes to the even
neighbour. -/
def roundedQuotient (num den : Nat) : Nat :=
  let floor := num / den
  let doubled := 2 * (num % den)
  if doubled < den ∨ (doubled = den ∧ floor % 2 = 0) then floor else floor + 1

/-- A binary number format, given by the widths of its fraction and exponent fields. -/
structure Format where
  fractionBits : Nat
  exponentBits : Nat
deriving DecidableEq, Repr

namespace Format

/-- The format that numbers of the language are kept in. -/
def single : Format := ⟨23, 8⟩

/-- The wider format that a written number passes through before it becomes a number. -/
def double : Format := ⟨52, 11⟩

/-- The number of ranks from one power of two to the next. -/
def block (format : Format) : Nat :=
  Nat.pow 2 format.fractionBits

/-- The unit of a format is `2 ^ -unitExponent`. -/
def unitExponent (format : Format) : Nat :=
  Nat.pow 2 (format.exponentBits - 1) - 2 + format.fractionBits

/-- The number of units in one. -/
def unitsPerOne (format : Format) : Nat :=
  Nat.pow 2 format.unitExponent

/-- The rank after that of the largest finite magnitude. -/
def infinityRank (format : Format) : Nat :=
  (Nat.pow 2 format.exponentBits - 1) * format.block

/-- The magnitude of a given rank, in units. The ranks of the first two blocks are one unit
apart; with every further block the distance doubles. -/
def units (format : Format) (rank : Nat) : Nat :=
  if rank < format.block then
    rank
  else
    (format.block + rank % format.block) * Nat.pow 2 (rank / format.block - 1)

/-- The rank nearest to `num / den` units; a half goes to the even rank, and what rounds
above the largest finite magnitude is infinity. -/
def rankOfUnits (format : Format) (num den : Nat) : Nat :=
  let shift := (num / den).log2 - format.fractionBits
  min (shift * format.block + roundedQuotient num (den * Nat.pow 2 shift)) format.infinityRank

/-- The rank nearest to the quotient `num / den`. -/
def rankOfQuotient (format : Format) (num den : Nat) : Nat :=
  format.rankOfUnits (num * format.unitsPerOne) den

/-- Rounding never goes past infinity, since the rank is capped there. -/
theorem rankOfUnits_le (format : Format) (num den : Nat)
    : format.rankOfUnits num den ≤ format.infinityRank :=
  Nat.min_le_right ..

end Format

end Sprig
