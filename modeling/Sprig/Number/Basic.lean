import Sprig.Number.Decimal
import Sprig.Number.Format

/-!
The numbers of the language: single precision floating point, with signed zeros, infinities
and one value that is not a number.
-/

namespace Sprig

/-- The absolute value of a number, known by its rank. -/
structure Magnitude where
  rank : Nat
  rank_le : rank ≤ Format.single.infinityRank
deriving DecidableEq, Repr

namespace Magnitude

def zero : Magnitude := ⟨0, Nat.zero_le _⟩

def infinity : Magnitude := ⟨Format.single.infinityRank, Nat.le_refl _⟩

/-- The magnitude nearest to `num / den` units. -/
def ofUnits (num den : Nat) : Magnitude :=
  ⟨Format.single.rankOfUnits num den, Format.rankOfUnits_le ..⟩

/-- The magnitude nearest to a decimal number. -/
def ofDecimal (decimal : Decimal) : Magnitude :=
  ofUnits (decimal.numerator * Format.single.unitsPerOne) decimal.denominator

/-- The magnitude in units. -/
def units (magnitude : Magnitude) : Nat :=
  Format.single.units magnitude.rank

def isInfinite (magnitude : Magnitude) : Bool :=
  magnitude.rank == Format.single.infinityRank

def isZero (magnitude : Magnitude) : Bool :=
  magnitude.rank == 0

end Magnitude

/-- A number of the language. -/
inductive Number where
  | nan
  | signed (negative : Bool) (magnitude : Magnitude)
deriving DecidableEq, Repr

namespace Number

/-- The bit of a pattern that marks negative numbers. -/
def signBit : Nat := 0x80000000

/-- The number with a given 32-bit pattern. All patterns above the infinities are `nan`. -/
def ofBits (bits : Nat) : Number :=
  let rank := bits % signBit
  if bounded : rank ≤ Format.single.infinityRank then
    signed (bits / signBit % 2 == 1) ⟨rank, bounded⟩
  else
    nan

/-- The 32-bit pattern of a number; `nan` has no pattern of its own. -/
def toBits? : Number → Option Nat
  | nan => none
  | signed negative magnitude => some ((if negative then signBit else 0) + magnitude.rank)

/-- The number that a decimal text stands for: rounded to double precision first, then to
single. -/
def ofDecimal (decimal : Decimal) : Number :=
  let wide := Format.double.rankOfQuotient decimal.numerator decimal.denominator
  let surplus := Format.double.unitExponent - Format.single.unitExponent
  signed false (.ofUnits (Format.double.units wide) (Nat.pow 2 surplus))

/-- The place of a number on the number line, where both zeros share a place; `nan` has
none. -/
def place? : Number → Option Int
  | nan => none
  | signed true magnitude => some (-magnitude.rank)
  | signed false magnitude => some magnitude.rank

/-- Equality of numbers: the zeros are equal, and `nan` is equal to nothing. -/
def equals (a b : Number) : Bool :=
  match a.place?, b.place? with
  | some p, some q => p == q
  | _, _ => false

/-- Strict order of numbers, false where `nan` takes part. -/
def less (a b : Number) : Bool :=
  match a.place?, b.place? with
  | some p, some q => p < q
  | _, _ => false

def lessEqual (a b : Number) : Bool :=
  match a.place?, b.place? with
  | some p, some q => p ≤ q
  | _, _ => false

/-- True of both zeros. -/
def isZero : Number → Bool
  | nan => false
  | signed _ magnitude => magnitude.isZero

end Number

end Sprig
