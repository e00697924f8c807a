import Sprig.Number.Basic

/-!
The text of a number: the shortest decimal that rounds to it.

The decimals with a given exponent form a grid. Grids are tried from the coarsest to the
finest, and on each of them only the two neighbours of the magnitude can round to it if any
grid point does. The finest grid holds the magnitude itself, so the search cannot fail.
-/

namespace Sprig

namespace Magnitude

/-- The magnitude times `10 ^ -exponent` is the quotient of these two numbers. -/
def onGrid (magnitude : Magnitude) (exponent : Int) : Nat × Nat :=
  (magnitude.units * Nat.pow 10 (-exponent).toNat,
    Format.single.unitsPerOne * Nat.pow 10 exponent.toNat)

/-- The two neighbours of the magnitude on a grid, the nearer one first. Of two equally near
ones the one with an even last digit comes first. -/
def neighbours (magnitude : Magnitude) (exponent : Int) : List Decimal :=
  let (num, den) := magnitude.onGrid exponent
  let near := roundedQuotient num den
  let floor := num / den
  [⟨near, exponent⟩, ⟨if near = floor then floor + 1 else floor, exponent⟩]

/-- The neighbour on a grid that rounds to the magnitude, the nearer one if both do. -/
def roundTrip? (magnitude : Magnitude) (exponent : Int) : Option Decimal :=
  (magnitude.neighbours exponent).find? (Magnitude.ofDecimal · == magnitude)

/-- No finite magnitude reaches `10 ^ (coarsestExponent + 1)`. -/
def coarsestExponent : Nat := 38

/-- The magnitude itself, on the grid that holds all magnitudes. -/
def exactDecimal (magnitude : Magnitude) : Decimal :=
  ⟨magnitude.units * Nat.pow 5 Format.single.unitExponent, -Format.single.unitExponent⟩

/-- The decimal of the coarsest grid that rounds to the magnitude. -/
def shortest (magnitude : Magnitude) : Decimal :=
  let grids := List.range (coarsestExponent + Format.single.unitExponent + 1)
  (grids.findSome? fun (step : Nat) =>
    magnitude.roundTrip? (coarsestExponent - step)).getD magnitude.exactDecimal

/-- The text of a magnitude, without an exponent. -/
def text (magnitude : Magnitude) : String :=
  if magnitude.isInfinite then "inf"
  else if magnitude.isZero then "0"
  else String.ofList magnitude.shortest.positional

end Magnitude

/-- The text of a number. -/
def Number.text : Number → String
  | nan => "NaN"
  | signed negative magnitude => (if negative then "-" else "") ++ magnitude.text

end Sprig
