import Sprig.Number.Basic

/-!
Arithmetic on numbers: each operation computes its exact result in units and rounds once.
-/

namespace Sprig.Number

def neg : Number → Number
  | nan => nan
  | signed negative magnitude => signed (!negative) magnitude

/-- A finite number in units. -/
def signedUnits (negative : Bool) (magnitude : Magnitude) : Int :=
  if negative then -magnitude.units else magnitude.units

/-- A sum is negative zero only if both summands are. -/
def add : Number → Number → Number
  | signed negA a, signed negB b =>
    if a.isInfinite then
      if b.isInfinite && negA != negB then nan else signed negA a
    else if b.isInfinite then
      signed negB b
    else
      let total := signedUnits negA a + signedUnits negB b
      if total = 0 then
        signed (negA && negB) .zero
      else
        signed (total < 0) (.ofUnits total.natAbs 1)
  | _, _ => nan

def sub (a b : Number) : Number :=
  a.add b.neg

/-- The product of an infinity and a zero is not a number. -/
def mul : Number → Number → Number
  | signed negA a, signed negB b =>
    let negative := negA != negB
    if a.isInfinite || b.isInfinite then
      if a.isZero || b.isZero then nan else signed negative .infinity
    else
      signed negative (.ofUnits (a.units * b.units) Format.single.unitsPerOne)
  | _, _ => nan

/-- The quotient of two infinities, or of two zeros, is not a number. -/
def div : Number → Number → Number
  | signed negA a, signed negB b =>
    let negative := negA != negB
    if a.isInfinite then
      if b.isInfinite then nan else signed negative .infinity
    else if b.isInfinite then
      signed negative .zero
    else if b.isZero then
      if a.isZero then nan else signed negative .infinity
    else
      signed negative (.ofUnits (a.units * Format.single.unitsPerOne) b.units)
  | _, _ => nan

end Sprig.Number
