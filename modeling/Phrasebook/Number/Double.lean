/-!
# Doubles

Every finite number of the 64-bit binary format is a whole number of the smallest positive one,
2⁻¹⁰⁷⁴. So a double is a sign and a count of such units, and all arithmetic on doubles is exact
arithmetic on natural numbers. A count belongs to a double exactly if it has at most 53 significant
bits.
-/

namespace Phrasebook

/-- A finite number of the 64-bit binary format: `units · 2⁻¹⁰⁷⁴`, with a sign. -/
structure Double where
  negative : Bool
  units : Nat
  deriving DecidableEq, Repr

namespace Double

/-- The number of units in one. -/
def one : Nat := Nat.pow 2 1074

/-- The least count of units that is too large for a double. -/
def limit : Nat := Nat.pow 2 2098

/-- The power of two between neighbouring doubles, in units, near a count of units. -/
def gapLog (units : Nat) : Nat := units.log2 - 52

/-- The distance between neighbouring doubles, in units, near a count of units. -/
def gap (units : Nat) : Nat := Nat.pow 2 (gapLog units)

/-- The quotient of two numbers, rounded to the nearest one; a half goes to the even neighbour. -/
def roundQuotient (n d : Nat) : Nat :=
  let q := n / d
  let r := n % d
  if d < 2 * r ∨ (2 * r = d ∧ q % 2 = 1) then q + 1 else q

/-- The count of units, with at most 53 significant bits, that is nearest to `n / d` units. -/
def roundUnits (n d : Nat) : Nat :=
  let gap := gap (n / d)
  roundQuotient n (d * gap) * gap

/-- The decimal order of the largest double is 308 and that of the smallest one is -324, so orders
beyond these bounds need no arithmetic. -/
def orderBound : Int := 400

/-- The nearest double to `digits · 10 ^ power`. There is none if it is too large. -/
def ofDecimal? (negative : Bool) (digits : Nat) (power : Int) : Option Double :=
  let order := (Nat.toDigits 10 digits).length + power
  if digits = 0 ∨ order < -orderBound then some ⟨negative, 0⟩
  else if orderBound < order then none
  else
    let units :=
      if 0 ≤ power then roundUnits (digits * Nat.pow 10 power.toNat * one) 1
      else roundUnits (digits * one) (Nat.pow 10 (-power).toNat)
    if units < limit then some ⟨negative, units⟩ else none

end Double

end Phrasebook
