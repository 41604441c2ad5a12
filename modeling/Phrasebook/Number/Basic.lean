import Phrasebook.Number.Shortest
import Phrasebook.Text.Basic

/-!
# Numbers and their texts

A number is an integer of at most 64 bits or a double. Integers are written out. Doubles are
written by their shortest decimals, ties going up: in positional notation from 10⁻⁶ up to 10²¹,
without a point where there is no fraction, and with an exponent outside of that range. Both zeros
are `0`.
-/

namespace Phrasebook

open Text

namespace Decimal

/-- The significant digits of a decimal. -/
def figures (d : Decimal) : Text := decimal d.digits

/-- The number of digits in front of the point, which is negative if zeros follow the point. -/
def pointPlace (d : Decimal) : Int := d.figures.length + d.power

/-- Zeros. -/
def zeros (n : Nat) : Text := List.replicate n '0'

/-- A decimal in positional notation; `whole` is written after the digits if there is no
fraction. -/
def positional (d : Decimal) (whole : Text) : Text :=
  let point := d.pointPlace
  if 0 ≤ d.power then d.figures ++ zeros d.power.toNat ++ whole
  else if 0 < point then d.figures.take point.toNat ++ '.' :: d.figures.drop point.toNat
  else '0' :: '.' :: zeros (-point).toNat ++ d.figures

/-- A decimal with one digit in front of the point and an exponent, whose sign is always
written. -/
def scientific (d : Decimal) : Text :=
  let exponent := d.pointPlace - 1
  let fraction := d.figures.drop 1
  d.figures.take 1 ++ (if fraction.isEmpty then [] else '.' :: fraction) ++ 'e' ::
    (if 0 ≤ exponent then '+' :: decimal exponent.toNat else '-' :: decimal (-exponent).toNat)

end Decimal

namespace Double

/-- A text with a minus sign in front if the double is negative. -/
def signed (x : Double) (text : Text) : Text := if x.negative then '-' :: text else text

/-- The bounds of positional notation, in units: 10⁻⁶ and 10²¹. -/
def positionalBounds : Nat × Nat :=
  (roundUnits one (Nat.pow 10 6), Nat.pow 10 21 * one)

/-- The text of a double. -/
def text (x : Double) : Text :=
  if x.units = 0 then "0"
  else
    let d := shortest .up x.units
    let (low, high) := positionalBounds
    x.signed (if low ≤ x.units ∧ x.units < high then d.positional [] else d.scientific)

/-- The text of a double in a message, which shows that it is no integer: positional with at least
one place for exponents from -5 to 15, and with an exponent otherwise. Ties go to even. -/
def describe (x : Double) : Text :=
  x.signed <|
    if x.units = 0 then "0.0"
    else
      let d := shortest .even x.units
      let exponent := d.pointPlace - 1
      if -5 ≤ exponent ∧ exponent ≤ 15 then d.positional ".0" else d.scientific

end Double

/-- An integer of at most 64 bits, or a double. -/
inductive Number where
  | integer (value : Int)
  | double (value : Double)
  deriving DecidableEq, Repr

/-- The text of a number. -/
def Number.text : Number → Text
  | integer value => signedDecimal value
  | double value => value.text

end Phrasebook
