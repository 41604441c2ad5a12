import Phrasebook.Number.Double

/-!
# Shortest decimals

The shortest decimal of a positive double is the decimal with the fewest significant digits among
those that are nearer to it than to any other double. Of two such decimals the nearer one is taken,
and a `Tie` says which of two equally near ones. For each number of digits only the two neighbours
of the double on the grid of decimals with so many digits have to be tried.
-/

namespace Phrasebook

/-- A positive decimal: `digits · 10 ^ power`. -/
structure Decimal where
  digits : Nat
  power : Int
  deriving DecidableEq, Repr

/-- The decimal without zeros at the end of its digits, of which there are at most `fuel`. -/
def Decimal.strip (fuel : Nat) (d : Decimal) : Decimal :=
  match fuel with
  | 0 => d
  | fuel + 1 =>
    if d.digits ≠ 0 ∧ d.digits % 10 = 0 then strip fuel ⟨d.digits / 10, d.power + 1⟩ else d

/-- Which of two equally near decimals is taken. -/
inductive Tie where
  /-- The larger one. -/
  | up
  /-- The one whose last digit is even. -/
  | even
  deriving DecidableEq, Repr

namespace Double

/-- A bound on the number of decimal places that the order of a double can ask for. -/
def places : Nat := 400

/-- The power of ten of the first significant digit of a positive count of units. -/
def decimalOrder (units : Nat) : Int :=
  ((Nat.toDigits 10 (units * Nat.pow 10 places / one)).length : Int) - 1 - places

/-- The comparison of a number of quarter units with `digits · 10 ^ power`, both scaled to natural
numbers. -/
def compareQuarters (quarters : Nat) (d : Decimal) : Ordering :=
  if 0 ≤ d.power then compare quarters (d.digits * Nat.pow 10 d.power.toNat * (4 * one))
  else compare (quarters * Nat.pow 10 (-d.power).toNat) (d.digits * (4 * one))

/-- Whether a decimal is nearer to a double than to its neighbours. The middle between two doubles
belongs to the one whose last bit is zero. The gap below a power of two is half the gap above it. -/
def roundsTo (units : Nat) (d : Decimal) : Bool :=
  let gap := gap units
  let significand := units / gap
  let below := if significand = Nat.pow 2 52 ∧ 1 < gap then gap else 2 * gap
  let low := compareQuarters (4 * units - below) d
  let high := compareQuarters (4 * units + 2 * gap) d
  if significand % 2 = 0 then low != .gt && high != .lt else low == .lt && high == .gt

/-- The greatest decimal with a given power of ten that is not above a count of units. -/
def floorDecimal (units : Nat) (power : Int) : Decimal :=
  ⟨if 0 ≤ power then units / (one * Nat.pow 10 power.toNat)
    else units * Nat.pow 10 (-power).toNat / one, power⟩

/-- The decimal of a count of units with a given power of ten that reads back as it, if any: of
two the nearer one. -/
def candidate? (tie : Tie) (units : Nat) (power : Int) : Option Decimal :=
  let low := floorDecimal units power
  let high : Decimal := ⟨low.digits + 1, power⟩
  match roundsTo units low, roundsTo units high with
  | false, false => none
  | true, false => some low
  | false, true => some high
  | true, true =>
    -- Twice the count against the sum of the two neighbours.
    match compareQuarters (8 * units) ⟨low.digits + high.digits, power⟩, tie with
    | .lt, _ => some low
    | .gt, _ => some high
    | .eq, .up => some high
    | .eq, .even => some (if low.digits % 2 = 0 then low else high)

/-- The first decimal that reads back, from the coarsest grid to the finest one of `fuel` grids. -/
def shortestFrom (tie : Tie) (units : Nat) (fuel : Nat) (power : Int) : Decimal :=
  match fuel with
  | 0 => floorDecimal units power
  | fuel + 1 => (candidate? tie units power).getD (shortestFrom tie units fuel (power - 1))

/-- The shortest decimal of a positive count of units. Seventeen digits always suffice. -/
def shortest (tie : Tie) (units : Nat) : Decimal :=
  (shortestFrom tie units 17 (decimalOrder units)).strip 400

end Double

end Phrasebook
