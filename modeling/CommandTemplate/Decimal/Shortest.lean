import CommandTemplate.Decimal.Binary

/-!
# The shortest decimal of a binary number

A decimal *reads back* as a number when it lies in the interval of reals that round to the number;
the ends of the interval belong to it when the mantissa is even.  Of the decimals that read back,
those with the fewest digits are wanted, and of these the one nearest to the number; which of two
equally near ones is taken is a matter of choice.  On each grid of decimals with a given number of
digits only the two neighbours of the number matter, and one of the grids with up to seventeen
digits has a neighbour that reads back.
-/

namespace CommandTemplate

/-- A positive decimal: its digits as a number, and the power of ten of the last digit. -/
structure Decimal where
  digits : Nat
  exponent : Int
deriving DecidableEq, Repr

/-- A number as a fraction of a power of ten, together with the interval that reads back, in
quarters of the last place of the mantissa. -/
structure ScaledNumber where
  /-- The number is `num / den` steps of the grid. -/
  num : Nat
  den : Nat
  /-- The lower end of the interval is `low / (4 * den)` steps. -/
  low : Nat
  /-- The upper end of the interval is `high / (4 * den)` steps. -/
  high : Nat
  /-- Whether the ends belong to the interval. -/
  closed : Bool

namespace Binary64

/-- The power of ten of the first digit of a positive number.  Below one, it is minus the number of
digits of the reciprocal, rounded up, less one. -/
def leadingExponent (x : Binary64) : Int :=
  let one := 1 <<< unitExponent
  if one ≤ x.units then
    digitCount (x.units / one) - 1
  else
    -(digitCount ((one + x.units - 1) / x.units - 1) : Int)

/-- A positive number on the grid of multiples of a power of ten. -/
def scaled (x : Binary64) (exponent : Int) : ScaledNumber :=
  let factor := if exponent < 0 then tenPower (-exponent).toNat else 1
  let divisor := if 0 ≤ exponent then tenPower exponent.toNat else 1
  let below := if x.mantissa = 1 <<< (precision - 1) ∧ 0 < x.shift then 1 else 2
  { num := x.units * factor
    den := (1 <<< unitExponent) * divisor
    low := ((4 * x.mantissa - below) <<< x.shift) * factor
    high := ((4 * x.mantissa + 2) <<< x.shift) * factor
    closed := x.mantissa % 2 = 0 }

end Binary64

namespace ScaledNumber

/-- Whether a multiple of the grid reads back as the number. -/
def readsBack (number : ScaledNumber) (steps : Nat) : Bool :=
  let place := steps * (4 * number.den)
  if number.closed then number.low ≤ place ∧ place ≤ number.high
  else number.low < place ∧ place < number.high

/-- The multiple of the grid that reads back, the nearer one if both neighbours do. -/
def candidate? (tie : Tie) (number : ScaledNumber) : Option Nat :=
  let lower := number.num / number.den
  let upper := lower + 1
  match number.readsBack lower, number.readsBack upper with
  | true, true => some (roundDiv tie number.num number.den)
  | true, false => some lower
  | false, true => some upper
  | false, false => none

end ScaledNumber

namespace Binary64

/-- The decimal with the given number of digits that reads back. -/
def decimalOfLength? (tie : Tie) (x : Binary64) (length : Nat) : Option Decimal :=
  let exponent := x.leadingExponent - (length : Int) + 1
  match (x.scaled exponent).candidate? tie with
  | some digits =>
    some (if digits = tenPower length then ⟨1, exponent + length⟩ else ⟨digits, exponent⟩)
  | none => none

/-- The shortest decimal that reads back as a positive number. -/
def shortest (tie : Tie) (x : Binary64) : Decimal :=
  ((List.range 17).findSome? fun n => x.decimalOfLength? tie (n + 1)).getD ⟨0, 0⟩

end Binary64
end CommandTemplate
