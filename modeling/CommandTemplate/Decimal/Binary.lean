import CommandTemplate.Text.Natural

/-!
# Binary floating-point numbers

A finite number of the 64-bit binary format is a sign with a multiple of 2⁻¹⁰⁷⁴, the least positive
number of the format; the multiple is a mantissa below 2⁵³ shifted to the left.  All arithmetic is
done on the exact fraction and rounded once, to the nearest number of the format, and of two
equally near ones to the one with the even mantissa.
-/

namespace CommandTemplate

/-- A finite number of the 64-bit binary format, in units of 2⁻¹⁰⁷⁴. -/
structure Binary64 where
  negative : Bool
  mantissa : Nat
  shift : Nat
deriving DecidableEq, Repr

namespace Binary64

/-- The unit is 2 to the power of minus this. -/
def unitExponent : Nat := 1074

/-- The number of bits of a mantissa. -/
def precision : Nat := 53

/-- The greatest shift of a finite number. -/
def maxShift : Nat := 2045

def zero (negative : Bool) : Binary64 :=
  ⟨negative, 0, 0⟩

def isZero (x : Binary64) : Bool :=
  x.mantissa = 0

/-- The number with the given sign in place of its own. -/
def withSign (negative : Bool) (x : Binary64) : Binary64 :=
  { x with negative := negative }

/-- The magnitude in units. -/
def units (x : Binary64) : Nat :=
  x.mantissa <<< x.shift

/-- Whether two numbers are equal as values: the two zeros are. -/
def sameValue (x y : Binary64) : Bool :=
  x = y || x.isZero && y.isZero

end Binary64

/-- Which of two equally near natural numbers a half is rounded to. -/
inductive Tie
  | even
  | upper
deriving DecidableEq, Repr

/-- Whether a half above a natural number is rounded down to it. -/
def Tie.isDown (tie : Tie) (n : Nat) : Bool :=
  tie = .even && n % 2 = 0

/-- The quotient rounded to the nearest natural number. -/
def roundDiv (tie : Tie) (num den : Nat) : Nat :=
  let quotient := num / den
  let twice := 2 * (num % den)
  if twice < den ∨ twice = den ∧ tie.isDown quotient then quotient else quotient + 1

namespace Binary64

/-- The number nearest to a fraction, or nothing when it is beyond the finite numbers. -/
def ofRatio? (negative : Bool) (num den : Nat) : Option Binary64 :=
  let scaled := num <<< unitExponent
  let shift := (scaled / den).log2 + 1 - precision
  let mantissa := roundDiv .even scaled (den <<< shift)
  if mantissa = 1 <<< precision then
    if shift < maxShift then some ⟨negative, 1 <<< (precision - 1), shift + 1⟩ else none
  else
    if shift ≤ maxShift then some ⟨negative, mantissa, shift⟩ else none

def ofNat? (n : Nat) : Option Binary64 :=
  ofRatio? false n 1

/-- The product of a number with a natural number that is itself first rounded. -/
def mul? (x : Binary64) (n : Nat) : Option Binary64 :=
  match ofNat? n with
  | some y => ofRatio? x.negative (x.units * y.units) (1 <<< (2 * unitExponent))
  | none => none

/-- The quotient of a number by a positive natural number that is itself first rounded. -/
def div? (x : Binary64) (n : Nat) : Option Binary64 :=
  match ofNat? n with
  | some y => ofRatio? x.negative x.units y.units
  | none => none

/-- The number nearest to a decimal with the given digits and power of ten, or nothing when it is
beyond the finite numbers.  A power of ten that is out of reach is not worked out. -/
def ofDecimal? (negative : Bool) (digits : Nat) (exponent : Int) : Option Binary64 :=
  let magnitude := digitCount digits + exponent
  if digits = 0 ∨ magnitude < -400 then some (zero negative)
  else if 400 < magnitude then none
  else if 0 ≤ exponent then ofRatio? negative (digits * tenPower exponent.toNat) 1
  else ofRatio? negative digits (tenPower (-exponent).toNat)

end Binary64
end CommandTemplate
