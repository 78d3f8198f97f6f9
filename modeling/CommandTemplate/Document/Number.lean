import CommandTemplate.Document.Fault
import CommandTemplate.Document.Value

/-!
# Numbers of JSON

A number without a point and without an exponent is an integer if it fits into 64 bits with or
without a sign; `-0` and all other numbers are floating-point.  The digits of such a number are
gathered into a significand below 2⁶⁴, beyond which digits only count for the exponent, and the
significand, rounded, is multiplied or divided by the power of ten, rounded.  This is quick rather
than exact: the result may differ from the nearest number in the last place.
-/

namespace CommandTemplate
namespace JsonNumber

/-- Exponents are read up to this value. -/
def maxExponent : Nat := 0x7FFFFFFF

/-- The greatest power of ten that is used in one step. -/
def maxPower : Nat := 308

/-- A number divided a given number of times by the greatest power of ten, until it vanishes. -/
def divSteps : Nat → Binary64 → Option Binary64
  | 0, x => some x
  | steps + 1, x =>
    if x.isZero then
      some x
    else
      match x.div? (tenPower maxPower) with
      | some y => divSteps steps y
      | none => none

/-- A number over a power of ten.  A power beyond the greatest is taken in steps. -/
def divPower (x : Binary64) (power : Nat) : Option Binary64 :=
  let steps := (power - 1) / maxPower
  match divSteps steps x with
  | some y => if y.isZero then some y else y.div? (tenPower (power - steps * maxPower))
  | none => none

/-- A number times a power of ten. -/
def mulPower (x : Binary64) (power : Nat) : Option Binary64 :=
  if x.isZero then some x
  else if power ≤ maxPower then x.mul? (tenPower power)
  else none

/-- A significand times a power of ten. -/
def scale (negative : Bool) (significand : Nat) (exponent : Int) : Option Binary64 :=
  match Binary64.ofNat? significand with
  | none => none
  | some x =>
    let scaled :=
      if 0 ≤ exponent then mulPower x exponent.toNat else divPower x (-exponent).toNat
    scaled.map (Binary64.withSign negative)

/-- Takes digits into a significand as long as it stays below 2⁶⁴; answers with the significand, the
number of digits taken and the rest. -/
def gather (significand taken : Nat) : Text → Nat × Nat × Text
  | [] => (significand, taken, [])
  | c :: rest =>
    match digit? c with
    | none => (significand, taken, c :: rest)
    | some d =>
      if significand * 10 + d < wordBound then gather (significand * 10 + d) (taken + 1) rest
      else (significand, taken, c :: rest)

def startsWithDigit : Text → Bool
  | [] => false
  | c :: _ => isDigit c

/-- The digits of an exponent that follow its first. -/
inductive ExponentDigits
  /-- An exponent within reach, and the text after it. -/
  | ofNat (exponent : Nat) (rest : Text)
  /-- An exponent out of reach, and the text after the digit that made it so. -/
  | outOfReach (rest : Text)

def exponentDigits (exponent : Nat) : Text → ExponentDigits
  | [] => .ofNat exponent []
  | c :: rest =>
    match digit? c with
    | none => .ofNat exponent (c :: rest)
    | some d =>
      if exponent * 10 + d ≤ maxExponent then exponentDigits (exponent * 10 + d) rest
      else .outOfReach rest

/-- A significand times a power of ten, in front of a rest. -/
def finish (negative : Bool) (significand : Nat) (exponent : Int) (rest : Text) :
    Except Fault (Value × Text) :=
  match scale negative significand exponent with
  | some x => .ok (.float x, rest)
  | none => .error (.before .numberOutOfRange rest)

/-- The sign of an exponent, and the text after it. -/
def exponentSign : Text → Bool × Text
  | '+' :: rest => (false, rest)
  | '-' :: rest => (true, rest)
  | rest => (false, rest)

/-- Reads the rest of a number after `e` or `E`. -/
def readExponent (negative : Bool) (significand : Nat) (exponent : Int) (text : Text) :
    Except Fault (Value × Text) :=
  let (down, rest) := exponentSign text
  match rest with
  | [] => .error (.next .endInValue rest)
  | c :: _ =>
    if isDigit c then
      match exponentDigits 0 rest with
      | .ofNat shift rest =>
        let signed : Int := if down then -shift else shift
        finish negative significand (exponent + signed) rest
      | .outOfReach rest =>
        if significand ≠ 0 ∧ ¬down then .error (.before .numberOutOfRange rest)
        else .ok (.float (.zero negative), rest.dropWhile isDigit)
    else
      .error (.next .invalidNumber rest)

/-- Reads the exponent of a number, if there is one. -/
def readTail (negative : Bool) (significand : Nat) (exponent : Int) :
    Text → Except Fault (Value × Text)
  | 'e' :: rest | 'E' :: rest => readExponent negative significand exponent rest
  | rest => finish negative significand exponent rest

/-- Reads the rest of a number after the point.  `exponent` counts the digits before the point that
are not in the significand. -/
def readFraction (negative : Bool) (significand : Nat) (exponent : Int) (text : Text) :
    Except Fault (Value × Text) :=
  let (significand, taken, rest) := gather significand 0 text
  if taken = 0 ∧ ¬startsWithDigit rest then
    .error (.next (if rest = [] then .endInValue else .invalidNumber) rest)
  else
    readTail negative significand (exponent - taken) (rest.dropWhile isDigit)

/-- The value of a number that is only an integer within 64 bits. -/
def ofInteger (negative : Bool) (significand : Nat) : Value :=
  if ¬negative then .int significand
  else if significand = 0 ∨ ¬fitsSigned (-significand) then
    .float (((Binary64.ofNat? significand).getD (.zero true)).withSign true)
  else .int (-significand)

/-- Reads the rest of a number whose integer digits are in the significand, but for `dropped`
ones. -/
def readAfterInteger (negative : Bool) (significand dropped : Nat) :
    Text → Except Fault (Value × Text)
  | '.' :: rest => readFraction negative significand dropped rest
  | 'e' :: rest | 'E' :: rest => readExponent negative significand dropped rest
  | rest =>
    if dropped = 0 then .ok (ofInteger negative significand, rest)
    else finish negative significand dropped rest

def readUnsigned (negative : Bool) : Text → Except Fault (Value × Text)
  | [] => .error (.next .endInValue [])
  | '0' :: rest =>
    if startsWithDigit rest then .error (.next .invalidNumber rest)
    else readAfterInteger negative 0 0 rest
  | c :: rest =>
    if isDigit c then
      let (significand, _, others) := gather 0 0 (c :: rest)
      let after := others.dropWhile isDigit
      readAfterInteger negative significand (others.length - after.length) after
    else
      .error (.next .invalidNumber (c :: rest))

def read : Text → Except Fault (Value × Text)
  | '-' :: rest => readUnsigned true rest
  | text => readUnsigned false text

end JsonNumber
end CommandTemplate
