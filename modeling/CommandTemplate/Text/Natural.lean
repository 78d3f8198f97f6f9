import CommandTemplate.Text.Basic

/-!
# Numbers in texts

Natural numbers are written in decimal with no sign and no leading zero.  Reading accepts an optional `+` and any
number of ASCII digits, up to a given bound, and says which of three faults it met: no text at
all, a character that is no digit, or a value above the bound.  The first fault from the left is
the one reported.

An escape with four hexadecimal digits names a UTF-16 unit.  A high surrogate stands for a character
only together with a low one after it.
-/

namespace CommandTemplate

def digit? (c : Char) : Option Nat :=
  if '0' ≤ c ∧ c ≤ '9' then some (c.toNat - '0'.toNat) else none

/-- The value of an ASCII hexadecimal digit, in either case. -/
def hexDigit? (c : Char) : Option Nat :=
  if '0' ≤ c ∧ c ≤ '9' then some (c.toNat - '0'.toNat)
  else if 'a' ≤ c ∧ c ≤ 'f' then some (c.toNat - 'a'.toNat + 10)
  else if 'A' ≤ c ∧ c ≤ 'F' then some (c.toNat - 'A'.toNat + 10)
  else none

/-- The value of digits in a base of at most sixteen. -/
def numeral (base : Nat) (digits : Text) : Nat :=
  digits.foldl (fun value c => value * base + (hexDigit? c).getD 0) 0

def isDigit (c : Char) : Bool :=
  (digit? c).isSome

theorem isDigit_iff {c : Char} : isDigit c = true ↔ '0' ≤ c ∧ c ≤ '9' := by
  rw [isDigit, digit?]
  split
  · rename_i hrange
    exact iff_of_true rfl hrange
  · rename_i hrange
    exact iff_of_false (by simp) hrange

def digitChar (value : Nat) : Char :=
  Char.ofNat ('0'.toNat + value)

/-- The decimal digits of a number in front of `rest`. -/
def writeNatural (n : Nat) (rest : Text) : Text :=
  if n < 10 then digitChar n :: rest else writeNatural (n / 10) (digitChar (n % 10) :: rest)
termination_by n

def Text.ofNat (n : Nat) : Text :=
  writeNatural n []

def digitCount (n : Nat) : Nat :=
  (Text.ofNat n).length

/-- An integer in decimal, with `-` in front of a negative one. -/
def Text.ofInt : Int → Text
  | .ofNat n => Text.ofNat n
  | .negSucc n => '-' :: Text.ofNat (n + 1)

/-- Why a text is not a natural number within bounds. -/
inductive NumeralFault
  | empty
  | invalidDigit
  | tooLarge
deriving DecidableEq, Repr

def NumeralFault.message : NumeralFault → Text
  | .empty => "cannot parse integer from empty string".toList
  | .invalidDigit => "invalid digit found in string".toList
  | .tooLarge => "number too large to fit in target type".toList

/-- Reads the digits that follow a number read so far, staying below `bound`. -/
def readDigits (bound : Nat) : Nat → Text → Except NumeralFault Nat
  | value, [] => .ok value
  | value, c :: rest =>
    match digit? c with
    | none => .error .invalidDigit
    | some d =>
      if value * 10 + d < bound then readDigits bound (value * 10 + d) rest else .error .tooLarge

/-- Reads a number below `bound` that fills the whole text. -/
def readNatural (bound : Nat) : Text → Except NumeralFault Nat
  | [] => .error .empty
  | ['+'] => .error .invalidDigit
  | '+' :: digits => readDigits bound 0 digits
  | digits => readDigits bound 0 digits

def tenPower (n : Nat) : Nat :=
  Nat.pow 10 n

/-- Indices and keys lie below this bound, the number of words of 64 bits. -/
def wordBound : Nat := 0x10000000000000000

/-- Whether an integer fits into 64 bits with a sign. -/
def fitsSigned (i : Int) : Bool :=
  -0x8000000000000000 ≤ i && i < 0x8000000000000000

/-! ## Characters from UTF-16 escapes -/

def hexUnit? (a b c d : Char) : Option Nat :=
  match hexDigit? a, hexDigit? b, hexDigit? c, hexDigit? d with
  | some w, some x, some y, some z => some (((w * 16 + x) * 16 + y) * 16 + z)
  | _, _, _, _ => none

/-- Whether a unit is the first of a pair. -/
def isHighSurrogate (unit : Nat) : Bool :=
  0xD800 ≤ unit && unit ≤ 0xDBFF

/-- Whether a unit is the second of a pair. -/
def isLowSurrogate (unit : Nat) : Bool :=
  0xDC00 ≤ unit && unit ≤ 0xDFFF

/-- The character that UTF-16 gives a pair of surrogates. -/
def surrogatePair (high low : Nat) : Char :=
  Char.ofNat ((high - 0xD800) * 0x400 + (low - 0xDC00) + 0x10000)

end CommandTemplate
