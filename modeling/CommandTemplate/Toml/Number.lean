import CommandTemplate.Toml.Value

/-!
# Numbers of TOML

An integer fits into 64 bits with a sign.  It is decimal, with an optional sign and no leading
zeros, or, without a sign, hexadecimal, octal or binary after `0x`, `0o` or `0b`.  A number with a
point or an exponent is the nearest floating-point number; above the greatest finite one it is
refused, below the least it is negative infinity.  Between two digits there may be one `_`.
-/

namespace CommandTemplate
namespace TomlReader

/-- The digits that follow a digit, without the `_` between them, and the text after them. -/
def moreDigits (accepts : Char → Bool) : Text → Text × Text
  | [] => ([], [])
  | '_' :: c :: rest =>
    if accepts c then
      let (digits, rest) := moreDigits accepts rest
      (c :: digits, rest)
    else ([], '_' :: c :: rest)
  | c :: rest =>
    if accepts c then
      let (digits, rest) := moreDigits accepts rest
      (c :: digits, rest)
    else ([], c :: rest)

def readDigits? (accepts : Char → Bool) : Text → Option (Text × Text)
  | [] => none
  | c :: rest =>
    if accepts c then
      let (digits, rest) := moreDigits accepts rest
      some (c :: digits, rest)
    else none

def integer? (i : Int) : Option TomlValue :=
  if fitsSigned i then some (.integer i) else none

/-- Reads an integer in a base, after the two characters that name it. -/
def readBased? (base : Nat) (text : Text) : Option (TomlValue × Text) :=
  match readDigits? (fun c => ((hexDigit? c).getD base) < base) text with
  | some (digits, rest) => (integer? (numeral base digits)).map fun value => (value, rest)
  | none => none

/-- Reads the digits before a point: a single zero, or digits that do not begin with zero. -/
def readWhole? : Text → Option (Text × Text)
  | '0' :: rest => some (['0'], rest)
  | text => readDigits? isDigit text

/-- Reads the digits after a point, if there is one. -/
def readFraction? : Text → Option (Option Text × Text)
  | '.' :: rest => (readDigits? isDigit rest).map fun (digits, rest) => (some digits, rest)
  | rest => some (none, rest)

/-- Reads the digits of an exponent with the given sign. -/
def readPower? (negative : Bool) (text : Text) : Option (Option Int × Text) :=
  (readDigits? isDigit text).map fun (digits, rest) =>
    let value : Int := numeral 10 digits
    (some (if negative then -value else value), rest)

def readExponent? : Text → Option (Option Int × Text)
  | 'e' :: '+' :: rest | 'E' :: '+' :: rest => readPower? false rest
  | 'e' :: '-' :: rest | 'E' :: '-' :: rest => readPower? true rest
  | 'e' :: rest | 'E' :: rest => readPower? false rest
  | rest => some (none, rest)

def decimal? (negative : Bool) (whole : Text) (places : Option Text) (exponent : Option Int) :
    Option TomlValue :=
  if places = none ∧ exponent = none then
    let value : Int := numeral 10 whole
    integer? (if negative then -value else value)
  else
    let digits := whole ++ places.getD []
    let power := exponent.getD 0 - (places.getD []).length
    match Binary64.ofDecimal? negative (numeral 10 digits) power with
    | some x => some (.float x)
    | none => if negative then some (.infinity true) else none

def readDecimal? (negative : Bool) (text : Text) : Option (TomlValue × Text) :=
  match readWhole? text with
  | none => none
  | some (whole, rest) =>
    match readFraction? rest with
    | none => none
    | some (places, rest) =>
      match readExponent? rest with
      | none => none
      | some (exponent, rest) =>
        (decimal? negative whole places exponent).map fun value => (value, rest)

def readUnsigned? (negative : Bool) : Text → Option (TomlValue × Text)
  | 'i' :: 'n' :: 'f' :: rest => some (.infinity negative, rest)
  | 'n' :: 'a' :: 'n' :: rest => some (.nan, rest)
  | text => readDecimal? negative text

def readNumber? : Text → Option (TomlValue × Text)
  | '0' :: 'x' :: rest => readBased? 16 rest
  | '0' :: 'o' :: rest => readBased? 8 rest
  | '0' :: 'b' :: rest => readBased? 2 rest
  | '+' :: rest => readUnsigned? false rest
  | '-' :: rest => readUnsigned? true rest
  | text => readUnsigned? false text

end TomlReader
end CommandTemplate
