import CommandTemplate.Decimal.Layout
import CommandTemplate.Text.Natural

/-!
# TOML values

The values that a TOML file gives to its keys.  Tables list their fields in the order of the file.

A date-time is a date, a time of day, or both, and only with both there may be an offset from
universal time.  It is written with `T` before the time and with no more digits of a second than
needed.  Reading also accepts a blank or a small `t` before the time and a small `z` for universal
time, and drops the digits of a second beyond the ninth.
-/

namespace CommandTemplate

/-! ## Dates and times -/

structure Date where
  year : Nat
  month : Nat
  day : Nat
deriving DecidableEq, Repr

/-- A time of day; the digits of the fraction of its second end in no zero. -/
structure Time where
  hour : Nat
  minute : Nat
  second : Nat
  fraction : Text
deriving DecidableEq, Repr

/-- The offset of a local time from universal time. -/
inductive Offset
  | universal
  | shifted (west : Bool) (minutes : Nat)
deriving DecidableEq, Repr

/-- A date, a time or both. -/
inductive DateTime
  | day (date : Date)
  | clock (time : Time)
  | moment (date : Date) (time : Time) (offset : Option Offset)
deriving DecidableEq, Repr

def twoDigits (n : Nat) : Text :=
  [digitChar (n / 10), digitChar (n % 10)]

/-- Reads a given number of digits that follow a value. -/
def readPlaces? : Nat → Nat → Text → Option (Nat × Text)
  | 0, value, rest => some (value, rest)
  | _ + 1, _, [] => none
  | places + 1, value, c :: rest =>
    match digit? c with
    | some d => readPlaces? places (value * 10 + d) rest
    | none => none

namespace Date

def isLeapYear (year : Nat) : Bool :=
  year % 4 = 0 && (year % 100 ≠ 0 || year % 400 = 0)

def daysInMonth (year month : Nat) : Nat :=
  if month = 2 then (if isLeapYear year then 29 else 28)
  else if month = 4 ∨ month = 6 ∨ month = 9 ∨ month = 11 then 30
  else 31

/-- A date with dashes between its numbers. -/
def text (date : Date) : Text :=
  twoDigits (date.year / 100) ++ twoDigits (date.year % 100) ++
    '-' :: (twoDigits date.month ++ '-' :: twoDigits date.day)

/-- Reads a date at the beginning of a text. -/
def read? (text : Text) : Option (Date × Text) :=
  match readPlaces? 4 0 text with
  | some (year, '-' :: rest) =>
    match readPlaces? 2 0 rest with
    | some (month, '-' :: rest) =>
      match readPlaces? 2 0 rest with
      | some (day, rest) =>
        if 1 ≤ month ∧ month ≤ 12 ∧ 1 ≤ day ∧ day ≤ daysInMonth year month then
          some (⟨year, month, day⟩, rest)
        else none
      | none => none
    | _ => none
  | _ => none

end Date

namespace Time

/-- Digits of a fraction that count. -/
def fractionPlaces : Nat := 9

/-- A time with colons between its numbers. -/
def text (time : Time) : Text :=
  twoDigits time.hour ++ ':' :: (twoDigits time.minute ++ ':' :: twoDigits time.second) ++
    (if time.fraction = [] then [] else '.' :: time.fraction)

/-- The digits of a fraction that are kept. -/
def significant (digits : Text) : Text :=
  ((digits.take fractionPlaces).reverse.dropWhile (· = '0')).reverse

/-- Reads the fraction of a second, if there is one. -/
def readFraction : Text → Text × Text
  | '.' :: rest =>
    let digits := rest.takeWhile isDigit
    if digits = [] then ([], '.' :: rest) else (significant digits, rest.dropWhile isDigit)
  | rest => ([], rest)

/-- Reads a time at the beginning of a text.  Its second may be a leap second. -/
def read? (text : Text) : Option (Time × Text) :=
  match readPlaces? 2 0 text with
  | some (hour, ':' :: rest) =>
    match readPlaces? 2 0 rest with
    | some (minute, ':' :: rest) =>
      match readPlaces? 2 0 rest with
      | some (second, rest) =>
        if hour ≤ 23 ∧ minute ≤ 59 ∧ second ≤ 60 then
          let (fraction, rest) := readFraction rest
          some (⟨hour, minute, second, fraction⟩, rest)
        else none
      | none => none
    | _ => none
  | _ => none

end Time

namespace Offset

/-- An offset; a minus sign stands only before one that is not zero. -/
def text : Offset → Text
  | .universal => ['Z']
  | .shifted west minutes =>
    (if west ∧ minutes ≠ 0 then '-' else '+') ::
      (twoDigits (minutes / 60) ++ ':' :: twoDigits (minutes % 60))

def readMinutes? (west : Bool) (text : Text) : Option (Offset × Text) :=
  match readPlaces? 2 0 text with
  | some (hours, ':' :: rest) =>
    match readPlaces? 2 0 rest with
    | some (minutes, rest) =>
      if hours ≤ 23 ∧ minutes ≤ 59 then some (.shifted west (hours * 60 + minutes), rest)
      else none
    | none => none
  | _ => none

/-- Reads an offset at the beginning of a text. -/
def read? : Text → Option (Offset × Text)
  | 'Z' :: rest | 'z' :: rest => some (.universal, rest)
  | '+' :: rest => readMinutes? false rest
  | '-' :: rest => readMinutes? true rest
  | _ => none

end Offset

namespace DateTime

/-- A date-time in its one written form. -/
def text : DateTime → Text
  | .day date => date.text
  | .clock time => time.text
  | .moment date time offset =>
    date.text ++ 'T' :: time.text ++ (offset.map Offset.text).getD []

/-- Reads the time that may follow a date. -/
def readClock? : Text → Option (Time × Text)
  | 'T' :: rest | 't' :: rest | ' ' :: rest => Time.read? rest
  | _ => none

/-- Reads a date-time at the beginning of a text. -/
def read? (text : Text) : Option (DateTime × Text) :=
  match Date.read? text with
  | none => (Time.read? text).map fun (time, rest) => (.clock time, rest)
  | some (date, rest) =>
    match readClock? rest with
    | none => some (.day date, rest)
    | some (time, rest) =>
      match Offset.read? rest with
      | none => some (.moment date time none, rest)
      | some (offset, rest) => some (.moment date time (some offset), rest)

/-- Reads a text that is nothing but a date-time. -/
def ofQuoted? (text : Text) : Option DateTime :=
  match read? text with
  | some (dateTime, []) => some dateTime
  | _ => none

end DateTime

/-! ## Values -/

inductive TomlValue
  | string (text : Text)
  | integer (i : Int)
  | float (x : Binary64)
  | infinity (negative : Bool)
  | nan
  | boolean (b : Bool)
  | dateTime (value : DateTime)
  | array (items : List TomlValue)
  | table (fields : List (Text × TomlValue))

end CommandTemplate
