import CommandTemplate.Toml.Quoted
import CommandTemplate.Toml.Value

/-!
# Writing TOML values

Values are written on one line, as they stand on the right of a `=`.  Floating-point numbers are
written out in full, tables in braces with their keys sorted.  A text is quoted in the plainest way
that needs no escapes: in double quotes, in single quotes, in three double quotes and in three
single quotes, in this order; a text with other control characters is escaped.  A key is left bare
if it can be, and is never quoted with three quotes.
-/

namespace CommandTemplate

/-- The key under which a date-time stands when it is written as a value of its own. -/
def dateTimeKey : Text :=
  "$__toml_private_datetime".toList

namespace TomlWriter

/-- Floating-point numbers are always written out in full, and of two equally near decimals the one
farther from zero is taken. -/
def floats : FloatLayout :=
  ⟨none, none, .upper⟩

/-- Whether a character can only be written as an escape; tabs and line breaks are looked at
separately. -/
def needsEscape (c : Char) : Bool :=
  (c.val < 0x20 && c ≠ '\t' && c ≠ '\n') || c.val = 0x7F

/-- The greatest number of times that a character stands side by side with itself. -/
def longestRun (mark : Char) (text : Text) : Nat :=
  (text.foldl
    (fun (current, longest) c =>
      if c = mark then (current + 1, max longest (current + 1)) else (0, longest))
    (0, 0)).2

/-- The ways to quote a text. -/
inductive Quoting
  | basic
  | literal
  | longBasic
  | longLiteral
deriving DecidableEq, Repr

/-- Whether a text can be written in some quotes as it is. -/
def Quoting.suits (text : Text) : Quoting → Bool
  | .basic => !(text.any needsEscape || text.any fun c => c = '\\' || c = '"' || c = '\n')
  | .literal => !(text.any needsEscape || text.any fun c => c = '\x27' || c = '\n')
  | .longBasic => !(text.any needsEscape || '\\' ∈ text || 2 < longestRun '"' text)
  | .longLiteral => !(text.any needsEscape || 2 < longestRun '\x27' text)

def Quoting.ofValue (text : Text) : Quoting :=
  ([basic, literal, longBasic, longLiteral].find? (suits text)).getD
    (if '\n' ∈ text then longBasic else basic)

/-- The quotes for a text as a key that is not bare. -/
def Quoting.ofKey (text : Text) : Quoting :=
  ([basic, literal].find? (suits text)).getD basic

/-- The upper-case hexadecimal digit of a value below sixteen. -/
def hexDigit (value : Nat) : Char :=
  if value < 10 then digitChar value else Char.ofNat ('A'.toNat + (value - 10))

/-- A character between double quotes; line breaks stand as they are between three of them. -/
def escapeChar (long : Bool) (c : Char) : Text :=
  if c = '\x08' then ['\\', 'b']
  else if c = '\t' then ['\\', 't']
  else if c = '\n' then (if long then ['\n'] else ['\\', 'n'])
  else if c = '\x0c' then ['\\', 'f']
  else if c = '\r' then ['\\', 'r']
  else if c = '\\' then ['\\', '\\']
  else if c.val < 0x20 ∨ c.val = 0x7F then
    ['\\', 'u', '0', '0', hexDigit (c.toNat / 16), hexDigit (c.toNat % 16)]
  else [c]

/-- A text between double quotes.  `allowed` quotes may stand side by side, of which `run` are read
already; one more is escaped. -/
def escape (long : Bool) (allowed : Nat) : Nat → Text → Text
  | _, [] => []
  | run, c :: text =>
    if c = '"' then
      if run < allowed then '"' :: escape long allowed (run + 1) text
      else '\\' :: '"' :: escape long allowed 0 text
    else
      escapeChar long c ++ escape long allowed 0 text

/-- A text in the given quotes.  Between three quotes, a text with line breaks starts on a line of
its own. -/
def quote (text : Text) : Quoting → Text
  | .basic => '"' :: (escape false 0 0 text ++ ['"'])
  | .literal => '\x27' :: (text ++ ['\x27'])
  | .longBasic => long (escape true 2 0 text) ['"', '"', '"']
  | .longLiteral => long text ['\x27', '\x27', '\x27']
where
  long (body quotes : Text) : Text :=
    quotes ++ (if '\n' ∈ text then ['\n'] else []) ++ body ++ quotes

/-- A key. -/
def writeKey (key : Text) : Text :=
  if key ≠ [] ∧ key.all TomlReader.isBareKeyChar then key else quote key (.ofKey key)

/-- Fields, already written, in the order of their keys. -/
def sortFields {α : Type} (fields : List (Text × α)) : List (Text × α) :=
  fields.mergeSort fun a b => !(Text.precedes b.1 a.1)

def inBrackets (items : List Text) : Text :=
  '[' :: (Text.join [',', ' '] items ++ [']'])

def inBraces (fields : List (Text × Text)) : Text :=
  if fields = [] then ['{', '}']
  else
    let written := (sortFields fields).map fun (key, value) => writeKey key ++ " = ".toList ++ value
    '{' :: ' ' :: (Text.join [',', ' '] written ++ [' ', '}'])

mutual

/-- A value within another. -/
def write : TomlValue → Text
  | .string text => quote text (.ofValue text)
  | .integer i => Text.ofInt i
  | .float x => floats.render x
  | .infinity negative => if negative then "-inf".toList else "inf".toList
  | .nan => "nan".toList
  | .boolean b => if b then "true".toList else "false".toList
  | .dateTime value => value.text
  | .array items => inBrackets (writeItems items)
  | .table fields => inBraces (writeFields fields)

def writeItems : List TomlValue → List Text
  | [] => []
  | item :: items => write item :: writeItems items

/-- The keys of a table with their values written. -/
def writeFields : List (Text × TomlValue) → List (Text × Text)
  | [] => []
  | (key, value) :: fields => (key, write value) :: writeFields fields

end

end TomlWriter

/-- A value of its own: a text as it is, a date-time as the one field of a table, and any other
value as TOML. -/
def TomlValue.standalone : TomlValue → Text
  | .string text => text
  | .dateTime value => TomlWriter.write (.table [(dateTimeKey, .string value.text)])
  | value => TomlWriter.write value

end CommandTemplate
