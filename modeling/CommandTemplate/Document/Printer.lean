import CommandTemplate.Decimal.Layout
import CommandTemplate.Document.Value

/-!
# Writing documents

Values are written in JSON, in one of two styles: *compact*, without any blanks, and *indented*,
with each item and each field on a line of its own and two spaces for each level.  In both, strings
escape only quotes, backslashes and characters below U+0020, and empty arrays and objects stay
unbroken.  Every function writes in front of a given rest.
-/

namespace CommandTemplate

/-- Floating-point numbers of documents are written out in full from 0.00001 up to below 10¹⁶, and
of two equally near decimals the one with the even last digit is taken. -/
def documentFloats : FloatLayout :=
  ⟨some (-5), some 15, .even⟩

/-- The lower-case hexadecimal digit of a value below sixteen. -/
def hexChar (value : Nat) : Char :=
  if value < 10 then digitChar value else Char.ofNat ('a'.toNat + (value - 10))

/-- A character as it stands in a string. -/
def escapeChar (c : Char) : Text :=
  if c = '"' then ['\\', '"']
  else if c = '\\' then ['\\', '\\']
  else if c = '\x08' then ['\\', 'b']
  else if c = '\x0c' then ['\\', 'f']
  else if c = '\n' then ['\\', 'n']
  else if c = '\r' then ['\\', 'r']
  else if c = '\t' then ['\\', 't']
  else if c < ' ' then
    ['\\', 'u', '0', '0', hexChar (c.toNat / 16), hexChar (c.toNat % 16)]
  else [c]

/-- The characters of a string and its closing quote in front of `rest`. -/
def writeStringTail : Text → Text → Text
  | [], rest => '"' :: rest
  | c :: text, rest => escapeChar c ++ writeStringTail text rest

def writeString (text rest : Text) : Text :=
  '"' :: writeStringTail text rest

/-- A line break with the blanks of a level of nesting in front of `rest`. -/
def writeLine (level : Nat) (rest : Text) : Text :=
  '\n' :: (List.replicate (2 * level) ' ' ++ rest)

namespace Value

mutual

/-- A value in the compact style in front of `rest`. -/
def write : Value → Text → Text
  | .null, rest => 'n' :: 'u' :: 'l' :: 'l' :: rest
  | .bool true, rest => 't' :: 'r' :: 'u' :: 'e' :: rest
  | .bool false, rest => 'f' :: 'a' :: 'l' :: 's' :: 'e' :: rest
  | .int i, rest => Text.ofInt i ++ rest
  | .float x, rest => documentFloats.render x ++ rest
  | .string text, rest => writeString text rest
  | .array [], rest => '[' :: ']' :: rest
  | .array (item :: items), rest => '[' :: write item (writeItems items rest)
  | .object [], rest => '{' :: '}' :: rest
  | .object ((name, value) :: fields), rest =>
    '{' :: writeString name (':' :: write value (writeFields fields rest))

/-- The items of an array after the first, and its end. -/
def writeItems : List Value → Text → Text
  | [], rest => ']' :: rest
  | item :: items, rest => ',' :: write item (writeItems items rest)

/-- The fields of an object after the first, and its end. -/
def writeFields : List (Text × Value) → Text → Text
  | [], rest => '}' :: rest
  | (name, value) :: fields, rest =>
    ',' :: writeString name (':' :: write value (writeFields fields rest))

end

mutual

/-- A value in the indented style, at a level of nesting, in front of `rest`. -/
def writeIndented (level : Nat) : Value → Text → Text
  | .array (item :: items), rest =>
    '[' :: writeLine (level + 1)
      (writeIndented (level + 1) item (writeIndentedItems level items rest))
  | .object ((name, value) :: fields), rest =>
    '{' :: writeLine (level + 1)
      (writeString name
        (':' :: ' ' :: writeIndented (level + 1) value (writeIndentedFields level fields rest)))
  | value, rest => write value rest

/-- The items of an array at a level of nesting, after the first, and its end. -/
def writeIndentedItems (level : Nat) : List Value → Text → Text
  | [], rest => writeLine level (']' :: rest)
  | item :: items, rest =>
    ',' :: writeLine (level + 1)
      (writeIndented (level + 1) item (writeIndentedItems level items rest))

/-- The fields of an object at a level of nesting, after the first, and its end. -/
def writeIndentedFields (level : Nat) : List (Text × Value) → Text → Text
  | [], rest => writeLine level ('}' :: rest)
  | (name, value) :: fields, rest =>
    ',' :: writeLine (level + 1)
      (writeString name
        (':' :: ' ' :: writeIndented (level + 1) value (writeIndentedFields level fields rest)))

end

def compact (value : Value) : Text :=
  value.write []

def indented (value : Value) : Text :=
  value.writeIndented 0 []

end Value

def Document.compact (document : Document) : Text :=
  (Value.object document).compact

def Document.arrayOf (documents : List Document) : Value :=
  .array (documents.map Value.object)

end CommandTemplate
