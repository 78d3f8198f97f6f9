import CommandTemplate.Document.Value
import CommandTemplate.Text.Letter
import CommandTemplate.Text.Natural

/-!
# The relaxed reader

The relaxed reader accepts the syntax that people type into a shell: JSON with comments, unquoted
names, single quotes, trailing commas and a richer notation for strings and numbers, in any depth.
It answers with a value or with nothing.  Numbers that are not finite become null.  A repeated name
keeps its first place and takes the last value.  A pair of surrogate escapes is joined by a bitwise
or, which is what UTF-16 means by it only for the first of the supplementary planes and every
second one after it.

As in the strict reader, each function answers with what it read and the rest of the text, and the
readers of values, items and members take a budget of calls, two for each character.
-/

namespace CommandTemplate
namespace Relaxed

def isLineEnd (c : Char) : Bool :=
  c = '\n' || c = '\r' || c = '\u2028' || c = '\u2029'

/-- The ranges of space characters other than line ends: control characters, the byte-order mark and
the category `Zs`. -/
def spaceRanges : List (Nat × Nat) :=
  [(0x09, 0x09), (0x0B, 0x0C), (0x20, 0x20), (0xA0, 0xA0), (0x1680, 0x1680), (0x2000, 0x200A),
   (0x202F, 0x202F), (0x205F, 0x205F), (0x3000, 0x3000), (0xFEFF, 0xFEFF)]

/-- Whether a character may stand between tokens. -/
def isSpace (c : Char) : Bool :=
  Text.inRanges spaceRanges c || isLineEnd c

/-- Where in the gap between two tokens a character stands. -/
inductive Gap
  | space
  | lineComment
  | blockComment
deriving DecidableEq

/-- Passes over the space and the comments that a text begins with; a block comment has to be
closed. -/
def skipFrom : Gap → Text → Option Text
  | .space, [] => some []
  | .space, '/' :: '/' :: rest => skipFrom .lineComment rest
  | .space, '/' :: '*' :: rest => skipFrom .blockComment rest
  | .space, c :: rest => if isSpace c then skipFrom .space rest else some (c :: rest)
  | .lineComment, [] => some []
  | .lineComment, c :: rest => skipFrom (if isLineEnd c then .space else .lineComment) rest
  | .blockComment, [] => none
  | .blockComment, '*' :: '/' :: rest => skipFrom .space rest
  | .blockComment, _ :: rest => skipFrom .blockComment rest

/-- Passes over the gap before the next token. -/
def skip (text : Text) : Option Text :=
  skipFrom .space text

/-- The characters that escapes of one character stand for; digits, `x`, `u` and line ends do not
make such escapes. -/
def simpleEscape? (c : Char) : Option Char :=
  if c = '0' then some '\x00'
  else if c = 'b' then some '\x08'
  else if c = 'f' then some '\x0c'
  else if c = 'n' then some '\n'
  else if c = 'r' then some '\r'
  else if c = 't' then some '\t'
  else if c = 'v' then some '\x0b'
  else if isDigit c ∨ c = 'x' ∨ c = 'u' ∨ isLineEnd c then none
  else some c

/-- The character of a pair of surrogate escapes: the offset of the supplementary planes is added to
the second half before the halves are joined. -/
def joinSurrogates (high low : Nat) : Char :=
  Char.ofNat (((high - 0xD800) <<< 10) ||| ((low - 0xDC00) + 0x10000))

/-- Takes a unit in hexadecimal into the characters read, in reverse; `high` is the first half of a
surrogate pair that waits for its second. -/
def takeUnit? (read : Text) (high : Option Nat) (unit : Nat) : Option (Text × Option Nat) :=
  match high with
  | some first =>
    if isLowSurrogate unit then some (joinSurrogates first unit :: read, none) else none
  | none =>
    if isLowSurrogate unit then none
    else if isHighSurrogate unit then some (read, some unit)
    else some (Char.ofNat unit :: read, none)

/-- Reads the characters of a string up to its closing quote.  A line end after a backslash stands
for nothing, also between the halves of a surrogate pair, where nothing else may stand. -/
def readString (quote : Char) (read : Text) (high : Option Nat) : Text → Option (Text × Text)
  | '\\' :: 'u' :: a :: b :: c :: d :: rest =>
    match hexUnit? a b c d with
    | none => none
    | some unit =>
      match takeUnit? read high unit with
      | some (read, high) => readString quote read high rest
      | none => none
  | '\\' :: 'x' :: a :: b :: rest =>
    match high, hexDigit? a, hexDigit? b with
    | none, some x, some y => readString quote (Char.ofNat (x * 16 + y) :: read) none rest
    | _, _, _ => none
  | '\\' :: '\r' :: '\n' :: rest => readString quote read high rest
  | '\\' :: c :: rest =>
    if isLineEnd c then
      readString quote read high rest
    else
      match high, simpleEscape? c with
      | none, some e => readString quote (e :: read) none rest
      | _, _ => none
  | c :: rest =>
    match high with
    | some _ => none
    | none =>
      if c = quote then some (read.reverse, rest)
      else if c = '\\' ∨ isLineEnd c then none
      else readString quote (c :: read) none rest
  | [] => none

/-- Reads a word: letters, `$`, `_` and escapes of units, and after the first also marks. -/
def readWord (read : Text) (high : Option Nat) : Text → Option (Text × Text)
  | '\\' :: 'u' :: a :: b :: c :: d :: rest =>
    match hexUnit? a b c d with
    | none => none
    | some unit =>
      match takeUnit? read high unit with
      | some (read, high) => readWord read high rest
      | none => none
  | text =>
    match high, text with
    | some _, _ => none
    | none, [] => if read = [] then none else some (read.reverse, [])
    | none, c :: rest =>
      if c.isAlpha ∨ c = '$' ∨ c = '_' then readWord (c :: read) none rest
      else if read ≠ [] ∧ isDigit c then readWord (c :: read) none rest
      else if Text.isLetter c then readWord (c :: read) none rest
      else if read ≠ [] ∧ Text.isMark c then readWord (c :: read) none rest
      else if read = [] then none
      else some (read.reverse, c :: rest)

/-- Whether a decimal is written with a point or an exponent, its digits as a number, and the power
of ten of the last digit. -/
structure DecimalLiteral where
  isFloat : Bool
  digits : Nat
  exponent : Int

def readExponent? (text : Text) : Option (Int × Text) :=
  let (negative, rest) :=
    match text.drop 1 with
    | '+' :: rest => (false, rest)
    | '-' :: rest => (true, rest)
    | rest => (false, rest)
  let digits := rest.takeWhile isDigit
  match text with
  | 'e' :: _ | 'E' :: _ =>
    if digits = [] then none
    else
      let value : Int := numeral 10 digits
      some (if negative then -value else value, rest.dropWhile isDigit)
  | _ => none

def withExponent (literal : DecimalLiteral) (text : Text) : DecimalLiteral × Text :=
  match readExponent? text with
  | some (exponent, rest) =>
    (⟨true, literal.digits, literal.exponent + exponent⟩, rest)
  | none => (literal, text)

/-- Reads the integer digits of a decimal: a single zero, or digits that do not begin with zero. -/
def readInteger : Text → Text × Text
  | '0' :: rest => (['0'], rest)
  | text => (text.takeWhile isDigit, text.dropWhile isDigit)

/-- Reads a decimal.  Either side of its point may be without digits, but not both. -/
def readDecimal? (text : Text) : Option (DecimalLiteral × Text) :=
  let (whole, rest) := readInteger text
  match rest with
  | '.' :: after =>
    let fraction := after.takeWhile isDigit
    if whole = [] ∧ fraction = [] then none
    else
      let literal := ⟨true, numeral 10 (whole ++ fraction), -(fraction.length : Int)⟩
      some (withExponent literal (after.dropWhile isDigit))
  | _ =>
    if whole = [] then none else some (withExponent ⟨false, numeral 10 whole, 0⟩ rest)

/-- The value of a decimal: an integer has to fit into 64 bits with a sign, another number must not
be beyond the finite ones. -/
def decimalValue? (negative : Bool) (literal : DecimalLiteral) : Option Value :=
  if literal.isFloat then
    (Binary64.ofDecimal? negative literal.digits literal.exponent).map .float
  else
    let value : Int := if negative then -literal.digits else literal.digits
    if fitsSigned value then some (.int value) else none

/-- Reads a hexadecimal integer of at most 32 bits, after its `0x`. -/
def readHex? (text : Text) : Option (Value × Text) :=
  let digits := text.takeWhile fun c => (hexDigit? c).isSome
  let value := numeral 16 digits
  if digits = [] ∨ 0x100000000 ≤ value then none
  else some (.int value, text.drop digits.length)

def readUnsigned? (negative : Bool) (text : Text) : Option (Value × Text) :=
  match readDecimal? text with
  | some (literal, rest) => (decimalValue? negative literal).map fun value => (value, rest)
  | none => none

/-- The words for numbers that are not finite, which become null. -/
def readNonFinite? (text : Text) : Option (Value × Text) :=
  ["Infinity".toList, "NaN".toList].findSome? fun word =>
    if text.startsWith word then some (.null, text.drop word.length) else none

/-- Reads a number.  Only a number without a sign may be hexadecimal, and one that is not finite
has no `+`. -/
def readNumber? (text : Text) : Option (Value × Text) :=
  match text with
  | '+' :: rest => readUnsigned? false rest
  | '-' :: rest => (readNonFinite? rest).orElse fun _ => readUnsigned? true rest
  | '0' :: 'x' :: rest | '0' :: 'X' :: rest => readHex? rest
  | _ => (readNonFinite? text).orElse fun _ => readUnsigned? false text

/-- Reads one of the words that stand for a value. -/
def readNamed? (text : Text) : Option (Value × Text) :=
  [("null".toList, Value.null), ("true".toList, .bool true),
    ("false".toList, .bool false)].findSome? fun (word, value) =>
      if text.startsWith word then some (value, text.drop word.length) else none

/-- Reads a name: a string or a word. -/
def readName? : Text → Option (Text × Text)
  | '"' :: rest => readString '"' [] none rest
  | '\x27' :: rest => readString '\x27' [] none rest
  | text => readWord [] none text

mutual

/-- Reads a value at the beginning of a text. -/
def readValue? : Nat → Text → Option (Value × Text)
  | 0, _ => none
  | _ + 1, '"' :: rest => (readString '"' [] none rest).map fun (text, rest) => (.string text, rest)
  | _ + 1, '\x27' :: rest =>
    (readString '\x27' [] none rest).map fun (text, rest) => (.string text, rest)
  | budget + 1, '[' :: rest =>
    match skip rest with
    | some (']' :: rest) => some (.array [], rest)
    | some rest => (readItems? [] budget rest).map fun (items, rest) => (.array items, rest)
    | none => none
  | budget + 1, '{' :: rest =>
    match skip rest with
    | some ('}' :: rest) => some (.object [], rest)
    | some rest =>
      (readMembers? [] budget rest).map fun (members, rest) =>
        (.object (Document.ofMembers members), rest)
    | none => none
  | _ + 1, text => (readNamed? text).orElse fun _ => readNumber? text

/-- Reads the items of an array up to its end, of which there is at least one more.  `read` holds,
in reverse, those that are read already. -/
def readItems? (read : List Value) : Nat → Text → Option (List Value × Text)
  | 0, _ => none
  | budget + 1, text =>
    match readValue? budget text with
    | none => none
    | some (item, rest) =>
      match skip rest with
      | some (']' :: rest) => some ((item :: read).reverse, rest)
      | some (',' :: rest) =>
        match skip rest with
        | some (']' :: rest) => some ((item :: read).reverse, rest)
        | some rest => readItems? (item :: read) budget rest
        | none => none
      | _ => none

/-- Reads the members of an object up to its end, of which there is at least one more.  `read`
holds, in reverse, those that are read already. -/
def readMembers? (read : List (Text × Value)) :
    Nat → Text → Option (List (Text × Value) × Text)
  | 0, _ => none
  | budget + 1, text =>
    match readName? text with
    | none => none
    | some (name, rest) =>
      match skip rest with
      | some (':' :: rest) =>
        match (skip rest).bind (readValue? budget) with
        | none => none
        | some (value, rest) =>
          match skip rest with
          | some ('}' :: rest) => some (((name, value) :: read).reverse, rest)
          | some (',' :: rest) =>
            match skip rest with
            | some ('}' :: rest) => some (((name, value) :: read).reverse, rest)
            | some rest => readMembers? ((name, value) :: read) budget rest
            | none => none
          | _ => none
      | _ => none

end

@[simp] theorem readValue?_zero (text : Text) : readValue? 0 text = none := by
  rw [readValue?]

@[simp] theorem readItems?_zero (read : List Value) (text : Text) :
    readItems? read 0 text = none := by
  rw [readItems?]

@[simp] theorem readMembers?_zero (read : List (Text × Value)) (text : Text) :
    readMembers? read 0 text = none := by
  rw [readMembers?]

/-- The calls that reading a text may take. -/
def budget (text : Text) : Nat :=
  2 * text.length + 1

/-- Reads a text that holds one value. -/
def read? (text : Text) : Option Value :=
  match (skip text).bind (readValue? (budget text)) with
  | some (value, rest) => if skip rest = some [] then some value else none
  | none => none

end Relaxed
end CommandTemplate
