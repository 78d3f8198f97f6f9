import CommandTemplate.Document.Number
import CommandTemplate.Text.Natural

/-!
# The strict reader

The strict reader accepts JSON and nothing else, with at most 127 levels of arrays and objects, and
reports the first fault it meets.  A fault is met at the byte that cannot go on, which counts as
read.  A repeated name keeps its first place and takes the last value.

Each function answers with what it read and the rest of the text.  The readers of values, items and
members call each other, and take a budget of calls that no text exceeds: two for each of its
characters.
-/

namespace CommandTemplate
namespace Strict

/-- The greatest number of arrays and objects within each other. -/
def maxDepth : Nat := 127

/-- Whether a character may stand between the tokens of JSON. -/
def isSpace (c : Char) : Bool :=
  c = ' ' || c = '\t' || c = '\n' || c = '\r'

def skip (text : Text) : Text :=
  text.dropWhile isSpace

/-- Reads the rest of one of the words `null`, `true` and `false`. -/
def readWord (value : Value) : Text → Text → Except Fault (Value × Text)
  | [], rest => .ok (value, rest)
  | _ :: _, [] => .error (.next .endInValue [])
  | expected :: word, c :: rest =>
    if c = expected then readWord value word rest else .error (.next .expectedIdent (c :: rest))

/-- The character that an escape of one letter stands for. -/
def simpleEscape? (c : Char) : Option Char :=
  if c = '"' ∨ c = '\\' ∨ c = '/' then some c
  else if c = 'b' then some '\x08'
  else if c = 'f' then some '\x0c'
  else if c = 'n' then some '\n'
  else if c = 'r' then some '\r'
  else if c = 't' then some '\t'
  else none

/-- The fault of an escape whose four digits are not there: the text may end too early, and else
four bytes of it count as read. -/
def hexFault (rest : Text) : Fault :=
  if rest.size < 4 then ⟨.endInString, 0⟩ else ⟨.invalidEscape, rest.size - 4⟩

/-- The fault of a first half of a surrogate pair that is followed by `rest`, which does not begin
with an escape of four digits. -/
def pairFault : Text → Fault
  | [] | ['\\'] => .next .endInString []
  | '\\' :: 'u' :: rest => hexFault rest
  | '\\' :: rest => .next .endOfHexEscape rest
  | rest => .next .endOfHexEscape rest

/-- Reads the characters of a string up to its closing quote.  `read` holds, in reverse, those that
are read already, and `high` the first half of a surrogate pair that waits for its second. -/
def readString (read : Text) (high : Option Nat) : Text → Except Fault (Text × Text)
  | '\\' :: 'u' :: a :: b :: c :: d :: rest =>
    match hexUnit? a b c d, high with
    | none, _ => .error (hexFault (a :: b :: c :: d :: rest))
    | some unit, some first =>
      if isLowSurrogate unit then readString (surrogatePair first unit :: read) none rest
      else .error (.before .loneSurrogate rest)
    | some unit, none =>
      if isLowSurrogate unit then .error (.before .loneSurrogate rest)
      else if isHighSurrogate unit then readString read (some unit) rest
      else readString (Char.ofNat unit :: read) none rest
  | text =>
    match high with
    | some _ => .error (pairFault text)
    | none =>
      match text with
      | [] | ['\\'] => .error (.next .endInString [])
      | '"' :: rest => .ok (read.reverse, rest)
      | '\\' :: 'u' :: rest => .error (hexFault rest)
      | '\\' :: c :: rest =>
        match simpleEscape? c with
        | some e => readString (e :: read) none rest
        | none => .error (.next .invalidEscape (c :: rest))
      | c :: rest =>
        if c < ' ' then .error (.next .controlCharacter (c :: rest))
        else readString (c :: read) none rest

mutual

/-- Reads a value, with `depth` more levels of arrays and objects allowed. -/
def readValue (depth : Nat) : Nat → Text → Except Fault (Value × Text)
  | 0, text => .error (.next .endInValue text)
  | budget + 1, text =>
    match skip text with
    | [] => .error (.next .endInValue [])
    | 'n' :: rest => readWord .null "ull".toList rest
    | 't' :: rest => readWord (.bool true) "rue".toList rest
    | 'f' :: rest => readWord (.bool false) "alse".toList rest
    | '"' :: rest =>
      match readString [] none rest with
      | .ok (string, rest) => .ok (.string string, rest)
      | .error fault => .error fault
    | '[' :: rest =>
      match depth with
      | 0 => .error (.next .tooDeep ('[' :: rest))
      | depth + 1 =>
        match skip rest with
        | [] => .error (.next .endInList [])
        | ']' :: rest => .ok (.array [], rest)
        | rest =>
          match readItems depth [] budget rest with
          | .ok (items, rest) => .ok (.array items, rest)
          | .error fault => .error fault
    | '{' :: rest =>
      match depth with
      | 0 => .error (.next .tooDeep ('{' :: rest))
      | depth + 1 =>
        match skip rest with
        | [] => .error (.next .endInObject [])
        | '}' :: rest => .ok (.object [], rest)
        | rest =>
          match readMembers depth [] budget rest with
          | .ok (members, rest) => .ok (.object (Document.ofMembers members), rest)
          | .error fault => .error fault
    | c :: rest =>
      if c = '-' ∨ isDigit c then JsonNumber.read (c :: rest)
      else .error (.next .expectedValue (c :: rest))

/-- Reads the items of an array up to its end, of which there is at least one more.  `read` holds,
in reverse, those that are read already. -/
def readItems (depth : Nat) (read : List Value) : Nat → Text → Except Fault (List Value × Text)
  | 0, text => .error (.next .endInList text)
  | budget + 1, text =>
    match readValue depth budget text with
    | .error fault => .error fault
    | .ok (item, rest) =>
      match skip rest with
      | [] => .error (.next .endInList [])
      | ']' :: rest => .ok ((item :: read).reverse, rest)
      | ',' :: rest =>
        match skip rest with
        | [] => .error (.next .endInValue [])
        | ']' :: rest => .error (.next .trailingComma (']' :: rest))
        | rest => readItems depth (item :: read) budget rest
      | rest => .error (.next .expectedListEnd rest)

/-- Reads the members of an object up to its end, of which there is at least one more.  `read`
holds, in reverse, those that are read already. -/
def readMembers (depth : Nat) (read : List (Text × Value)) :
    Nat → Text → Except Fault (List (Text × Value) × Text)
  | 0, text => .error (.next .endInObject text)
  | budget + 1, '"' :: rest =>
    match readString [] none rest with
    | .error fault => .error fault
    | .ok (name, rest) =>
      match skip rest with
      | [] => .error (.next .endInObject [])
      | ':' :: rest =>
        match readValue depth budget rest with
        | .error fault => .error fault
        | .ok (value, rest) =>
          match skip rest with
          | [] => .error (.next .endInObject [])
          | '}' :: rest => .ok (((name, value) :: read).reverse, rest)
          | ',' :: rest =>
            match skip rest with
            | [] => .error (.next .endInValue [])
            | '}' :: rest => .error (.next .trailingComma ('}' :: rest))
            | rest => readMembers depth ((name, value) :: read) budget rest
          | rest => .error (.next .expectedObjectEnd rest)
      | rest => .error (.next .expectedColon rest)
  | _ + 1, text => .error (.next .keyNotString text)

end

@[simp] theorem readValue_zero (depth : Nat) (text : Text) :
    readValue depth 0 text = .error (.next .endInValue text) := by
  rw [readValue]

@[simp] theorem readItems_zero (depth : Nat) (read : List Value) (text : Text) :
    readItems depth read 0 text = .error (.next .endInList text) := by
  rw [readItems]

@[simp] theorem readMembers_zero (depth : Nat) (read : List (Text × Value)) (text : Text) :
    readMembers depth read 0 text = .error (.next .endInObject text) := by
  rw [readMembers]

/-- The calls that reading a text may take. -/
def budget (text : Text) : Nat :=
  2 * text.length + 1

/-- Reads a text that holds one value. -/
def readText (text : Text) : Except Fault Value :=
  match readValue maxDepth (budget text) text with
  | .error fault => .error fault
  | .ok (value, rest) =>
    match skip rest with
    | [] => .ok value
    | rest => .error (.next .trailingCharacters rest)

/-- Reads a text that holds one value, and places its fault otherwise. -/
def read (text : Text) : Except ParseError Value :=
  match readText text with
  | .ok value => .ok value
  | .error fault => .error (.ofFault text fault)

end Strict
end CommandTemplate
