import CommandTemplate.Text.Natural

/-!
# Faults of a text that is not JSON

A fault says what was wrong and where reading stopped.  The place is kept as the number of bytes
that were still unread, so that reading need not carry a position; the line and the column follow
from the whole text.  Lines count from one, and the column is the number of bytes read since the
last line break.
-/

namespace CommandTemplate

/-- What can be wrong with a text that is not JSON. -/
inductive Problem
  | endInValue
  | endInList
  | endInObject
  | endInString
  | expectedValue
  | expectedIdent
  | expectedListEnd
  | expectedObjectEnd
  | expectedColon
  | keyNotString
  | trailingComma
  | trailingCharacters
  | invalidNumber
  | numberOutOfRange
  | controlCharacter
  | invalidEscape
  | loneSurrogate
  | endOfHexEscape
  | tooDeep
deriving DecidableEq, Repr

def Problem.message : Problem → Text
  | .endInValue => "EOF while parsing a value".toList
  | .endInList => "EOF while parsing a list".toList
  | .endInObject => "EOF while parsing an object".toList
  | .endInString => "EOF while parsing a string".toList
  | .expectedValue => "expected value".toList
  | .expectedIdent => "expected ident".toList
  | .expectedListEnd => "expected `,` or `]`".toList
  | .expectedObjectEnd => "expected `,` or `\x7d`".toList
  | .expectedColon => "expected `:`".toList
  | .keyNotString => "key must be a string".toList
  | .trailingComma => "trailing comma".toList
  | .trailingCharacters => "trailing characters".toList
  | .invalidNumber => "invalid number".toList
  | .numberOutOfRange => "number out of range".toList
  | .controlCharacter => "control character (\\u0000-\\u001F) found while parsing a string".toList
  | .invalidEscape => "invalid escape".toList
  | .loneSurrogate => "lone leading surrogate in hex escape".toList
  | .endOfHexEscape => "unexpected end of hex escape".toList
  | .tooDeep => "recursion limit exceeded".toList

/-- A problem, and the number of bytes left unread where it was met. -/
structure Fault where
  problem : Problem
  unread : Nat
deriving DecidableEq, Repr

namespace Fault

/-- A problem with the next byte of the text, which counts as read; at the end of the text, there
is none to count. -/
def next (problem : Problem) (rest : Text) : Fault :=
  ⟨problem, rest.size - 1⟩

/-- A problem with what was read before the given rest. -/
def before (problem : Problem) (rest : Text) : Fault :=
  ⟨problem, rest.size⟩

end Fault

/-- A line, counted from one, and the number of bytes before a place in it. -/
structure Position where
  line : Nat
  column : Nat
deriving DecidableEq, Repr

namespace Position

def advance (position : Position) (byte : UInt8) : Position :=
  if byte = 10 then ⟨position.line + 1, 0⟩ else ⟨position.line, position.column + 1⟩

/-- The position at which a given number of bytes of a text is left unread. -/
def ofUnread (text : Text) (unread : Nat) : Position :=
  (text.bytes.take (text.size - unread)).foldl advance ⟨1, 0⟩

end Position

structure ParseError where
  problem : Problem
  position : Position
deriving DecidableEq, Repr

namespace ParseError

def ofFault (text : Text) (fault : Fault) : ParseError :=
  ⟨fault.problem, .ofUnread text fault.unread⟩

def message (error : ParseError) : Text :=
  error.problem.message ++ " at line ".toList ++ Text.ofNat error.position.line ++
    " column ".toList ++ Text.ofNat error.position.column

end ParseError
end CommandTemplate
