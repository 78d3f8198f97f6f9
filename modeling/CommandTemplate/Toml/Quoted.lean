import CommandTemplate.Text.Natural
import CommandTemplate.Toml.Layout

/-!
# Quoted texts of TOML

A text stands in double quotes, with escapes, or in single quotes, as it is.  Between three quotes
it may go over several lines: a line end right after the quotes is not part of it, all line ends
count as line feeds, and up to two quotes may stand right before the closing ones.  Between double
quotes, a backslash at the end of a line takes away the line end and all blanks and line ends after
it.
-/

namespace CommandTemplate
namespace TomlReader

/-- Where the reading of a text in double quotes stands. -/
inductive QuoteState
  | inside
  /-- After a backslash. -/
  | escape
  /-- After a backslash and blanks, which only a line end may follow. -/
  | lineEnd
  /-- After a backslash and a line end. -/
  | margin
  /-- Among the digits of an escape: so many are to come, and those read have this value. -/
  | digits (left : Nat) (value : Nat)
deriving DecidableEq, Repr

/-- The character that an escape of one letter stands for. -/
def simpleEscape? (c : Char) : Option Char :=
  if c = '"' ∨ c = '\\' then some c
  else if c = 'b' then some '\x08'
  else if c = 'f' then some '\x0c'
  else if c = 'n' then some '\n'
  else if c = 'r' then some '\r'
  else if c = 't' then some '\t'
  else none

/-- The character with a number, if there is one. -/
def charOf? (value : Nat) : Option Char :=
  if value.isValidChar then some (Char.ofNat value) else none

/-- Closes a text between three quotes after which `rest` follows.  `read` is the text, in
reverse, to which up to two more quotes belong. -/
def closeLong (mark : Char) (read rest : Text) : Text × Text :=
  let extra := (rest.takeWhile (· = mark)).take 2
  ((extra ++ read).reverse, rest.drop extra.length)

/-- Reads the characters of a text in double quotes up to the closing ones, of which there are
three if it is `long`.  `read` holds, in reverse, those that are read already. -/
def readBasic? (long : Bool) (state : QuoteState) (read : Text) : Text → Option (Text × Text)
  | [] => none
  | c :: rest =>
    match state with
    | .digits left value =>
      match hexDigit? c with
      | none => none
      | some d =>
        if left = 1 then
          match charOf? (value * 16 + d) with
          | some e => readBasic? long .inside (e :: read) rest
          | none => none
        else readBasic? long (.digits (left - 1) (value * 16 + d)) read rest
    | _ =>
      if c = '\r' then
        if long ∧ isBeforeLineFeed rest then readBasic? long state read rest else none
      else if state = .escape ∧ ¬(long ∧ (isSpace c ∨ c = '\n')) then
        if c = 'u' then readBasic? long (.digits 4 0) read rest
        else if c = 'U' then readBasic? long (.digits 8 0) read rest
        else
          match simpleEscape? c with
          | some e => readBasic? long .inside (e :: read) rest
          | none => none
      else if state = .escape ∨ state = .lineEnd then
        if c = '\n' then readBasic? long .margin read rest
        else if isSpace c then readBasic? long .lineEnd read rest
        else none
      else if state = .margin ∧ (isSpace c ∨ c = '\n') then readBasic? long .margin read rest
      else if c = '"' ∧ ¬long then some (read.reverse, rest)
      else if c = '"' ∧ rest.take 2 = ['"', '"'] then some (closeLong '"' read (rest.drop 2))
      else if c = '\\' then readBasic? long .escape read rest
      else if isPlain c ∨ long ∧ c = '\n' then readBasic? long .inside (c :: read) rest
      else none

/-- Reads the characters of a text in single quotes up to the closing ones, of which there are three
if it is `long`. -/
def readLiteral? (long : Bool) (read : Text) : Text → Option (Text × Text)
  | [] => none
  | c :: rest =>
    if c = '\r' then
      if long ∧ isBeforeLineFeed rest then readLiteral? long read rest else none
    else if c = '\x27' ∧ ¬long then some (read.reverse, rest)
    else if c = '\x27' ∧ rest.take 2 = ['\x27', '\x27'] then
      some (closeLong '\x27' read (rest.drop 2))
    else if isPlain c ∨ long ∧ c = '\n' then readLiteral? long (c :: read) rest
    else none

def readQuoted? : Text → Option (Text × Text)
  | '"' :: '"' :: '"' :: rest => readBasic? true .inside [] (dropLineEnd rest)
  | '"' :: rest => readBasic? false .inside [] rest
  | '\x27' :: '\x27' :: '\x27' :: rest => readLiteral? true [] (dropLineEnd rest)
  | '\x27' :: rest => readLiteral? false [] rest
  | _ => none

/-- A key with dots: the names of the tables on the way, and the last name. -/
structure Key where
  parents : List Text
  name : Text
deriving DecidableEq, Repr

def maxKeyLength : Nat := 79

/-- Whether a name with this character may be without quotes. -/
def isBareKeyChar (c : Char) : Bool :=
  c.isAlphanum || c = '-' || c = '_'

def readName? : Text → Option (Text × Text)
  | '"' :: rest => readBasic? false .inside [] rest
  | '\x27' :: rest => readLiteral? false [] rest
  | text =>
    let name := text.takeWhile isBareKeyChar
    if name = [] then none else some (name, text.dropWhile isBareKeyChar)

/-- Reads a key of at most so many names, and the blanks around it. -/
def readKey? : Nat → Text → Option (Key × Text)
  | 0, _ => none
  | names + 1, text =>
    match readName? (skipSpace text) with
    | none => none
    | some (name, rest) =>
      match skipSpace rest with
      | '.' :: rest =>
        (readKey? names rest).map fun (key, rest) => (⟨name :: key.parents, key.name⟩, rest)
      | rest => some (⟨[], name⟩, rest)

end TomlReader
end CommandTemplate
