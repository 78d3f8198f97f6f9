import CommandTemplate.Text.Basic

/-!
# Blanks, comments and line ends of TOML

Blanks are spaces and tabs.  A line ends in a line feed, with or without a carriage return before
it; a carriage return may stand nowhere else.  A comment reaches from a `#` to the end of its line
and holds no control characters but tabs.
-/

namespace CommandTemplate
namespace TomlReader

/-- Whether a character is a blank within a line. -/
def isSpace (c : Char) : Bool :=
  c = ' ' || c = '\t'

/-- Whether a character may stand in a comment or between single quotes. -/
def isPlain (c : Char) : Bool :=
  c = '\t' || (0x20 ≤ c.val && c.val ≠ 0x7F)

def skipSpace (text : Text) : Text :=
  text.dropWhile isSpace

def skipComment : Text → Text
  | '#' :: rest => rest.dropWhile isPlain
  | rest => rest

/-- Whether a carriage return belongs to the end of a line, given the text after it. -/
def isBeforeLineFeed (rest : Text) : Bool :=
  rest.head? = some '\n'

/-- The text without the line end it begins with, if there is one. -/
def dropLineEnd : Text → Text
  | '\n' :: rest => rest
  | '\r' :: '\n' :: rest => rest
  | rest => rest

/-- Skips what may stand after the last thing on a line, and the end of the line. -/
def endLine? (text : Text) : Option Text :=
  match skipComment (skipSpace text) with
  | [] => some []
  | '\n' :: rest => some rest
  | '\r' :: '\n' :: rest => some rest
  | _ => none

/-- The text without the blanks, comments and line ends it begins with. -/
def skipLayout (inComment : Bool) : Text → Text
  | [] => []
  | c :: rest =>
    if inComment ∧ isPlain c then skipLayout true rest
    else if isSpace c ∨ c = '\n' ∨ c = '\r' ∧ isBeforeLineFeed rest then skipLayout false rest
    else if c = '#' then skipLayout true rest
    else c :: rest

end TomlReader
end CommandTemplate
