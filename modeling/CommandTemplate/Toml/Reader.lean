import CommandTemplate.Toml.Number
import CommandTemplate.Toml.Table

/-!
# Reading TOML

A TOML file is read line by line: each line is empty, a header or an entry, though a value may go
over several lines.  Arrays and tables in braces may stand within each other up to 79 levels deep.
-/

namespace CommandTemplate
namespace TomlReader

/-- The greatest number of arrays and tables in braces within each other. -/
def maxDepth : Nat := 79

/-- Reads a value that is no array and no table. -/
def readScalar? (text : Text) : Option (TomlValue × Text) :=
  match text with
  | '"' :: _ | '\x27' :: _ => (readQuoted? text).map fun (text, rest) => (.string text, rest)
  | 't' :: 'r' :: 'u' :: 'e' :: rest => some (.boolean true, rest)
  | 'f' :: 'a' :: 'l' :: 's' :: 'e' :: rest => some (.boolean false, rest)
  | _ =>
    match DateTime.read? text with
    | some (value, rest) => some (.dateTime value, rest)
    | none => readNumber? text

mutual

/-- Reads a value, with `depth` more levels of arrays and tables allowed. -/
def readValue? (depth : Nat) : Nat → Text → Option (TomlValue × Text)
  | 0, _ => none
  | budget + 1, '[' :: rest =>
    match depth with
    | 0 => none
    | depth + 1 =>
      match skipLayout false rest with
      | ']' :: rest => some (.array [], rest)
      | rest => (readItems? depth [] budget rest).map fun (items, rest) => (.array items, rest)
  | budget + 1, '\x7b' :: rest =>
    match depth with
    | 0 => none
    | depth + 1 =>
      match skipSpace rest with
      | '\x7d' :: rest => some (.table [], rest)
      | rest =>
        match readEntries? depth [] budget rest with
        | none => none
        | some (entries, rest) =>
          (TableFields.insertAll? entries []).map fun fields =>
            (.table (TableFields.values fields), rest)
  | _ + 1, text => readScalar? text

/-- Reads the items of an array up to its end, of which there is at least one more.  `read` holds,
in reverse, those that are read already. -/
def readItems? (depth : Nat) (read : List TomlValue) :
    Nat → Text → Option (List TomlValue × Text)
  | 0, _ => none
  | budget + 1, text =>
    match readValue? depth budget text with
    | none => none
    | some (item, rest) =>
      match skipLayout false rest with
      | ']' :: rest => some ((item :: read).reverse, rest)
      | ',' :: rest =>
        match skipLayout false rest with
        | ']' :: rest => some ((item :: read).reverse, rest)
        | rest => readItems? depth (item :: read) budget rest
      | _ => none

/-- Reads the entries of a table in braces up to its end, of which there is at least one more.
`read` holds, in reverse, those that are read already. -/
def readEntries? (depth : Nat) (read : List TomlEntry) :
    Nat → Text → Option (List TomlEntry × Text)
  | 0, _ => none
  | budget + 1, text =>
    match readKey? maxKeyLength text with
    | some (key, '=' :: rest) =>
      match readValue? depth budget (skipSpace rest) with
      | none => none
      | some (value, rest) =>
        match skipSpace rest with
        | '\x7d' :: rest => some ((⟨key, value⟩ :: read).reverse, rest)
        | ',' :: rest => readEntries? depth (⟨key, value⟩ :: read) budget rest
        | _ => none
    | _ => none

end

inductive Line
  | empty
  | header (key : Key) (listed : Bool)
  | entry (entry : TomlEntry)

def readKeyValue? (text : Text) : Option (TomlEntry × Text) :=
  match readKey? maxKeyLength text with
  | some (key, '=' :: rest) =>
    (readValue? maxDepth (2 * rest.length + 1) (skipSpace rest)).map fun (value, rest) =>
      (⟨key, value⟩, rest)
  | _ => none

/-- Reads what is on a line, up to its comment. -/
def readContent? (text : Text) : Option (Line × Text) :=
  match text with
  | [] | '#' :: _ | '\n' :: _ | '\r' :: _ => some (.empty, text)
  | '[' :: '[' :: rest =>
    match readKey? maxKeyLength rest with
    | some (key, ']' :: ']' :: rest) => some (.header key true, rest)
    | _ => none
  | '[' :: rest =>
    match readKey? maxKeyLength rest with
    | some (key, ']' :: rest) => some (.header key false, rest)
    | _ => none
  | _ => (readKeyValue? text).map fun (entry, rest) => (.entry entry, rest)

/-- Reads at most so many lines, up to the end of the text. -/
def readLines? : Nat → Text → Option (List Line)
  | _, [] => some []
  | 0, _ => none
  | lines + 1, text =>
    match readContent? (skipSpace text) with
    | none => none
    | some (line, rest) =>
      match endLine? rest with
      | none => none
      | some rest => (readLines? lines rest).map (line :: ·)

/-- The entries before the first header, and the headers with their entries. -/
def sections : List Line → List TomlEntry × List TomlSection
  | [] => ([], [])
  | .empty :: lines => sections lines
  | .entry entry :: lines =>
    let (entries, parts) := sections lines
    (entry :: entries, parts)
  | .header key listed :: lines =>
    let (entries, parts) := sections lines
    ([], ⟨key, listed, entries⟩ :: parts)

/-- The text without the byte order mark it begins with. -/
def dropByteOrderMark : Text → Text
  | '\uFEFF' :: rest => rest
  | text => text

/-- Reads a TOML file into the fields of its table. -/
def read? (file : Text) : Option (List (Text × TomlValue)) :=
  let text := dropByteOrderMark file
  match readLines? text.length text with
  | none => none
  | some lines =>
    let (entries, parts) := sections lines
    ((TableFields.insertAll? entries []).bind (TableFields.addSections? parts)).map
      TableFields.values

end TomlReader
end CommandTemplate
