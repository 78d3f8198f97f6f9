import CommandTemplate.Toml.Reader
import CommandTemplate.Toml.Writer

/-!
# Default tags

A configuration file is a TOML file with at most one key, `tags`, whose table gives default values
to tags.  Texts are taken as they are, and other values as they are written in TOML.  Within a
value, a table that begins with a field for a date-time stands for that date-time.
-/

namespace CommandTemplate

mutual

/-- A value with its date-times restored from the tables that stand for them. -/
def TomlValue.restored? : TomlValue → Option TomlValue
  | .array items => (TomlValue.restoredItems? items).map .array
  | .table [] => some (.table [])
  | .table ((name, value) :: fields) =>
    if name = dateTimeKey then
      match value with
      | .string text => (DateTime.ofQuoted? text).map .dateTime
      | _ => none
    else
      match value.restored?, TomlValue.restoredFields? fields with
      | some value, some fields => some (.table ((name, value) :: fields))
      | _, _ => none
  | value => some value

/-- The items of an array with their date-times restored. -/
def TomlValue.restoredItems? : List TomlValue → Option (List TomlValue)
  | [] => some []
  | item :: items =>
    match item.restored?, TomlValue.restoredItems? items with
    | some item, some items => some (item :: items)
    | _, _ => none

/-- The fields of a table with their date-times restored. -/
def TomlValue.restoredFields? :
    List (Text × TomlValue) → Option (List (Text × TomlValue))
  | [] => some []
  | (name, value) :: fields =>
    match value.restored?, TomlValue.restoredFields? fields with
    | some value, some fields => some ((name, value) :: fields)
    | _, _ => none

end

namespace DefaultTags

/-- The key of the table of default values. -/
def tagsKey : Text :=
  "tags".toList

/-- The values of a table of default values, sorted by name. -/
def ofFields? (fields : List (Text × TomlValue)) : Option (List (Text × Text)) :=
  (TomlValue.restoredFields? fields).map fun fields =>
    TomlWriter.sortFields (fields.map fun (name, value) => (name, value.standalone))

/-- Reads the default values of a configuration file, sorted by name.  A date-time in place of their
table is a table with one field. -/
def read? (file : Text) : Option (List (Text × Text)) :=
  match TomlReader.read? file with
  | some [] => some []
  | some [(key, .table fields)] => if key = tagsKey then ofFields? fields else none
  | some [(key, .dateTime value)] =>
    if key = tagsKey then some [(dateTimeKey, value.text)] else none
  | _ => none

end DefaultTags
end CommandTemplate
