import CommandTemplate.Toml.Quoted
import CommandTemplate.Toml.Value

/-!
# Tables under construction

A TOML file builds one tree of tables out of entries and headers.  Each table remembers how it came
about: by a header of its own, on the way of another header, or by the dots of a key.  That decides
what may be added to it later.  A dotted key goes on through tables that have no header of their
own, and ends in a table that dots have made.  A header may name a table that so far was only on the
way of other headers, or, with two brackets, add a table to the list of such headers.  Every other
name is given once.
-/

namespace CommandTemplate

/-- How a table came about. -/
inductive TableOrigin
  /-- By a header. -/
  | header
  /-- On the way of another header. -/
  | passage
  /-- By the dots of a key. -/
  | dots
deriving DecidableEq, Repr

/-- What a name stands for in a table under construction. -/
inductive TableNode
  | value (value : TomlValue)
  | table (origin : TableOrigin) (fields : List (Text × TableNode))
  /-- A list of tables, of which the first is the last to be added. -/
  | tables (newestFirst : List (List (Text × TableNode)))

/-- The names of a table under construction, in the order of the file. -/
abbrev TableFields := List (Text × TableNode)

structure TomlEntry where
  key : TomlReader.Key
  value : TomlValue

/-- A header with the entries after it; `listed` if it has two brackets. -/
structure TomlSection where
  key : TomlReader.Key
  listed : Bool
  entries : List TomlEntry

namespace TableFields

/-- What a name stands for. -/
def get? (name : Text) : TableFields → Option TableNode
  | [] => none
  | (other, node) :: fields => if other = name then some node else get? name fields

/-- Gives a name a new meaning in its old place, or adds it at the end. -/
def set (name : Text) (node : TableNode) : TableFields → TableFields
  | [] => [(name, node)]
  | (other, old) :: fields =>
    if other = name then (name, node) :: fields else (other, old) :: set name node fields

/-- Takes a name away. -/
def erase (name : Text) (fields : TableFields) : TableFields :=
  fields.filter fun (other, _) => other ≠ name

/-- Changes the table at the end of a path of names.  Tables that are missing on the way are made,
with the given origin.  Dots do not lead through a table with a header. -/
def update? (made : TableOrigin) (change : TableOrigin → TableFields → Option TableFields) :
    TableOrigin → List Text → TableFields → Option TableFields
  | origin, [], fields => change origin fields
  | _, name :: path, fields =>
    match get? name fields with
    | none =>
      (update? made change made path []).map fun inner => set name (.table made inner) fields
    | some (.table origin inner) =>
      if made = .dots ∧ origin = .header then none
      else
        (update? made change origin path inner).map fun inner =>
          set name (.table origin inner) fields
    | some (.tables (newest :: others)) =>
      (update? made change .header path newest).map fun inner =>
        set name (.tables (inner :: others)) fields
    | some (.tables []) | some (.value _) => none

/-- Adds an entry to the table of a header. -/
def insert? (entry : TomlEntry) (fields : TableFields) : Option TableFields :=
  update? .dots
    (fun origin fields =>
      if origin = .dots ↔ entry.key.parents = [] then none
      else
        match get? entry.key.name fields with
        | some _ => none
        | none => some (set entry.key.name (.value entry.value) fields))
    .header entry.key.parents fields

def insertAll? : List TomlEntry → TableFields → Option TableFields
  | [], fields => some fields
  | entry :: entries, fields => (insert? entry fields).bind (insertAll? entries)

/-- Adds the table of a header to the table around it. -/
def placeSection? (part : TomlSection) (fields : TableFields) : Option TableFields :=
  let name := part.key.name
  match part.listed, get? name fields with
  | false, none =>
    (insertAll? part.entries []).map fun inner => set name (.table .header inner) fields
  | false, some (.table .passage inner) =>
    (insertAll? part.entries inner).map fun inner =>
      set name (.table .header inner) (erase name fields)
  | true, none =>
    (insertAll? part.entries []).map fun inner => set name (.tables [inner]) fields
  | true, some (.tables others) =>
    (insertAll? part.entries []).map fun inner => set name (.tables (inner :: others)) fields
  | _, _ => none

def addSections? : List TomlSection → TableFields → Option TableFields
  | [], fields => some fields
  | part :: parts, fields =>
    (update? .passage (fun _ => placeSection? part) .header part.key.parents fields).bind
      (addSections? parts)

end TableFields

mutual

/-- The value that a node has in the end. -/
def TableNode.finished : TableNode → TomlValue
  | .value value => value
  | .table _ fields => .table (TableFields.values fields)
  | .tables tables => .array (tableValues tables).reverse

def TableFields.values : List (Text × TableNode) → List (Text × TomlValue)
  | [] => []
  | (name, node) :: fields => (name, node.finished) :: TableFields.values fields

def tableValues : List (List (Text × TableNode)) → List TomlValue
  | [] => []
  | fields :: tables => .table (TableFields.values fields) :: tableValues tables

end

end CommandTemplate
