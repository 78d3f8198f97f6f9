import CommandTemplate.Decimal.Binary
import CommandTemplate.Text.Basic

/-!
# Documents

A document is a list of named values in the order in which its names were first given.  Values are
the usual ones of document databases; integers and floating-point numbers are kept apart.
-/

namespace CommandTemplate

/-- A value in a document. -/
inductive Value
  | null
  | bool (b : Bool)
  | int (i : Int)
  | float (x : Binary64)
  | string (text : Text)
  | array (items : List Value)
  | object (fields : List (Text × Value))

/-- A document: named values in order. -/
abbrev Document := List (Text × Value)

namespace Document

def get? (document : Document) (name : Text) : Option Value :=
  document.lookup name

/-- Gives a name a value: a new name goes to the end, a name that is there keeps its place. -/
def set (name : Text) (value : Value) : Document → Document
  | [] => [(name, value)]
  | (other, old) :: rest =>
    if other = name then (name, value) :: rest else (other, old) :: set name value rest

/-- The document of a list of named values, in which a name may be repeated: the last value
counts, at the place of the first. -/
def ofMembers (members : List (Text × Value)) : Document :=
  members.foldl (fun document member => set member.1 member.2 document) []

end Document

namespace Value

mutual

/-- Whether two values are equal up to the order of names.  An integer is never equal to a
floating-point number. -/
def same : Value → Value → Bool
  | .null, .null => true
  | .bool a, .bool b => a = b
  | .int a, .int b => a = b
  | .float a, .float b => a.sameValue b
  | .string a, .string b => a = b
  | .array as, .array bs => sameItems as bs
  | .object as, .object bs => as.length = bs.length && sameFields as bs
  | _, _ => false

/-- Whether two lists of values are equal item by item. -/
def sameItems : List Value → List Value → Bool
  | [], [] => true
  | a :: as, b :: bs => same a b && sameItems as bs
  | _, _ => false

/-- Whether every field of the first document has an equal value in the second. -/
def sameFields : List (Text × Value) → Document → Bool
  | [], _ => true
  | (name, a) :: as, bs =>
    match Document.get? bs name with
    | some b => same a b && sameFields as bs
    | none => false

end

end Value

/-- Whether two documents are equal up to the order of names. -/
def Document.same (a b : Document) : Bool :=
  a.length = b.length && Value.sameFields a b

end CommandTemplate
