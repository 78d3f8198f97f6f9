import CommandTemplate.Document.Printer
import CommandTemplate.Document.Relaxed
import CommandTemplate.Document.Strict

/-!
# Lists of documents and array filters

The text of a command is an array of documents.  It is read strictly first, and by the relaxed
reader if that fails; a text that neither accepts is reported with the fault of the strict reader.

An array filter is a document that says which elements of an array an update is for.  It binds
identifiers: its keys begin with them, up to the first dot.  Keys that begin with `$` are operators;
they bind nothing themselves, but the documents they hold, alone or in an array, are looked through
in their place.  The identifiers are listed without repetition in the order in which they are met.
-/

namespace CommandTemplate

/-! ## Lists of documents -/

/-- Why a text is not a list of documents. -/
inductive DocumentsError
  /-- Neither reader accepts the text. -/
  | parse (error : ParseError)
  /-- The text is a value other than an array. -/
  | notArray
  /-- An element of the array, counted from zero, is not a document. -/
  | notDocument (index : Nat) (element : Text)
deriving DecidableEq, Repr

/-- Reads a text that holds one value, in either syntax. -/
def readEither (text : Text) : Except ParseError Value :=
  match Strict.read text with
  | .ok value => .ok value
  | .error error =>
    match Relaxed.read? text with
    | some value => .ok value
    | none => .error error

/-- The documents of a list of values, the first of which has the given index. -/
def documentsFrom (index : Nat) : List Value → Except DocumentsError (List Document)
  | [] => .ok []
  | .object fields :: values =>
    match documentsFrom (index + 1) values with
    | .ok documents => .ok (fields :: documents)
    | .error error => .error error
  | value :: _ => .error (.notDocument index value.compact)

def readDocuments (text : Text) : Except DocumentsError (List Document) :=
  match readEither text with
  | .error error => .error (.parse error)
  | .ok (.array values) => documentsFrom 0 values
  | .ok _ => .error .notArray

/-! ## Array filters -/

/-- A document as a filter of the elements of an array. -/
structure ArrayFilter where
  document : Document

/-- The part of a key before its first dot. -/
def keyIdentifier (key : Text) : Text :=
  key.takeWhile (· ≠ '.')

def isOperator (key : Text) : Bool :=
  key.head? = some '$'

/-- Adds an identifier to those found, unless it is among them. -/
def addIdentifier (found : List Text) (identifier : Text) : List Text :=
  if found.contains identifier then found else found ++ [identifier]

namespace Value

mutual

/-- Adds the identifiers below an operator to those found. -/
def collect (found : List Text) : Value → List Text
  | .object fields => collectFields found fields
  | .array items => collectItems found items
  | _ => found

/-- Adds the identifiers of the documents in an array to those found. -/
def collectItems (found : List Text) : List Value → List Text
  | [] => found
  | .object fields :: items => collectItems (collectFields found fields) items
  | _ :: items => collectItems found items

/-- Adds the identifiers of a document to those found. -/
def collectFields (found : List Text) : List (Text × Value) → List Text
  | [] => found
  | (key, value) :: fields =>
    if isOperator key then collectFields (collect found value) fields
    else collectFields (addIdentifier found (keyIdentifier key)) fields

end

end Value

def Document.identifiers (document : Document) : List Text :=
  Value.collectFields [] document

end CommandTemplate
