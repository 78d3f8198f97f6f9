import CommandTemplate.Path.Parse

/-!
# Path arguments

A path argument `FORM:PATH` names a path and the form to write it in, such as
`filtered:Authors[2].Name` or `elements@1:Age`.  It is cut at its first `:`, and the form at its
first `@`, whose index is read before the name of the form is looked at.
-/

namespace CommandTemplate

structure PathArgument where
  form : PathForm
  path : FieldPath
deriving DecidableEq, Repr

/-- What is wrong with the form of a path argument. -/
inductive FormFault
  | badIndex (form : Text) (fault : NumeralFault)
  | unknown (form : Text)
deriving DecidableEq, Repr

inductive PathArgumentFault
  | noForm (argument : Text)
  | form (fault : FormFault)
  | path (expression : Text) (fault : PathFault)
deriving DecidableEq, Repr

namespace PathForm

def name : PathForm → Text
  | .property => "property".toList
  | .dotted => "path".toList
  | .filtered | .filteredAt _ => "filtered".toList
  | .all => "all".toList
  | .first => "first".toList
  | .elements | .elementsAt _ => "elements".toList

def index? : PathForm → Option Nat
  | .filteredAt index | .elementsAt index => some index
  | _ => none

/-- A form as it is written in an argument. -/
def display (form : PathForm) : Text :=
  match form.index? with
  | some index => form.name ++ '@' :: Text.ofNat index
  | none => form.name

/-- The form with a given name and no index. -/
def named? (name : Text) : Option PathForm :=
  [property, dotted, filtered, all, first, elements].find? fun form => form.name = name

/-- The form with a given name and an index. -/
def namedAt? (name : Text) (index : Nat) : Option PathForm :=
  [filteredAt index, elementsAt index].find? fun form => form.name = name

def parse (form : Text) : Except FormFault PathForm :=
  match form.cut? '@' with
  | none =>
    match named? form with
    | some found => .ok found
    | none => .error (.unknown form)
  | some (name, digits) =>
    match readNatural wordBound digits with
    | .error fault => .error (.badIndex form fault)
    | .ok index =>
      match namedAt? name index with
      | some found => .ok found
      | none => .error (.unknown form)

end PathForm

/-- The wording of a fault, with the wordings of its causes after it. -/
def FormFault.chain : FormFault → List Text
  | .badIndex form fault =>
    ["invalid index in path form '".toList ++ form ++ ['\x27'], fault.message]
  | .unknown form =>
    ["unknown path form '".toList ++ form ++
      "' (expected property, path, filtered[@N], all, first or elements[@N])".toList]

namespace PathArgument

def parse (argument : Text) : Except PathArgumentFault PathArgument :=
  match argument.cut? ':' with
  | none => .error (.noForm argument)
  | some (form, expression) =>
    match PathForm.parse form with
    | .error fault => .error (.form fault)
    | .ok form =>
      match FieldPath.parse expression with
      | .error fault => .error (.path expression fault)
      | .ok path => .ok ⟨form, path⟩

/-- The path in its form. -/
def text (argument : PathArgument) : Text :=
  argument.path.render argument.form

/-- A path argument as it is written. -/
def display (argument : PathArgument) : Text :=
  argument.form.display ++ ':' :: argument.path.display

end PathArgument
end CommandTemplate
