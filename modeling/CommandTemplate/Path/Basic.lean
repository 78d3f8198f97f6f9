import CommandTemplate.Text.Natural

/-!
# Field paths and their forms

A field path such as `Authors[2].Name` is a list of segments: field names, each with or without a
list index.  Update and aggregation commands name the same access in different ways, the *forms* of
the path.  The positional forms put an operator component after each indexed field, the element
forms name what lies below the last index.

An index is named by a word of lower-case letters: `a` to `z`, then `aa`, `ab` and so on.  This is
bijective base 26, in which every index has exactly one word and every word names an index.
-/

namespace CommandTemplate

/-! ## Identifiers of list indices -/

def letter (value : Nat) : Char :=
  Char.ofNat ('a'.toNat + value)

/-- The word of an index in front of `rest`. -/
def writeIdentifier (index : Nat) (rest : Text) : Text :=
  if index < 26 then
    letter index :: rest
  else
    writeIdentifier (index / 26 - 1) (letter (index % 26) :: rest)
termination_by index

def indexIdentifier (index : Nat) : Text :=
  writeIdentifier index []

/-- The value of a word whose letters follow those of value `value`: each letter counts from one,
in base 26. -/
def wordValue (value : Nat) (word : Text) : Nat :=
  word.foldl (fun total c => total * 26 + (c.toNat - 'a'.toNat + 1)) value

example : indexIdentifier 0 = ['a'] := by simp [indexIdentifier, writeIdentifier, letter]

/-! ## Paths -/

structure Segment where
  name : Text
  index : Option Nat
deriving DecidableEq, Repr

/-- A path of field accesses. -/
structure FieldPath where
  segments : List Segment
deriving DecidableEq, Repr

/-- The ways to write a path. -/
inductive PathForm
  /-- The last field name. -/
  | property
  /-- The field names, without indices. -/
  | dotted
  /-- After an indexed field, the operator `$[x]` with the identifier of its index. -/
  | filtered
  /-- After an indexed field, the operator `$[x]` with the identifier of one given index. -/
  | filteredAt (index : Nat)
  /-- After an indexed field, the operator `$[]`. -/
  | all
  /-- After an indexed field, the operator `$`. -/
  | first
  /-- The field names after the last indexed field. -/
  | elements
  /-- The field names behind the identifier of one given index. -/
  | elementsAt (index : Nat)
deriving DecidableEq, Repr

namespace FieldPath

def single (name : Text) : FieldPath :=
  ⟨[⟨name, none⟩]⟩

def field (path : FieldPath) (name : Text) : FieldPath :=
  ⟨path.segments ++ [⟨name, none⟩]⟩

/-- The list of segments with an index on the last one. -/
def indexLast (index : Nat) : List Segment → List Segment
  | [] => []
  | [segment] => [{ segment with index := some index }]
  | segment :: others => segment :: indexLast index others

/-- The path with an index on its last field, in place of any it has. -/
def indexed (path : FieldPath) (index : Nat) : FieldPath :=
  ⟨indexLast index path.segments⟩

def hasIndex (path : FieldPath) : Bool :=
  path.segments.any fun segment => segment.index.isSome

/-- Components with dots between them. -/
def joinDots (components : List Text) : Text :=
  Text.join ['.'] components

/-- The names of the fields with dots between them. -/
def dotted (path : FieldPath) : Text :=
  joinDots (path.segments.map Segment.name)

/-- The name of the last field. -/
def property (path : FieldPath) : Text :=
  match path.segments.getLast? with
  | some segment => segment.name
  | none => []

/-- The components of a segment: its name, and an operator if it is indexed. -/
def components (operator : Nat → Text) (segment : Segment) : List Text :=
  match segment.index with
  | some index => [segment.name, operator index]
  | none => [segment.name]

/-- The path with an operator component after each indexed field. -/
def positional (operator : Nat → Text) (path : FieldPath) : Text :=
  joinDots (path.segments.flatMap (components operator))

/-- The segments after the last indexed one; all of them if none is indexed. -/
def belowLastIndex (segments : List Segment) : List Segment :=
  (segments.reverse.takeWhile fun segment => segment.index.isNone).reverse

/-- The names of the fields after the last indexed one; all of them if none is indexed. -/
def elements (path : FieldPath) : Text :=
  joinDots ((belowLastIndex path.segments).map Segment.name)

/-- The operator that selects the elements a filter binds to an identifier. -/
def filterOperator (index : Nat) : Text :=
  '$' :: '[' :: (indexIdentifier index ++ [']'])

def render (path : FieldPath) : PathForm → Text
  | .property => path.property
  | .dotted => path.dotted
  | .filtered => path.positional filterOperator
  | .filteredAt index => path.positional fun _ => filterOperator index
  | .all => path.positional fun _ => ['$', '[', ']']
  | .first => path.positional fun _ => ['$']
  | .elements => path.elements
  | .elementsAt index => indexIdentifier index ++ '.' :: path.dotted

/-- A segment as it is written in a path expression. -/
def displaySegment (segment : Segment) : Text :=
  match segment.index with
  | some index => segment.name ++ '[' :: (Text.ofNat index ++ [']'])
  | none => segment.name

def display (path : FieldPath) : Text :=
  joinDots (path.segments.map displaySegment)

end FieldPath
end CommandTemplate
