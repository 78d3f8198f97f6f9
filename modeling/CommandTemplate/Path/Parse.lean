import CommandTemplate.Path.Basic

/-!
# Reading path expressions

An expression is trimmed and cut at its dots.  Each part is a field name, or a field name with an
index in brackets at the end of the part; names and indices are trimmed too.  Only the first `[` of
a part and its last character decide about the brackets.  The first part with a fault, and in it
the bracket before the index and the index before the name, is the one reported.
-/

namespace CommandTemplate

inductive PathFault
  | empty
  | unclosedBracket
  | badIndex
  | unopenedBracket
  | emptyName
deriving DecidableEq, Repr

def PathFault.message : PathFault → Text
  | .empty => "path is empty".toList
  | .unclosedBracket => "unbalanced '[' in field access".toList
  | .badIndex => "list index must be a non-negative integer".toList
  | .unopenedBracket => "unbalanced ']' in field access".toList
  | .emptyName => "empty field name".toList

namespace FieldPath

/-- A segment with a trimmed name that is not empty. -/
def segment (name : Text) (index : Option Nat) : Except PathFault Segment :=
  if name.trim = [] then .error .emptyName else .ok ⟨name.trim, index⟩

/-- Reads the text in brackets, which ends with the closing bracket. -/
def parseIndex (bracketed : Text) : Except PathFault Nat :=
  if bracketed.getLast? = some ']' then
    match readNatural wordBound (Text.trim bracketed.dropLast) with
    | .ok index => .ok index
    | .error _ => .error .badIndex
  else
    .error .unclosedBracket

def parseSegment (part : Text) : Except PathFault Segment :=
  match part.cut? '[' with
  | some (name, bracketed) =>
    match parseIndex bracketed with
    | .ok index => segment name (some index)
    | .error fault => .error fault
  | none => if ']' ∈ part then .error .unopenedBracket else segment part none

def parseSegments : List Text → Except PathFault (List Segment)
  | [] => .ok []
  | part :: parts =>
    match parseSegment part with
    | .error fault => .error fault
    | .ok segment =>
      match parseSegments parts with
      | .error fault => .error fault
      | .ok segments => .ok (segment :: segments)

def parse (expression : Text) : Except PathFault FieldPath :=
  if expression.trim = [] then
    .error .empty
  else
    match parseSegments (expression.trim.parts '.') with
    | .ok segments => .ok ⟨segments⟩
    | .error fault => .error fault

end FieldPath
end CommandTemplate
