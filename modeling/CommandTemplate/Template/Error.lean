import CommandTemplate.Document.Collection
import CommandTemplate.Path.Parse
import CommandTemplate.Tag.Basic

/-!
# Errors of templates

An error is the reason why a template cannot be made, changed or rendered.  Errors fall into three
kinds: arguments that can never be right, operations that the state of the template does not allow,
and rendered texts that are not lists of documents.
-/

namespace CommandTemplate

/-- The two ways in which several paths are resolved at once. -/
inductive PathGroup
  /-- By the names of their last fields. -/
  | properties
  /-- By their dotted forms. -/
  | paths
deriving DecidableEq, Repr

/-- The form in which the paths of a group are resolved. -/
def PathGroup.form : PathGroup → PathForm
  | .properties => .property
  | .paths => .dotted

def PathGroup.noun : PathGroup → Text
  | .properties => "property names".toList
  | .paths => "property paths".toList

/-- Why an operation on a template fails. -/
inductive TemplateError
  /-- The source is blank. -/
  | emptyTemplate
  /-- The source has no tags. -/
  | noTags
  /-- A stage is appended to a template that is not an array. -/
  | notAnArray
  /-- An appended stage is not in braces. -/
  | invalidStage (stage : Text)
  /-- No path is given where several are resolved. -/
  | noPaths (group : PathGroup)
  /-- A path expression cannot be read. -/
  | invalidPath (expression : Text) (fault : PathFault)
  /-- Tags were requested that the template does not contain. -/
  | missingTags (tags : TagSet)
  /-- Tags of the template were never requested. -/
  | unresolvedTags (tags : TagSet)
  /-- The rendered text is not a list of documents. -/
  | documents (error : DocumentsError)
deriving DecidableEq

inductive ErrorKind
  | invalidArgument
  | invalidOperation
  | parse
deriving DecidableEq, Repr

namespace DocumentsError

/-- The wording of what is wrong with a text. -/
def reason : DocumentsError → Text
  | .parse error => error.message
  | .notArray => "expected an array of documents".toList
  | .notDocument index element =>
    "element ".toList ++ Text.ofNat index ++ " is not a document: ".toList ++ element

end DocumentsError

namespace TemplateError

def kind : TemplateError → ErrorKind
  | .emptyTemplate | .noTags | .invalidStage _ | .noPaths _ | .invalidPath _ _ => .invalidArgument
  | .notAnArray | .missingTags _ | .unresolvedTags _ => .invalidOperation
  | .documents _ => .parse

def message : TemplateError → Text
  | .emptyTemplate => "Unable to instantiate a template from an empty string".toList
  | .noTags =>
    ("No replacement tags such as '<tagname>' were found in the supplied template " ++
      "string").toList
  | .notAnArray =>
    ("Stages can only be appended to a template initialized with an array of stages. " ++
      "Initialize the template with an empty array \"[]\" if this is the first stage").toList
  | .invalidStage stage =>
    "A pipeline stage string must begin with a \x7b and end with a \x7d: ".toList ++ stage
  | .noPaths group =>
    "Unable to resolve any ".toList ++ group.noun ++ " from the supplied field paths".toList
  | .invalidPath expression fault =>
    "Invalid field path '".toList ++ expression ++ "': ".toList ++ fault.message
  | .missingTags tags =>
    "The following tags were missing from the template: [".toList ++ tags.listing ++ [']']
  | .unresolvedTags tags =>
    "Replacements for the following tags are required: [".toList ++ tags.listing ++ [']']
  | .documents error => "Unable to parse the rendered template: ".toList ++ error.reason

/-- The wording of an error, with that of the fault of a text that cannot be read after it. -/
def chain (error : TemplateError) : List Text :=
  match error with
  | .documents (.parse fault) => [error.message, fault.message]
  | _ => [error.message]

end TemplateError

def FieldPath.read (expression : Text) : Except TemplateError FieldPath :=
  match FieldPath.parse expression with
  | .ok path => .ok path
  | .error fault => .error (.invalidPath expression fault)

end CommandTemplate
