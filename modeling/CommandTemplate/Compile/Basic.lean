import CommandTemplate.Path.Argument
import CommandTemplate.Template.Render

/-!
# Compiling a template in one go

A compile request lists everything that is to be done to a template: the stages to append, the
collections and paths to resolve and the values to assign.  They are applied in that order, default
values before the others and only to tags that the template contains, and the template is rendered
in one of three views.

A tag argument `NAME=VALUE` gives a tag a value.  It is cut at its first `=`; the name must not be
empty, and neither side is trimmed.
-/

namespace CommandTemplate

/-! ## Arguments -/

/-- The wording of a fault, with the wordings of its causes after it. -/
def PathArgumentFault.chain : PathArgumentFault → List Text
  | .noForm argument => ["expected FORM:PATH, got '".toList ++ argument ++ ['\x27']]
  | .form fault => fault.chain
  | .path expression fault => (TemplateError.invalidPath expression fault).chain

inductive TagArgumentFault
  | noValue (argument : Text)
  | emptyName (argument : Text)
deriving DecidableEq, Repr

def TagArgumentFault.message : TagArgumentFault → Text
  | .noValue argument => "expected NAME=VALUE, got '".toList ++ argument ++ ['\x27']
  | .emptyName argument => "tag name is empty in '".toList ++ argument ++ ['\x27']

def readTagArgument (argument : Text) : Except TagArgumentFault (Text × Text) :=
  match argument.cut? '=' with
  | none => .error (.noValue argument)
  | some ([], _) => .error (.emptyName argument)
  | some (name, value) => .ok (name, value)

/-! ## Requests -/

/-- What to make of a rendered template. -/
inductive OutputView
  /-- The text as it is. -/
  | text
  /-- The documents of the text as pipeline stages. -/
  | stages
  /-- The documents of the text as array filters. -/
  | filters
deriving DecidableEq, Repr

/-- Everything to apply to a template before it is rendered. -/
structure CompileRequest where
  collections : List Text
  paths : List PathArgument
  stages : List Text
  /-- Values for tags that the template contains. -/
  defaultTags : List (Text × Text)
  /-- Values, of which the last one for a tag counts. -/
  tags : List (Text × Text)
deriving DecidableEq

/-- Why a template cannot be compiled. -/
inductive CompileError
  | template (error : TemplateError)
  | stage (stage : Text) (error : TemplateError)
deriving DecidableEq

namespace CompileError

/-- The error of the template that is behind a compile error. -/
def cause : CompileError → TemplateError
  | .template error => error
  | .stage _ error => error

/-- The wording of an error, with the wordings of its causes after it. -/
def chain : CompileError → List Text
  | .template error => error.chain
  | .stage text error => ("Failed to append stage ".toList ++ text) :: error.chain

end CompileError

namespace Template

/-- Appends stages in turn, up to the first that cannot be appended. -/
def appendStages : List Text → Template → Except CompileError Template
  | [], template => .ok template
  | stage :: stages, template =>
    match template.appendStage stage with
    | .ok template => appendStages stages template
    | .error error => .error (.stage stage error)

def resolveCollections (collections : List Text) (template : Template) : Template :=
  collections.foldl (fun template name => template.resolve name) template

def resolvePaths (arguments : List PathArgument) (template : Template) : Template :=
  arguments.foldl
    (fun template argument => template.resolvePath argument.path argument.form) template

/-- Assigns values to the tags among the given ones that the template contains. -/
def assignDefaults (tags : List (Text × Text)) (template : Template) : Template :=
  tags.foldl
    (fun template tag =>
      if tagToken tag.1 ∈ template.goal then template.assign tag.1 tag.2 else template)
    template

def assignAll (tags : List (Text × Text)) (template : Template) : Template :=
  tags.foldl (fun template tag => template.assign tag.1 tag.2) template

/-- Applies everything in a request but its stages. -/
def fill (request : CompileRequest) (template : Template) : Template :=
  template.resolveCollections request.collections
    |>.resolvePaths request.paths
    |>.assignDefaults request.defaultTags
    |>.assignAll request.tags

def renderView (view : OutputView) (template : Template) (cache : Cache) :
    Except TemplateError Text × Cache :=
  match view with
  | .text =>
    let (result, _, cache) := template.renderText cache
    (result, cache)
  | .stages =>
    let (result, _, cache) := template.renderDocuments cache
    (result.map fun documents => (Document.arrayOf documents).indented, cache)
  | .filters =>
    let (result, _, cache) := template.renderArrayFilters cache
    (result.map fun filters => (Document.arrayOf (filters.map ArrayFilter.document)).indented, cache)

end Template

/-- Makes a template from its source, applies a request and renders it. -/
def compile (sourceKey : SourceKey) (source : Text) (request : CompileRequest) (view : OutputView)
    (cache : Cache) : Except CompileError Text × Cache :=
  match Template.create sourceKey source cache with
  | (.error error, cache) => (.error (.template error), cache)
  | (.ok template, cache) =>
    match template.appendStages request.stages with
    | .error error => (.error error, cache)
    | .ok template =>
      let (result, cache) := (template.fill request).renderView view cache
      (result.mapError .template, cache)

end CommandTemplate
