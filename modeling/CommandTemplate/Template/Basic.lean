import CommandTemplate.Cache.Basic
import CommandTemplate.Tag.Scan
import CommandTemplate.Template.Error
import CommandTemplate.Text.Replace

/-!
# Templates

A template is the text of a command with tags in it.  *Structural* tags name collections and field
paths; they are replaced in the text as soon as they are resolved.  *Value* tags stand for literals;
their values are recorded and only put in when the template is rendered, so that they never reach
the cache.  Stages can be appended to a template whose text is an array.

A template whose source is in the cache starts from the expanded text.  There the structural tags
are replaced already, so that resolving only concerns the stages that are appended to it.
-/

namespace CommandTemplate

/-- A template on its way from its source to a rendered text. -/
structure Template where
  /-- The text the template was made from. -/
  source : Text
  /-- The key of the source. -/
  key : UInt64
  /-- Whether the text came from the cache or has been stored there. -/
  cached : Bool
  /-- The text with structural tags replaced. -/
  base : Text
  /-- The appended stages, with structural tags replaced. -/
  stages : List Text
  /-- The tags found in the text and in the stages. -/
  goal : TagSet
  /-- The tags found in the stages. -/
  stageTags : TagSet
  /-- The tags that are taken care of; those of values only once they are rendered. -/
  replaced : TagSet
  /-- The tags that were requested but not found. -/
  missing : TagSet
  /-- The values of tags. -/
  values : RecencyMap Text Text
deriving DecidableEq

namespace Template

/-- The tags of a text, with none for the empty array. -/
def goalTags (base : Text) : TagSet :=
  if base.isEmptyArray then ∅ else base.tags

/-- The template of a text before any request. -/
def start (source : Text) (key : UInt64) (cached : Bool) (base : Text) : Template where
  source := source
  key := key
  cached := cached
  base := base
  stages := []
  goal := goalTags base
  stageTags := ∅
  replaced := ∅
  missing := ∅
  values := ∅

/-- Makes a template from its source: from the expanded text of the cache if there is one, and else
from the trimmed source, which must have a tag or begin with the empty array. -/
def create (sourceKey : SourceKey) (source : Text) (cache : Cache) :
    Except TemplateError Template × Cache :=
  if source.isBlankText then
    (.error .emptyTemplate, cache)
  else
    match cache.lookup (sourceKey source) source with
    | (some expanded, cache) => (.ok (start source (sourceKey source) true expanded), cache)
    | (none, cache) =>
      let template := start source (sourceKey source) false source.trim
      if template.goal.isEmpty && !template.base.isEmptyArray then (.error .noTags, cache)
      else (.ok template, cache)

def replaceInStages (token path : Text) (stages : List Text) : List Text :=
  stages.map fun stage => stage.replaceAll token path

/-- Replaces a structural tag by the path it names.  A tag that does not occur is remembered as
missing, except in a template from the cache. -/
def resolve (path : Text) (template : Template) : Template :=
  let token := tagToken path
  if template.cached then
    if token ∈ template.stageTags then
      { template with
        stages := replaceInStages token path template.stages
        replaced := template.replaced.touch token }
    else
      template
  else if token ∈ template.goal then
    { template with
      base := template.base.replaceAll token path
      stages := replaceInStages token path template.stages
      replaced := template.replaced.touch token }
  else
    { template with missing := template.missing.touch token }

/-- Whether structural requests have nothing to do. -/
def isSettled (template : Template) : Bool :=
  template.cached && template.stageTags.isEmpty

/-- Replaces the tag of a path in a given form. -/
def resolvePath (path : FieldPath) (form : PathForm) (template : Template) : Template :=
  if template.isSettled then template else template.resolve (path.render form)

def collection (name : Text) (template : Template) : Template :=
  if template.isSettled then template else template.resolve name

/-- Replaces the tags of several paths, of which there must be at least one. -/
def resolveAll (group : PathGroup) (paths : List FieldPath) (template : Template) :
    Except TemplateError Template :=
  if paths = [] then
    .error (.noPaths group)
  else
    .ok (paths.foldl (fun template path => template.resolvePath path group.form) template)

/-- Sets the value of a tag, in place of any it has.  A tag that does not occur is remembered as
missing. -/
def assign (name value : Text) (template : Template) : Template :=
  let token := tagToken name
  if token ∈ template.goal then
    { template with values := template.values.put token value }
  else
    { template with missing := template.missing.touch token }

/-- Whether a text begins and ends with the given brackets. -/
def isEnclosed (opening closing : Char) (text : Text) : Bool :=
  text.head? = some opening && text.getLast? = some closing

/-- Appends a stage, which has to be in braces, to a template that is an array. -/
def appendStage (stage : Text) (template : Template) : Except TemplateError Template :=
  if !isEnclosed '[' ']' template.base then
    .error .notAnArray
  else if !isEnclosed '{' '}' stage.trim then
    .error (.invalidStage stage.trim)
  else
    .ok { template with
      stages := template.stages ++ [stage.trim]
      goal := template.goal.scan stage.trim
      stageTags := template.stageTags.scan stage.trim }

def hasStages (template : Template) : Bool :=
  !template.stages.isEmpty

end Template
end CommandTemplate
