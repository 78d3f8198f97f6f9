import CommandTemplate.Template.Basic

/-!
# Rendering

Rendering joins the appended stages to the text, puts in the values of tags and checks that every
request met a tag and every tag a request.  The first render of a template without stages that
passes the checks stores its text, without the values, in the cache.
-/

namespace CommandTemplate
namespace Template

/-- The text with the appended stages as further items of the array. -/
def compose (template : Template) : Text :=
  if template.stages = [] then
    template.base
  else
    let head := template.base.dropLast
    let comma := if Text.isBlankText (head.drop 1) then [] else [',']
    head ++ comma ++ Text.join [','] template.stages ++ [']']

/-- The text with stages and values. -/
def filled (template : Template) : Text :=
  template.compose.substitute template.values.get?

/-- Counts the tags with values as taken care of. -/
def countValues (template : Template) : Template :=
  { template with replaced := template.replaced.addAll template.values.keys }

/-- The tags that no request took care of, in the order in which they were found. -/
def unresolved (template : Template) : TagSet :=
  template.goal.filter fun token => token ∉ template.replaced

/-- What keeps a template whose values are counted from being rendered. -/
def obstacle? (template : Template) : Option TemplateError :=
  if !template.missing.isEmpty then some (.missingTags template.missing)
  else if !template.unresolved.isEmpty then some (.unresolvedTags template.unresolved)
  else none

/-- Stores the text of a template in the cache, unless it came from there or has stages. -/
def publish (template : Template) (cache : Cache) : Template × Cache :=
  if template.cached || template.hasStages then
    (template, cache)
  else
    ({ template with cached := true }, cache.store template.key template.source template.base)

/-- Renders a template to text. -/
def renderText (template : Template) (cache : Cache) :
    Except TemplateError Text × Template × Cache :=
  let counted := template.countValues
  match counted.obstacle? with
  | some error => (.error error, counted, cache)
  | none => (.ok template.filled, counted.publish cache)

/-- Renders a template to the documents of its text. -/
def renderDocuments (template : Template) (cache : Cache) :
    Except TemplateError (List Document) × Template × Cache :=
  match template.renderText cache with
  | (.ok text, template, cache) =>
    match readDocuments text with
    | .ok documents => (.ok documents, template, cache)
    | .error error => (.error (.documents error), template, cache)
  | (.error error, template, cache) => (.error error, template, cache)

/-- Renders a template to array filters, one for each document of its text. -/
def renderArrayFilters (template : Template) (cache : Cache) :
    Except TemplateError (List ArrayFilter) × Template × Cache :=
  match template.renderText cache with
  | (.ok text, template, cache) =>
    match readDocuments text with
    | .ok documents => (.ok (documents.map ArrayFilter.mk), template, cache)
    | .error error => (.error (.documents error), template, cache)
  | (.error error, template, cache) => (.error error, template, cache)

end Template
end CommandTemplate
