import CommandTemplate.Template.Render

/-!
# Workspaces

A workspace holds named templates and named caches.  Several names may stand for one cache, and a
template keeps the cache it was made with, also when the name is given to another cache later.  The
first cache of a workspace is common to the templates that ask for no cache by its name.
Everything that happens to templates that share caches is a sequence of steps of a workspace.
-/

namespace CommandTemplate

inductive TemplateRequest
  | resolve (path : Text)
  | resolvePath (path : FieldPath) (form : PathForm)
  | resolveAll (group : PathGroup) (paths : List FieldPath)
  | collection (name : Text)
  | assign (name value : Text)
  | appendStage (stage : Text)
  | renderText
  | renderDocuments
deriving DecidableEq

inductive TemplateReply
  | done
  | text (text : Text)
  | documents (documents : List Document)

namespace Template

/-- Carries out a request, and says what it gives and what becomes of the template and of its
cache. -/
def perform (request : TemplateRequest) (template : Template) (cache : Cache) :
    Except TemplateError TemplateReply × Template × Cache :=
  let changed (result : Except TemplateError Template) :=
    match result with
    | .ok changed => (.ok .done, changed, cache)
    | .error error => (.error error, template, cache)
  match request with
  | .resolve path => changed (.ok (template.resolve path))
  | .resolvePath path form => changed (.ok (template.resolvePath path form))
  | .resolveAll group paths => changed (template.resolveAll group paths)
  | .collection name => changed (.ok (template.collection name))
  | .assign name value => changed (.ok (template.assign name value))
  | .appendStage stage => changed (template.appendStage stage)
  | .renderText =>
    let (result, template, cache) := template.renderText cache
    (result.map .text, template, cache)
  | .renderDocuments =>
    let (result, template, cache) := template.renderDocuments cache
    (result.map .documents, template, cache)

end Template

structure HeldTemplate where
  template : Template
  cacheId : Nat
deriving DecidableEq

/-- The cache that a template is made with. -/
inductive CacheChoice
  /-- The first cache that was made. -/
  | common
  | named (name : Text)
deriving DecidableEq, Repr

/-- Named templates and named caches. -/
structure Workspace where
  /-- All caches that were ever made; the place in the list is the number of the cache. -/
  caches : List Cache
  /-- The numbers of the named caches. -/
  cacheNames : RecencyMap Text Nat
  /-- The named templates. -/
  templates : RecencyMap Text HeldTemplate
deriving DecidableEq

namespace Workspace

def empty : Workspace :=
  ⟨[], ∅, ∅⟩

def cacheId? (workspace : Workspace) (name : Text) : Option Nat :=
  workspace.cacheNames.get? name

def cache? (workspace : Workspace) (name : Text) : Option Cache :=
  (workspace.cacheId? name).bind fun id => workspace.caches[id]?

def chosenId? (workspace : Workspace) : CacheChoice → Option Nat
  | .common => some 0
  | .named name => workspace.cacheId? name

def template? (workspace : Workspace) (name : Text) : Option Template :=
  (workspace.templates.get? name).map HeldTemplate.template

def addCache (workspace : Workspace) (name : Text) (cache : Cache) : Workspace :=
  { workspace with
    caches := workspace.caches ++ [cache]
    cacheNames := workspace.cacheNames.put name workspace.caches.length }

/-- The workspace with a second name for a cache. -/
def shareCache? (workspace : Workspace) (name other : Text) : Option Workspace :=
  (workspace.cacheId? name).map fun id =>
    { workspace with cacheNames := workspace.cacheNames.put other id }

/-- Uses the cache with a number, and keeps what becomes of it. -/
def useCacheAt? {α : Type} (workspace : Workspace) (id : Nat) (use : Cache → α × Cache) :
    Option (α × Workspace) :=
  (workspace.caches[id]?).map fun cache =>
    let (result, cache) := use cache
    (result, { workspace with caches := workspace.caches.set id cache })

/-- Uses a named cache, and keeps what becomes of it. -/
def useCache? {α : Type} (workspace : Workspace) (name : Text) (use : Cache → α × Cache) :
    Option (α × Workspace) :=
  (workspace.cacheId? name).bind fun id => workspace.useCacheAt? id use

/-- Makes a template with a chosen cache, under a name; if that fails, the name keeps the template
it has. -/
def createTemplate? (sourceKey : SourceKey) (workspace : Workspace) (name : Text)
    (choice : CacheChoice) (source : Text) : Option (Except TemplateError Unit × Workspace) :=
  (workspace.chosenId? choice).bind fun id =>
    (workspace.useCacheAt? id (Template.create sourceKey source)).map fun
      | (.ok template, workspace) =>
        (.ok (), { workspace with templates := workspace.templates.put name ⟨template, id⟩ })
      | (.error error, workspace) => (.error error, workspace)

def cloneTemplate? (workspace : Workspace) (name other : Text) : Option Workspace :=
  (workspace.templates.get? name).map fun held =>
    { workspace with templates := workspace.templates.put other held }

/-- Carries out a request of a named template, with the cache it was made with. -/
def performOn? (workspace : Workspace) (name : Text) (request : TemplateRequest) :
    Option (Except TemplateError TemplateReply × Workspace) :=
  (workspace.templates.get? name).bind fun held =>
    (workspace.caches[held.cacheId]?).map fun cache =>
      let (reply, template, cache) := held.template.perform request cache
      (reply,
        { workspace with
          caches := workspace.caches.set held.cacheId cache
          templates := workspace.templates.put name { held with template := template } })

end Workspace
end CommandTemplate
