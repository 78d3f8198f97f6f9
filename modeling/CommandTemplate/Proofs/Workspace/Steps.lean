import CommandTemplate.Template.Workspace

/-!
# Steps of a workspace

A run of a workspace is a sequence of steps: caches are made, named, looked up, written and cleared,
and templates are made, copied and used.  The trace of a run holds the answer to every step and the
workspace after it.
-/

namespace CommandTemplate

inductive CacheRequest
  | lookup (key : UInt64) (source : Text)
  | store (key : UInt64) (source expanded : Text)
  | clear
deriving DecidableEq

def Cache.after (request : CacheRequest) (cache : Cache) : Cache :=
  match request with
  | .lookup key source => (cache.lookup key source).2
  | .store key source expanded => cache.store key source expanded
  | .clear => cache.clear

inductive WorkspaceStep
  | addCache (name : Text) (capacity : Option Nat)
  | shareCache (name other : Text)
  | useCache (name : Text) (request : CacheRequest)
  | create (name : Text) (choice : CacheChoice) (source : Text)
  | clone (name other : Text)
  | perform (name : Text) (request : TemplateRequest)
deriving DecidableEq

/-- What a step answers: nothing when there is no template or cache of the name. -/
abbrev StepAnswer := Option (Except TemplateError TemplateReply)

namespace Workspace

/-- The answer and the workspace after an operation, which stays as it is when the operation does
not find its template or cache. -/
def settle (workspace : Workspace)
    (result? : Option (Except TemplateError TemplateReply × Workspace)) : StepAnswer × Workspace :=
  match result? with
  | some (reply, changed) => (some reply, changed)
  | none => (none, workspace)

def step (sourceKey : SourceKey) (workspace : Workspace) :
    WorkspaceStep → StepAnswer × Workspace
  | .addCache name capacity => (some (.ok .done), workspace.addCache name (.ofCapacity capacity))
  | .shareCache name other =>
    workspace.settle ((workspace.shareCache? name other).map fun changed => (.ok .done, changed))
  | .useCache name request =>
    workspace.settle (workspace.useCache? name fun cache => (.ok .done, cache.after request))
  | .create name choice source =>
    workspace.settle ((workspace.createTemplate? sourceKey name choice source).map
      fun (result, changed) => (result.map fun _ => .done, changed))
  | .clone name other =>
    workspace.settle ((workspace.cloneTemplate? name other).map fun changed => (.ok .done, changed))
  | .perform name request => workspace.settle (workspace.performOn? name request)

/-- Carries out steps in turn, and lists each answer with the workspace after it. -/
def trace (sourceKey : SourceKey) :
    List WorkspaceStep → Workspace → List (StepAnswer × Workspace)
  | [], _ => []
  | step :: steps, workspace =>
    let result := workspace.step sourceKey step
    result :: trace sourceKey steps result.2

end Workspace
end CommandTemplate
