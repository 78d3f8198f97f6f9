import CommandTemplate.Cache.Key
import CommandTemplate.Proofs.Template.Redaction
import CommandTemplate.Proofs.Workspace.Steps

/-!
# The values of tags do not show

Two runs of a workspace that differ only in the values that are assigned go through the same caches,
and through templates that differ in nothing but these values; and they meet the same errors, as long
as nothing looks into a rendered text.  Each step of the redacted workspace leaves what the step
leaves, redacted, so that both runs follow one run without values.
-/

namespace CommandTemplate

def WorkspaceStep.redacted : WorkspaceStep → WorkspaceStep
  | .perform name request => .perform name request.redacted
  | step => step

/-- What the answer to a step shows: whether there was a template or cache of the name, whether the
step failed, and why. -/
def WorkspaceStep.shown (step : WorkspaceStep) (answer : StepAnswer) :
    Option (Except TemplateError Unit) :=
  match step with
  | .perform _ request => answer.map request.shown
  | _ => answer.map fun reply => reply.map fun _ => ()

/-- The template with the values of its tags blacked out, and the cache it was made with. -/
def HeldTemplate.redacted (held : HeldTemplate) : HeldTemplate :=
  { held with template := held.template.redacted }

namespace Workspace

/-- The workspace with the values of tags blacked out.  Nothing else is lost: not the caches with
their entries in order of use, and of a template neither its text and stages nor any of its sets of
tags, nor the names that have values. -/
def redacted (workspace : Workspace) : Workspace :=
  { workspace with templates := workspace.templates.mapValues HeldTemplate.redacted }

/-- What can be seen of a run without the values of tags: after each step, what its answer shows
and the redacted workspace. -/
def observed (sourceKey : SourceKey) (steps : List WorkspaceStep) (workspace : Workspace) :
    List (Option (Except TemplateError Unit) × Workspace) :=
  (steps.zip (workspace.trace sourceKey steps)).map fun (step, answer, after) =>
    (step.shown answer, after.redacted)

theorem get?_templates_redacted (workspace : Workspace) (name : Text) :
    workspace.redacted.templates.get? name =
      (workspace.templates.get? name).map HeldTemplate.redacted :=
  RecencyMap.get?_mapValues _ _ _

theorem performOn?_redacted (workspace : Workspace) (name : Text) (request : TemplateRequest) :
    (workspace.redacted.performOn? name request.redacted).map
        (fun result => (request.redacted.shown result.1, result.2)) =
      (workspace.performOn? name request).map fun result =>
        (request.shown result.1, result.2.redacted) := by
  have hcaches : workspace.redacted.caches = workspace.caches := rfl
  rw [performOn?, performOn?, get?_templates_redacted]
  cases workspace.templates.get? name with
  | none => rfl
  | some held =>
      rw [Option.map_some, Option.bind_some, Option.bind_some, hcaches]
      have hid : held.redacted.cacheId = held.cacheId := rfl
      rw [hid]
      cases workspace.caches[held.cacheId]? with
      | none => rfl
      | some cache =>
          obtain ⟨hafter, hshown⟩ := Template.perform_redacted request held.template cache
          have htemplate : held.redacted.template = held.template.redacted := rfl
          simp only [Option.map_some, htemplate, hshown, hafter, redacted,
            RecencyMap.mapValues_put]
          rfl

theorem createTemplate?_redacted (sourceKey : SourceKey) (workspace : Workspace) (name : Text)
    (choice : CacheChoice) (source : Text) :
    workspace.redacted.createTemplate? sourceKey name choice source =
      (workspace.createTemplate? sourceKey name choice source).map fun result =>
        (result.1, result.2.redacted) := by
  have hchosen : workspace.redacted.chosenId? choice = workspace.chosenId? choice := by
    cases choice <;> rfl
  have hcaches : workspace.redacted.caches = workspace.caches := rfl
  rw [createTemplate?, createTemplate?, hchosen]
  cases workspace.chosenId? choice with
  | none => rfl
  | some id =>
      rw [Option.bind_some, Option.bind_some, useCacheAt?, useCacheAt?, hcaches]
      cases workspace.caches[id]? with
      | none => rfl
      | some cache =>
          simp only [Option.map_some]
          rcases hmade : Template.create sourceKey source cache with ⟨made, after⟩
          cases made with
          | error error => rfl
          | ok template =>
              have htemplate : (⟨template, id⟩ : HeldTemplate) =
                  HeldTemplate.redacted ⟨template, id⟩ := by
                rw [HeldTemplate.redacted, Template.redacted_of_create hmade]
              simp only [redacted, RecencyMap.mapValues_put, ← htemplate]

theorem useCache?_redacted {α : Type} (workspace : Workspace) (name : Text)
    (use : Cache → α × Cache) :
    workspace.redacted.useCache? name use =
      (workspace.useCache? name use).map fun result => (result.1, result.2.redacted) := by
  have hid : workspace.redacted.cacheId? name = workspace.cacheId? name := rfl
  have hcaches : workspace.redacted.caches = workspace.caches := rfl
  rw [useCache?, useCache?, hid]
  cases workspace.cacheId? name with
  | none => rfl
  | some id =>
      rw [Option.bind_some, Option.bind_some, useCacheAt?, useCacheAt?, hcaches]
      cases workspace.caches[id]? <;> rfl

/-- A step of a redacted workspace leaves what the step leaves, redacted, and shows the same. -/
theorem step_redacted (sourceKey : SourceKey) (workspace : Workspace) (step : WorkspaceStep) :
    (workspace.redacted.step sourceKey step.redacted).2 =
        (workspace.step sourceKey step).2.redacted ∧
      step.redacted.shown (workspace.redacted.step sourceKey step.redacted).1 =
        step.shown (workspace.step sourceKey step).1 := by
  cases step with
  | addCache name capacity => exact ⟨rfl, rfl⟩
  | shareCache name other =>
      have hshare : workspace.redacted.shareCache? name other =
          (workspace.shareCache? name other).map redacted := by
        rw [shareCache?, shareCache?, Option.map_map]
        rfl
      simp only [WorkspaceStep.redacted, Workspace.step, hshare]
      cases workspace.shareCache? name other <;> exact ⟨rfl, rfl⟩
  | useCache name request =>
      simp only [WorkspaceStep.redacted, Workspace.step, useCache?_redacted]
      cases workspace.useCache? name _ <;> exact ⟨rfl, rfl⟩
  | create name choice source =>
      simp only [WorkspaceStep.redacted, Workspace.step, createTemplate?_redacted]
      cases workspace.createTemplate? sourceKey name choice source <;> exact ⟨rfl, rfl⟩
  | clone name other =>
      have hclone : workspace.redacted.cloneTemplate? name other =
          (workspace.cloneTemplate? name other).map redacted := by
        rw [cloneTemplate?, cloneTemplate?, get?_templates_redacted, Option.map_map, Option.map_map]
        congr 1
        funext held
        simp only [Function.comp_apply, redacted, RecencyMap.mapValues_put]
      simp only [WorkspaceStep.redacted, Workspace.step, hclone]
      cases workspace.cloneTemplate? name other <;> exact ⟨rfl, rfl⟩
  | perform name request =>
      have hperform := performOn?_redacted workspace name request
      simp only [WorkspaceStep.redacted, Workspace.step]
      cases hredacted : workspace.redacted.performOn? name request.redacted with
      | none =>
          rw [hredacted, Option.map_none, eq_comm, Option.map_eq_none_iff] at hperform
          rw [hperform]
          exact ⟨rfl, rfl⟩
      | some result =>
          rw [hredacted, Option.map_some, eq_comm, Option.map_eq_some_iff] at hperform
          obtain ⟨other, hother, heq⟩ := hperform
          rw [Prod.mk.injEq] at heq
          rw [hother]
          exact ⟨heq.2.symm, congrArg some heq.1.symm⟩

/-- A run that assigns nothing but empty values shows what the run itself shows. -/
theorem observed_redacted (sourceKey : SourceKey) (steps : List WorkspaceStep)
    (workspace : Workspace) :
    workspace.redacted.observed sourceKey (steps.map WorkspaceStep.redacted) =
      workspace.observed sourceKey steps := by
  have hredacted : ∀ other : Workspace, other.redacted.redacted = other.redacted := by
    intro other
    simp [redacted, RecencyMap.mapValues, HeldTemplate.redacted, Template.redacted]
  induction steps generalizing workspace with
  | nil => rfl
  | cons step steps ih =>
      obtain ⟨hafter, hshown⟩ := step_redacted sourceKey workspace step
      have hcons : ∀ (first : WorkspaceStep) (rest : List WorkspaceStep) (other : Workspace),
          other.observed sourceKey (first :: rest) =
            (first.shown (other.step sourceKey first).1, (other.step sourceKey first).2.redacted) ::
              (other.step sourceKey first).2.observed sourceKey rest := fun _ _ _ => rfl
      rw [List.map_cons, hcons, hcons, hafter, hshown, hredacted, ih]

/-- Two runs that differ only in the values that are assigned to tags cannot be told apart without
looking at values: after every step the caches are the same, entries and order of use, the templates
are the same but for their values, and the answers show the same errors. -/
theorem observed_eq_of_redacted_eq (sourceKey : SourceKey) {steps others : List WorkspaceStep}
    {workspace other : Workspace}
    (hsteps : steps.map WorkspaceStep.redacted = others.map WorkspaceStep.redacted)
    (hstart : workspace.redacted = other.redacted) :
    workspace.observed sourceKey steps = other.observed sourceKey others := by
  rw [← observed_redacted, hsteps, hstart, observed_redacted]

/-- Two templates of one source, the second of them with a stage on the stored text; one run assigns
a number, the other a text that looks like a tag and breaks the documents. -/
theorem observed_two_pipelines :
    let source : Text := "[{$match:{<f>:<v>}}]".toList
    let steps (value : Text) : List WorkspaceStep :=
      [.addCache ['m'] (some 1), .create ['a'] (.named ['m']) source,
        .perform ['a'] (.resolve ['f']), .perform ['a'] (.assign ['v'] value),
        .perform ['a'] .renderText, .create ['b'] (.named ['m']) source, .clone ['b'] ['c'],
        .perform ['b'] (.appendStage "{$sort:<f>}".toList), .perform ['b'] (.assign ['v'] value),
        .perform ['b'] .renderDocuments, .perform ['c'] (.assign ['f'] value),
        .perform ['c'] .renderText]
    steps ['1'] ≠ steps "<f>]".toList ∧
      Workspace.empty.observed defaultKey (steps ['1']) =
        Workspace.empty.observed defaultKey (steps "<f>]".toList) := by
  intro source steps
  refine ⟨by decide, ?_⟩
  exact observed_eq_of_redacted_eq defaultKey (by decide) rfl

end Workspace
end CommandTemplate
