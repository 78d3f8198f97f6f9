import CommandTemplate.Template.Workspace

/-!
# Requests as runs of calls

Whatever is requested of a template comes down to calls of four kinds: a path is resolved, a value
is assigned, a stage is appended, or the template is rendered.  What the calls do to a template does
not depend on the cache, which is only read when a template is made and only written when one is
rendered.
-/

namespace CommandTemplate

/-- A single thing that is done to a template. -/
inductive TemplateCall
  | resolve (path : Text)
  | assign (name value : Text)
  | appendStage (stage : Text)
  | render
deriving DecidableEq

/-- The calls that a request comes down to. -/
def TemplateRequest.calls : TemplateRequest → List TemplateCall
  | .resolve path => [.resolve path]
  | .resolvePath path form => [.resolve (path.render form)]
  | .resolveAll group paths => paths.map fun path => .resolve (path.render group.form)
  | .collection name => [.resolve name]
  | .assign name value => [.assign name value]
  | .appendStage stage => [.appendStage stage]
  | .renderText => [.render]
  | .renderDocuments => [.render]

def TemplateRequest.isRender : TemplateRequest → Bool
  | .renderText => true
  | .renderDocuments => true
  | _ => false

theorem TemplateRequest.isRender_iff {request : TemplateRequest} :
    request.isRender = true ↔ request = .renderText ∨ request = .renderDocuments := by
  cases request <;> simp [isRender]

namespace Template

/-- The template with a stage appended, or as it is when the stage is refused. -/
def appended (stage : Text) (template : Template) : Template :=
  match template.appendStage stage with
  | .ok changed => changed
  | .error _ => template

def rendered (template : Template) : Template :=
  { template.countValues with
    cached := template.cached ||
      (template.countValues.obstacle?.isNone && !template.hasStages) }

/-- Whether a render stores the text of the template in the cache. -/
def stores (template : Template) : Bool :=
  !template.cached && !template.hasStages && template.countValues.obstacle?.isNone

def after (call : TemplateCall) (template : Template) : Template :=
  match call with
  | .resolve path => template.resolve path
  | .assign name value => template.assign name value
  | .appendStage stage => template.appended stage
  | .render => template.rendered

def run : List TemplateCall → Template → Template
  | [], template => template
  | call :: calls, template => run calls (template.after call)

/-- Carries out requests in turn, and says what each of them gives and what becomes of the template
and of its cache. -/
def performAll : List TemplateRequest → Template → Cache →
    List (Except TemplateError TemplateReply) × Template × Cache
  | [], template, cache => ([], template, cache)
  | request :: requests, template, cache =>
    let (reply, template, cache) := template.perform request cache
    let (replies, template, cache) := performAll requests template cache
    (reply :: replies, template, cache)

/-- Makes a template, carries out requests of it and renders it, and says what the render answers
and what becomes of the cache. -/
def serve (sourceKey : SourceKey) (source : Text) (requests : List TemplateRequest)
    (cache : Cache) : Except TemplateError Text × Cache :=
  match create sourceKey source cache with
  | (.ok made, cache) =>
    let (_, template, cache) := made.performAll requests cache
    let (answer, _, cache) := template.renderText cache
    (answer, cache)
  | (.error error, cache) => (.error error, cache)

/-! ## Single calls -/

section Fields

variable (template : Template) (path name value stage : Text)

@[simp] theorem after_resolve : template.after (.resolve path) = template.resolve path :=
  rfl

@[simp] theorem after_assign : template.after (.assign name value) = template.assign name value :=
  rfl

@[simp] theorem after_appendStage :
    template.after (.appendStage stage) = template.appended stage :=
  rfl

@[simp] theorem after_render : template.after .render = template.rendered :=
  rfl

@[simp] theorem rendered_base : template.rendered.base = template.base :=
  rfl

@[simp] theorem rendered_stages : template.rendered.stages = template.stages :=
  rfl

@[simp] theorem rendered_goal : template.rendered.goal = template.goal :=
  rfl

@[simp] theorem rendered_stageTags : template.rendered.stageTags = template.stageTags :=
  rfl

@[simp] theorem rendered_missing : template.rendered.missing = template.missing :=
  rfl

@[simp] theorem rendered_values : template.rendered.values = template.values :=
  rfl

end Fields

/-! ## Runs of calls -/

@[simp] theorem run_nil (template : Template) : template.run [] = template :=
  rfl

@[simp] theorem run_cons (call : TemplateCall) (calls : List TemplateCall) (template : Template) :
    template.run (call :: calls) = (template.after call).run calls :=
  rfl

theorem run_append (calls others : List TemplateCall) (template : Template) :
    template.run (calls ++ others) = (template.run calls).run others := by
  induction calls generalizing template with
  | nil => rfl
  | cons call calls ih => rw [List.cons_append, run_cons, run_cons, ih]

/-! ## Requests as calls -/

/-- A template with nothing to do for structural requests is not changed by resolving. -/
theorem resolve_of_isSettled {template : Template} (h : template.isSettled = true)
    (path : Text) : template.resolve path = template := by
  rw [isSettled, Bool.and_eq_true, TagSet.isEmpty_iff] at h
  simp [resolve, h.1, h.2 (tagToken path)]

theorem resolvePath_eq (template : Template) (path : FieldPath) (form : PathForm) :
    template.resolvePath path form = template.resolve (path.render form) := by
  rw [resolvePath]
  split
  · rename_i h
    rw [resolve_of_isSettled h]
  · rfl

theorem collection_eq (template : Template) (name : Text) :
    template.collection name = template.resolve name := by
  rw [collection]
  split
  · rename_i h
    rw [resolve_of_isSettled h]
  · rfl

theorem foldl_resolvePath_eq_run (paths : List FieldPath) (form : PathForm)
    (template : Template) :
    paths.foldl (fun template path => template.resolvePath path form) template =
      template.run (paths.map fun path => .resolve (path.render form)) := by
  induction paths generalizing template with
  | nil => rfl
  | cons path paths ih =>
      rw [List.foldl_cons, ih, resolvePath_eq, List.map_cons, run_cons]
      rfl

theorem publish_template (template : Template) (cache : Cache) :
    (template.publish cache).1 =
      { template with cached := template.cached || !template.hasStages } := by
  obtain ⟨source, key, cached, base, stages, goal, stageTags, replaced, missing, values⟩ := template
  cases cached with
  | true => rfl
  | false =>
      cases stages with
      | nil => rfl
      | cons stage stages => rfl

theorem renderText_template (template : Template) (cache : Cache) :
    (template.renderText cache).2.1 = template.rendered := by
  simp only [renderText, rendered]
  cases hobstacle : template.countValues.obstacle? with
  | some error => simp [countValues]
  | none =>
      simp only [publish_template]
      rfl

theorem renderDocuments_eq (template : Template) (cache : Cache) :
    template.renderDocuments cache =
      ((template.renderText cache).1.bind fun text =>
          (readDocuments text).mapError TemplateError.documents,
        (template.renderText cache).2) := by
  rw [renderDocuments]
  rcases template.renderText cache with ⟨result, rendered, cache⟩
  cases result with
  | error error => rfl
  | ok text =>
      simp only [Except.bind]
      cases readDocuments text with
      | error error => rfl
      | ok documents => rfl

/-- Array filters are the documents of the text, each of them wrapped. -/
theorem renderArrayFilters_eq (template : Template) (cache : Cache) :
    template.renderArrayFilters cache =
      ((template.renderDocuments cache).1.map (List.map ArrayFilter.mk),
        (template.renderDocuments cache).2) := by
  rw [renderArrayFilters, renderDocuments]
  rcases template.renderText cache with ⟨result, rendered, cache⟩
  cases result with
  | error error => rfl
  | ok text => cases hread : readDocuments text <;> simp [hread, Except.map]

theorem renderDocuments_template (template : Template) (cache : Cache) :
    (template.renderDocuments cache).2.1 = template.rendered := by
  rw [renderDocuments_eq]
  exact renderText_template template cache

/-- A request does to a template what its calls do, whatever the cache. -/
theorem perform_template (request : TemplateRequest) (template : Template) (cache : Cache) :
    (template.perform request cache).2.1 = template.run request.calls := by
  cases request with
  | resolve path => rfl
  | resolvePath path form =>
      rw [TemplateRequest.calls, run_cons, run_nil, after, ← resolvePath_eq]
      rfl
  | resolveAll group paths =>
      rw [perform, resolveAll]
      by_cases hpaths : paths = []
      · subst hpaths
        rfl
      · rw [if_neg hpaths]
        exact foldl_resolvePath_eq_run paths group.form template
  | collection name =>
      rw [TemplateRequest.calls, run_cons, run_nil, after, ← collection_eq]
      rfl
  | assign name value => rfl
  | appendStage stage =>
      rw [perform, TemplateRequest.calls, run_cons, run_nil, after, appended]
      cases template.appendStage stage <;> rfl
  | renderText => exact renderText_template template cache
  | renderDocuments => exact renderDocuments_template template cache

theorem perform_template_of_isRender {request : TemplateRequest} (h : request.isRender = true)
    (template : Template) (cache : Cache) :
    (template.perform request cache).2.1 = template.rendered := by
  rw [perform_template]
  rcases TemplateRequest.isRender_iff.mp h with rfl | rfl
  · rfl
  · rfl

/-- Requests do to a template what their calls do, whatever the cache. -/
theorem performAll_template (requests : List TemplateRequest) (template : Template)
    (cache : Cache) :
    (template.performAll requests cache).2.1 =
      template.run (requests.flatMap TemplateRequest.calls) := by
  induction requests generalizing template cache with
  | nil => rfl
  | cons request requests ih =>
      rw [List.flatMap_cons, run_append, ← perform_template request template cache, performAll]
      exact ih _ _

/-! ## What requests store -/

theorem renderText_cache_eq (template : Template) (cache : Cache) :
    (template.renderText cache).2.2 =
      if template.stores then cache.store template.key template.source template.base else cache := by
  rw [renderText, stores]
  cases hobstacle : template.countValues.obstacle? with
  | some error => simp
  | none =>
      obtain ⟨source, key, cached, base, stages, goal, stageTags, replaced, missing, values⟩ :=
        template
      cases cached with
      | true => rfl
      | false =>
          cases stages with
          | nil => rfl
          | cons stage stages => rfl

/-- A request leaves the cache as it is, unless it renders a template that stores its text. -/
theorem perform_cache_eq (request : TemplateRequest) (template : Template) (cache : Cache) :
    (template.perform request cache).2.2 =
      if request.isRender && template.stores then
        cache.store template.key template.source template.base
      else cache := by
  cases request with
  | resolve path => rfl
  | resolvePath path form => rfl
  | resolveAll group paths =>
      rw [perform]
      cases template.resolveAll group paths <;> rfl
  | collection name => rfl
  | assign name value => rfl
  | appendStage stage =>
      rw [perform]
      cases template.appendStage stage <;> rfl
  | renderText => exact renderText_cache_eq template cache
  | renderDocuments =>
      have hcache : (template.perform .renderDocuments cache).2.2 =
          (template.renderText cache).2.2 :=
        congrArg (fun result => result.2.2) (renderDocuments_eq template cache)
      rw [hcache]
      exact renderText_cache_eq template cache

/-- A request leaves the cache as it is, or it renders the template, which has no stages, and stores
its text. -/
theorem perform_cache (request : TemplateRequest) (template : Template) (cache : Cache) :
    (template.perform request cache).2.2 = cache ∨
      template.cached = false ∧ template.hasStages = false ∧
        template.countValues.obstacle? = none ∧
        (template.perform request cache).2.2 =
          cache.store template.key template.source template.base := by
  rw [perform_cache_eq]
  split
  · rename_i h
    simp only [stores, Bool.and_eq_true, Bool.not_eq_true', Option.isNone_iff_eq_none] at h
    exact Or.inr ⟨h.2.1.1, h.2.1.2, h.2.2, rfl⟩
  · exact Or.inl rfl

theorem renderText_cache (template : Template) (cache : Cache) :
    (template.renderText cache).2.2 = cache ∨
      template.cached = false ∧ template.hasStages = false ∧
        template.countValues.obstacle? = none ∧
        (template.renderText cache).2.2 =
          cache.store template.key template.source template.base :=
  perform_cache .renderText template cache

end Template
end CommandTemplate
