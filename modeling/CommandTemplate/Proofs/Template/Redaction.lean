import CommandTemplate.Proofs.Template.Creation

/-!
# Templates without the values of their tags

A template is redacted by blacking out the values of its tags, which keeps the tags that have a
value and their order.  Every request of a redacted template leaves what the request leaves of the
template itself, redacted, and it writes the same to the cache.
-/

namespace CommandTemplate

/-! ## Maps with other values -/

namespace RecencyMap

variable {κ ν μ : Type}

/-- The map with every value replaced by a function of it. -/
def mapValues (f : ν → μ) (map : RecencyMap κ ν) : RecencyMap κ μ :=
  ⟨map.entries.map fun entry => (entry.1, f entry.2), by
    simpa [List.map_map, Function.comp_def] using map.nodup⟩

theorem keys_mapValues (f : ν → μ) (map : RecencyMap κ ν) : (map.mapValues f).keys = map.keys := by
  simp [keys, mapValues, List.map_map, Function.comp_def]

variable [DecidableEq κ]

theorem get?_mapValues (f : ν → μ) (map : RecencyMap κ ν) (key : κ) :
    (map.mapValues f).get? key = (map.get? key).map f := by
  have hentries : (map.mapValues f).entries =
      map.entries.map fun entry => (entry.1, f entry.2) := rfl
  rw [get?, get?, hentries]
  induction map.entries with
  | nil => rfl
  | cons entry rest ih =>
      rw [List.map_cons, List.lookup_cons, List.lookup_cons]
      cases key == entry.1 with
      | true => rfl
      | false => exact ih

theorem mapValues_put (f : ν → μ) (map : RecencyMap κ ν) (key : κ) (value : ν) :
    (map.put key value).mapValues f = (map.mapValues f).put key (f value) := by
  apply ext
  simp [mapValues, List.filter_map, Function.comp_def]

end RecencyMap

/-! ## Redacted templates -/

/-- The request without the value that it assigns. -/
def TemplateRequest.redacted : TemplateRequest → TemplateRequest
  | .assign name _ => .assign name []
  | request => request

def TemplateCall.redacted : TemplateCall → TemplateCall
  | .assign name _ => .assign name []
  | call => call

theorem TemplateRequest.calls_redacted (request : TemplateRequest) :
    request.redacted.calls = request.calls.map TemplateCall.redacted := by
  cases request with
  | resolveAll group paths =>
      rw [redacted, calls, List.map_map]
      · rfl
      · simp
  | resolve path => rfl
  | resolvePath path form => rfl
  | collection name => rfl
  | assign name value => rfl
  | appendStage stage => rfl
  | renderText => rfl
  | renderDocuments => rfl

/-- What a reply shows: whether the request failed, and why.  Whether a rendered text is a list of
documents does not count, since that is up to the values in it. -/
def TemplateRequest.shown (request : TemplateRequest)
    (reply : Except TemplateError TemplateReply) : Except TemplateError Unit :=
  match request, reply with
  | .renderDocuments, .error (.documents _) => .ok ()
  | _, .ok _ => .ok ()
  | _, .error error => .error error

namespace Template

/-- The template with the values of its tags blacked out. -/
def redacted (template : Template) : Template :=
  { template with values := template.values.mapValues fun _ => [] }

theorem resolve_redacted (path : Text) (template : Template) :
    (template.resolve path).redacted = template.redacted.resolve path := by
  have hcached : template.redacted.cached = template.cached := rfl
  have hgoal : template.redacted.goal = template.goal := rfl
  have hstages : template.redacted.stageTags = template.stageTags := rfl
  simp only [resolve, hcached, hgoal, hstages]
  split <;> split <;> rfl

theorem assign_redacted (name value : Text) (template : Template) :
    (template.assign name value).redacted = template.redacted.assign name [] := by
  have hgoal : template.redacted.goal = template.goal := rfl
  simp only [assign, hgoal]
  split
  · simp only [redacted, RecencyMap.mapValues_put]
  · rfl

theorem appendStage_redacted (stage : Text) (template : Template) :
    template.redacted.appendStage stage = (template.appendStage stage).map redacted := by
  have hbase : template.redacted.base = template.base := rfl
  rw [appendStage, appendStage, hbase]
  split
  · rfl
  · split <;> rfl

theorem appended_redacted (stage : Text) (template : Template) :
    (template.appended stage).redacted = template.redacted.appended stage := by
  rw [appended, appended, appendStage_redacted]
  cases template.appendStage stage <;> rfl

theorem countValues_redacted (template : Template) :
    template.countValues.redacted = template.redacted.countValues := by
  have hkeys : template.redacted.values.keys = template.values.keys :=
    RecencyMap.keys_mapValues _ _
  rw [countValues, countValues, hkeys]
  rfl

theorem obstacle?_redacted (template : Template) :
    template.redacted.countValues.obstacle? = template.countValues.obstacle? := by
  rw [← countValues_redacted]
  rfl

theorem rendered_redacted (template : Template) :
    template.rendered.redacted = template.redacted.rendered := by
  rw [rendered, rendered, obstacle?_redacted, ← countValues_redacted]
  rfl

/-- A call does to a redacted template what it does to the template, up to values. -/
theorem after_redacted (call : TemplateCall) (template : Template) :
    (template.after call).redacted = template.redacted.after call.redacted := by
  cases call with
  | resolve path => exact resolve_redacted path template
  | assign name value => exact assign_redacted name value template
  | appendStage stage => exact appended_redacted stage template
  | render => exact rendered_redacted template

theorem run_redacted (calls : List TemplateCall) (template : Template) :
    (template.run calls).redacted = template.redacted.run (calls.map TemplateCall.redacted) := by
  induction calls generalizing template with
  | nil => rfl
  | cons call calls ih => rw [run_cons, ih, after_redacted, List.map_cons, run_cons]

/-! ## Rendering -/

theorem publish_redacted (template : Template) (cache : Cache) :
    (template.redacted.publish cache).2 = (template.publish cache).2 := by
  have hcached : template.redacted.cached = template.cached := rfl
  have hstages : template.redacted.hasStages = template.hasStages := rfl
  rw [publish, publish, hcached, hstages]
  split <;> rfl

/-- Rendering a redacted template writes the same to the cache and meets the same obstacle. -/
theorem renderText_redacted (template : Template) (cache : Cache) :
    (template.redacted.renderText cache).1.map (fun _ => ()) =
        (template.renderText cache).1.map (fun _ => ()) ∧
      (template.redacted.renderText cache).2.2 = (template.renderText cache).2.2 := by
  simp only [renderText, obstacle?_redacted]
  cases template.countValues.obstacle? with
  | some error => exact ⟨rfl, rfl⟩
  | none =>
      refine ⟨rfl, ?_⟩
      simp only [← countValues_redacted, publish_redacted]

@[simp] theorem mapError_ok {α ε ε' : Type} (f : ε → ε') (a : α) :
    (Except.ok a).mapError f = .ok a :=
  rfl

@[simp] theorem mapError_error {α ε ε' : Type} (f : ε → ε') (error : ε) :
    (Except.error error : Except ε α).mapError f = .error (f error) :=
  rfl

/-- A render of documents shows what the render of the text shows. -/
theorem shown_bind_documents {first second : Except TemplateError Text}
    (h : first.map (fun _ => ()) = second.map (fun _ => ())) :
    TemplateRequest.shown .renderDocuments ((first.bind fun text =>
        (readDocuments text).mapError TemplateError.documents).map .documents) =
      TemplateRequest.shown .renderDocuments ((second.bind fun text =>
        (readDocuments text).mapError TemplateError.documents).map .documents) := by
  have hok : ∀ text : Text, TemplateRequest.shown .renderDocuments
      ((Except.bind (.ok text) fun text =>
        (readDocuments text).mapError TemplateError.documents).map .documents) = .ok () := by
    intro text
    cases hread : readDocuments text <;> simp [hread, Except.bind, Except.map,
      TemplateRequest.shown]
  cases first with
  | error error =>
      cases second with
      | error other =>
          obtain rfl : error = other := Except.error.inj h
          rfl
      | ok text => simp [Except.map] at h
  | ok text =>
      cases second with
      | error error => simp [Except.map] at h
      | ok other => rw [hok, hok]

theorem perform_redacted (request : TemplateRequest) (template : Template) (cache : Cache) :
    (template.redacted.perform request.redacted cache).2 =
        ((template.perform request cache).2.1.redacted, (template.perform request cache).2.2) ∧
      request.redacted.shown (template.redacted.perform request.redacted cache).1 =
        request.shown (template.perform request cache).1 := by
  have htemplate : (template.redacted.perform request.redacted cache).2.1 =
      (template.perform request cache).2.1.redacted := by
    rw [perform_template, perform_template, run_redacted, TemplateRequest.calls_redacted]
  have hcache : (template.redacted.perform request.redacted cache).2.2 =
        (template.perform request cache).2.2 ∧
      request.redacted.shown (template.redacted.perform request.redacted cache).1 =
        request.shown (template.perform request cache).1 := by
    cases request with
    | resolve path => exact ⟨rfl, rfl⟩
    | resolvePath path form => exact ⟨rfl, rfl⟩
    | resolveAll group paths =>
        simp only [TemplateRequest.redacted, perform, resolveAll]
        by_cases hpaths : paths = []
        · rw [if_pos hpaths, if_pos hpaths]
          exact ⟨rfl, rfl⟩
        · rw [if_neg hpaths, if_neg hpaths]
          exact ⟨rfl, rfl⟩
    | collection name => exact ⟨rfl, rfl⟩
    | assign name value => exact ⟨rfl, rfl⟩
    | appendStage stage =>
        simp only [TemplateRequest.redacted, perform, appendStage_redacted]
        cases template.appendStage stage <;> exact ⟨rfl, rfl⟩
    | renderText =>
        obtain ⟨hresult, hafter⟩ := renderText_redacted template cache
        refine ⟨hafter, ?_⟩
        simp only [TemplateRequest.redacted, perform]
        revert hresult
        cases (template.redacted.renderText cache).1 <;>
          cases (template.renderText cache).1 <;>
            simp [Except.map, TemplateRequest.shown]
    | renderDocuments =>
        obtain ⟨hresult, hafter⟩ := renderText_redacted template cache
        simp only [TemplateRequest.redacted, perform, renderDocuments_eq]
        exact ⟨hafter, shown_bind_documents hresult⟩
  exact ⟨Prod.ext htemplate hcache.1, hcache.2⟩

/-- A template that was just made has no values to black out. -/
theorem redacted_of_create {sourceKey : SourceKey} {source : Text} {cache after : Cache}
    {template : Template} (h : create sourceKey source cache = (.ok template, after)) :
    template.redacted = template := by
  rcases create_cases h with ⟨expanded, -, rfl⟩ | ⟨-, -, rfl⟩ <;> rfl

end Template
end CommandTemplate
