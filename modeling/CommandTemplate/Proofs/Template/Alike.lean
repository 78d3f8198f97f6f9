import CommandTemplate.Proofs.Template.Outcome

/-!
# Templates that are alike

A render counts the tags with values as replaced, also when it fails.  Templates that differ in
nothing else are alike: whether a tag is covered does not depend on how often its value was counted.
Every request gives the same reply of templates that are alike, leaves the same in the cache, and
keeps them alike.
-/

namespace CommandTemplate

open Text

namespace Template

/-- The templates are the same but for the tags that count as replaced, and cover the same tags. -/
structure IsAlike (first second : Template) : Prop where
  eq_replaced : { first with replaced := second.replaced } = second
  covers_iff : ∀ token, first.Covers token ↔ second.Covers token

variable {first second : Template}

theorem perform_reply_of_renderText {request : TemplateRequest} (hrender : request.isRender = true)
    {cache other : Cache} (h : (first.renderText cache).1 = (second.renderText other).1) :
    (first.perform request cache).1 = (second.perform request other).1 := by
  rcases TemplateRequest.isRender_iff.mp hrender with rfl | rfl
  · exact congrArg (Except.map TemplateReply.text) h
  · simp only [perform, renderDocuments_eq]
    rw [h]

namespace IsAlike

theorem refl (template : Template) : template.IsAlike template :=
  ⟨rfl, fun _ => Iff.rfl⟩

theorem exists_eq (h : first.IsAlike second) :
    ∃ replaced, second = { first with replaced := replaced } :=
  ⟨second.replaced, h.eq_replaced.symm⟩

/-! ## What a render finds -/

theorem obstacle?_eq (h : first.IsAlike second) :
    first.countValues.obstacle? = second.countValues.obstacle? := by
  have hunresolved : first.countValues.unresolved = second.countValues.unresolved := by
    obtain ⟨replaced, rfl⟩ := h.exists_eq
    apply TagSet.filter_congr
    intro token _
    rw [decide_eq_decide, not_iff_not]
    have hfirst : token ∈ first.countValues.replaced ↔ first.Covers token := mem_replaced_rendered
    rw [hfirst, h.covers_iff]
    exact mem_replaced_rendered.symm
  have hmissing : first.countValues.missing = second.countValues.missing := by
    obtain ⟨replaced, rfl⟩ := h.exists_eq
    rfl
  rw [obstacle?, hunresolved, hmissing, obstacle?]

theorem filled_eq (h : first.IsAlike second) : first.filled = second.filled := by
  obtain ⟨replaced, rfl⟩ := h.exists_eq
  rfl

theorem stores_eq (h : first.IsAlike second) : first.stores = second.stores := by
  have hobstacle := h.obstacle?_eq
  obtain ⟨replaced, rfl⟩ := h.exists_eq
  rw [stores, hobstacle]
  rfl

theorem renderText_eq (h : first.IsAlike second) (cache other : Cache) :
    (first.renderText cache).1 = (second.renderText other).1 := by
  rw [Template.renderText_eq, Template.renderText_eq, h.obstacle?_eq, h.filled_eq]

/-! ## Calls and requests -/

theorem after_eq_replaced (h : first.IsAlike second) (call : TemplateCall) :
    { first.after call with replaced := (second.after call).replaced } = second.after call := by
  have hobstacle := h.obstacle?_eq
  obtain ⟨replaced, rfl⟩ := h.exists_eq
  cases call with
  | resolve path =>
      simp only [after_resolve, resolve]
      split <;> split <;> rfl
  | assign name value =>
      simp only [after_assign, assign]
      split <;> rfl
  | appendStage stage =>
      rw [after_appendStage, after_appendStage, appended_eq, appended_eq]
      have haccepts : ({ first with replaced := replaced } : Template).accepts stage =
        first.accepts stage := rfl
      rw [haccepts]
      split <;> rfl
  | render =>
      rw [after_render, after_render, rendered, rendered, hobstacle]
      rfl

/-- A call keeps templates alike. -/
theorem after (h : first.IsAlike second) (call : TemplateCall) :
    (first.after call).IsAlike (second.after call) := by
  refine ⟨h.after_eq_replaced call, ?_⟩
  intro token
  rw [covers_after_iff, covers_after_iff, h.covers_iff]
  obtain ⟨replaced, rfl⟩ := h.exists_eq
  rfl

theorem run (h : first.IsAlike second) (calls : List TemplateCall) :
    (first.run calls).IsAlike (second.run calls) := by
  induction calls generalizing first second with
  | nil => exact h
  | cons call calls ih => exact ih (h.after call)

theorem perform_template (h : first.IsAlike second) (request : TemplateRequest)
    (cache : Cache) :
    (first.perform request cache).2.1.IsAlike (second.perform request cache).2.1 := by
  rw [Template.perform_template, Template.perform_template]
  exact h.run request.calls

theorem perform_cache (h : first.IsAlike second) (request : TemplateRequest) (cache : Cache) :
    (first.perform request cache).2.2 = (second.perform request cache).2.2 := by
  rw [perform_cache_eq, perform_cache_eq, h.stores_eq]
  obtain ⟨replaced, rfl⟩ := h.exists_eq
  rfl

/-- The reply of a request does not depend on the cache. -/
theorem perform_reply (h : first.IsAlike second) (request : TemplateRequest)
    (cache other : Cache) :
    (first.perform request cache).1 = (second.perform request other).1 := by
  cases hrender : request.isRender with
  | true => exact perform_reply_of_renderText hrender (h.renderText_eq cache other)
  | false =>
      obtain ⟨replaced, rfl⟩ := h.exists_eq
      cases request with
      | resolve path => rfl
      | resolvePath path form => rfl
      | resolveAll group paths =>
          simp only [perform, resolveAll]
          by_cases hpaths : paths = []
          · simp [hpaths]
          · simp [hpaths]
      | collection name => rfl
      | assign name value => rfl
      | appendStage stage =>
          rw [perform, perform, appendStage, appendStage]
          cases hbase : isEnclosed '[' ']' first.base with
          | false => simp
          | true =>
              cases hstage : isEnclosed '{' '}' stage.trim with
              | false => simp
              | true => simp
      | renderText => simp [TemplateRequest.isRender] at hrender
      | renderDocuments => simp [TemplateRequest.isRender] at hrender

end IsAlike

/-! ## Renders -/

theorem isAlike_countValues (template : Template) : template.countValues.IsAlike template := by
  refine ⟨rfl, ?_⟩
  intro token
  have hreplaced : token ∈ template.countValues.replaced ↔ template.Covers token :=
    mem_replaced_rendered
  have hvalues : template.countValues.values = template.values := rfl
  rw [Covers, hreplaced, hvalues]
  exact or_iff_left_of_imp Or.inr

/-- A render that does not store the text leaves a template alike. -/
theorem isAlike_rendered {template : Template} (h : template.stores = false) :
    template.rendered.IsAlike template := by
  have hcached : (template.cached || (template.countValues.obstacle?.isNone &&
      !template.hasStages)) = template.cached := by
    rw [stores] at h
    cases hcached : template.cached with
    | true => rfl
    | false =>
        rw [hcached] at h
        rw [Bool.false_or, Bool.and_comm]
        simpa using h
  rw [rendered, hcached]
  exact isAlike_countValues template

/-- A render answers the same after another one, also when that has stored the text. -/
theorem perform_rendered_reply {request : TemplateRequest} (hrender : request.isRender = true)
    (template : Template) (cache other : Cache) :
    (template.rendered.perform request cache).1 = (template.perform request other).1 := by
  apply perform_reply_of_renderText hrender
  calc
    (template.rendered.renderText cache).1 = (template.countValues.renderText other).1 := by
      rw [renderText_eq, renderText_eq]
      rfl
    _ = (template.renderText other).1 := template.isAlike_countValues.renderText_eq other other

end Template
end CommandTemplate
