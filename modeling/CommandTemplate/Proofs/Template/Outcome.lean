import CommandTemplate.Proofs.Template.Requests

/-!
# What a render answers

A tag is covered once it is replaced or has a value.  A render succeeds exactly when nothing is
missing and every tag of the goal is covered.  Tags are covered by requests that meet them and stay
covered; the other way round, what is covered was asked for.
-/

namespace CommandTemplate

open Text TemplateCall

namespace Template

/-- A tag is covered when it is replaced or has a value. -/
def Covers (template : Template) (token : Text) : Prop :=
  token ∈ template.replaced ∨ (template.values.get? token).isSome

instance (template : Template) (token : Text) : Decidable (template.Covers token) :=
  inferInstanceAs (Decidable (_ ∨ _))

/-- A call covers a tag that the template has: it resolves the path, or it assigns a value. -/
def Meets (template : Template) (token : Text) : TemplateCall → Prop
  | .resolve path =>
    token = tagToken path ∧
      tagToken path ∈ if template.cached then template.stageTags else template.goal
  | .assign name _ => token = tagToken name ∧ tagToken name ∈ template.goal
  | .appendStage _ => False
  | .render => False

/-! ## The answer of a render -/

theorem renderText_eq (template : Template) (cache : Cache) :
    (template.renderText cache).1 =
      match template.countValues.obstacle? with
      | some error => .error error
      | none => .ok template.filled := by
  simp only [renderText]
  cases template.countValues.obstacle? <;> rfl

theorem mem_unresolved_countValues {template : Template} {token : Text} :
    token ∈ template.countValues.unresolved ↔
      token ∈ template.goal ∧ ¬template.Covers token := by
  have hreplaced : token ∈ template.countValues.replaced ↔ template.Covers token :=
    mem_replaced_rendered
  rw [unresolved, TagSet.mem_filter, decide_eq_true_iff, hreplaced]
  rfl

theorem unresolved_countValues_eq (template : Template) :
    template.countValues.unresolved =
      template.goal.filter fun token => ¬template.Covers token := by
  refine TagSet.filter_congr fun token htoken => ?_
  have hreplaced : token ∈ template.countValues.replaced ↔ template.Covers token :=
    mem_replaced_rendered
  exact decide_eq_decide.mpr (not_congr hreplaced)

theorem obstacle?_countValues_of_missing {template : Template} {token : Text}
    (h : token ∈ template.missing) :
    template.countValues.obstacle? = some (.missingTags template.missing) := by
  have hmissing : template.countValues.missing.isEmpty = false := by
    rw [Bool.eq_false_iff, ne_eq, TagSet.isEmpty_iff]
    exact fun hnone => hnone token h
  rw [obstacle?, hmissing]
  rfl

theorem MissesNothing.isEmpty {template : Template} (h : template.MissesNothing) :
    template.countValues.missing.isEmpty = true :=
  TagSet.isEmpty_iff.mpr h

theorem MissesNothing.obstacle?_of_not_covers {template : Template} (h : template.MissesNothing)
    {token : Text} (hgoal : token ∈ template.goal) (htoken : ¬template.Covers token) :
    template.countValues.obstacle? = some (.unresolvedTags template.countValues.unresolved) := by
  have hunresolved : template.countValues.unresolved.isEmpty = false := by
    rw [Bool.eq_false_iff, ne_eq, TagSet.isEmpty_iff]
    exact fun hnone => hnone token (mem_unresolved_countValues.mpr ⟨hgoal, htoken⟩)
  rw [obstacle?, h.isEmpty, hunresolved]
  rfl

theorem obstacle?_countValues_eq_none_iff {template : Template} :
    template.countValues.obstacle? = none ↔
      template.MissesNothing ∧ ∀ token ∈ template.goal, template.Covers token := by
  constructor
  · intro hnone
    have hmissing : template.MissesNothing := by
      intro token htoken
      rw [obstacle?_countValues_of_missing htoken] at hnone
      simp at hnone
    refine ⟨hmissing, ?_⟩
    intro token hgoal
    by_contra htoken
    rw [hmissing.obstacle?_of_not_covers hgoal htoken] at hnone
    simp at hnone
  · rintro ⟨hmissing, hcovers⟩
    have hunresolved : template.countValues.unresolved.isEmpty = true := by
      rw [TagSet.isEmpty_iff]
      intro token htoken
      rw [mem_unresolved_countValues] at htoken
      exact htoken.2 (hcovers token htoken.1)
    rw [obstacle?, hmissing.isEmpty, hunresolved]
    rfl

/-- A render succeeds when nothing is missing and every tag is covered. -/
theorem renderText_eq_ok_iff {template : Template} {cache : Cache} {text : Text} :
    (template.renderText cache).1 = .ok text ↔
      template.MissesNothing ∧ (∀ token ∈ template.goal, template.Covers token) ∧
        template.filled = text := by
  rw [renderText_eq, ← and_assoc, ← obstacle?_countValues_eq_none_iff]
  cases hobstacle : template.countValues.obstacle? with
  | none => simp
  | some error => simp

/-- A render reports what is missing, else the tags that are not covered, and else gives a text. -/
theorem renderText_cases (template : Template) (cache : Cache) :
    (¬template.MissesNothing ∧
        (template.renderText cache).1 = .error (.missingTags template.missing)) ∨
      (template.MissesNothing ∧ (∃ token ∈ template.goal, ¬template.Covers token) ∧
        (template.renderText cache).1 = .error (.unresolvedTags template.countValues.unresolved)) ∨
      (template.MissesNothing ∧ (∀ token ∈ template.goal, template.Covers token) ∧
        (template.renderText cache).1 = .ok template.filled) := by
  by_cases hmissing : template.MissesNothing
  · by_cases hcovers : ∀ token ∈ template.goal, template.Covers token
    · exact Or.inr (Or.inr ⟨hmissing, hcovers, renderText_eq_ok_iff.mpr ⟨hmissing, hcovers, rfl⟩⟩)
    · simp only [not_forall] at hcovers
      obtain ⟨token, hgoal, htoken⟩ := hcovers
      refine Or.inr (Or.inl ⟨hmissing, ⟨token, hgoal, htoken⟩, ?_⟩)
      rw [renderText_eq, hmissing.obstacle?_of_not_covers hgoal htoken]
  · obtain ⟨token, htoken⟩ := not_forall_not.mp hmissing
    exact Or.inl ⟨hmissing, by rw [renderText_eq, obstacle?_countValues_of_missing htoken]⟩

theorem renderText_eq_missingTags_iff {template : Template} {cache : Cache} {missing : TagSet} :
    (template.renderText cache).1 = .error (.missingTags missing) ↔
      ¬template.MissesNothing ∧ template.missing = missing := by
  rcases template.renderText_cases cache with ⟨hmissing, h⟩ | ⟨hmissing, -, h⟩ | ⟨hmissing, -, h⟩ <;>
    simp [h, hmissing]

theorem renderText_eq_unresolvedTags_iff {template : Template} {cache : Cache} {gaps : TagSet} :
    (template.renderText cache).1 = .error (.unresolvedTags gaps) ↔
      template.MissesNothing ∧ (∃ token ∈ template.goal, ¬template.Covers token) ∧
        template.countValues.unresolved = gaps := by
  rcases template.renderText_cases cache with
    ⟨hmissing, h⟩ | ⟨hmissing, hopen, h⟩ | ⟨hmissing, hcovers, h⟩
  · simp [h, hmissing]
  · simp [h, hmissing, hopen]
  · have hclosed : ¬∃ token ∈ template.goal, ¬template.Covers token := by
      simpa using hcovers
    simp [h, hclosed]

/-! ## Tags that are covered -/

theorem isSome_values_after {call : TemplateCall} {template : Template} {token : Text}
    (h : (template.values.get? token).isSome) :
    ((template.after call).values.get? token).isSome := by
  cases call with
  | assign name value =>
      rw [after_assign, assign]
      split
      · rw [RecencyMap.get?_put]
        split
        · rfl
        · exact h
      · exact h
  | resolve path => simpa using h
  | appendStage stage => simpa using h
  | render => exact h

/-- What a call leaves covered was covered before, or the call meets it. -/
theorem covers_after_iff {call : TemplateCall} {template : Template} {token : Text} :
    (template.after call).Covers token ↔ template.Covers token ∨ template.Meets token call := by
  cases call with
  | resolve path =>
      rw [after_resolve, Covers, mem_replaced_resolve, resolve_values, Covers, Meets, or_right_comm]
  | assign name value =>
      rw [after_assign, Covers, assign_replaced, Covers, Meets, or_assoc]
      apply or_congr_right
      by_cases hgoal : tagToken name ∈ template.goal
      · rw [get?_values_assign hgoal]
        by_cases htoken : token = tagToken name
        · simp [htoken, hgoal]
        · simp [htoken]
      · simp [assign, hgoal]
  | appendStage stage =>
      rw [after_appendStage, Covers, appended_replaced, appended_values, Meets, or_false]
      rfl
  | render =>
      rw [after_render, Covers, mem_replaced_rendered, rendered_values, Covers, Meets, or_false,
        or_assoc, or_self]

theorem Covers.after {template : Template} {token : Text} (h : template.Covers token)
    (call : TemplateCall) : (template.after call).Covers token :=
  covers_after_iff.mpr (Or.inl h)

theorem Covers.run {template : Template} {token : Text} (h : template.Covers token)
    (calls : List TemplateCall) : (template.run calls).Covers token := by
  induction calls generalizing template with
  | nil => exact h
  | cons call calls ih => exact ih (h.after call)

theorem isSome_values_run {calls : List TemplateCall} {template : Template} {token : Text}
    (h : (template.values.get? token).isSome) :
    ((template.run calls).values.get? token).isSome := by
  induction calls generalizing template with
  | nil => exact h
  | cons call calls ih => exact ih (isSome_values_after h)

/-- A render that makes the template one of the cache finds every tag covered. -/
theorem covers_of_rendered_cached {template : Template} (hcached : template.cached = false)
    (h : template.rendered.cached = true) {token : Text} (hgoal : token ∈ template.goal) :
    template.Covers token := by
  simp only [rendered, hcached, Bool.false_or, Bool.and_eq_true, Option.isNone_iff_eq_none] at h
  exact (obstacle?_countValues_eq_none_iff.mp h.1).2 token hgoal

/-- A path that is resolved covers its tag.  In a template from the cache this needs a stage that
has the tag, unless the tag was covered when the template came there. -/
theorem covers_run_of_path {calls : List TemplateCall} {template : Template} {path : Text}
    (hmissing : (template.run calls).MissesNothing) (hpath : path ∈ paths calls)
    (hgoal : tagToken path ∈ template.goal)
    (hcached : template.cached = true →
      tagToken path ∈ template.stageTags ∨ template.Covers (tagToken path)) :
    (template.run calls).Covers (tagToken path) := by
  induction calls generalizing template with
  | nil => simp [paths] at hpath
  | cons call calls ih =>
      rw [run_cons] at hmissing ⊢
      rw [paths_cons, List.mem_append, Option.mem_toList] at hpath
      rcases hpath with hcall | hrest
      · apply Covers.run
        cases call with
        | resolve other =>
            obtain rfl := Option.some.inj hcall
            cases hown : template.cached with
            | false => exact Or.inl (mem_replaced_resolve.mpr (Or.inr ⟨rfl, by simpa [hown]⟩))
            | true =>
                rcases hcached hown with hstage | hcovers
                · exact Or.inl (mem_replaced_resolve.mpr (Or.inr ⟨rfl, by simpa [hown]⟩))
                · exact hcovers.after _
        | assign name value => simp [path?] at hcall
        | appendStage stage => simp [path?] at hcall
        | render => simp [path?] at hcall
      · refine ih hmissing hrest ?_ ?_
        · rw [after_goal, mem_foldl_scan]
          exact Or.inl hgoal
        · intro hafter
          cases hown : template.cached with
          | true =>
              rw [after_stageTags, mem_foldl_scan]
              exact (hcached hown).imp Or.inl fun hcovers => hcovers.after call
          | false =>
              -- The render that stored the text had found the tag covered.
              obtain rfl := eq_render_of_after_cached hown hafter
              exact Or.inr ((covers_of_rendered_cached hown hafter hgoal).after _)

theorem isSome_lastValue?_iff {calls : List TemplateCall} {token : Text} :
    (lastValue? token calls).isSome ↔ ∃ name ∈ names calls, tagToken name = token := by
  induction calls with
  | nil => simp [lastValue?, names]
  | cons call calls ih =>
      rw [lastValue?, Option.isSome_or, Bool.or_eq_true, ih, names_cons]
      cases call with
      | assign name value =>
          by_cases hname : tagToken name = token
          · simp [value?, name?, hname]
          · simp [value?, name?, hname]
      | resolve path => simp [value?, name?]
      | appendStage stage => simp [value?, name?]
      | render => simp [value?, name?]

/-! ## What was asked for -/

theorem mem_replaced_after {call : TemplateCall} {template : Template} {token : Text}
    (h : token ∈ (template.after call).replaced) :
    template.Covers token ∨ ∃ path, call.path? = some path ∧ token = tagToken path ∧
      (template.cached = true → token ∈ template.stageTags) := by
  cases call with
  | resolve path =>
      rcases mem_replaced_resolve.mp h with h | ⟨rfl, hmem⟩
      · exact Or.inl (Or.inl h)
      · refine Or.inr ⟨path, rfl, rfl, ?_⟩
        intro hcached
        simpa [hcached] using hmem
  | assign name value => exact Or.inl (Or.inl (by simpa using h))
  | appendStage stage => exact Or.inl (Or.inl (by simpa using h))
  | render => exact Or.inl (mem_replaced_rendered.mp h)

/-- A replaced tag without a value was replaced at the start, or its path was resolved; in a
template from the cache it is then a tag of a stage. -/
theorem mem_replaced_run {calls : List TemplateCall} {template : Template} {token : Text}
    (h : token ∈ (template.run calls).replaced) :
    token ∈ template.replaced ∨ ((template.run calls).values.get? token).isSome ∨
      ∃ path ∈ paths calls, token = tagToken path ∧
        (template.cached = true → token ∈ (template.run calls).stageTags) := by
  induction calls generalizing template with
  | nil => exact Or.inl h
  | cons call calls ih =>
      rw [run_cons] at h ⊢
      rcases ih h with hreplaced | hvalue | ⟨path, hpath, rfl, hstage⟩
      · rcases mem_replaced_after hreplaced with hcovers | ⟨path, hcall, rfl, hstage⟩
        · refine hcovers.imp id fun hvalue => Or.inl ?_
          exact isSome_values_run (isSome_values_after hvalue)
        · refine Or.inr (Or.inr ⟨path, ?_, rfl, ?_⟩)
          · rw [paths_cons, hcall]
            exact List.mem_cons_self
          · intro hcached
            rw [mem_stageTags_run, after_stageTags, mem_foldl_scan]
            exact Or.inl (Or.inl (hstage hcached))
      · exact Or.inr (Or.inl hvalue)
      · refine Or.inr (Or.inr ⟨path, ?_, rfl, ?_⟩)
        · rw [paths_cons]
          exact List.mem_append_right _ hpath
        · exact fun hcached => hstage (after_cached_of_cached hcached)

end Template
end CommandTemplate
