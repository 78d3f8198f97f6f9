import CommandTemplate.Proofs.Template.Run

/-!
# Requests that meet their tags

As long as nothing is missing, every request met its tag.  Then the text ends up with the tags of the
paths replaced that were resolved while the template was not in the cache, and the value of a tag is
the last one assigned to it, in any order of calls.
-/

namespace CommandTemplate

open Text

namespace Template

open TemplateCall

/-! ## Requests that meet no tag -/

theorem mem_missing_after {call : TemplateCall} {template : Template} {token : Text}
    (h : token ∈ template.missing) : token ∈ (template.after call).missing := by
  cases call with
  | resolve path => exact mem_missing_resolve.mpr (Or.inl h)
  | assign name value => exact mem_missing_assign.mpr (Or.inl h)
  | appendStage stage => simpa using h
  | render => exact h

theorem mem_missing_run {calls : List TemplateCall} {template : Template} {token : Text}
    (h : token ∈ template.missing) : token ∈ (template.run calls).missing := by
  induction calls generalizing template with
  | nil => exact h
  | cons call calls ih => exact ih (mem_missing_after h)

/-- Nothing was requested of a template that it does not contain. -/
def MissesNothing (template : Template) : Prop :=
  ∀ token, token ∉ template.missing

theorem MissesNothing.of_run {calls : List TemplateCall} {template : Template}
    (h : (template.run calls).MissesNothing) : template.MissesNothing :=
  fun token htoken => h token (mem_missing_run htoken)

theorem MissesNothing.goal_of_path {call : TemplateCall} {template : Template}
    (h : (template.after call).MissesNothing) (hcached : template.cached = false) {path : Text}
    (hpath : call.path? = some path) : tagToken path ∈ template.goal := by
  cases call with
  | resolve other =>
      obtain rfl := Option.some.inj hpath
      by_cases hgoal : tagToken other ∈ template.goal
      · exact hgoal
      · exact absurd (mem_missing_resolve.mpr (Or.inr ⟨rfl, hcached, hgoal⟩)) (h _)
  | assign name value => simp [path?] at hpath
  | appendStage stage => simp [path?] at hpath
  | render => simp [path?] at hpath

theorem MissesNothing.goal_of_name {call : TemplateCall} {template : Template}
    (h : (template.after call).MissesNothing) {name : Text} (hname : call.name? = some name) :
    tagToken name ∈ template.goal := by
  cases call with
  | assign other value =>
      obtain rfl := Option.some.inj hname
      by_cases hgoal : tagToken other ∈ template.goal
      · exact hgoal
      · exact absurd (mem_missing_assign.mpr (Or.inr ⟨rfl, hgoal⟩)) (h _)
  | resolve path => simp [name?] at hname
  | appendStage stage => simp [name?] at hname
  | render => simp [name?] at hname

section Requested

variable {calls : List TemplateCall} {template : Template}

theorem mem_goal_run_of_mem {token : Text} (h : token ∈ template.goal) :
    token ∈ (template.run calls).goal :=
  mem_goal_run.mpr (Or.inl h)

theorem mem_goal_of_mem_paths (hcached : (template.run calls).cached = false)
    (hmissing : (template.run calls).MissesNothing) {path : Text} (hpath : path ∈ paths calls) :
    tagToken path ∈ (template.run calls).goal := by
  induction calls generalizing template with
  | nil => simp [paths] at hpath
  | cons call calls ih =>
      rw [paths_cons, List.mem_append, Option.mem_toList] at hpath
      rcases hpath with hcall | hrest
      · rw [run_cons] at hmissing
        have hafter : (template.after call).MissesNothing := hmissing.of_run
        exact mem_goal_run_of_mem (hafter.goal_of_path (cached_of_run_cached hcached) hcall)
      · exact ih hcached hmissing hrest

theorem mem_goal_of_mem_names (hmissing : (template.run calls).MissesNothing) {name : Text}
    (hname : name ∈ names calls) : tagToken name ∈ (template.run calls).goal := by
  induction calls generalizing template with
  | nil => simp [names] at hname
  | cons call calls ih =>
      rw [names_cons, List.mem_append, Option.mem_toList] at hname
      rcases hname with hcall | hrest
      · rw [run_cons] at hmissing
        have hafter : (template.after call).MissesNothing := hmissing.of_run
        exact mem_goal_run_of_mem (hafter.goal_of_name hcall)
      · exact ih hmissing hrest

end Requested

/-- Nothing is missing when all that is requested is in the goal. -/
theorem missesNothing_run {calls : List TemplateCall} {template : Template}
    (h : template.MissesNothing)
    (hcalls : ∀ stage, .appendStage stage ∉ calls)
    (hpaths : template.cached = false → ∀ path ∈ paths calls, tagToken path ∈ template.goal)
    (hnames : ∀ name ∈ names calls, tagToken name ∈ template.goal) :
    (template.run calls).MissesNothing := by
  induction calls generalizing template with
  | nil => exact h
  | cons call calls ih =>
      obtain ⟨hcall, hrest⟩ := ne_appendStage_of_not_mem_cons hcalls
      rw [run_cons]
      refine ih ?_ hrest ?_ ?_
      · intro token htoken
        cases call with
        | resolve path =>
            rcases mem_missing_resolve.mp htoken with htoken | ⟨-, hcached, hgoal⟩
            · exact h token htoken
            · exact hgoal (hpaths hcached path (by simp [paths_cons, path?]))
        | assign name value =>
            rcases mem_missing_assign.mp htoken with htoken | ⟨-, hgoal⟩
            · exact h token htoken
            · exact hgoal (hnames name (by simp [names_cons, name?]))
        | appendStage stage => exact hcall stage rfl
        | render => exact h token htoken
      · intro hafter path hpath
        rw [after_goal_of_ne hcall]
        refine hpaths ?_ path (by rw [paths_cons]; exact List.mem_append_right _ hpath)
        have hrun : (template.run [call]).cached = false := hafter
        exact cached_of_run_cached hrun
      · intro name hname
        rw [after_goal_of_ne hcall]
        exact hnames name (by rw [names_cons]; exact List.mem_append_right _ hname)

/-! ## The text -/

theorem IsSound.after_base {template : Template} (h : template.IsSound) {call : TemplateCall}
    (hmissing : (template.after call).MissesNothing) :
    (template.after call).base =
      template.base.expand (if template.cached then [] else call.path?.toList) := by
  cases call with
  | resolve path =>
      rw [after_resolve]
      cases hcached : template.cached with
      | true => simpa using resolve_base_of_not_mem (Or.inl hcached)
      | false =>
          have hgoal := hmissing.goal_of_path hcached rfl
          simpa [path?] using h.resolve_base hcached hgoal
  | assign name value => simp [path?]
  | appendStage stage => simp [path?]
  | render => simp [path?]

/-- The text ends up with the tags of the paths expanded that were resolved while it was not in the
cache. -/
theorem IsSound.run_base {template : Template} (h : template.IsSound) {calls : List TemplateCall}
    (hcalls : SimpleStages calls template) (hmissing : (template.run calls).MissesNothing) :
    (template.run calls).base = template.base.expand (basePaths calls template) := by
  induction calls generalizing template with
  | nil => exact (expand_nil _).symm
  | cons call calls ih =>
      rw [run_cons] at hmissing ⊢
      rw [ih (h.after hcalls.head) hcalls.tail hmissing, h.after_base hmissing.of_run,
        expand_expand h.base_simple, basePaths]

/-! ## Values and replacements -/

theorem get?_values_after {call : TemplateCall} {template : Template}
    (hmissing : (template.after call).MissesNothing) (token : Text) :
    (template.after call).values.get? token =
      (call.value? token).or (template.values.get? token) := by
  cases call with
  | assign name value =>
      rw [after_assign, get?_values_assign (hmissing.goal_of_name rfl), value?]
      by_cases htoken : token = tagToken name
      · simp [htoken]
      · rw [if_neg htoken, if_neg (Ne.symm htoken), Option.none_or]
  | resolve path => simp [value?]
  | appendStage stage => simp [value?]
  | render => simp [value?]

/-- The value of a token is the last one that was assigned to it. -/
theorem get?_values_run {calls : List TemplateCall} {template : Template}
    (hmissing : (template.run calls).MissesNothing) (token : Text) :
    (template.run calls).values.get? token =
      (lastValue? token calls).or (template.values.get? token) := by
  induction calls generalizing template with
  | nil => rfl
  | cons call calls ih =>
      rw [run_cons] at hmissing ⊢
      rw [ih hmissing, get?_values_after hmissing.of_run, lastValue?, Option.or_assoc]

end Template
end CommandTemplate
