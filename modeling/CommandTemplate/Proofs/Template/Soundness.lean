import CommandTemplate.Proofs.Tag.Ends
import CommandTemplate.Proofs.Template.Calls

/-!
# Templates with simple tags

A template is sound when none of its tags has a second `<` and its sets have the tags of its stages.
Every call keeps it so.  In a sound template resolving a path expands the text and the stages by the
path, which is what makes runs of calls easy to describe.
-/

namespace CommandTemplate

open Text

namespace Template

/-- Whether a stage can be appended to a template. -/
def accepts (stage : Text) (template : Template) : Bool :=
  isEnclosed '[' ']' template.base && isEnclosed '{' '}' stage.trim

/-- The tags of a template are simple, and its sets have the tags of its stages. -/
structure IsSound (template : Template) : Prop where
  base_simple : template.base.HasSimpleTags
  stage_simple : ∀ stage ∈ template.stages, stage.HasSimpleTags
  stage_tags : ∀ stage ∈ template.stages, ∀ token ∈ stage.tokens, token ∈ template.stageTags
  goal_of_stage : ∀ token ∈ template.stageTags, token ∈ template.goal
  goal_plain : ∀ token ∈ template.goal, ∃ name, IsPlainName name ∧ token = tagToken name

/-! ## Single calls -/

section Fields

variable (template : Template) (path name value stage : Text)

@[simp] theorem resolve_cached : (template.resolve path).cached = template.cached := by
  simp only [resolve]
  split <;> split <;> rfl

@[simp] theorem resolve_goal : (template.resolve path).goal = template.goal := by
  simp only [resolve]
  split <;> split <;> rfl

@[simp] theorem resolve_stageTags : (template.resolve path).stageTags = template.stageTags := by
  simp only [resolve]
  split <;> split <;> rfl

@[simp] theorem resolve_values : (template.resolve path).values = template.values := by
  simp only [resolve]
  split <;> split <;> rfl

@[simp] theorem assign_base : (template.assign name value).base = template.base := by
  simp only [assign]
  split <;> rfl

@[simp] theorem assign_stages : (template.assign name value).stages = template.stages := by
  simp only [assign]
  split <;> rfl

@[simp] theorem assign_cached : (template.assign name value).cached = template.cached := by
  simp only [assign]
  split <;> rfl

@[simp] theorem assign_goal : (template.assign name value).goal = template.goal := by
  simp only [assign]
  split <;> rfl

@[simp] theorem assign_stageTags :
    (template.assign name value).stageTags = template.stageTags := by
  simp only [assign]
  split <;> rfl

@[simp] theorem assign_replaced : (template.assign name value).replaced = template.replaced := by
  simp only [assign]
  split <;> rfl

theorem appended_eq : template.appended stage =
    if template.accepts stage then
      { template with
        stages := template.stages ++ [stage.trim]
        goal := template.goal.scan stage.trim
        stageTags := template.stageTags.scan stage.trim }
    else template := by
  rw [appended, appendStage, accepts]
  cases hbase : isEnclosed '[' ']' template.base with
  | false => simp
  | true =>
      cases hstage : isEnclosed '{' '}' stage.trim with
      | false => simp
      | true => simp

@[simp] theorem appended_source : (template.appended stage).source = template.source := by
  rw [appended_eq]
  split <;> rfl

@[simp] theorem appended_key : (template.appended stage).key = template.key := by
  rw [appended_eq]
  split <;> rfl

@[simp] theorem appended_cached : (template.appended stage).cached = template.cached := by
  rw [appended_eq]
  split <;> rfl

@[simp] theorem appended_base : (template.appended stage).base = template.base := by
  rw [appended_eq]
  split <;> rfl

@[simp] theorem appended_replaced : (template.appended stage).replaced = template.replaced := by
  rw [appended_eq]
  split <;> rfl

@[simp] theorem appended_missing : (template.appended stage).missing = template.missing := by
  rw [appended_eq]
  split <;> rfl

@[simp] theorem appended_values : (template.appended stage).values = template.values := by
  rw [appended_eq]
  split <;> rfl

end Fields

theorem mem_missing_resolve {template : Template} {path token : Text} :
    token ∈ (template.resolve path).missing ↔
      token ∈ template.missing ∨
        (token = tagToken path ∧ template.cached = false ∧ tagToken path ∉ template.goal) := by
  simp only [resolve]
  cases hcached : template.cached with
  | true =>
      by_cases hstage : tagToken path ∈ template.stageTags
      · simp [hstage]
      · simp [hstage]
  | false =>
      by_cases hgoal : tagToken path ∈ template.goal
      · simp [hgoal]
      · simp [hgoal]

theorem mem_missing_assign {template : Template} {name value token : Text} :
    token ∈ (template.assign name value).missing ↔
      token ∈ template.missing ∨ (token = tagToken name ∧ tagToken name ∉ template.goal) := by
  simp only [assign]
  by_cases hgoal : tagToken name ∈ template.goal
  · simp [hgoal]
  · simp [hgoal]

theorem mem_replaced_resolve {template : Template} {path token : Text} :
    token ∈ (template.resolve path).replaced ↔
      token ∈ template.replaced ∨
        (token = tagToken path ∧
          tagToken path ∈ if template.cached then template.stageTags else template.goal) := by
  simp only [resolve]
  cases hcached : template.cached with
  | true =>
      by_cases hstage : tagToken path ∈ template.stageTags
      · simp [hstage]
      · simp [hstage]
  | false =>
      by_cases hgoal : tagToken path ∈ template.goal
      · simp [hgoal]
      · simp [hgoal]

theorem get?_values_assign {template : Template} {name value token : Text}
    (hgoal : tagToken name ∈ template.goal) :
    (template.assign name value).values.get? token =
      if token = tagToken name then some value else template.values.get? token := by
  simp only [assign, if_pos hgoal]
  exact RecencyMap.get?_put _ _ _ _

theorem mem_goal_scan {goal : TagSet} {text token : Text} :
    token ∈ goal.scan text ↔ token ∈ goal ∨ token ∈ text.tokens :=
  TagSet.mem_addAll

theorem mem_goalTags {base token : Text} :
    token ∈ goalTags base ↔ base.isEmptyArray = false ∧ token ∈ base.tokens := by
  rw [goalTags]
  cases base.isEmptyArray with
  | true => simp
  | false =>
      rw [if_neg (by simp), tags, mem_goal_scan]
      simp

theorem mem_replaced_rendered {template : Template} {token : Text} :
    token ∈ template.rendered.replaced ↔
      token ∈ template.replaced ∨ (template.values.get? token).isSome := by
  rw [← RecencyMap.mem_keys_iff]
  exact TagSet.mem_addAll

/-! ## Soundness -/

theorem IsSound.isPlainName {template : Template} (h : template.IsSound) {path : Text}
    (hgoal : tagToken path ∈ template.goal) : IsPlainName path := by
  obtain ⟨name, hname, heq⟩ := h.goal_plain _ hgoal
  rwa [tagToken_injective heq]

/-- A stage without the tag of a path is not changed by resolving the path. -/
theorem IsSound.expand_stage_eq_self {template : Template} (h : template.IsSound) {path : Text}
    (hpath : tagToken path ∉ template.stageTags) {stage : Text} (hstage : stage ∈ template.stages) :
    stage.expand [path] = stage := by
  apply expand_eq_self
  intro token htoken hname
  apply hpath
  rw [← List.mem_singleton.mp hname, (h.stage_simple stage hstage).tagToken_tagName htoken]
  exact h.stage_tags stage hstage token htoken

theorem IsSound.replaceInStages_eq {template : Template} (h : template.IsSound) {path : Text}
    (hpath : IsPlainName path) :
    replaceInStages (tagToken path) path template.stages =
      template.stages.map (expand [path]) := by
  apply List.map_congr_left
  intro stage hstage
  exact replaceAll_tagToken (h.stage_simple stage hstage) hpath

/-- Resolving a path replaces its tag in every stage, also when nothing seems to be done. -/
theorem IsSound.resolve_stages {template : Template} (h : template.IsSound) (path : Text) :
    (template.resolve path).stages = template.stages.map (expand [path]) := by
  have hnone : tagToken path ∉ template.stageTags →
      template.stages = template.stages.map (expand [path]) := by
    intro hstage
    refine (List.map_id _).symm.trans (List.map_congr_left ?_)
    intro stage hmem
    exact (h.expand_stage_eq_self hstage hmem).symm
  have hsome : tagToken path ∈ template.goal →
      replaceInStages (tagToken path) path template.stages =
        template.stages.map (expand [path]) :=
    fun hgoal => h.replaceInStages_eq (h.isPlainName hgoal)
  simp only [resolve]
  cases hcached : template.cached with
  | true =>
      by_cases hstage : tagToken path ∈ template.stageTags
      · simpa [hstage] using hsome (h.goal_of_stage _ hstage)
      · simpa [hstage] using hnone hstage
  | false =>
      by_cases hgoal : tagToken path ∈ template.goal
      · simpa [hgoal] using hsome hgoal
      · simpa [hgoal] using hnone fun hstage => hgoal (h.goal_of_stage _ hstage)

theorem IsSound.resolve_base {template : Template} (h : template.IsSound) {path : Text}
    (hcached : template.cached = false) (hgoal : tagToken path ∈ template.goal) :
    (template.resolve path).base = template.base.expand [path] := by
  simpa [resolve, hcached, hgoal] using replaceAll_tagToken h.base_simple (h.isPlainName hgoal)

theorem resolve_base_of_not_mem {template : Template} {path : Text}
    (h : template.cached = true ∨ tagToken path ∉ template.goal) :
    (template.resolve path).base = template.base := by
  simp only [resolve]
  cases hcached : template.cached with
  | true => by_cases hstage : tagToken path ∈ template.stageTags <;> simp [hstage]
  | false =>
      have hgoal : tagToken path ∉ template.goal := by simpa [hcached] using h
      simp [hgoal]

theorem IsSound.resolve {template : Template} (h : template.IsSound) (path : Text) :
    (template.resolve path).IsSound where
  base_simple := by
    by_cases hpath : template.cached = false ∧ tagToken path ∈ template.goal
    · rw [h.resolve_base hpath.1 hpath.2]
      exact h.base_simple.expand [path]
    · rw [resolve_base_of_not_mem (by simpa [or_iff_not_imp_left] using hpath)]
      exact h.base_simple
  stage_simple := by
    intro stage hstage
    rw [h.resolve_stages] at hstage
    obtain ⟨before, hbefore, rfl⟩ := List.mem_map.mp hstage
    exact (h.stage_simple before hbefore).expand [path]
  stage_tags := by
    intro stage hstage token htoken
    rw [h.resolve_stages] at hstage
    obtain ⟨before, hbefore, rfl⟩ := List.mem_map.mp hstage
    rw [resolve_stageTags]
    exact h.stage_tags before hbefore token
      ((mem_tokens_expand (h.stage_simple before hbefore)).mp htoken).1
  goal_of_stage := by simpa using h.goal_of_stage
  goal_plain := by simpa using h.goal_plain

theorem IsSound.appended {template : Template} (h : template.IsSound) {stage : Text}
    (hstage : template.accepts stage = true → stage.trim.HasSimpleTags) :
    (template.appended stage).IsSound := by
  rw [appended_eq]
  split
  · rename_i haccepts
    refine ⟨h.base_simple, ?_, ?_, ?_, ?_⟩
    · intro other hother
      rcases List.mem_append.mp hother with hother | hother
      · exact h.stage_simple other hother
      · rw [List.mem_singleton.mp hother]
        exact hstage haccepts
    · intro other hother token htoken
      rw [mem_goal_scan]
      rcases List.mem_append.mp hother with hother | hother
      · exact Or.inl (h.stage_tags other hother token htoken)
      · exact Or.inr (by rwa [List.mem_singleton.mp hother] at htoken)
    · intro token htoken
      rw [mem_goal_scan] at htoken ⊢
      exact htoken.imp_left (h.goal_of_stage token)
    · intro token htoken
      rw [mem_goal_scan] at htoken
      rcases htoken with htoken | htoken
      · exact h.goal_plain token htoken
      · exact (hstage haccepts).exists_name htoken
  · exact h

/-- A call keeps a template sound, as long as the stages that are appended have simple tags. -/
theorem IsSound.after {template : Template} (h : template.IsSound) {call : TemplateCall}
    (hcall : ∀ stage, call = .appendStage stage → template.accepts stage = true →
      stage.trim.HasSimpleTags) :
    (template.after call).IsSound := by
  cases call with
  | resolve path => exact h.resolve path
  | assign name value =>
      refine ⟨?_, ?_, ?_, ?_, ?_⟩
      · simpa using h.base_simple
      · simpa using h.stage_simple
      · simpa using h.stage_tags
      · simpa using h.goal_of_stage
      · simpa using h.goal_plain
  | appendStage stage => exact h.appended (hcall stage rfl)
  | render => exact ⟨h.base_simple, h.stage_simple, h.stage_tags, h.goal_of_stage, h.goal_plain⟩

theorem isSound_start {source base : Text} {key : UInt64} {cached : Bool}
    (hbase : base.HasSimpleTags) : (start source key cached base).IsSound where
  base_simple := hbase
  stage_simple := by simp [start]
  stage_tags := by simp [start]
  goal_of_stage := by simp [start]
  goal_plain := by
    intro token htoken
    have hgoal : token ∈ goalTags base := htoken
    exact hbase.exists_name (mem_goalTags.mp hgoal).2

end Template
end CommandTemplate
