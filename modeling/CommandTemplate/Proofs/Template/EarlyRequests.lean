import CommandTemplate.Proofs.Template.Appending
import CommandTemplate.Proofs.Template.Requests
import CommandTemplate.Proofs.Template.Shape

/-!
# Requests in front of their stage

A tag that is requested of a template without it is remembered as missing.  It stays missing when a
stage that has the tag is appended afterwards, although it can be replaced from then on like any
other.  This is the only way in which a tag comes to be missing and replaced at once: it happens
neither to a tag of the text that the template starts from, nor when all stages are appended before
anything else is done.
-/

namespace CommandTemplate

open Text

namespace TemplateCall

/-- Calls replace a tag that a template has: they resolve its path, or they assign a value to it and
render the value later. -/
def Replaces (name : Text) (calls : List TemplateCall) : Prop :=
  name ∈ paths calls ∨ ∃ value, [.assign name value, .render].Sublist calls

end TemplateCall

namespace Template

open TemplateCall

/-- Calls ask a template for a tag, by a path while the text is its own, or by assigning a value. -/
def IsAskedFor (name : Text) (calls : List TemplateCall) (template : Template) : Prop :=
  name ∈ basePaths calls template ∨ name ∈ names calls

/-- The stage after the calls is the first text of a template that has a tag. -/
structure IsBrought (name stage : Text) (calls : List TemplateCall) (template : Template) :
    Prop where
  absent : tagToken name ∉ (template.run calls).goal
  accepted : (template.run calls).accepts stage = true
  present : tagToken name ∈ stage.tokens

/-- Calls ask for a tag in front of the stage that brings it, and replace it behind that stage. -/
def IsAskedEarly (name : Text) (calls : List TemplateCall) (template : Template) : Prop :=
  ∃ front stage back, calls = front ++ .appendStage stage :: back ∧
    template.IsBrought name stage front ∧ template.IsAskedFor name front ∧ Replaces name back

/-! ## The stage that brings a tag -/

section Stage

variable {calls : List TemplateCall} {template : Template} {token : Text}

theorem accepts_of_mem_goal_after {call : TemplateCall} (hnew : token ∉ template.goal)
    (h : token ∈ (template.after call).goal) :
    ∃ stage, call = .appendStage stage ∧ template.accepts stage = true ∧
      token ∈ stage.tokens := by
  rw [after_goal, mem_foldl_scan] at h
  obtain ⟨trimmed, hstage, htoken⟩ := h.resolve_left hnew
  rw [Option.mem_toList] at hstage
  obtain ⟨hbase, htrimmed⟩ := accepts_of_stageOf? hstage
  obtain ⟨stage, rfl, rfl⟩ := trim_of_stageOf? hstage
  refine ⟨stage, rfl, ?_, by rwa [tokens_trim] at htoken⟩
  rw [accepts, hbase, htrimmed, Bool.and_self]

/-- A tag that comes into the goal is brought by a stage. -/
theorem exists_isBrought (hnew : token ∉ template.goal) (h : token ∈ (template.run calls).goal) :
    ∃ name front stage back, token = tagToken name ∧ calls = front ++ .appendStage stage :: back ∧
      template.IsBrought name stage front := by
  induction calls generalizing template with
  | nil => exact absurd h hnew
  | cons call calls ih =>
      by_cases hafter : token ∈ (template.after call).goal
      · obtain ⟨stage, rfl, haccepts, htoken⟩ := accepts_of_mem_goal_after hnew hafter
        obtain ⟨name, -, rfl⟩ := exists_name_of_mem_tokens htoken
        exact ⟨name, [], stage, calls, rfl, rfl, hnew, haccepts, htoken⟩
      · obtain ⟨name, front, stage, back, rfl, rfl, hbrought⟩ := ih hafter h
        exact ⟨name, call :: front, stage, back, rfl, rfl, hbrought.absent, hbrought.accepted,
          hbrought.present⟩

theorem IsBrought.mem_goal {name stage : Text} (h : template.IsBrought name stage calls) :
    tagToken name ∈ ((template.run calls).appended stage).goal := by
  rw [appended_eq, if_pos h.accepted]
  exact mem_goal_scan.mpr (Or.inr (by simpa using h.present))

theorem IsBrought.mem_stageTags {name stage : Text} (h : template.IsBrought name stage calls) :
    tagToken name ∈ ((template.run calls).appended stage).stageTags := by
  rw [appended_eq, if_pos h.accepted]
  exact mem_goal_scan.mpr (Or.inr (by simpa using h.present))

end Stage

/-! ## Tags that stay missing -/

section Missing

variable {calls : List TemplateCall} {template : Template} {name : Text}

theorem isAskedFor_cons (call : TemplateCall) (calls : List TemplateCall) :
    template.IsAskedFor name (call :: calls) ↔
      template.IsAskedFor name [call] ∨ (template.after call).IsAskedFor name calls := by
  have hbase : basePaths [call] template = if template.cached then [] else call.path?.toList := by
    rw [basePaths, basePaths, List.append_nil]
  have hname : names [call] = call.name?.toList := by
    rw [names_cons, names, List.filterMap_nil, List.append_nil]
  rw [IsAskedFor, IsAskedFor, IsAskedFor, hbase, hname, basePaths, names_cons, List.mem_append,
    List.mem_append, or_or_or_comm]

theorem mem_missing_after_iff {call : TemplateCall} {token : Text} :
    token ∈ (template.after call).missing ↔
      token ∈ template.missing ∨
        (token ∉ template.goal ∧
          ∃ name, token = tagToken name ∧ template.IsAskedFor name [call]) := by
  cases call with
  | resolve path =>
      have hasked (name : Text) : template.IsAskedFor name [.resolve path] ↔
          name = path ∧ template.cached = false := by
        cases hcached : template.cached <;> simp [IsAskedFor, basePaths, names, path?, name?, hcached]
      rw [after_resolve, mem_missing_resolve]
      simp only [hasked]
      constructor
      · rintro (h | ⟨rfl, hcached, hgoal⟩)
        · exact Or.inl h
        · exact Or.inr ⟨hgoal, path, rfl, rfl, hcached⟩
      · rintro (h | ⟨hgoal, name, rfl, rfl, hcached⟩)
        · exact Or.inl h
        · exact Or.inr ⟨rfl, hcached, hgoal⟩
  | assign other value =>
      have hasked (name : Text) : template.IsAskedFor name [.assign other value] ↔
          name = other := by
        simp [IsAskedFor, basePaths, names, path?, name?]
      rw [after_assign, mem_missing_assign]
      simp only [hasked]
      constructor
      · rintro (h | ⟨rfl, hgoal⟩)
        · exact Or.inl h
        · exact Or.inr ⟨hgoal, other, rfl, rfl⟩
      · rintro (h | ⟨hgoal, name, rfl, rfl⟩)
        · exact Or.inl h
        · exact Or.inr ⟨rfl, hgoal⟩
  | appendStage stage => simp [IsAskedFor, basePaths, names, path?, name?]
  | render => simp [IsAskedFor, basePaths, names, path?, name?]

/-- Nothing that is asked for makes a tag of the goal missing. -/
theorem mem_missing_run_of_mem_goal {token : Text} (h : token ∈ template.goal) :
    token ∈ (template.run calls).missing ↔ token ∈ template.missing := by
  induction calls generalizing template with
  | nil => rfl
  | cons call calls ih =>
      rw [run_cons, ih (mem_goal_after h call), mem_missing_after_iff]
      exact or_iff_left fun hnew => hnew.1 h

theorem exists_tagToken_eq_and_iff {holds : Text → Prop} :
    (∃ other, tagToken name = tagToken other ∧ holds other) ↔ holds name := by
  constructor
  · rintro ⟨other, heq, hother⟩
    obtain rfl := tagToken_injective heq
    exact hother
  · exact fun h => ⟨name, rfl, h⟩

/-- What is asked for without coming into the goal is missing. -/
theorem mem_missing_run_of_not_mem_goal (h : tagToken name ∉ (template.run calls).goal) :
    tagToken name ∈ (template.run calls).missing ↔
      tagToken name ∈ template.missing ∨ template.IsAskedFor name calls := by
  induction calls generalizing template with
  | nil => simp [IsAskedFor, basePaths, names]
  | cons call calls ih =>
      have hgoal : tagToken name ∉ template.goal :=
        fun hmem => h (mem_goal_run_of_mem hmem)
      rw [run_cons, ih h, mem_missing_after_iff, and_iff_right hgoal, exists_tagToken_eq_and_iff,
        isAskedFor_cons call calls, or_assoc]

theorem IsBrought.mem_missing_iff {stage : Text} {front back : List TemplateCall}
    (h : template.IsBrought name stage front) (hmissing : tagToken name ∉ template.missing) :
    tagToken name ∈ (template.run (front ++ .appendStage stage :: back)).missing ↔
      template.IsAskedFor name front := by
  rw [run_append, run_cons, after_appendStage, mem_missing_run_of_mem_goal h.mem_goal,
    appended_missing, mem_missing_run_of_not_mem_goal h.absent, or_iff_right hmissing]

end Missing

/-! ## Tags that are replaced -/

section Replaced

variable {calls : List TemplateCall} {template : Template} {name : Text}

theorem replaces_cons {call : TemplateCall} :
    Replaces name (call :: calls) ↔
      call.path? = some name ∨ (call.name? = some name ∧ .render ∈ calls) ∨
        Replaces name calls := by
  have hassign : (∃ value, [.assign name value, .render].Sublist (call :: calls)) ↔
      (call.name? = some name ∧ .render ∈ calls) ∨
        ∃ value, [.assign name value, .render].Sublist calls := by
    simp only [List.sublist_cons_iff, List.cons.injEq, exists_or]
    rw [or_comm]
    apply or_congr_left
    constructor
    · rintro ⟨value, rest, ⟨rfl, rfl⟩, hrest⟩
      exact ⟨rfl, List.singleton_sublist.mp hrest⟩
    · rintro ⟨hname, hrender⟩
      cases call with
      | assign other value =>
          obtain rfl := Option.some.inj hname
          exact ⟨value, [.render], ⟨rfl, rfl⟩, List.singleton_sublist.mpr hrender⟩
      | resolve path => simp [name?] at hname
      | appendStage stage => simp [name?] at hname
      | render => simp [name?] at hname
  rw [Replaces, hassign, paths_cons, List.mem_append, Option.mem_toList, Replaces, or_assoc]
  exact or_congr_right or_left_comm

theorem mem_replaced_after_iff (hgoal : tagToken name ∈ template.goal)
    (hstage : tagToken name ∈ template.stageTags) {call : TemplateCall} :
    tagToken name ∈ (template.after call).replaced ↔
      tagToken name ∈ template.replaced ∨ call.path? = some name ∨
        (call = .render ∧ (template.values.get? (tagToken name)).isSome) := by
  cases call with
  | resolve path =>
      rw [after_resolve, mem_replaced_resolve]
      simp only [path?, Option.some.injEq, reduceCtorEq, false_and, or_false]
      apply or_congr_right
      constructor
      · rintro ⟨heq, -⟩
        exact (tagToken_injective heq).symm
      · rintro rfl
        refine ⟨rfl, ?_⟩
        split
        · exact hstage
        · exact hgoal
  | assign other value => simp [path?]
  | appendStage stage => simp [path?]
  | render => simp [path?, mem_replaced_rendered]

theorem isSome_values_after_iff (hgoal : tagToken name ∈ template.goal) {call : TemplateCall} :
    ((template.after call).values.get? (tagToken name)).isSome ↔
      (template.values.get? (tagToken name)).isSome ∨ call.name? = some name := by
  cases call with
  | resolve path => simp [name?]
  | assign other value =>
      rw [after_assign, name?, Option.some.injEq]
      by_cases hother : other = name
      · subst hother
        simp [get?_values_assign hgoal]
      · have hne : tagToken name ≠ tagToken other :=
          fun heq => hother (tagToken_injective heq).symm
        have hsame : (template.assign other value).values.get? (tagToken name) =
            template.values.get? (tagToken name) := by
          rw [assign]
          split
          · rw [RecencyMap.get?_put, if_neg hne]
          · rfl
        simp [hsame, hother]
  | appendStage stage => simp [name?]
  | render => simp [name?]

/-- A tag of a stage is replaced by the calls that resolve its path and by the renders of its
value. -/
theorem mem_replaced_run_iff (hgoal : tagToken name ∈ template.goal)
    (hstage : tagToken name ∈ template.stageTags) :
    tagToken name ∈ (template.run calls).replaced ↔
      tagToken name ∈ template.replaced ∨
        ((template.values.get? (tagToken name)).isSome ∧ .render ∈ calls) ∨
          Replaces name calls := by
  induction calls generalizing template with
  | nil => simp [Replaces, paths]
  | cons call calls ih =>
      have hstage' : tagToken name ∈ (template.after call).stageTags := by
        rw [after_stageTags, mem_foldl_scan]
        exact Or.inl hstage
      rw [run_cons, ih (mem_goal_after hgoal call) hstage', mem_replaced_after_iff hgoal hstage,
        isSome_values_after_iff hgoal, replaces_cons, List.mem_cons]
      grind

theorem IsBrought.mem_replaced_iff {stage : Text} {front back : List TemplateCall}
    (h : template.IsBrought name stage front) (hshape : template.IsWellFormed) :
    tagToken name ∈ (template.run (front ++ .appendStage stage :: back)).replaced ↔
      Replaces name back := by
  have hfront := hshape.run front
  have hreplaced : tagToken name ∉ (template.run front).replaced :=
    fun hmem => h.absent (hfront.goal_of_replaced _ hmem)
  have hvalue : ¬((template.run front).values.get? (tagToken name)).isSome :=
    fun hsome => h.absent (hfront.goal_of_value _ (RecencyMap.mem_keys_iff.mpr hsome))
  rw [run_append, run_cons, after_appendStage, mem_replaced_run_iff h.mem_goal h.mem_stageTags,
    appended_replaced, appended_values]
  simp only [hreplaced, hvalue, Bool.false_eq_true, false_and, false_or]

end Replaced

/-! ## Tags that are missing and replaced -/

/-- A tag becomes missing and replaced when it is asked for too early, and in no other way. -/
theorem mem_replaced_and_missing_iff {template : Template} (hshape : template.IsWellFormed)
    (hmissing : template.MissesNothing) {calls : List TemplateCall} {token : Text} :
    token ∈ (template.run calls).replaced ∧ token ∈ (template.run calls).missing ↔
      ∃ name, token = tagToken name ∧ template.IsAskedEarly name calls := by
  constructor
  · -- What is replaced is in the goal, so a stage has brought it there unless it was there before.
    rintro ⟨hreplaced, hmiss⟩
    have hgoal := (hshape.run calls).goal_of_replaced token hreplaced
    by_cases hold : token ∈ template.goal
    · exact absurd ((mem_missing_run_of_mem_goal hold).mp hmiss) (hmissing token)
    · obtain ⟨name, front, stage, back, rfl, rfl, hbrought⟩ := exists_isBrought hold hgoal
      exact ⟨name, rfl, front, stage, back, rfl, hbrought,
        (hbrought.mem_missing_iff (hmissing _)).mp hmiss,
        (hbrought.mem_replaced_iff hshape).mp hreplaced⟩
  · rintro ⟨name, rfl, front, stage, back, rfl, hbrought, hasked, hreplaces⟩
    exact ⟨(hbrought.mem_replaced_iff hshape).mpr hreplaces,
      (hbrought.mem_missing_iff (hmissing _)).mpr hasked⟩

theorem mem_paths_of_mem_basePaths {calls : List TemplateCall} {template : Template} {path : Text}
    (h : path ∈ basePaths calls template) : path ∈ paths calls := by
  induction calls generalizing template with
  | nil => simp [basePaths] at h
  | cons call calls ih =>
      rw [basePaths, List.mem_append] at h
      rw [paths_cons, List.mem_append]
      rcases h with hcall | hrest
      · left
        split at hcall
        · simp at hcall
        · exact hcall
      · exact Or.inr (ih hrest)

/-- Nothing is asked for early when the stages are appended first. -/
theorem not_isAskedEarly_of_appendsFirst {template : Template} {calls : List TemplateCall}
    (h : AppendsFirst calls) (name : Text) : ¬template.IsAskedEarly name calls := by
  rintro ⟨front, stage, back, rfl, -, hasked, -⟩
  have hfront : ∀ call ∈ front, call.isAppend = true := by
    intro call hcall
    exact (List.pairwise_append.mp h).2.2 call hcall _ List.mem_cons_self rfl
  rcases hasked with hpath | hname
  · have hpaths := mem_paths_of_mem_basePaths hpath
    rw [paths_eq_nil_of_isAppend hfront] at hpaths
    simp at hpaths
  · rw [names_eq_nil_of_isAppend hfront] at hname
    simp at hname

theorem missesNothing_of_create {sourceKey : SourceKey} {source : Text} {cache after : Cache}
    {made : Template} (h : create sourceKey source cache = (.ok made, after)) :
    made.MissesNothing := by
  rcases create_cases h with ⟨expanded, -, rfl⟩ | ⟨-, -, rfl⟩
  · exact fun token => TagSet.not_mem_empty token
  · exact fun token => TagSet.not_mem_empty token

/-- A tag is missing and replaced at once when it was asked for in front of the stage that brings it
and replaced behind that stage.  No tag that a template starts with is, and no tag at all when the
stages are appended before anything else is done. -/
theorem replaced_and_missing_iff {sourceKey : SourceKey} {source : Text} {cache after : Cache}
    {made : Template} (hmade : create sourceKey source cache = (.ok made, after))
    (requests : List TemplateRequest) :
    let calls := requests.flatMap TemplateRequest.calls
    let last := (made.performAll requests after).2.1
    (∀ token, token ∈ last.replaced ∧ token ∈ last.missing ↔
        ∃ name, token = tagToken name ∧ made.IsAskedEarly name calls) ∧
      (∀ token ∈ made.goal, token ∉ last.missing) ∧
        (AppendsFirst calls → ∀ token ∈ last.replaced, token ∉ last.missing) := by
  intro calls last
  have hrun : last = made.run calls := performAll_template requests made after
  have hshape := isWellFormed_of_create hmade
  have hmissing : made.MissesNothing := missesNothing_of_create hmade
  have hboth (token : Text) : token ∈ last.replaced ∧ token ∈ last.missing ↔
      ∃ name, token = tagToken name ∧ made.IsAskedEarly name calls := by
    rw [hrun]
    exact mem_replaced_and_missing_iff hshape hmissing
  refine ⟨hboth, ?_, ?_⟩
  · intro token hgoal
    rw [hrun, mem_missing_run_of_mem_goal hgoal]
    exact hmissing token
  · intro hfirst token hreplaced hmiss
    obtain ⟨name, -, hearly⟩ := (hboth token).mp ⟨hreplaced, hmiss⟩
    exact not_isAskedEarly_of_appendsFirst hfirst name hearly

/-- A value that is assigned before the stage with its tag comes, and again after that, leaves the tag
both missing and replaced. -/
theorem replaced_and_missing_value :
    let source : Text := "[<A>]".toList
    let made := start source 0 false source
    let requests : List TemplateRequest :=
      [.assign ['B'] ['1'], .appendStage "{<B>}".toList, .assign ['B'] ['2'],
        .assign ['A'] ['3'], .renderText]
    let last := (made.performAll requests .unbounded).2.1
    create (fun _ => 0) source .unbounded = (.ok made, .unbounded) ∧
      "<B>".toList ∈ last.goal ∧ "<B>".toList ∈ last.replaced ∧ "<B>".toList ∈ last.missing := by
  intro source made requests last
  have hmade : create (fun _ => 0) source .unbounded = (.ok made, .unbounded) := by
    decide +kernel
  have hearly : made.IsAskedEarly ['B'] (requests.flatMap TemplateRequest.calls) := by
    refine ⟨[.assign ['B'] ['1']], "{<B>}".toList,
      [.assign ['B'] ['2'], .assign ['A'] ['3'], .render], rfl, ⟨?_, ?_, ?_⟩, ?_, ?_⟩
    · decide +kernel
    · decide +kernel
    · decide +kernel
    · exact Or.inr (by decide)
    · exact Or.inr ⟨['2'], by decide⟩
  obtain ⟨hboth, -, -⟩ := replaced_and_missing_iff hmade requests
  have htoken : "<B>".toList ∈ last.replaced ∧ "<B>".toList ∈ last.missing :=
    (hboth "<B>".toList).mpr ⟨['B'], by decide, hearly⟩
  exact ⟨hmade, by decide +kernel, htoken⟩

end Template
end CommandTemplate
