import CommandTemplate.Proofs.Compile.Repetition
import CommandTemplate.Proofs.Template.OnePass

/-!
# Default values

A default value is assigned like any other, but only to a tag that the template contains, and before
the values of the request proper.  It counts only for a tag that would be left open without it: a tag
that the request gives a value has this value afterwards, and a tag that was replaced in the text is
no longer there when the values are put in.  A text from the cache stays as it is when paths are
resolved, so that a tag that is still in it is open, whether its path is resolved or not.
-/

namespace CommandTemplate

open Text Template TemplateCall

/-- Whether a list of values has one for a token. -/
def NamesTag (tags : List (Text × Text)) (token : Text) : Prop :=
  ∃ tag ∈ tags, tagToken tag.1 = token

instance (tags : List (Text × Text)) (token : Text) : Decidable (NamesTag tags token) :=
  inferInstanceAs (Decidable (∃ tag ∈ tags, _))

namespace Template

variable {first second : Template}

/-! ## Templates that differ in values only -/

/-- The template without the values of its tags. -/
def withoutValues (template : Template) : Template :=
  { template with values := ∅ }

theorem withoutValues_after {call : TemplateCall} (hcall : call ≠ .render)
    (template : Template) :
    (template.after call).withoutValues = (template.withoutValues.after call).withoutValues := by
  cases call with
  | resolve path =>
      simp only [after_resolve, resolve, withoutValues]
      split
      · split <;> rfl
      · split <;> rfl
  | assign name value =>
      simp only [after_assign, assign, withoutValues]
      split <;> rfl
  | appendStage stage =>
      have haccepts : template.withoutValues.accepts stage = template.accepts stage := rfl
      rw [after_appendStage, after_appendStage, appended_eq, appended_eq, haccepts]
      split <;> rfl
  | render => exact absurd rfl hcall

/-- Calls other than renders treat templates alike that differ in values only. -/
theorem withoutValues_run {calls : List TemplateCall} (hcalls : .render ∉ calls)
    (h : first.withoutValues = second.withoutValues) :
    (first.run calls).withoutValues = (second.run calls).withoutValues := by
  induction calls generalizing first second with
  | nil => exact h
  | cons call calls ih =>
      rw [List.mem_cons, not_or] at hcalls
      refine ih hcalls.2 ?_
      rw [withoutValues_after (Ne.symm hcalls.1), h, ← withoutValues_after (Ne.symm hcalls.1)]

/-- Values for tags of the goal change nothing but the values. -/
theorem withoutValues_run_ofTag {tags : List (Text × Text)} {template : Template}
    (htags : ∀ tag ∈ tags, tagToken tag.1 ∈ template.goal) :
    (template.run (tags.map ofTag)).withoutValues = template.withoutValues := by
  induction tags generalizing template with
  | nil => rfl
  | cons tag tags ih =>
      rw [List.forall_mem_cons] at htags
      have hassign : template.after (ofTag tag) =
          { template with values := template.values.put (tagToken tag.1) tag.2 } := by
        rw [ofTag, after_assign, assign, if_pos htags.1]
      rw [List.map_cons, run_cons, ih (by rw [hassign]; exact htags.2), hassign]
      rfl

theorem MissesNothing.congr (hmissing : first.MissesNothing)
    (h : first.withoutValues = second.withoutValues) : second.MissesNothing := by
  have hsame : first.missing = second.missing := (congrArg Template.missing h :)
  rw [MissesNothing, ← hsame]
  exact hmissing

theorem covers_iff_or {token : Text} {named : Prop} (h : first.withoutValues = second.withoutValues)
    (hvalue : (first.values.get? token).isSome ↔ (second.values.get? token).isSome ∨ named) :
    first.Covers token ↔ second.Covers token ∨ named := by
  have hreplaced : first.replaced = second.replaced := (congrArg Template.replaced h :)
  rw [Covers, Covers, hreplaced, hvalue, or_assoc]

/-- Templates that differ in values only, cover the same tags and put the same values into their text
give the same answer. -/
theorem renderText_congr (h : first.withoutValues = second.withoutValues)
    (hcovers : ∀ token ∈ first.goal, first.Covers token ↔ second.Covers token)
    (hvalues : ∀ token ∈ first.compose.tokens,
      first.values.get? token = second.values.get? token) (cache : Cache) :
    (first.renderText cache).1 = (second.renderText cache).1 := by
  have hgoal : first.goal = second.goal := (congrArg Template.goal h :)
  have hmissing : first.missing = second.missing := (congrArg Template.missing h :)
  have hcompose : first.compose = second.compose := by
    have hbase : first.base = second.base := (congrArg Template.base h :)
    have hstages : first.stages = second.stages := (congrArg Template.stages h :)
    rw [compose, compose, hbase, hstages]
  have hunresolved : first.countValues.unresolved = second.countValues.unresolved := by
    rw [unresolved_countValues_eq, unresolved_countValues_eq, ← hgoal]
    exact TagSet.filter_congr fun token htoken =>
      decide_eq_decide.mpr (not_congr (hcovers token htoken))
  have hobstacle : first.countValues.obstacle? = second.countValues.obstacle? := by
    have hcounted : first.countValues.missing = second.countValues.missing := hmissing
    rw [obstacle?, obstacle?, hunresolved, hcounted]
  rw [renderText_eq, renderText_eq, hobstacle, filled, filled, ← hcompose,
    substitute_congr hvalues]

/-- A template before any request: one of the trimmed source, or of a text from the cache. -/
def StartsFrom (source : Text) (made : Template) : Prop :=
  ∃ key cached text, made = start source key cached text ∧ (cached = false → text = source.trim)

theorem startsFrom_of_create {sourceKey : SourceKey} {source : Text} {cache after : Cache}
    {made : Template} (h : create sourceKey source cache = (.ok made, after)) :
    made.StartsFrom source := by
  rcases create_cases h with ⟨expanded, -, rfl⟩ | ⟨-, -, rfl⟩
  · exact ⟨_, true, expanded, rfl, fun h => nomatch h⟩
  · exact ⟨_, false, source.trim, rfl, fun _ => rfl⟩

end Template

/-! ## Requests with default values -/

namespace CompileRequest

/-- The request without default values. -/
def withoutDefaults (request : CompileRequest) : CompileRequest :=
  { request with defaultTags := [] }

/-- The request with its default values for the given tokens as plain values behind the others. -/
def withGapsFilled (request : CompileRequest) (gaps : TagSet) : CompileRequest :=
  { request with
    defaultTags := []
    tags := request.tags ++ request.defaultTags.filter fun tag => tagToken tag.1 ∈ gaps }

variable {request : CompileRequest} {goal gaps : TagSet} {token : Text}

/-! ### Values -/

theorem isSome_lastValue?_ofTag {tags : List (Text × Text)} :
    (lastValue? token (tags.map ofTag)).isSome ↔ NamesTag tags token := by
  rw [isSome_lastValue?_iff, names_map_ofTag]
  simp [NamesTag]

theorem lastValue?_ofTag_eq_none {tags : List (Text × Text)} (h : ¬NamesTag tags token) :
    lastValue? token (tags.map ofTag) = none :=
  Option.not_isSome_iff_eq_none.mp (mt isSome_lastValue?_ofTag.mp h)

theorem namesTag_filter (htoken : token ∈ goal) (tags : List (Text × Text)) :
    NamesTag (tags.filter fun tag => tagToken tag.1 ∈ goal) token ↔ NamesTag tags token := by
  constructor
  · rintro ⟨tag, htag, rfl⟩
    exact ⟨tag, (List.mem_filter.mp htag).1, rfl⟩
  · rintro ⟨tag, htag, rfl⟩
    exact ⟨tag, List.mem_filter.mpr ⟨htag, decide_eq_true htoken⟩, rfl⟩

theorem not_namesTag_filter (htoken : token ∉ goal) (tags : List (Text × Text)) :
    ¬NamesTag (tags.filter fun tag => tagToken tag.1 ∈ goal) token := by
  rintro ⟨tag, htag, rfl⟩
  exact htoken (of_decide_eq_true (List.mem_filter.mp htag).2)

/-- The value of a tag is the last one of the request proper, or else the last default. -/
theorem lastValue?_callsFor_eq (token : Text) :
    lastValue? token (request.callsFor goal) =
      (lastValue? token (request.tags.map ofTag)).or
        (lastValue? token
          ((request.defaultTags.filter fun tag => tagToken tag.1 ∈ goal).map ofTag)) := by
  have hresolve : lastValue? token (request.resolved.map .resolve) = none := by
    rw [← Option.not_isSome_iff_eq_none, isSome_lastValue?_iff, names_map_resolve]
    simp
  rw [callsFor, lastValue?_append, lastValue?_append, hresolve, Option.or_none]

/-! ### Requests of a template -/

theorem goal_fill (made : Template) (request : CompileRequest) :
    (made.fill request).goal = made.goal := by
  rw [fill_eq_run, goal_run_callsFor]

/-- Default values change nothing but values. -/
theorem withoutValues_fill (made : Template) (request : CompileRequest) :
    (made.fill request).withoutValues = (made.fill request.withoutDefaults).withoutValues := by
  rw [fill_eq_run, fill_eq_run, callsFor, callsFor, run_append, run_append, run_append, run_append]
  refine withoutValues_run (by simp [ofTag]) (withoutValues_run_ofTag fun tag htag => ?_)
  rw [run_goal_of_not_mem (by simp)]
  exact of_decide_eq_true (List.mem_filter.mp htag).2

theorem withoutValues_fill_withGapsFilled {made : Template} (request : CompileRequest)
    (hgaps : ∀ token ∈ gaps, token ∈ made.goal) :
    (made.fill (request.withGapsFilled gaps)).withoutValues =
      (made.fill request.withoutDefaults).withoutValues := by
  have hcalls : (request.withGapsFilled gaps).callsFor made.goal =
      request.withoutDefaults.callsFor made.goal ++
        (request.defaultTags.filter fun tag => tagToken tag.1 ∈ gaps).map ofTag := by
    simp [callsFor, withGapsFilled, withoutDefaults, resolved]
  rw [fill_eq_run, fill_eq_run, hcalls, run_append]
  refine withoutValues_run_ofTag fun tag htag => ?_
  rw [goal_run_callsFor]
  exact hgaps _ (of_decide_eq_true (List.mem_filter.mp htag).2)

section Start

variable {source : Text} {made : Template}

theorem get?_values_fill (hmade : made.StartsFrom source)
    (hmissing : (made.fill request).MissesNothing) (token : Text) :
    (made.fill request).values.get? token =
      (lastValue? token (request.tags.map ofTag)).or
        (lastValue? token
          ((request.defaultTags.filter fun tag => tagToken tag.1 ∈ made.goal).map ofTag)) := by
  obtain ⟨key, cached, text, rfl, -⟩ := hmade
  rw [fill_eq_run] at hmissing ⊢
  rw [get?_values_run hmissing, lastValue?_callsFor_eq]
  exact Option.or_none

theorem get?_values_fill_withoutDefaults (hmade : made.StartsFrom source)
    (hmissing : (made.fill request.withoutDefaults).MissesNothing) (token : Text) :
    (made.fill request.withoutDefaults).values.get? token =
      lastValue? token (request.tags.map ofTag) := by
  rw [get?_values_fill hmade hmissing]
  exact Option.or_none

theorem get?_values_fill_withGapsFilled (hmade : made.StartsFrom source)
    (hmissing : (made.fill (request.withGapsFilled gaps)).MissesNothing) (token : Text) :
    (made.fill (request.withGapsFilled gaps)).values.get? token =
      (lastValue? token
        ((request.defaultTags.filter fun tag => tagToken tag.1 ∈ gaps).map ofTag)).or
        (lastValue? token (request.tags.map ofTag)) := by
  rw [get?_values_fill hmade hmissing, withGapsFilled, List.map_append, lastValue?_append]
  exact Option.or_none

/-- Default values cover the tags that they name. -/
theorem covers_fill_iff (hmade : made.StartsFrom source)
    (hmissing : (made.fill request.withoutDefaults).MissesNothing) (hgoal : token ∈ made.goal) :
    (made.fill request).Covers token ↔
      (made.fill request.withoutDefaults).Covers token ∨ NamesTag request.defaultTags token := by
  have hsame := withoutValues_fill made request
  refine covers_iff_or hsame ?_
  rw [get?_values_fill hmade (hmissing.congr hsame.symm),
    get?_values_fill_withoutDefaults hmade hmissing, lastValue?_filter hgoal, Option.isSome_or,
    Bool.or_eq_true, @isSome_lastValue?_ofTag token request.defaultTags]

/-! ### Tags that are covered without default values -/

theorem mem_requested_withoutDefaults :
    token ∈ requested (request.withoutDefaults.callsFor goal) ↔
      (∃ path ∈ request.resolved, tagToken path = token) ∨ NamesTag request.tags token := by
  have hcalls : request.withoutDefaults.callsFor goal =
      request.resolved.map .resolve ++ request.tags.map ofTag := rfl
  rw [hcalls, requested, List.filterMap_append, List.filterMap_map, List.filterMap_map,
    List.mem_append, List.mem_filterMap, List.mem_filterMap]
  exact or_congr (by simp [token?]) (by simp [token?, ofTag, NamesTag])

/-- In a text from the source, a tag is covered by a path or by a value. -/
theorem covers_source_iff {key : UInt64} (hgoal : token ∈ goalTags source.trim) :
    ((start source key false source.trim).fill request.withoutDefaults).Covers token ↔
      (∃ path ∈ request.resolved, tagToken path = token) ∨ NamesTag request.tags token := by
  have hfresh : ¬(start source key false source.trim).Covers token := by
    rintro (hreplaced | hvalue)
    · exact TagSet.not_mem_empty token hreplaced
    · exact absurd hvalue Bool.false_ne_true
  rw [fill_eq_run, covers_run_iff (run_cached_of_not_mem_render render_not_mem_callsFor _) hgoal
    appendStage_not_mem_callsFor, or_iff_right hfresh]
  exact mem_requested_withoutDefaults

/-- In a text from the cache a tag is covered only by a value, for no stage has brought it. -/
theorem isSome_values_of_covers_stored {key : UInt64} {text : Text}
    (hcovers : ((start source key true text).fill request).Covers token) :
    (((start source key true text).fill request).values.get? token).isSome := by
  rcases hcovers with hreplaced | hvalue
  · rw [fill_eq_run] at hreplaced ⊢
    rcases mem_replaced_run hreplaced with hnone | hvalue | ⟨path, -, rfl, hstage⟩
    · exact absurd hnone (TagSet.not_mem_empty token)
    · exact hvalue
    · have hstages := hstage rfl
      rw [run_stageTags, stagesOf_eq_nil appendStage_not_mem_callsFor] at hstages
      exact absurd hstages (TagSet.not_mem_empty _)
  · exact hvalue

theorem covers_stored_iff {key : UInt64} {text : Text}
    (hmissing : ((start source key true text).fill request.withoutDefaults).MissesNothing) :
    ((start source key true text).fill request.withoutDefaults).Covers token ↔
      NamesTag request.tags token := by
  have hstart : (start source key true text).StartsFrom source :=
    ⟨key, true, text, rfl, fun h => nomatch h⟩
  rw [← isSome_lastValue?_ofTag, ← get?_values_fill_withoutDefaults hstart hmissing]
  exact ⟨isSome_values_of_covers_stored, Or.inr⟩

/-- A tag that is left in the text is only covered by a value: the tag of a path was replaced in a
text from the source, and in a text from the cache no tag is. -/
theorem isSome_values_of_covers (hmade : made.StartsFrom source) (hsimple : source.HasSimpleTags)
    (hmissing : (made.fill request).MissesNothing)
    (htoken : token ∈ (made.fill request).base.tokens) (hcovers : (made.fill request).Covers token) :
    ((made.fill request).values.get? token).isSome := by
  obtain ⟨key, cached, text, rfl, htext⟩ := hmade
  cases cached with
  | true => exact isSome_values_of_covers_stored hcovers
  | false =>
      obtain rfl := htext rfl
      rw [fill_eq_run] at hmissing htoken hcovers ⊢
      obtain ⟨name, -, rfl⟩ := exists_name_of_mem_tokens htoken
      by_contra hnone
      have hpath : name ∈ request.resolved := by
        rw [← paths_callsFor]
        exact mem_paths_of_covers rfl hcovers (Option.not_isSome_iff_eq_none.mp hnone)
      have hbase : ((start source key false source.trim).run
          (request.callsFor (goalTags source.trim))).base = source.trim.expand request.resolved :=
        (base_onSource hsimple hmissing).1
      change tagToken name ∈ ((start source key false source.trim).run
        (request.callsFor (goalTags source.trim))).base.tokens at htoken
      rw [hbase, mem_tokens_expand hsimple.trim, tagName_tagToken] at htoken
      exact htoken.2 hpath

theorem compose_fill (hmade : made.StartsFrom source) (request : CompileRequest) :
    (made.fill request).compose = (made.fill request).base := by
  obtain ⟨key, cached, text, rfl, -⟩ := hmade
  rw [compose, if_pos]
  rw [fill_eq_run]
  exact stages_run_callsFor rfl

section Gaps

variable (hmade : made.StartsFrom source)
  (hmissing : (made.fill request.withoutDefaults).MissesNothing)
  (hgaps : ∀ token, token ∈ gaps ↔
    token ∈ made.goal ∧ ¬(made.fill request.withoutDefaults).Covers token)

include hgaps

theorem withoutValues_fill_of_gaps :
    (made.fill (request.withGapsFilled gaps)).withoutValues =
      (made.fill request.withoutDefaults).withoutValues :=
  withoutValues_fill_withGapsFilled request fun token htoken => ((hgaps token).mp htoken).1

include hmade hmissing

theorem covers_fill_iff_withGapsFilled (hgoal : token ∈ made.goal) :
    (made.fill request).Covers token ↔
      (made.fill (request.withGapsFilled gaps)).Covers token := by
  have hfilled := withoutValues_fill_of_gaps hgaps
  have hcovers : (made.fill (request.withGapsFilled gaps)).Covers token ↔
      (made.fill request.withoutDefaults).Covers token ∨
        NamesTag (request.defaultTags.filter fun tag => tagToken tag.1 ∈ gaps) token := by
    refine covers_iff_or hfilled ?_
    rw [get?_values_fill_withGapsFilled hmade (hmissing.congr hfilled.symm),
      get?_values_fill_withoutDefaults hmade hmissing, Option.isSome_or, Bool.or_eq_true,
      isSome_lastValue?_ofTag, or_comm]
  rw [covers_fill_iff hmade hmissing hgoal, hcovers]
  by_cases hbare : (made.fill request.withoutDefaults).Covers token
  · simp [hbare]
  · rw [namesTag_filter ((hgaps token).mpr ⟨hgoal, hbare⟩)]

/-- A tag that is still in the text has the same value in both ways. -/
theorem get?_values_fill_eq_withGapsFilled (hsimple : source.HasSimpleTags)
    (htoken : token ∈ (made.fill request).base.tokens) :
    (made.fill request).values.get? token =
      (made.fill (request.withGapsFilled gaps)).values.get? token := by
  have hfull := withoutValues_fill made request
  have hfilled := withoutValues_fill_of_gaps hgaps
  have hbareValues := get?_values_fill_withoutDefaults hmade hmissing
  rw [get?_values_fill hmade (hmissing.congr hfull.symm),
    get?_values_fill_withGapsFilled hmade (hmissing.congr hfilled.symm)]
  by_cases hgap : token ∈ gaps
  · -- An open tag has no value but the default.
    obtain ⟨hgoal, hbare⟩ := (hgaps token).mp hgap
    have hnone : lastValue? token (request.tags.map ofTag) = none := by
      rw [← hbareValues, ← Option.not_isSome_iff_eq_none]
      exact fun hvalue => hbare (Or.inr hvalue)
    rw [hnone, lastValue?_filter hgoal, lastValue?_filter hgap, Option.none_or, Option.or_none]
  · rw [lastValue?_ofTag_eq_none (not_namesTag_filter hgap _), Option.none_or]
    by_cases hgoal : token ∈ made.goal
    · -- A tag that is covered and still in the text has a value of the request proper.
      have hbare : (made.fill request.withoutDefaults).Covers token := by
        by_contra hopen
        exact hgap ((hgaps token).mpr ⟨hgoal, hopen⟩)
      have hbase : (made.fill request).base = (made.fill request.withoutDefaults).base :=
        (congrArg Template.base hfull :)
      rw [hbase] at htoken
      have hvalue := isSome_values_of_covers hmade hsimple hmissing htoken hbare
      rw [hbareValues] at hvalue
      exact Option.or_of_isSome hvalue
    · rw [lastValue?_ofTag_eq_none (not_namesTag_filter hgoal _), Option.or_none]

/-- A render with default values is one with the values that they have for the open tags. -/
theorem renderText_fill_eq (hsimple : source.HasSimpleTags) (cache : Cache) :
    ((made.fill request).renderText cache).1 =
      ((made.fill (request.withGapsFilled gaps)).renderText cache).1 := by
  have hfull := withoutValues_fill made request
  have hfilled := withoutValues_fill_of_gaps hgaps
  refine renderText_congr (hfull.trans hfilled.symm) ?_ ?_ cache
  · intro token hgoal
    rw [goal_fill] at hgoal
    exact covers_fill_iff_withGapsFilled hmade hmissing hgaps hgoal
  · intro token htoken
    rw [compose_fill hmade] at htoken
    exact get?_values_fill_eq_withGapsFilled hmade hmissing hgaps hsimple htoken

end Gaps

theorem withGapsFilled_empty (request : CompileRequest) :
    request.withGapsFilled ∅ = request.withoutDefaults := by
  simp [withGapsFilled, withoutDefaults]

theorem renderText_fill_of_ok (hmade : made.StartsFrom source) (hsimple : source.HasSimpleTags)
    {cache : Cache} {text : Text}
    (h : ((made.fill request.withoutDefaults).renderText cache).1 = .ok text) :
    ((made.fill request).renderText cache).1 = .ok text := by
  obtain ⟨hmissing, hcovers, -⟩ := renderText_eq_ok_iff.mp h
  rw [goal_fill] at hcovers
  have hgaps : ∀ token, token ∈ (∅ : TagSet) ↔
      token ∈ made.goal ∧ ¬(made.fill request.withoutDefaults).Covers token := by
    intro token
    simpa using hcovers token
  rw [renderText_fill_eq hmade hmissing hgaps hsimple, withGapsFilled_empty, h]

theorem renderText_fill_missingTags_iff {cache : Cache} {missing : TagSet} :
    ((made.fill request).renderText cache).1 = .error (.missingTags missing) ↔
      ((made.fill request.withoutDefaults).renderText cache).1 = .error (.missingTags missing) := by
  have hsame := withoutValues_fill made request
  have hmissing : (made.fill request).missing = (made.fill request.withoutDefaults).missing :=
    (congrArg Template.missing hsame :)
  rw [renderText_eq_missingTags_iff, renderText_eq_missingTags_iff, MissesNothing, MissesNothing,
    hmissing]

/-- With default values a render succeeds if these name all the tags that are open without them. -/
theorem exists_renderText_fill_eq_ok_iff (hmade : made.StartsFrom source)
    (hmissing : (made.fill request.withoutDefaults).MissesNothing)
    (hgaps : ∀ token, token ∈ gaps ↔
      token ∈ made.goal ∧ ¬(made.fill request.withoutDefaults).Covers token) (cache : Cache) :
    (∃ text, ((made.fill request).renderText cache).1 = .ok text) ↔
      ∀ token ∈ gaps, NamesTag request.defaultTags token := by
  have hfull : (made.fill request).MissesNothing :=
    hmissing.congr (withoutValues_fill made request).symm
  constructor
  · rintro ⟨text, htext⟩ token htoken
    obtain ⟨hgoal, hopen⟩ := (hgaps token).mp htoken
    have hall := (renderText_eq_ok_iff.mp htext).2.1
    rw [goal_fill] at hall
    exact ((covers_fill_iff hmade hmissing hgoal).mp (hall token hgoal)).resolve_left hopen
  · intro hnamed
    refine ⟨_, renderText_eq_ok_iff.mpr ⟨hfull, ?_, rfl⟩⟩
    intro token hgoal
    rw [goal_fill] at hgoal
    rw [covers_fill_iff hmade hmissing hgoal]
    by_cases hbare : (made.fill request.withoutDefaults).Covers token
    · exact Or.inl hbare
    · exact Or.inr (hnamed token ((hgaps token).mpr ⟨hgoal, hbare⟩))

/-- The tags that stay open are those open without default values that these do not name. -/
theorem unresolved_fill (hmade : made.StartsFrom source)
    (hmissing : (made.fill request.withoutDefaults).MissesNothing) :
    (made.fill request).countValues.unresolved =
      (made.fill request.withoutDefaults).countValues.unresolved.filter
        fun token => ¬NamesTag request.defaultTags token := by
  rw [unresolved_countValues_eq, unresolved_countValues_eq, goal_fill, goal_fill]
  refine TagSet.ext ?_
  simp only [TagSet.filter, List.filter_filter]
  refine List.filter_congr fun token htoken => ?_
  rw [← Bool.decide_and, decide_eq_decide, covers_fill_iff hmade hmissing htoken, not_or, and_comm]

/-- What default values do for a template with open tags. -/
theorem renderText_fill_of_gaps (hmade : made.StartsFrom source) (hsimple : source.HasSimpleTags)
    {cache : Cache}
    (h : ((made.fill request.withoutDefaults).renderText cache).1 =
      .error (.unresolvedTags gaps)) :
    ((made.fill request).renderText cache).1 =
        ((made.fill (request.withGapsFilled gaps)).renderText cache).1 ∧
      (∀ token ∈ gaps, ¬NamesTag request.tags token) ∧
      ((∃ text, ((made.fill request).renderText cache).1 = .ok text) ↔
        ∀ token ∈ gaps, NamesTag request.defaultTags token) ∧
      ((∃ token ∈ gaps, ¬NamesTag request.defaultTags token) →
        ((made.fill request).renderText cache).1 = .error (.unresolvedTags
          (gaps.filter fun token => ¬NamesTag request.defaultTags token))) := by
  obtain ⟨hmissing, -, rfl⟩ := renderText_eq_unresolvedTags_iff.mp h
  have hgaps : ∀ token, token ∈ (made.fill request.withoutDefaults).countValues.unresolved ↔
      token ∈ made.goal ∧ ¬(made.fill request.withoutDefaults).Covers token := by
    intro token
    rw [mem_unresolved_countValues, goal_fill]
  refine ⟨renderText_fill_eq hmade hmissing hgaps hsimple cache, ?_,
    exists_renderText_fill_eq_ok_iff hmade hmissing hgaps cache, ?_⟩
  · intro token htoken hnamed
    refine ((hgaps token).mp htoken).2 (Or.inr ?_)
    rwa [get?_values_fill_withoutDefaults hmade hmissing, isSome_lastValue?_ofTag]
  · rintro ⟨token, htoken, hunnamed⟩
    obtain ⟨hgoal, hopen⟩ := (hgaps token).mp htoken
    refine renderText_eq_unresolvedTags_iff.mpr
      ⟨hmissing.congr (withoutValues_fill made request).symm, ⟨token, ?_, ?_⟩,
        unresolved_fill hmade hmissing⟩
    · rwa [goal_fill]
    · rw [covers_fill_iff hmade hmissing hgoal]
      exact not_or.mpr ⟨hopen, hunnamed⟩

/-- What is open without default values in a text from the source: the tags that have neither a value
nor a path. -/
theorem mem_gaps_source_iff {key : UInt64} {cache : Cache}
    (h : (((start source key false source.trim).fill request.withoutDefaults).renderText cache).1 =
      .error (.unresolvedTags gaps)) :
    token ∈ gaps ↔ token ∈ goalTags source.trim ∧ ¬NamesTag request.tags token ∧
      ∀ path ∈ request.resolved, tagToken path ≠ token := by
  obtain ⟨-, -, rfl⟩ := renderText_eq_unresolvedTags_iff.mp h
  rw [mem_unresolved_countValues, goal_fill]
  refine and_congr_right fun hgoal => ?_
  rw [covers_source_iff hgoal, not_or, and_comm, not_exists]
  exact and_congr_right' (forall_congr' fun _ => not_and)

/-- What is open without default values in a text from the cache: the tags that have no value. -/
theorem mem_gaps_stored_iff {key : UInt64} {text : Text} {cache : Cache}
    (h : (((start source key true text).fill request.withoutDefaults).renderText cache).1 =
      .error (.unresolvedTags gaps)) :
    token ∈ gaps ↔ token ∈ goalTags text ∧ ¬NamesTag request.tags token := by
  obtain ⟨hmissing, -, rfl⟩ := renderText_eq_unresolvedTags_iff.mp h
  rw [mem_unresolved_countValues, goal_fill, covers_stored_iff hmissing]
  rfl

/-- What is open without default values, by what the cache has for the source. -/
theorem mem_gaps_iff_of_create {sourceKey : SourceKey} {cache after : Cache}
    (hmade : create sourceKey source cache = (.ok made, after))
    (h : ((made.fill request.withoutDefaults).renderText after).1 =
      .error (.unresolvedTags gaps)) :
    ((cache.lookup (sourceKey source) source).1 = none → ∀ token, token ∈ gaps ↔
        token ∈ goalTags source.trim ∧ ¬NamesTag request.tags token ∧
          ∀ path ∈ request.resolved, tagToken path ≠ token) ∧
      ∀ text, (cache.lookup (sourceKey source) source).1 = some text → ∀ token, token ∈ gaps ↔
        token ∈ goalTags text ∧ ¬NamesTag request.tags token := by
  rcases create_cases hmade with ⟨text, hfound, rfl⟩ | ⟨hnone, -, rfl⟩
  · rw [hfound]
    refine ⟨fun hnone => absurd hnone (Option.some_ne_none text), ?_⟩
    intro cached hcached token
    obtain rfl : text = cached := Option.some.inj hcached
    exact mem_gaps_stored_iff h
  · rw [hnone]
    refine ⟨fun _ token => mem_gaps_source_iff h, ?_⟩
    exact fun text htext => absurd htext.symm (Option.some_ne_none text)

end Start

end CompileRequest

/-! ## Compiling with default values -/

theorem compile_text_of_create_ok {sourceKey : SourceKey} {source : Text} {request : CompileRequest}
    {cache after : Cache} {made : Template} (hstages : request.stages = [])
    (hmade : create sourceKey source cache = (.ok made, after)) :
    (compile sourceKey source request .text cache).1 =
      ((made.fill request).renderText after).1.mapError .template := by
  rw [compile, hmade]
  simp only [hstages, appendStages, renderView]

/-- A template that cannot be made is not refused for open tags. -/
theorem error_ne_unresolvedTags_of_create {sourceKey : SourceKey} {source : Text}
    {cache after : Cache} {error : TemplateError}
    (hmade : create sourceKey source cache = (.error error, after)) (gaps : TagSet) :
    error ≠ .unresolvedTags gaps := by
  rintro rfl
  rw [create] at hmade
  split at hmade
  · simp at hmade
  · split at hmade
    · simp at hmade
    · dsimp only at hmade
      split at hmade <;> simp at hmade

/-- Default values only fill gaps: what a request gives without them, a text or the tags that are
missing, it gives with them; and the tags that it leaves open without them are closed by those default
values that name them, just as if these were values of the request.  A tag with a value is not open,
and neither is one whose path is resolved in the source; a text from the cache stays as it is, so that
in it all tags without a value are open. -/
theorem compile_defaults_fill_gaps {sourceKey : SourceKey} {source : Text}
    {request : CompileRequest} (hstages : request.stages = []) (hsimple : source.HasSimpleTags)
    (cache : Cache) :
    let answer := fun request => (compile sourceKey source request .text cache).1
    let cached? := (cache.lookup (sourceKey source) source).1
    (∀ text, answer request.withoutDefaults = .ok text → answer request = .ok text) ∧
    (∀ missing, answer request.withoutDefaults = .error (.template (.missingTags missing)) ↔
      answer request = .error (.template (.missingTags missing))) ∧
    ∀ gaps, answer request.withoutDefaults = .error (.template (.unresolvedTags gaps)) →
      answer request = answer (request.withGapsFilled gaps) ∧
      (∀ token ∈ gaps, ¬NamesTag request.tags token) ∧
      (cached? = none → ∀ token, token ∈ gaps ↔
        token ∈ goalTags source.trim ∧ ¬NamesTag request.tags token ∧
          ∀ path ∈ request.resolved, tagToken path ≠ token) ∧
      (∀ text, cached? = some text → ∀ token, token ∈ gaps ↔
        token ∈ goalTags text ∧ ¬NamesTag request.tags token) ∧
      ((∃ text, answer request = .ok text) ↔
        ∀ token ∈ gaps, NamesTag request.defaultTags token) ∧
      ((∃ token ∈ gaps, ¬NamesTag request.defaultTags token) →
        answer request = .error (.template (.unresolvedTags
          (gaps.filter fun token => ¬NamesTag request.defaultTags token)))) := by
  intro answer cached?
  rcases hmade : create sourceKey source cache with ⟨made, after⟩
  cases made with
  | error error =>
      have hanswer : ∀ other, answer other = .error (.template error) :=
        fun _ => congrArg Prod.fst (compile_of_create_error hmade)
      refine ⟨fun text h => ?_, fun missing => by rw [hanswer, hanswer], fun gaps h => ?_⟩
      · rwa [hanswer] at h ⊢
      · rw [hanswer, Except.error.injEq, CompileError.template.injEq] at h
        exact absurd h (error_ne_unresolvedTags_of_create hmade gaps)
  | ok made =>
      have hstart := startsFrom_of_create hmade
      have hanswer : ∀ other : CompileRequest, other.stages = [] →
          answer other = ((made.fill other).renderText after).1.mapError .template :=
        fun _ hother => compile_text_of_create_ok hother hmade
      have hfull := hanswer request hstages
      have hbare := hanswer request.withoutDefaults hstages
      refine ⟨?_, ?_, ?_⟩
      · intro text h
        rw [hbare, mapError_template_eq_ok_iff] at h
        rw [hfull, mapError_template_eq_ok_iff]
        exact CompileRequest.renderText_fill_of_ok hstart hsimple h
      · intro missing
        rw [hbare, hfull, mapError_template_eq_error_iff, mapError_template_eq_error_iff]
        exact CompileRequest.renderText_fill_missingTags_iff.symm
      · intro gaps h
        rw [hbare, mapError_template_eq_error_iff] at h
        obtain ⟨hfilled, hopen, hok, herror⟩ :=
          CompileRequest.renderText_fill_of_gaps hstart hsimple h
        obtain ⟨hsource, hcached⟩ := CompileRequest.mem_gaps_iff_of_create hmade h
        rw [hanswer (request.withGapsFilled gaps) hstages, hfull, hfilled]
        refine ⟨rfl, hopen, hsource, hcached, ?_, fun hunnamed => ?_⟩
        · simp only [mapError_template_eq_ok_iff, ← hfilled]
          exact hok
        · rw [mapError_template_eq_error_iff, ← hfilled]
          exact herror hunnamed

/-- A collection, a path and a value with default values of their names, which count for nothing, and
two tags that are open without defaults, one of which may be left open. -/
theorem compile_defaults_limit :
    let source : Text := "[{$match:{<f>:<v>,<g>:1}},{$skip:<k>},{$limit:<n>}]".toList
    let request := fun defaults => ({
      collections := [['f']]
      paths := [⟨.dotted, .single ['g']⟩]
      stages := []
      defaultTags := defaults
      tags := [(['v'], ['1'])] } : CompileRequest)
    let answer := fun defaults => (compile (fun _ => 0) source (request defaults) .text .unbounded).1
    (∀ path ∈ (request []).resolved, tagToken path ∉ Text.tags "<k><n>".toList) ∧
      answer [(['v'], ['9']), (['f'], ['9']), (['g'], ['9']), (['n'], ['5'])] =
        .error (.template (.unresolvedTags (Text.tags "<k>".toList))) ∧
      answer [(['v'], ['9']), (['f'], ['9']), (['g'], ['9']), (['k'], ['2']), (['n'], ['5'])] =
        .ok "[{$match:{f:1,g:1}},{$skip:2},{$limit:5}]".toList := by
  intro source request answer
  have hsimple : source.HasSimpleTags := by decide +kernel
  have hgaps : answer [] = .error (.template (.unresolvedTags (Text.tags "<k><n>".toList))) := by
    decide +kernel
  have hfill := fun defaults =>
    (@compile_defaults_fill_gaps (fun _ => 0) source (request defaults) rfl hsimple
      .unbounded).2.2 _ hgaps
  refine ⟨?_, ?_, ?_⟩
  · intro path hpath hopen
    have hclosed := ((hfill []).2.2.1 rfl (tagToken path)).mp hopen
    exact hclosed.2.2 path hpath rfl
  · exact (hfill _).2.2.2.2.2 (by decide +kernel)
  · exact (hfill _).1.trans (by decide +kernel)

/-- A default value takes the place of a path that is resolved, when the text of the cache was stored
for a value of the same tag: in that text nothing is resolved, and the tag is open. -/
theorem compile_default_in_place_of_path :
    let source : Text := "[<A>]".toList
    let resolving := fun defaults => (⟨[['A']], [], [], defaults, []⟩ : CompileRequest)
    let answer := fun request => (compile (fun _ => 0) source request .text)
    let used := (answer ⟨[], [], [], [], [(['A'], ['1'])]⟩ .unbounded).2
    source.HasSimpleTags ∧
      (answer (resolving [(['A'], ['5'])]) .unbounded).1 = .ok "[A]".toList ∧
      (answer (resolving []) used).1 = .error (.template (.unresolvedTags (Text.tags source))) ∧
      (answer (resolving [(['A'], ['5'])]) used).1 = .ok "[5]".toList := by
  decide +kernel

end CommandTemplate
