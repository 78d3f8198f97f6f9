import CommandTemplate.Proofs.Template.Appending
import CommandTemplate.Proofs.Template.ErrorOrder
import CommandTemplate.Proofs.Template.Fragments

/-!
# Filling a template in one pass

A template replaces structural tags as soon as their paths are resolved and values only when it is
rendered, over several fragments and with several sets of tags to keep in step.  For texts in which
every `<` begins a tag the outcome is that of a single pass: what was requested and is not there is
missing, what is there and was not requested is unresolved, and otherwise every fragment has each
requested tag replaced once, by its path if that was ever resolved and else by its last value.
-/

namespace CommandTemplate

open Text TemplateCall

/-- Whether a request fills a template in or renders it to text. -/
def TemplateRequest.isFilling : TemplateRequest → Bool
  | .appendStage _ => false
  | .renderDocuments => false
  | _ => true

def TemplateCall.token? : TemplateCall → Option Text
  | .resolve path => some (tagToken path)
  | .assign name _ => some (tagToken name)
  | .appendStage _ => none
  | .render => none

def TemplateCall.requested (calls : List TemplateCall) : List Text :=
  calls.filterMap token?

/-- What calls put in place of a token: its path if that is resolved, and else its last value. -/
def TemplateCall.answer? (calls : List TemplateCall) (token : Text) : Option Text :=
  (expansion? (paths calls) token).or (lastValue? token calls)

namespace Template

/-- The fragments of a template filled in one pass and joined.  Whether a comma is needed depends on
the text with its structural tags replaced, before any values. -/
def onePass (calls : List TemplateCall) (base : Text) (stages : List Text) : Text :=
  joinFragments (isBlankText ((base.expand (paths calls)).dropLast.drop 1))
    (base.substitute (answer? calls)) (stages.map (substitute (answer? calls)))

/-- What a render answers when the calls fill in the tags of a text and its stages in one pass. -/
def onePassAnswer (calls : List TemplateCall) (base : Text) (stages : List Text) :
    Except TemplateError Text :=
  let goal := stages.foldl TagSet.scan (goalTags base)
  let missing := ((requested calls).filter (· ∉ goal)).foldl TagSet.touch ∅
  let unresolved := goal.filter (· ∉ requested calls)
  if !missing.isEmpty then .error (.missingTags missing)
  else if !unresolved.isEmpty then .error (.unresolvedTags unresolved)
  else .ok (onePass calls base stages)

def RendersFail (requests : List TemplateRequest)
    (replies : List (Except TemplateError TemplateReply)) : Prop :=
  ∀ answer ∈ requests.zip replies, answer.1 = .renderText → answer.2.isOk = false

instance (requests : List TemplateRequest)
    (replies : List (Except TemplateError TemplateReply)) :
    Decidable (RendersFail requests replies) :=
  inferInstanceAs (Decidable (∀ answer ∈ requests.zip replies, _ → _))

/-! ## Filling without appending -/

theorem requested_cons (call : TemplateCall) (calls : List TemplateCall) :
    requested (call :: calls) = call.token?.toList ++ requested calls := by
  rw [requested, List.filterMap_cons]
  cases call.token? <;> rfl

theorem mem_requested_cons {call : TemplateCall} {calls : List TemplateCall} {token : Text} :
    token ∈ requested (call :: calls) ↔ call.token? = some token ∨ token ∈ requested calls := by
  rw [requested_cons, List.mem_append, Option.mem_toList]

theorem not_mem_calls_of_isFilling {requests : List TemplateRequest}
    (h : ∀ request ∈ requests, request.isFilling = true) (stage : Text) :
    .appendStage stage ∉ requests.flatMap TemplateRequest.calls := by
  intro hmem
  obtain ⟨request, hrequest, hcall⟩ := List.mem_flatMap.mp hmem
  have hfilling := h request hrequest
  cases request <;> simp_all [TemplateRequest.isFilling, TemplateRequest.calls]

theorem rendered_cached_of_isOk_eq_false {template : Template} {cache : Cache}
    (h : (template.perform .renderText cache).1.isOk = false) :
    template.rendered.cached = template.cached := by
  have hmap : (((template.renderText cache).1).map TemplateReply.text).isOk = false := h
  rw [renderText_eq] at hmap
  cases hobstacle : template.countValues.obstacle? with
  | none => simp [hobstacle, Except.map, Except.isOk, Except.toBool] at hmap
  | some error => simp [rendered, hobstacle]

/-- A template stays out of the cache while its renders fail. -/
theorem run_cached_of_rendersFail {requests : List TemplateRequest}
    (hrequests : ∀ request ∈ requests, request.isFilling = true) {template : Template}
    {cache : Cache} (hfail : RendersFail requests (template.performAll requests cache).1) :
    (template.run (requests.flatMap TemplateRequest.calls)).cached = template.cached := by
  induction requests generalizing template cache with
  | nil => rfl
  | cons request requests ih =>
      rw [List.forall_mem_cons] at hrequests
      have hrest : ((template.perform request cache).2.1.run
          (requests.flatMap TemplateRequest.calls)).cached =
            (template.perform request cache).2.1.cached :=
        ih hrequests.2 fun answer hanswer => hfail answer (List.mem_cons_of_mem _ hanswer)
      rw [List.flatMap_cons, run_append, ← perform_template request template cache, hrest,
        perform_template]
      -- Of the requests only a render can store the text, and it fails.
      by_cases hrender : request = .renderText
      · subst hrender
        exact rendered_cached_of_isOk_eq_false (hfail _ List.mem_cons_self rfl)
      · apply run_cached_of_not_mem_render
        have hfilling := hrequests.1
        cases request <;> simp_all [TemplateRequest.isFilling, TemplateRequest.calls]

/-! ## What is missing and what is covered -/

section Uncached

variable {calls : List TemplateCall} {template : Template} {token : Text}

theorem vainToken?_eq {call : TemplateCall} (hcached : template.cached = false) :
    template.vainToken? call = call.token?.filter (· ∉ template.goal) := by
  cases call with
  | resolve path => simp [vainToken?, token?, hcached, Option.filter]
  | assign name value => simp [vainToken?, token?, Option.filter]
  | appendStage stage => rfl
  | render => rfl

/-- Without appending, what is requested in vain is what is not in the goal. -/
theorem tokensOf_vainToken? (hcached : (template.run calls).cached = false)
    (hcalls : ∀ stage, .appendStage stage ∉ calls) :
    tokensOf vainToken? calls template = (requested calls).filter (· ∉ template.goal) := by
  induction calls generalizing template with
  | nil => rfl
  | cons call calls ih =>
      obtain ⟨hcall, hrest⟩ := ne_appendStage_of_not_mem_cons hcalls
      rw [tokensOf, ih hcached hrest, after_goal_of_ne hcall,
        vainToken?_eq (cached_of_run_cached hcached), requested_cons, List.filter_append,
        Option.toList_filter]

theorem meets_iff {call : TemplateCall} (hcached : template.cached = false)
    (hgoal : token ∈ template.goal) : template.Meets token call ↔ call.token? = some token := by
  cases call with
  | resolve path =>
      rw [Meets, token?, Option.some_inj, hcached]
      constructor
      · exact fun h => h.1.symm
      · rintro rfl
        exact ⟨rfl, hgoal⟩
  | assign name value =>
      rw [Meets, token?, Option.some_inj]
      constructor
      · exact fun h => h.1.symm
      · rintro rfl
        exact ⟨rfl, hgoal⟩
  | appendStage stage => simp [Meets, token?]
  | render => simp [Meets, token?]

/-- Without appending, the tags of the goal that get covered are those that are requested. -/
theorem covers_run_iff (hcached : (template.run calls).cached = false)
    (hgoal : token ∈ template.goal) (hcalls : ∀ stage, .appendStage stage ∉ calls) :
    (template.run calls).Covers token ↔ template.Covers token ∨ token ∈ requested calls := by
  induction calls generalizing template with
  | nil => simp [requested]
  | cons call calls ih =>
      obtain ⟨hcall, hrest⟩ := ne_appendStage_of_not_mem_cons hcalls
      rw [run_cons, ih hcached (by rwa [after_goal_of_ne hcall]) hrest,
        covers_after_iff, meets_iff (cached_of_run_cached hcached) hgoal, mem_requested_cons,
        or_assoc]

end Uncached

/-! ## The answer of a render -/

section Answer

variable {calls : List TemplateCall} {template : Template}

theorem unresolved_run (hcached : (template.run calls).cached = false)
    (hcalls : ∀ stage, .appendStage stage ∉ calls)
    (hfresh : ∀ token, ¬template.Covers token) :
    (template.run calls).countValues.unresolved =
      template.goal.filter (· ∉ requested calls) := by
  have hmem : ∀ token, token ∈ (template.run calls).countValues.replaced ↔
      (template.run calls).Covers token := fun token => mem_replaced_rendered
  rw [unresolved]
  change (template.run calls).goal.filter _ = _
  rw [run_goal_of_not_mem hcalls]
  apply TagSet.filter_congr
  intro token htoken
  rw [decide_eq_decide, hmem, covers_run_iff hcached htoken hcalls, or_iff_right (hfresh token)]

/-- The values and the paths that were replaced before come out as one substitution. -/
theorem substitute_values_expand (hmissing : (template.run calls).MissesNothing)
    (hvalues : ∀ token, template.values.get? token = none) {text : Text}
    (htext : text.HasSimpleTags) :
    (text.expand (paths calls)).substitute (template.run calls).values.get? =
      text.substitute (answer? calls) := by
  rw [expand, substitute_substitute (htext.opensNothing _)]
  apply substitute_congr
  intro token _
  rw [get?_values_run hmissing, hvalues, Option.or_none, answer?]

theorem IsSound.filled_run (h : template.IsSound) (hbase : template.base.OpensTags)
    (hstages : ∀ stage ∈ template.stages, stage.OpensTags)
    (harray : template.stages ≠ [] → isEnclosed '[' ']' template.base = true)
    (hvalues : ∀ token, template.values.get? token = none)
    (hcached : (template.run calls).cached = false)
    (hcalls : ∀ stage, .appendStage stage ∉ calls)
    (hmissing : (template.run calls).MissesNothing) :
    (template.run calls).filled = onePass calls template.base template.stages := by
  have hsimple : SimpleStages calls template := by
    simp [SimpleStages, stagesOf_eq_nil hcalls]
  have hlast : (template.run calls).base = template.base.expand (paths calls) := by
    rw [h.run_base hsimple hmissing, basePaths_eq_paths hcached]
  have hmap : (template.run calls).stages = template.stages.map (expand (paths calls)) := by
    rw [h.run_stages hsimple, stagesOf_eq_nil hcalls, List.map_nil, List.append_nil]
  have hbracketed : template.stages.map (expand (paths calls)) ≠ [] →
      ∃ inner, template.base.expand (paths calls) = bracketed inner := by
    intro hsome
    obtain ⟨inner, hinner⟩ :=
      exists_bracketed_of_isEnclosed (harray fun hnil => hsome (by rw [hnil, List.map_nil]))
    exact ⟨inner.expand (paths calls), by rw [hinner, expand, substitute_bracketed]; rfl⟩
  have happart : StandApart
      (template.base.expand (paths calls) :: template.stages.map (expand (paths calls))) := by
    apply standApart_of_not_mem
    rw [List.forall_mem_cons, List.forall_mem_map]
    exact ⟨(hbase.expand _).1, fun stage hstage => ((hstages stage hstage).expand _).1⟩
  rw [filled, compose_eq, hlast, hmap, substitute_joinFragments _ happart hbracketed,
    substitute_values_expand hmissing hvalues hbase.2, List.map_map, onePass]
  congr 1
  apply List.map_congr_left
  intro stage hstage
  exact substitute_values_expand hmissing hvalues (hstages stage hstage).2

/-- A sound template that nothing was requested of answers as if its tags were filled in one pass. -/
theorem IsSound.renderText_run (h : template.IsSound)
    (hgoal : template.goal = template.stages.foldl TagSet.scan (goalTags template.base))
    (hnone : template.missing = ∅) (hfresh : ∀ token, ¬template.Covers token)
    (hbase : template.base.OpensTags) (hstages : ∀ stage ∈ template.stages, stage.OpensTags)
    (harray : template.stages ≠ [] → isEnclosed '[' ']' template.base = true)
    (hcached : (template.run calls).cached = false)
    (hcalls : ∀ stage, .appendStage stage ∉ calls) (cache : Cache) :
    ((template.run calls).renderText cache).1 =
      onePassAnswer calls template.base template.stages := by
  have hmissing : (template.run calls).countValues.missing =
      ((requested calls).filter (· ∉ template.goal)).foldl TagSet.touch ∅ := by
    rw [← hnone, ← tokensOf_vainToken? hcached hcalls]
    exact missing_run calls template
  rw [renderText_eq, onePassAnswer, ← hgoal, obstacle?, ← hmissing,
    ← unresolved_run hcached hcalls hfresh]
  cases hempty : (template.run calls).countValues.missing.isEmpty with
  | false => rfl
  | true =>
      cases (template.run calls).countValues.unresolved.isEmpty with
      | false => rfl
      | true =>
          have hvalues : ∀ token, template.values.get? token = none := by
            intro token
            rw [← Option.not_isSome_iff_eq_none]
            exact fun hvalue => hfresh token (Or.inr hvalue)
          rw [← h.filled_run hbase hstages harray hvalues hcached hcalls
            (TagSet.isEmpty_iff.mp hempty)]
          rfl

end Answer

/-- A template that is not in the cache answers a render as if its tags were filled in one pass:
with the requests that are not in the goal, else with the tags of the goal that were not requested,
else with the text and stages in which each tag is replaced once. -/
theorem renderText_eq_onePassAnswer {sourceKey : SourceKey} {source : Text} {cache after : Cache}
    {made staged : Template} {stages : List Text} {requests : List TemplateRequest}
    (hmade : create sourceKey source cache = (.ok made, after))
    (hlookup : (cache.lookup (sourceKey source) source).1 = none)
    (hstaged : made.appendStages stages = .ok staged)
    (hsource : source.trim.OpensTags) (hstages : ∀ stage ∈ stages, stage.OpensTags)
    (hrequests : ∀ request ∈ requests, request.isFilling = true)
    (hfail : RendersFail requests (staged.performAll requests after).1) :
    ((staged.performAll requests after).2.1.renderText (staged.performAll requests after).2.2).1 =
      onePassAnswer (requests.flatMap TemplateRequest.calls) source.trim (stages.map trim) := by
  obtain ⟨-, rfl⟩ : IsSource source ∧ made = start source (sourceKey source) false source.trim :=
    (create_of_lookup_none hlookup).mp (by rw [hmade])
  obtain ⟨rfl, haccepts⟩ := appendStages_eq_ok hstaged
  have happend : ∀ call ∈ stages.map TemplateCall.appendStage, call.isAppend = true := by
    simp [isAppend]
  have hsimple : ∀ stage, .appendStage stage ∈ stages.map TemplateCall.appendStage →
      stage.HasSimpleTags := by
    intro stage hstage
    exact (hstages stage (by simpa using hstage)).2
  have hsound := (isSound_start hsource.2).run (simpleStages_of_forall hsimple
    (start source (sourceKey source) false source.trim))
  have hcached := run_cached_of_rendersFail hrequests hfail
  have hstate := run_of_isAppend happend (start source (sourceKey source) false source.trim)
  rw [stagesOn_map_appendStage haccepts] at hstate
  rw [performAll_template]
  rw [hstate] at hsound hcached ⊢
  refine hsound.renderText_run rfl rfl ?_ hsource ?_ ?_ hcached
    (not_mem_calls_of_isFilling hrequests) _
  · intro token
    simp [Covers, start, RecencyMap.get?_empty]
  · intro stage hstage
    obtain ⟨before, hbefore, rfl⟩ := List.mem_map.mp hstage
    exact (hstages before hbefore).trim
  · intro hsome
    obtain ⟨stage, hstage⟩ : ∃ stage, stage ∈ stages := by
      apply List.exists_mem_of_ne_nil
      rintro rfl
      exact hsome rfl
    have haccepted := haccepts stage hstage
    rw [accepts_eq, Bool.and_eq_true] at haccepted
    exact haccepted.1

/-- An array with an appended stage, and a render that comes too early. -/
theorem renderText_match_limit :
    let source : Text := " [{$match:{<f>:<v>}}] ".toList
    let made := start source 0 false "[{$match:{<f>:<v>}}]".toList
    let staged := made.appended "{$limit:<n>}".toList
    let requests : List TemplateRequest :=
      [.resolve ['f'], .renderText, .assign ['v'] "<f>".toList, .assign ['n'] ['1']]
    create (fun _ => 0) source .unbounded = (.ok made, .unbounded) ∧
      made.appendStages ["{$limit:<n>}".toList] = .ok staged ∧
      ((staged.performAll requests .unbounded).2.1.renderText
        (staged.performAll requests .unbounded).2.2).1 =
          .ok "[{$match:{f:<f>}},{$limit:1}]".toList := by
  intro source made staged requests
  have hmade : create (fun _ => 0) source .unbounded = (.ok made, .unbounded) := by
    decide +kernel
  have hstaged : made.appendStages ["{$limit:<n>}".toList] = .ok staged := by
    decide +kernel
  refine ⟨hmade, hstaged, ?_⟩
  rw [renderText_eq_onePassAnswer hmade (by decide +kernel) hstaged (by decide +kernel)
    (by decide +kernel) (by decide +kernel) (by decide +kernel)]
  decide +kernel

end Template
end CommandTemplate
