import CommandTemplate.Proofs.Tag.Discovery
import CommandTemplate.Proofs.Template.Creation
import CommandTemplate.Proofs.Template.Outcome

/-!
# The order of the tags in errors

A render that fails lists tags.  Tags that were found but never requested are listed in the order in
which they were found, in the text first and then in the stages; finding, requesting or assigning one
of them again changes nothing.  Tags that were requested in vain are listed once each as well, but in
the order of their *last* requests, because a set that is touched moves its token to the back.  That
is the order of their first requests as long as none of them is asked for again behind another one.
-/

namespace CommandTemplate

open Text TemplateCall

namespace Template

/-- The token that a call asks a template for in vain: the template does not have it, and a path is
not asked for in a template from the cache. -/
def vainToken? (template : Template) : TemplateCall → Option Text
  | .resolve path =>
    if template.cached = false ∧ tagToken path ∉ template.goal then some (tagToken path) else none
  | .assign name _ => if tagToken name ∉ template.goal then some (tagToken name) else none
  | .appendStage _ => none
  | .render => none

/-- The token of a template that a call meets. -/
def metToken? (template : Template) : TemplateCall → Option Text
  | .resolve path =>
    if tagToken path ∈ if template.cached then template.stageTags else template.goal then
      some (tagToken path)
    else none
  | .assign name _ => if tagToken name ∈ template.goal then some (tagToken name) else none
  | .appendStage _ => none
  | .render => none

/-- The tokens that calls in turn have to do with, each call with the template that those in front of
it leave. -/
def tokensOf (token? : Template → TemplateCall → Option Text) :
    List TemplateCall → Template → List Text
  | [], _ => []
  | call :: calls, template =>
    (token? template call).toList ++ tokensOf token? calls (template.after call)

/-- The tokens of the text that a template starts from, with none for the empty array. -/
def baseTokens (base : Text) : List Text :=
  if base.isEmptyArray then [] else base.tokens

/-- The tokens of the text and of the stages, as often as they are found and in that order. -/
def foundTokens (calls : List TemplateCall) (template : Template) : List Text :=
  baseTokens template.base ++ ((stagesOf calls template).map Prod.fst).flatMap tokens

/-- The tags that are found and that no call meets, in the order in which they are found. -/
def gaps (calls : List TemplateCall) (template : Template) : List Text :=
  (foundTokens calls template).eraseDups.filter fun token =>
    token ∉ tokensOf metToken? calls template

section Run

variable {calls : List TemplateCall} {template : Template}

/-! ## What is asked for in vain -/

/-- A token that is asked for in vain becomes the last of the missing ones. -/
theorem missing_after (call : TemplateCall) (template : Template) :
    (template.after call).missing = (template.vainToken? call).toList.foldl TagSet.touch
      template.missing := by
  cases call with
  | resolve path =>
      rw [after_resolve, vainToken?, resolve]
      cases template.cached with
      | true => simp only [if_true]; split <;> rfl
      | false => by_cases hgoal : tagToken path ∈ template.goal <;> simp [hgoal]
  | assign name value =>
      rw [after_assign, vainToken?, assign]
      by_cases hgoal : tagToken name ∈ template.goal <;> simp [hgoal]
  | appendStage stage => simp [vainToken?]
  | render => simp [vainToken?]

theorem missing_run (calls : List TemplateCall) (template : Template) :
    (template.run calls).missing =
      (tokensOf vainToken? calls template).foldl TagSet.touch template.missing := by
  induction calls generalizing template with
  | nil => rfl
  | cons call calls ih => rw [run_cons, ih, missing_after, tokensOf, List.foldl_append]

/-! ## What is met -/

theorem metToken?_eq_some_iff {call : TemplateCall} {token : Text} :
    template.metToken? call = some token ↔ template.Meets token call := by
  cases call with
  | resolve path => grind [metToken?, Meets]
  | assign name value => grind [metToken?, Meets]
  | appendStage stage => simp [metToken?, Meets]
  | render => simp [metToken?, Meets]

/-- What calls leave covered was covered before, or they meet it. -/
theorem covers_run_iff_mem_tokensOf {token : Text} :
    (template.run calls).Covers token ↔
      template.Covers token ∨ token ∈ tokensOf metToken? calls template := by
  induction calls generalizing template with
  | nil => simp [tokensOf]
  | cons call calls ih =>
      rw [run_cons, ih, covers_after_iff, tokensOf, List.mem_append, Option.mem_toList,
        metToken?_eq_some_iff, or_assoc]

/-! ## What is found -/

theorem goalTags_eq_addAll (base : Text) :
    goalTags base = (∅ : TagSet).addAll (baseTokens base) := by
  rw [goalTags, baseTokens]
  split <;> rfl

/-- The goal lists what was found in the order in which it was found first. -/
theorem toList_goal_run (hgoal : template.goal = goalTags template.base) :
    (template.run calls).goal.toList = (foundTokens calls template).eraseDups := by
  rw [run_goal, TagSet.foldl_scan_eq_addAll, hgoal, goalTags_eq_addAll, ← TagSet.addAll_append,
    TagSet.toList_addAll]
  rfl

/-! ## What a render lists -/

/-- A render to documents fails for the tags for which a render to text fails. -/
theorem perform_eq_error_iff {request : TemplateRequest} (hrender : request.isRender = true)
    {cache : Cache} {error : TemplateError} (hdocuments : ∀ inner, error ≠ .documents inner) :
    (template.perform request cache).1 = .error error ↔
      (template.renderText cache).1 = .error error := by
  rcases TemplateRequest.isRender_iff.mp hrender with rfl | rfl
  · simp only [perform]
    cases (template.renderText cache).1 <;> simp [Except.map]
  · simp only [perform, renderDocuments_eq]
    cases (template.renderText cache).1 with
    | error other => simp [Except.bind, Except.map]
    | ok text =>
        cases hread : readDocuments text with
        | ok documents => simp [Except.bind, Except.map, Except.mapError, hread]
        | error inner =>
            simp [Except.bind, Except.map, Except.mapError, hread, (hdocuments inner).symm]

/-- Nothing was requested of a template yet. -/
structure IsFresh (template : Template) : Prop where
  goal : template.goal = goalTags template.base
  missing : template.missing = ∅
  covers : ∀ token, ¬template.Covers token

theorem isFresh_of_create {sourceKey : SourceKey} {source : Text} {cache after : Cache}
    (h : create sourceKey source cache = (.ok template, after)) : template.IsFresh := by
  have hstart : ∃ key cached base, template = start source key cached base := by
    rcases create_cases h with ⟨expanded, -, rfl⟩ | ⟨-, -, rfl⟩
    · exact ⟨_, _, _, rfl⟩
    · exact ⟨_, _, _, rfl⟩
  obtain ⟨key, cached, base, rfl⟩ := hstart
  exact ⟨rfl, rfl, fun token => by simp [Covers, start, RecencyMap.get?_empty]⟩

namespace IsFresh

theorem toList_missing_run (h : template.IsFresh) :
    (template.run calls).missing.toList = (tokensOf vainToken? calls template).dedup := by
  rw [missing_run, h.missing, TagSet.toList_foldl_touch]

theorem missesNothing_run_iff (h : template.IsFresh) :
    (template.run calls).MissesNothing ↔ tokensOf vainToken? calls template = [] := by
  rw [← List.dedup_eq_nil, ← h.toList_missing_run, List.eq_nil_iff_forall_not_mem]
  rfl

theorem toList_unresolved_run (h : template.IsFresh) :
    (template.run calls).countValues.unresolved.toList = gaps calls template := by
  have hcovers : ∀ token, ¬(template.run calls).Covers token ↔
      token ∉ tokensOf metToken? calls template := by
    intro token
    rw [covers_run_iff_mem_tokensOf, or_iff_right (h.covers token)]
  calc
    (template.run calls).countValues.unresolved.toList =
        (template.run calls).goal.toList.filter (¬(template.run calls).Covers ·) :=
      congrArg TagSet.toList (unresolved_countValues_eq _)
    _ = gaps calls template := by
      rw [toList_goal_run h.goal, gaps]
      exact List.filter_congr fun token _ => decide_eq_decide.mpr (hcovers token)

theorem exists_not_covers_run_iff (h : template.IsFresh) :
    (∃ token ∈ (template.run calls).goal, ¬(template.run calls).Covers token) ↔
      gaps calls template ≠ [] := by
  rw [← h.toList_unresolved_run, ne_eq, List.eq_nil_iff_forall_not_mem, not_forall_not]
  exact exists_congr fun token => mem_unresolved_countValues.symm

end IsFresh
end Run

/-- Whatever was done to a template, its goal lists the tags in the order in which they were found.  A
render lists what was asked for in vain, each token once and in the order of the last requests, and
hence of the first ones if none was asked for again behind another; else it lists the tags that no
call met, in the order in which they were found. -/
theorem render_error_lists {sourceKey : SourceKey} {source : Text} {cache after : Cache}
    {made : Template} (hmade : create sourceKey source cache = (.ok made, after))
    (requests : List TemplateRequest) {request : TemplateRequest}
    (hrender : request.isRender = true) (other : Cache) :
    let calls := requests.flatMap TemplateRequest.calls
    let last := (made.performAll requests after).2.1
    let answer := (last.perform request other).1
    let vain := tokensOf vainToken? calls made
    last.goal.toList = (foundTokens calls made).eraseDups ∧
      (∀ tags, answer = .error (.missingTags tags) ↔ vain ≠ [] ∧ tags.toList = vain.dedup) ∧
      (∀ tags, answer = .error (.missingTags tags) →
        (∀ token between, [token, between, token].Sublist vain → token = between) →
          tags.toList = vain.eraseDups) ∧
      ∀ tags, answer = .error (.unresolvedTags tags) ↔
        vain = [] ∧ gaps calls made ≠ [] ∧ tags.toList = gaps calls made := by
  intro calls last answer vain
  have hrun : last = made.run calls := performAll_template requests made after
  have hfresh : made.IsFresh := isFresh_of_create hmade
  have htags (first second : TagSet) : first = second ↔ second.toList = first.toList :=
    ⟨fun heq => heq ▸ rfl, fun heq => TagSet.ext heq.symm⟩
  have hmissing (tags : TagSet) :
      answer = .error (.missingTags tags) ↔ vain ≠ [] ∧ tags.toList = vain.dedup := by
    rw [perform_eq_error_iff hrender (by simp), hrun, renderText_eq_missingTags_iff,
      hfresh.missesNothing_run_iff, htags, hfresh.toList_missing_run]
  refine ⟨?_, hmissing, ?_, ?_⟩
  · rw [hrun]
    exact toList_goal_run hfresh.goal
  · intro tags hanswer hrecurs
    rw [((hmissing tags).mp hanswer).2]
    exact dedup_eq_eraseDups hrecurs
  · intro tags
    rw [perform_eq_error_iff hrender (by simp), hrun, renderText_eq_unresolvedTags_iff,
      hfresh.missesNothing_run_iff, hfresh.exists_not_covers_run_iff, htags,
      hfresh.toList_unresolved_run]

/-- A token that is asked for in vain before and behind another one is listed behind it. -/
theorem render_error_lists_last :
    let source : Text := "[<A>]".toList
    let made := start source 0 false source
    let requests : List TemplateRequest :=
      [.resolve ['B'], .resolve ['C'], .resolve ['B'], .appendStage "{<B>}".toList]
    let last := (made.performAll requests .unbounded).2.1
    create (fun _ => 0) source .unbounded = (.ok made, .unbounded) ∧
      last.goal.toList = ["<A>".toList, "<B>".toList] ∧
        ∀ tags, (last.perform .renderText .unbounded).1 = .error (.missingTags tags) ↔
          tags.toList = ["<C>".toList, "<B>".toList] := by
  intro source made requests last
  have hmade : create (fun _ => 0) source .unbounded = (.ok made, .unbounded) := by
    decide +kernel
  obtain ⟨hgoal, hmissing, -, -⟩ :=
    render_error_lists hmade requests (show TemplateRequest.renderText.isRender = true from rfl)
      .unbounded
  refine ⟨hmade, hgoal.trans (by decide +kernel), fun tags => (hmissing tags).trans ?_⟩
  have hvain : tokensOf vainToken? (requests.flatMap TemplateRequest.calls) made =
      ["<B>".toList, "<C>".toList, "<B>".toList] := by decide +kernel
  have hlisted : ["<B>".toList, "<C>".toList, "<B>".toList].dedup =
      ["<C>".toList, "<B>".toList] := by decide +kernel
  rw [hvain, hlisted]
  simp

end Template
end CommandTemplate
