import CommandTemplate.Proofs.Template.Creation
import CommandTemplate.Proofs.Template.Outcome

/-!
# Tags that a render delivers unfilled

A template keeps one set of replaced tags for its text and all of its stages.  A tag enters the set
when its path is resolved, and from then on counts as taken care of wherever it stands: also in a
stage that is appended later, and also in a text from the cache, which resolving does not touch.
As long as no tag has a second `<`, those are the only two ways in which a render that succeeds
leaves a tag in place.  Otherwise replacing one tag can also make or break another.
-/

namespace CommandTemplate

open Text TemplateCall

namespace Template

/-- The token is still a tag of the text or of a stage. -/
def Contains (template : Template) (token : Text) : Prop :=
  token ∈ template.base.tokens ∨ ∃ stage ∈ template.stages, token ∈ stage.tokens

instance (template : Template) (token : Text) : Decidable (template.Contains token) :=
  inferInstanceAs (Decidable (_ ∨ _))

/-- Every tag of the goal that is left in the text or in a stage has a value. -/
def IsFilled (template : Template) : Prop :=
  ∀ token ∈ template.goal, template.Contains token → (template.values.get? token).isSome

instance (template : Template) : Decidable template.IsFilled :=
  inferInstanceAs (Decidable (∀ token ∈ template.goal.toList, _ → _))

/-- Wherever the text or a stage has the tag of a path, a later call resolves the path there. -/
def ReachesTags (made : Template) (calls : List TemplateCall) (path : Text) : Prop :=
  (tagToken path ∈ made.base.tokens → path ∈ basePaths calls made) ∧
    ∀ entry ∈ stagesOf calls made, tagToken path ∈ entry.1.tokens → path ∈ paths entry.2

instance (made : Template) (calls : List TemplateCall) (path : Text) :
    Decidable (ReachesTags made calls path) :=
  inferInstanceAs (Decidable (_ ∧ _))

section Runs

variable {calls : List TemplateCall} {made : Template}

/-- A tag is left exactly where no call resolves its path afterwards. -/
theorem IsSound.contains_run_iff (h : made.IsSound) (hnone : made.stages = [])
    (hcalls : SimpleStages calls made) (hmissing : (made.run calls).MissesNothing) {path : Text} :
    (made.run calls).Contains (tagToken path) ↔ ¬ReachesTags made calls path := by
  have hbase : tagToken path ∈ (made.run calls).base.tokens ↔
      tagToken path ∈ made.base.tokens ∧ path ∉ basePaths calls made := by
    rw [h.run_base hcalls hmissing, mem_tokens_expand h.base_simple, tagName_tagToken]
  have hstages : (∃ stage ∈ (made.run calls).stages, tagToken path ∈ stage.tokens) ↔
      ∃ entry ∈ stagesOf calls made, tagToken path ∈ entry.1.tokens ∧ path ∉ paths entry.2 := by
    rw [h.run_stages hcalls, hnone]
    constructor
    · rintro ⟨stage, hstage, htoken⟩
      obtain ⟨entry, hentry, rfl⟩ := List.mem_map.mp hstage
      rw [mem_tokens_expand (hcalls entry hentry), tagName_tagToken] at htoken
      exact ⟨entry, hentry, htoken⟩
    · rintro ⟨entry, hentry, htoken⟩
      refine ⟨_, List.mem_map.mpr ⟨entry, hentry, rfl⟩, ?_⟩
      rwa [mem_tokens_expand (hcalls entry hentry), tagName_tagToken]
  rw [Contains, hbase, hstages, ReachesTags]
  constructor
  · rintro (⟨htoken, hpath⟩ | ⟨entry, hentry, htoken, hpath⟩) hreaches
    · exact hpath (hreaches.1 htoken)
    · exact hpath (hreaches.2 entry hentry htoken)
  · intro hreaches
    by_contra hleft
    rw [not_or] at hleft
    refine hreaches ⟨?_, ?_⟩
    · intro htoken
      by_contra hpath
      exact hleft.1 ⟨htoken, hpath⟩
    · intro entry hentry htoken
      by_contra hpath
      exact hleft.2 ⟨entry, hentry, htoken, hpath⟩

/-- A tag of the goal that a render finds covered without a value is one whose path was resolved. -/
theorem mem_paths_of_covers (hfresh : made.replaced = ∅) {path : Text}
    (hcovers : (made.run calls).Covers (tagToken path))
    (hvalue : (made.run calls).values.get? (tagToken path) = none) : path ∈ paths calls := by
  have hnone : ¬((made.run calls).values.get? (tagToken path)).isSome := by simp [hvalue]
  rcases hcovers with hreplaced | hsome
  · rcases mem_replaced_run hreplaced with hmade | hsome | ⟨other, hother, heq, -⟩
    · rw [hfresh] at hmade
      exact absurd hmade (TagSet.not_mem_empty _)
    · exact absurd hsome hnone
    · rwa [tagToken_injective heq]
  · exact absurd hsome hnone

theorem get?_values_eq_none_iff (hfresh : ∀ token, made.values.get? token = none)
    (hmissing : (made.run calls).MissesNothing) {path : Text} :
    (made.run calls).values.get? (tagToken path) = none ↔ path ∉ names calls := by
  rw [get?_values_run hmissing, hfresh, Option.or_none, ← Option.not_isSome_iff_eq_none,
    isSome_lastValue?_iff]
  refine not_congr ⟨?_, ?_⟩
  · rintro ⟨name, hname, heq⟩
    rwa [← tagToken_injective heq]
  · exact fun hpath => ⟨path, hpath, rfl⟩

theorem exists_name_of_mem_goal_run {source base token : Text} {key : UInt64} {cached : Bool}
    (h : token ∈ ((start source key cached base).run calls).goal) :
    ∃ name, token = tagToken name := by
  rcases mem_goal_run.mp h with hbase | ⟨entry, -, hstage⟩
  · have hgoal : token ∈ goalTags base := hbase
    obtain ⟨name, -, heq⟩ := exists_name_of_mem_tokens (mem_goalTags.mp hgoal).2
    exact ⟨name, heq⟩
  · obtain ⟨name, -, heq⟩ := exists_name_of_mem_tokens hstage
    exact ⟨name, heq⟩

end Runs

/-- When a render succeeds, every tag of the goal that is left has a value exactly if none is left
whose path was resolved without a value for its name.  Where no tag has a second opening mark, a tag
is left exactly if its path was not resolved after the tag came: after each stage with the tag was
appended and, if the text has the tag, while the text was not in the cache. -/
theorem goal_filled_iff {sourceKey : SourceKey} {source text : Text} {cache after : Cache}
    {made : Template} {requests : List TemplateRequest}
    (hmade : create sourceKey source cache = (.ok made, after))
    (hrender : ((made.performAll requests after).2.1.renderText
      (made.performAll requests after).2.2).1 = .ok text) :
    ((made.performAll requests after).2.1.IsFilled ↔
      ∀ path ∈ paths (requests.flatMap TemplateRequest.calls),
        path ∉ names (requests.flatMap TemplateRequest.calls) →
          tagToken path ∈ (made.performAll requests after).2.1.goal →
            ¬(made.performAll requests after).2.1.Contains (tagToken path)) ∧
      (made.base.HasSimpleTags →
        (∀ stage, .appendStage stage ∈ requests → stage.HasSimpleTags) →
          ∀ path, (made.performAll requests after).2.1.Contains (tagToken path) ↔
            ¬ReachesTags made (requests.flatMap TemplateRequest.calls) path) := by
  obtain ⟨base, cached, rfl⟩ : ∃ base cached, made = start source (sourceKey source) cached base := by
    rcases create_cases hmade with ⟨expanded, -, rfl⟩ | ⟨-, -, rfl⟩
    · exact ⟨expanded, true, rfl⟩
    · exact ⟨source.trim, false, rfl⟩
  obtain ⟨hmissing, hcovers, -⟩ := renderText_eq_ok_iff.mp hrender
  rw [performAll_template] at hmissing hcovers ⊢
  constructor
  · generalize requests.flatMap TemplateRequest.calls = calls at hmissing hcovers ⊢
    constructor
    · intro hfilled path hpath hname hgoal hcontains
      have hvalue := hfilled _ hgoal hcontains
      rw [(get?_values_eq_none_iff (fun _ => rfl) hmissing).mpr hname] at hvalue
      simp at hvalue
    · intro hleft token hgoal hcontains
      obtain ⟨path, rfl⟩ := exists_name_of_mem_goal_run hgoal
      by_contra hvalue
      rw [Option.not_isSome_iff_eq_none] at hvalue
      have hpath := mem_paths_of_covers rfl (hcovers _ hgoal) hvalue
      have hname := (get?_values_eq_none_iff (fun _ => rfl) hmissing).mp hvalue
      exact hleft path hpath hname hgoal hcontains
  · intro hbase hstages path
    have hsound : (start source (sourceKey source) cached base).IsSound := isSound_start hbase
    refine hsound.contains_run_iff rfl (simpleStages_of_forall ?_ _) hmissing
    exact fun stage hstage => hstages stage (mem_of_appendStage_mem_calls hstage)

/-- An earlier template gave the tag a value, so that the cached text still has it; a later one
resolves its path, which only reaches the stage. -/
theorem unfilled_text_from_cache :
    let early := start "[<A>]".toList 0 false "[<A>]".toList
    let stored := (early.performAll [.assign ['A'] ['1'], .renderText] .unbounded).2.2
    let made := start "[<A>]".toList 0 true "[<A>]".toList
    let requests : List TemplateRequest := [.appendStage "{<A>}".toList, .resolve ['A']]
    let last := made.performAll requests stored
    create (fun _ => 0) "[<A>]".toList stored = (.ok made, stored) ∧
      (last.2.1.renderText last.2.2).1 = .ok "[<A>,{A}]".toList ∧
      ¬last.2.1.IsFilled := by
  intro early stored made requests last
  have hmade : create (fun _ => 0) "[<A>]".toList stored = (.ok made, stored) := by
    decide +kernel
  have hrender : (last.2.1.renderText last.2.2).1 = .ok "[<A>,{A}]".toList := by
    decide +kernel
  have hstages : ∀ stage, .appendStage stage ∈ requests → stage.HasSimpleTags := by
    intro stage hstage
    obtain rfl : stage = "{<A>}".toList := by simpa [requests] using hstage
    decide +kernel
  obtain ⟨hfilled, hleft⟩ := goal_filled_iff hmade hrender
  refine ⟨hmade, hrender, ?_⟩
  rw [hfilled]
  intro hnone
  refine hnone ['A'] (by decide +kernel) (by decide +kernel) (by decide +kernel) ?_
  rw [hleft (by decide +kernel) hstages]
  decide +kernel

-- On a miss, a stage that is appended after its tag was replaced is not filled either.
example :
    let made := start "[<A>]".toList 0 false "[<A>]".toList
    let last := made.performAll [.resolve ['A'], .appendStage "{<A>}".toList] .unbounded
    (last.2.1.renderText last.2.2).1 = .ok "[A,{<A>}]".toList := by
  decide +kernel

end Template
end CommandTemplate
