import CommandTemplate.Proofs.Template.Appending
import CommandTemplate.Proofs.Template.Delivery
import CommandTemplate.Proofs.Template.Fragments
import Mathlib.Data.List.Induction

/-!
# Orderly use of a template

A template is used in an orderly way when its stages are appended first, when only tags are
requested that it has, and when each tag is either structural, and only resolved, or a value, and
only assigned.  Then the text it starts from does not matter: the source and the source with its
structural tags replaced lead to the same rendered text.
-/

namespace CommandTemplate

open Text

/-! ## Structural tags -/

namespace Text

/-- The text with its structural tags replaced. -/
def settled (structural : Text → Bool) (text : Text) : Text :=
  text.expand ((text.tokens.map tagName).filter structural)

variable {structural : Text → Bool} {text token : Text}

theorem tagName_mem_structural (htoken : token ∈ text.tokens) :
    tagName token ∈ (text.tokens.map tagName).filter structural ↔
      structural (tagName token) = true := by
  rw [List.mem_filter, and_iff_right (List.mem_map_of_mem htoken)]

theorem settled_eq_expand {names : List Text}
    (h : ∀ token ∈ text.tokens, tagName token ∈ names ↔ structural (tagName token) = true) :
    text.settled structural = text.expand names := by
  apply expand_congr
  intro token htoken
  rw [tagName_mem_structural htoken, h token htoken]

theorem HasSimpleTags.settled (h : text.HasSimpleTags) (structural : Text → Bool) :
    (text.settled structural).HasSimpleTags :=
  h.expand _

theorem mem_tokens_settled (h : text.HasSimpleTags) :
    token ∈ (text.settled structural).tokens ↔
      token ∈ text.tokens ∧ structural (tagName token) = false := by
  rw [Text.settled, mem_tokens_expand h]
  apply and_congr_right
  intro htoken
  rw [tagName_mem_structural htoken, Bool.not_eq_true]

theorem isEnclosed_settled (h : Template.isEnclosed '[' ']' text = true) :
    Template.isEnclosed '[' ']' (text.settled structural) = true := by
  obtain ⟨inner, rfl⟩ := Template.exists_bracketed_of_isEnclosed h
  rw [Text.settled, Text.expand, substitute_bracketed]
  exact Template.isEnclosed_bracketed _

end Text

namespace Template

open TemplateCall

/-! ## Orderly calls -/

/-- The stages that calls append to the settled text of a source. -/
def settledStages (structural : Text → Bool) (source : Text) (calls : List TemplateCall) :
    List Text :=
  stagesOn (source.trim.settled structural) calls

/-- The tokens of a source and of its stages. -/
def ownTokens (structural : Text → Bool) (source : Text) (calls : List TemplateCall) :
    List Text :=
  source.trim.tokens ++ (settledStages structural source calls).flatMap tokens

/-- Calls use a template of a source in an orderly way. -/
structure IsOrderly (structural : Text → Bool) (source : Text) (calls : List TemplateCall) :
    Prop where
  source_simple : source.HasSimpleTags
  stage_simple : ∀ stage ∈ calls.filterMap appended?, stage.HasSimpleTags
  appends_first : AppendsFirst calls
  resolves : ∀ path ∈ paths calls,
    tagToken path ∈ ownTokens structural source calls ∧ structural path = true
  assigns : ∀ name ∈ names calls,
    tagToken name ∈ ownTokens structural source calls ∧ structural name = false
  empty_array : source.trim.isEmptyArray = true ∨
    (source.trim.settled structural).isEmptyArray = true → source.trim = ['[', ']']

/-- Stages are not appended to a text that only becomes an array by its structural tags. -/
def KeepsArray (structural : Text → Bool) (source : Text) (calls : List TemplateCall) : Prop :=
  calls.filterMap stage? ≠ [] → isEnclosed '[' ']' (source.trim.settled structural) = true →
    isEnclosed '[' ']' source.trim = true

/-- Calls resolve all structural tags and assign values to all others. -/
def IsComplete (structural : Text → Bool) (source : Text) (calls : List TemplateCall) : Prop :=
  ∀ token ∈ ownTokens structural source calls,
    tagName token ∈ if structural (tagName token) then paths calls else names calls

instance (structural : Text → Bool) (source : Text) (calls : List TemplateCall) :
    Decidable (IsComplete structural source calls) :=
  inferInstanceAs (Decidable (∀ token ∈ ownTokens structural source calls, _))

instance (structural : Text → Bool) (source : Text) (calls : List TemplateCall) :
    Decidable (KeepsArray structural source calls) :=
  inferInstanceAs (Decidable (_ → _ → _))

theorem isOrderly_iff {structural : Text → Bool} {source : Text} {calls : List TemplateCall} :
    IsOrderly structural source calls ↔
      source.HasSimpleTags ∧
      (∀ stage ∈ calls.filterMap appended?, stage.HasSimpleTags) ∧ AppendsFirst calls ∧
      (∀ path ∈ paths calls,
        tagToken path ∈ ownTokens structural source calls ∧ structural path = true) ∧
      (∀ name ∈ names calls,
        tagToken name ∈ ownTokens structural source calls ∧ structural name = false) ∧
      (source.trim.isEmptyArray = true ∨ (source.trim.settled structural).isEmptyArray = true →
        source.trim = ['[', ']']) := by
  constructor
  · rintro ⟨hsource, hstages, hfirst, hresolves, hassigns, hempty⟩
    exact ⟨hsource, hstages, hfirst, hresolves, hassigns, hempty⟩
  · rintro ⟨hsource, hstages, hfirst, hresolves, hassigns, hempty⟩
    exact ⟨hsource, hstages, hfirst, hresolves, hassigns, hempty⟩

instance (structural : Text → Bool) (source : Text) (calls : List TemplateCall) :
    Decidable (IsOrderly structural source calls) :=
  decidable_of_iff _ isOrderly_iff.symm

/-- A template of a source before any call, from the source or from its settled text. -/
def begun (structural : Text → Bool) (source : Text) (key : UInt64) (cached : Bool) : Template :=
  start source key cached (if cached then source.trim.settled structural else source.trim)

/-- A template of a source with the stages of calls. -/
def staged (structural : Text → Bool) (source : Text) (key : UInt64) (cached : Bool)
    (calls : List TemplateCall) : Template :=
  { begun structural source key cached with
    stages := settledStages structural source calls
    goal := (settledStages structural source calls).foldl TagSet.scan
      (begun structural source key cached).goal
    stageTags := (settledStages structural source calls).foldl TagSet.scan ∅ }

section Orderly

variable {structural : Text → Bool} {source : Text} {calls : List TemplateCall}

theorem mem_ownTokens {token : Text} :
    token ∈ ownTokens structural source calls ↔
      token ∈ source.trim.tokens ∨
        ∃ stage ∈ settledStages structural source calls, token ∈ stage.tokens := by
  rw [ownTokens, List.mem_append, List.mem_flatMap]

/-- After a call that does not append, no more tokens come. -/
theorem ownTokens_append {more : List TemplateCall} (hfirst : AppendsFirst (calls ++ more))
    {call : TemplateCall} (hcall : call ∈ calls) (happend : call.isAppend = false) :
    ownTokens structural source (calls ++ more) = ownTokens structural source calls := by
  have hmore : more.filterMap stage? = [] := by
    apply filterMap_stage?_eq_nil
    intro stage hstage
    have hearlier := (List.pairwise_append.mp hfirst).2.2 call hcall _ hstage rfl
    rw [happend] at hearlier
    simp at hearlier
  rw [ownTokens, ownTokens, settledStages, settledStages, stagesOn, stagesOn,
    List.filterMap_append, hmore, List.append_nil]

/-- Calls are in order as soon as they are with others after them. -/
theorem IsOrderly.of_append {more : List TemplateCall}
    (h : IsOrderly structural source (calls ++ more)) : IsOrderly structural source calls where
  source_simple := h.source_simple
  stage_simple := by
    intro stage hstage
    apply h.stage_simple
    rw [List.filterMap_append]
    exact List.mem_append_left _ hstage
  appends_first := (List.pairwise_append.mp h.appends_first).1
  resolves := by
    intro path hpath
    obtain ⟨call, hcall, heq⟩ := List.mem_filterMap.mp hpath
    have happend : call.isAppend = false := by
      cases call <;> simp_all [path?, isAppend]
    rw [← ownTokens_append h.appends_first hcall happend]
    exact h.resolves path (by rw [paths_append]; exact List.mem_append_left _ hpath)
  assigns := by
    intro name hname
    obtain ⟨call, hcall, heq⟩ := List.mem_filterMap.mp hname
    have happend : call.isAppend = false := by
      cases call <;> simp_all [name?, isAppend]
    rw [← ownTokens_append h.appends_first hcall happend]
    exact h.assigns name (by rw [names_append]; exact List.mem_append_left _ hname)
  empty_array := h.empty_array

theorem IsOrderly.simpleStages (h : IsOrderly structural source calls) (template : Template) :
    SimpleStages calls template := by
  apply simpleStages_of_forall
  intro stage hstage
  exact h.stage_simple stage (List.mem_filterMap.mpr ⟨_, hstage, rfl⟩)

theorem KeepsArray.of_append {more : List TemplateCall}
    (h : KeepsArray structural source (calls ++ more)) : KeepsArray structural source calls := by
  intro hstages
  apply h
  rw [List.filterMap_append]
  exact fun hnil => hstages (List.append_eq_nil_iff.mp hnil).1

variable {key : UInt64} {cached : Bool}

theorem isSound_begun (h : IsOrderly structural source calls) :
    (begun structural source key cached).IsSound := by
  apply isSound_start
  split
  · exact h.source_simple.trim.settled structural
  · exact h.source_simple.trim

theorem stagesOn_begun (h : KeepsArray structural source calls) :
    stagesOn (begun structural source key cached).base calls =
      settledStages structural source calls := by
  cases cached with
  | true => rfl
  | false =>
      change stagesOn source.trim calls = stagesOn (source.trim.settled structural) calls
      by_cases hnone : calls.filterMap stage? = []
      · simp [stagesOn, hnone]
      · cases harray : isEnclosed '[' ']' source.trim with
        | true => simp [stagesOn, harray, isEnclosed_settled harray]
        | false =>
            have hsettled : isEnclosed '[' ']' (source.trim.settled structural) = false := by
              rw [Bool.eq_false_iff]
              intro hsettled
              rw [h hnone hsettled] at harray
              simp at harray
            simp [stagesOn, harray, hsettled]

/-- Once the stages are appended, orderly calls only resolve, assign and render. -/
theorem IsOrderly.run_begun (h : IsOrderly structural source calls)
    (hkeeps : KeepsArray structural source calls) (key : UInt64) (cached : Bool) :
    ∃ rest, (begun structural source key cached).run calls =
        (staged structural source key cached calls).run rest ∧
      (staged structural source key cached calls).IsSound ∧
      (∀ stage, .appendStage stage ∉ rest) ∧
      paths rest = paths calls ∧ names rest = names calls := by
  obtain ⟨front, rest, rfl, hfront, hrest⟩ := h.appends_first.exists_append
  have hstages : ∀ base : Text, stagesOn base (front ++ rest) = stagesOn base front := by
    intro base
    rw [stagesOn, stagesOn, List.filterMap_append, filterMap_stage?_eq_nil hrest, List.append_nil]
  have hstaged : (begun structural source key cached).run front =
      staged structural source key cached (front ++ rest) := by
    rw [run_of_isAppend hfront, ← hstages, stagesOn_begun hkeeps]
    rfl
  refine ⟨rest, ?_, ?_, hrest, ?_, ?_⟩
  · rw [run_append, hstaged]
  · rw [← hstaged]
    exact (isSound_begun h).run (h.of_append.simpleStages _)
  · rw [paths_append, paths_eq_nil_of_isAppend hfront, List.nil_append]
  · rw [names_append, names_eq_nil_of_isAppend hfront, List.nil_append]

theorem IsOrderly.mem_goal_begun (h : IsOrderly structural source calls) {token : Text} :
    token ∈ (begun structural source key cached).goal ↔
      token ∈ (begun structural source key cached).base.tokens := by
  have hgoal : (begun structural source key cached).goal =
      goalTags (begun structural source key cached).base := rfl
  rw [hgoal, mem_goalTags]
  refine and_iff_right_of_imp ?_
  intro htoken
  by_contra hempty
  rw [Bool.not_eq_false] at hempty
  have hsource : source.trim = ['[', ']'] := by
    apply h.empty_array
    cases cached with
    | false => exact Or.inl hempty
    | true => exact Or.inr hempty
  have hnone : (begun structural source key cached).base.tokens = [] := by
    cases cached with
    | false =>
        change source.trim.tokens = []
        rw [hsource]
        rfl
    | true =>
        change (source.trim.settled structural).tokens = []
        rw [hsource]
        rfl
  simp [hnone] at htoken

theorem mem_goal_staged {token : Text} :
    token ∈ (staged structural source key cached calls).goal ↔
      token ∈ (begun structural source key cached).goal ∨
        ∃ stage ∈ settledStages structural source calls, token ∈ stage.tokens :=
  mem_foldl_scan

theorem mem_stageTags_staged {token : Text} :
    token ∈ (staged structural source key cached calls).stageTags ↔
      ∃ stage ∈ settledStages structural source calls, token ∈ stage.tokens :=
  mem_foldl_scan.trans (by simp)

/-- The tags of a text from the cache are the values of the source. -/
theorem IsOrderly.mem_goal_begun_iff (h : IsOrderly structural source calls) {name : Text} :
    tagToken name ∈ (begun structural source key cached).goal ↔
      tagToken name ∈ source.trim.tokens ∧ (cached = true → structural name = false) := by
  rw [h.mem_goal_begun]
  cases cached with
  | false => simp [begun, start]
  | true =>
      change tagToken name ∈ (source.trim.settled structural).tokens ↔ _
      rw [mem_tokens_settled h.source_simple.trim, tagName_tagToken]
      simp

theorem IsOrderly.mem_goal_staged_iff (h : IsOrderly structural source calls) {name : Text} :
    tagToken name ∈ (staged structural source key cached calls).goal ↔
      tagToken name ∈ ownTokens structural source calls ∧
        (cached = true → structural name = true →
          tagToken name ∈ (staged structural source key cached calls).stageTags) := by
  rw [mem_goal_staged, h.mem_goal_begun_iff, mem_stageTags_staged, mem_ownTokens]
  cases cached with
  | false => simp
  | true => cases structural name <;> simp +contextual

/-- Orderly calls only request what is there. -/
theorem IsOrderly.missesNothing (h : IsOrderly structural source calls)
    (hkeeps : KeepsArray structural source calls) (key : UInt64) (cached : Bool) :
    ((begun structural source key cached).run calls).MissesNothing := by
  obtain ⟨rest, hrun, -, hrest, hpaths, hnames⟩ := h.run_begun hkeeps key cached
  rw [hrun]
  refine missesNothing_run (fun _ => TagSet.not_mem_empty _) hrest ?_ ?_
  · intro hcached path hpath
    rw [hpaths] at hpath
    obtain rfl : cached = false := hcached
    exact h.mem_goal_staged_iff.mpr ⟨(h.resolves path hpath).1, by simp⟩
  · intro name hname
    rw [hnames] at hname
    obtain ⟨hown, hvalue⟩ := h.assigns name hname
    exact h.mem_goal_staged_iff.mpr ⟨hown, by simp [hvalue]⟩

theorem IsOrderly.get?_values (h : IsOrderly structural source calls)
    (hkeeps : KeepsArray structural source calls) (key : UInt64) (cached : Bool) (token : Text) :
    ((begun structural source key cached).run calls).values.get? token =
      lastValue? token calls := by
  have hnone : (begun structural source key cached).values.get? token = none := rfl
  rw [get?_values_run (h.missesNothing hkeeps key cached), hnone, Option.or_none]

/-- Orderly calls that are complete cover all tags. -/
theorem IsOrderly.covers (h : IsOrderly structural source calls)
    (hkeeps : KeepsArray structural source calls) (hcomplete : IsComplete structural source calls)
    {token : Text} (hgoal : token ∈ ((begun structural source key cached).run calls).goal) :
    ((begun structural source key cached).run calls).Covers token := by
  obtain ⟨name, -, rfl⟩ := ((isSound_begun h).run (h.simpleStages _)).goal_plain token hgoal
  have hvalues := h.get?_values hkeeps key cached (tagToken name)
  have hmissing := h.missesNothing hkeeps key cached
  obtain ⟨rest, hrun, -, hrest, hpaths, -⟩ := h.run_begun hkeeps key cached
  rw [hrun] at hgoal hvalues hmissing ⊢
  rw [mem_goal_run, stagesOf_eq_nil hrest] at hgoal
  obtain ⟨hown, hstage⟩ := h.mem_goal_staged_iff.mp (by simpa using hgoal)
  have hanswer := hcomplete _ hown
  rw [tagName_tagToken] at hanswer
  cases hstructural : structural name with
  | false =>
      rw [hstructural, if_neg (by simp)] at hanswer
      right
      rw [hvalues, isSome_lastValue?_iff]
      exact ⟨name, hanswer, rfl⟩
  | true =>
      rw [hstructural, if_pos rfl, ← hpaths] at hanswer
      exact covers_run_of_path hmissing hanswer (by simpa using hgoal)
        fun hcached => Or.inl (hstage hcached hstructural)

/-! ## The text that orderly calls leave -/

theorem begun_base_settled (structural : Text → Bool) (source : Text) (key : UInt64) :
    (begun structural source key true).base = source.trim.settled structural :=
  rfl

/-- A template outside of the cache whose tags are covered has settled its source. -/
theorem IsOrderly.base_of_covers (h : IsOrderly structural source calls)
    (hmissing : ((begun structural source key false).run calls).MissesNothing)
    (hcached : ((begun structural source key false).run calls).cached = false)
    (hcovers : ∀ token ∈ ((begun structural source key false).run calls).goal,
      ((begun structural source key false).run calls).Covers token) :
    ((begun structural source key false).run calls).base = source.trim.settled structural := by
  have hbase : ((begun structural source key false).run calls).base =
      source.trim.expand (paths calls) := by
    rw [(isSound_begun h).run_base (h.simpleStages _) hmissing, basePaths_eq_paths hcached]
    rfl
  rw [hbase]
  refine (settled_eq_expand ?_).symm
  intro token htoken
  obtain ⟨name, -, rfl⟩ := h.source_simple.trim.exists_name htoken
  rw [tagName_tagToken]
  constructor
  · exact fun hpath => (h.resolves name hpath).2
  · intro hstructural
    have hgoal : tagToken name ∈ ((begun structural source key false).run calls).goal := by
      rw [mem_goal_run, h.mem_goal_begun_iff]
      exact Or.inl ⟨htoken, by simp⟩
    have hvalue : ((begun structural source key false).run calls).values.get? (tagToken name) =
        none := by
      rw [get?_values_eq_none_iff (fun _ => rfl) hmissing]
      intro hname
      rw [(h.assigns name hname).2] at hstructural
      simp at hstructural
    exact mem_paths_of_covers rfl (hcovers _ hgoal) hvalue

/-- A template that is in the cache has the settled text, whether it came from there or was stored
there. -/
theorem IsOrderly.base_of_cached (h : IsOrderly structural source calls)
    (hkeeps : KeepsArray structural source calls)
    (hcached : ((begun structural source key cached).run calls).cached = true) :
    ((begun structural source key cached).run calls).base = source.trim.settled structural := by
  cases cached with
  | true =>
      rw [(isSound_begun h).run_base (h.simpleStages _) (h.missesNothing hkeeps key true),
        basePaths_of_cached rfl, expand_nil, begun_base_settled]
  | false =>
      -- From the back: a template only comes into the cache by a render that found every tag
      -- covered, and from then on its text stays as it is.
      induction calls using List.reverseRecOn with
      | nil => simp [begun, start] at hcached
      | append_singleton calls call ih =>
          have hfront := h.of_append
          have hbefore := ih hfront hkeeps.of_append
          have hmissing := h.missesNothing hkeeps key false
          rw [run_append, run_cons, run_nil] at hcached hmissing ⊢
          cases hown : ((begun structural source key false).run calls).cached with
          | true =>
              rw [((isSound_begun hfront).run (hfront.simpleStages _)).after_base hmissing,
                if_pos hown, expand_nil, hbefore hown]
          | false =>
              obtain rfl := eq_render_of_after_cached hown hcached
              exact hfront.base_of_covers (hfront.missesNothing hkeeps.of_append key false) hown
                fun token htoken => covers_of_rendered_cached hown hcached htoken

/-- Complete calls lead to the settled text, wherever the template started. -/
theorem IsOrderly.base_of_isComplete (h : IsOrderly structural source calls)
    (hkeeps : KeepsArray structural source calls) (hcomplete : IsComplete structural source calls)
    (key : UInt64) (cached : Bool) :
    ((begun structural source key cached).run calls).base = source.trim.settled structural := by
  cases hcached : ((begun structural source key cached).run calls).cached with
  | true => exact h.base_of_cached hkeeps hcached
  | false =>
      obtain rfl : cached = false := cached_of_run_cached hcached
      exact h.base_of_covers (h.missesNothing hkeeps key false) hcached
        fun token htoken => h.covers hkeeps hcomplete htoken

theorem IsOrderly.stages (h : IsOrderly structural source calls)
    (hkeeps : KeepsArray structural source calls) (key : UInt64) (cached : Bool) :
    ((begun structural source key cached).run calls).stages =
      (settledStages structural source calls).map (expand (paths calls)) := by
  obtain ⟨rest, hrun, hsound, hrest, hpaths, -⟩ := h.run_begun hkeeps key cached
  have hsimple : SimpleStages rest (staged structural source key cached calls) := by
    simp [SimpleStages, stagesOf_eq_nil hrest]
  rw [hrun, hsound.run_stages hsimple, stagesOf_eq_nil hrest, hpaths]
  exact List.append_nil _

/-- The text that a template with complete calls renders to. -/
def settledText (structural : Text → Bool) (source : Text) (calls : List TemplateCall) : Text :=
  let base := source.trim.settled structural
  let stages := (settledStages structural source calls).map (expand (paths calls))
  (joinFragments (isBlankText (base.dropLast.drop 1)) base stages).substitute (lastValue? · calls)

/-- Orderly calls that are complete render, and to the same text from the source and from the
cache. -/
theorem IsOrderly.renderText_eq (h : IsOrderly structural source calls)
    (hkeeps : KeepsArray structural source calls) (hcomplete : IsComplete structural source calls)
    (key : UInt64) (cached : Bool) (cache : Cache) :
    (((begun structural source key cached).run calls).renderText cache).1 =
      .ok (settledText structural source calls) := by
  rw [renderText_eq_ok_iff]
  refine ⟨h.missesNothing hkeeps key cached, ?_, ?_⟩
  · exact fun token htoken => h.covers hkeeps hcomplete htoken
  · rw [filled, compose_eq, h.base_of_isComplete hkeeps hcomplete, h.stages hkeeps, settledText]
    apply substitute_congr
    intro token _
    exact h.get?_values hkeeps key cached token

end Orderly

end Template
end CommandTemplate
