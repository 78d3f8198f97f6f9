import CommandTemplate.Proofs.Template.Appending
import CommandTemplate.Proofs.Template.Delivery
import CommandTemplate.Proofs.Template.Fragments

/-!
# The same calls with and without the cache

A template that starts from a cached text and one that starts from the source take the same calls
differently: resolving skips the cached text, and what counts as a tag depends on what the earlier
template resolved.  When both render, each tag of the source that no stage has was treated alike by
the earlier template and by the calls, since otherwise one of the two renders would have failed.
Only the tags that the source shares with a stage can be treated differently without a failure.
-/

namespace CommandTemplate

open Text TemplateCall

namespace Template

/-! ## Stages that are taken alike -/

theorem isOk_perform_appendStage (stage : Text) (template : Template) (cache : Cache) :
    (template.perform (.appendStage stage) cache).1.isOk = template.accepts stage := by
  rw [← isOk_appendStage, perform]
  cases template.appendStage stage <;> rfl

theorem stagesOf_calls_eq_nil {request : TemplateRequest}
    (h : ∀ stage, request ≠ .appendStage stage) (template : Template) :
    stagesOf request.calls template = [] := by
  apply stagesOf_eq_nil
  intro stage hstage
  cases request <;> simp_all [TemplateRequest.calls]

/-- Two templates that accept the same stages have the same stages appended. -/
theorem stagesOf_eq_of_isOk_eq {requests : List TemplateRequest} {first second : Template}
    {cache other : Cache}
    (h : (first.performAll requests cache).1.map Except.isOk =
      (second.performAll requests other).1.map Except.isOk) :
    stagesOf (requests.flatMap TemplateRequest.calls) first =
      stagesOf (requests.flatMap TemplateRequest.calls) second := by
  induction requests generalizing first second cache other with
  | nil => rfl
  | cons request requests ih =>
      have hcons : ∀ (template : Template) (cache : Cache),
          (template.performAll (request :: requests) cache).1 =
            (template.perform request cache).1 ::
              ((template.perform request cache).2.1.performAll requests
                (template.perform request cache).2.2).1 := fun _ _ => rfl
      rw [hcons, hcons, List.map_cons, List.map_cons, List.cons.injEq] at h
      have hrest := ih h.2
      rw [perform_template, perform_template] at hrest
      rw [List.flatMap_cons, stagesOf_append, stagesOf_append, hrest]
      congr 1
      -- Only an append looks at the text, and its reply says whether the stage was taken.
      by_cases happend : ∃ stage, request = .appendStage stage
      · obtain ⟨stage, rfl⟩ := happend
        have haccepts := h.1
        rw [isOk_perform_appendStage, isOk_perform_appendStage] at haccepts
        simp only [TemplateRequest.calls, stagesOf, stageOf?, haccepts]
      · have hother : ∀ stage, request ≠ .appendStage stage :=
          fun stage heq => happend ⟨stage, heq⟩
        rw [stagesOf_calls_eq_nil hother, stagesOf_calls_eq_nil hother]

/-! ## The text that a template without stages stores -/

section Stored

variable {calls : List TemplateCall}

/-- Outside of the cache and without stages, what is resolved is replaced in the text, and nothing
else can be resolved than the tags of the text. -/
theorem base_of_stages_eq_nil {source : Text} {key : UInt64} (hsource : source.trim.HasSimpleTags)
    (hcached : ((start source key false source.trim).run calls).cached = false)
    (hstages : ((start source key false source.trim).run calls).stages = [])
    (hmissing : ((start source key false source.trim).run calls).MissesNothing) :
    ((start source key false source.trim).run calls).base = source.trim.expand (paths calls) ∧
      ∀ path ∈ paths calls, tagToken path ∈ goalTags source.trim := by
  have hnone := stagesOf_eq_nil_of_stages hstages
  constructor
  · rw [(isSound_start hsource).run_base (by simp [SimpleStages, hnone]) hmissing,
      basePaths_eq_paths hcached]
    rfl
  · intro path hpath
    have hgoal := mem_goal_of_mem_paths hcached hmissing hpath
    rw [mem_goal_run, hnone] at hgoal
    rcases hgoal with hgoal | ⟨entry, hentry, -⟩
    · exact hgoal
    · simp at hentry

end Stored

/-! ## Tags that are treated alike -/

section Alike

variable {source : Text} {key : UInt64} {earlier : List Text} {calls : List TemplateCall}
  {hit miss : Template} {name : Text}

theorem mem_goal_run_start {cached : Bool} {base token : Text} :
    token ∈ ((start source key cached base).run calls).goal ↔
      token ∈ goalTags base ∨ token ∈ ((start source key cached base).run calls).stageTags := by
  have hnone : token ∉ (start source key cached base).stageTags := TagSet.not_mem_empty token
  rw [mem_goal_run, mem_stageTags_run, or_iff_right hnone]
  rfl

/-- A tag that the earlier template resolved is resolved again: the text from the cache no longer
has it, so that it cannot be assigned a value there. -/
theorem mem_paths_of_mem_earlier (hsource : source.trim.HasSimpleTags)
    (hhit : hit = start source key true (source.trim.expand earlier))
    (hmiss : miss = start source key false source.trim)
    (hgoal : tagToken name ∈ goalTags source.trim) (hearlier : name ∈ earlier)
    (hhitMissing : (hit.run calls).MissesNothing) (hmissMissing : (miss.run calls).MissesNothing)
    (hmissCovers : ∀ token ∈ (miss.run calls).goal, (miss.run calls).Covers token)
    (hstage : tagToken name ∉ (hit.run calls).stageTags) : name ∈ paths calls := by
  subst hhit hmiss
  refine mem_paths_of_covers rfl (hmissCovers _ (mem_goal_run_start.mpr (Or.inl hgoal))) ?_
  rw [get?_values_eq_none_iff (fun _ => rfl) hmissMissing]
  intro hname
  have hhitGoal := mem_goal_of_mem_names hhitMissing hname
  rw [mem_goal_run_start, or_iff_left hstage, mem_goalTags, mem_tokens_expand hsource,
    tagName_tagToken] at hhitGoal
  exact hhitGoal.2.2 hearlier

/-- A tag that is resolved was resolved by the earlier template: else the text from the cache still
has it, where resolving does not reach. -/
theorem mem_earlier_of_mem_paths (hsource : source.trim.HasSimpleTags)
    (hhit : hit = start source key true (source.trim.expand earlier))
    (hmiss : miss = start source key false source.trim)
    (htoken : tagToken name ∈ source.trim.tokens) (hpath : name ∈ paths calls)
    (hname : name ∉ names calls)
    (hempty : hit.base.isEmptyArray = true → source.trim.isEmptyArray = true)
    (hhitMissing : (hit.run calls).MissesNothing)
    (hhitCovers : ∀ token ∈ (hit.run calls).goal, (hit.run calls).Covers token)
    (hmissMissing : (miss.run calls).MissesNothing) (hcached : (miss.run calls).cached = false)
    (hhitStage : tagToken name ∉ (hit.run calls).stageTags)
    (hmissStage : tagToken name ∉ (miss.run calls).stageTags) : name ∈ earlier := by
  subst hhit hmiss
  by_contra hearlier
  -- The source has the tag in its goal, since otherwise the tag would be missing there.
  have hmissGoal := mem_goal_of_mem_paths hcached hmissMissing hpath
  rw [mem_goal_run_start, or_iff_left hmissStage, mem_goalTags] at hmissGoal
  have hgoal : tagToken name ∈ goalTags (source.trim.expand earlier) := by
    rw [mem_goalTags, mem_tokens_expand hsource, tagName_tagToken]
    refine ⟨?_, htoken, hearlier⟩
    by_contra hsettled
    rw [Bool.not_eq_false] at hsettled
    rw [hempty hsettled] at hmissGoal
    simp at hmissGoal
  -- So the hit must cover it, which only a stage or a value can do there.
  have hvalue := (get?_values_eq_none_iff (fun _ => rfl) hhitMissing).mpr hname
  rcases hhitCovers _ (mem_goal_run_start.mpr (Or.inl hgoal)) with hreplaced | hsome
  · rcases mem_replaced_run hreplaced with hnone | hsome | ⟨-, -, -, hstage⟩
    · exact TagSet.not_mem_empty _ hnone
    · simp [hvalue] at hsome
    · exact hhitStage (hstage rfl)
  · simp [hvalue] at hsome

/-- When both templates render, the calls resolve the tags of the source that the earlier template
resolved, given that they do so for the tags that stages have too. -/
theorem expand_earlier_eq (hsource : source.trim.HasSimpleTags)
    (hhit : hit = start source key true (source.trim.expand earlier))
    (hmiss : miss = start source key false source.trim)
    (hresolved : ∀ path ∈ earlier, tagToken path ∈ goalTags source.trim)
    (hapart : ∀ path ∈ paths calls, path ∉ names calls)
    (hempty : hit.base.isEmptyArray = true → source.trim.isEmptyArray = true)
    (hhitMissing : (hit.run calls).MissesNothing)
    (hhitCovers : ∀ token ∈ (hit.run calls).goal, (hit.run calls).Covers token)
    (hmissMissing : (miss.run calls).MissesNothing)
    (hmissCovers : ∀ token ∈ (miss.run calls).goal, (miss.run calls).Covers token)
    (hcached : (miss.run calls).cached = false)
    (hstages : (hit.run calls).stageTags = (miss.run calls).stageTags)
    (hshared : ∀ token ∈ source.trim.tokens, token ∈ (miss.run calls).stageTags →
      (tagName token ∈ earlier ↔ tagName token ∈ paths calls)) :
    source.trim.expand earlier = source.trim.expand (paths calls) := by
  apply expand_congr
  intro token htoken
  by_cases hmissStage : token ∈ (miss.run calls).stageTags
  · exact hshared token htoken hmissStage
  · obtain ⟨name, -, rfl⟩ := hsource.exists_name htoken
    have hhitStage : tagToken name ∉ (hit.run calls).stageTags := by rwa [hstages]
    rw [tagName_tagToken]
    constructor
    · intro hname
      exact mem_paths_of_mem_earlier hsource hhit hmiss (hresolved name hname) hname hhitMissing
        hmissMissing hmissCovers hhitStage
    · intro hpath
      exact mem_earlier_of_mem_paths hsource hhit hmiss htoken hpath (hapart name hpath) hempty
        hhitMissing hhitCovers hmissMissing hcached hhitStage hmissStage

/-- With the same text and the same stages the values make the same text. -/
theorem filled_run_eq {first second : Template} (hfirst : first.IsSound) (hsecond : second.IsSound)
    (hfirstSimple : SimpleStages calls first) (hsecondSimple : SimpleStages calls second)
    (hfirstMissing : (first.run calls).MissesNothing)
    (hsecondMissing : (second.run calls).MissesNothing)
    (hbase : (first.run calls).base = (second.run calls).base)
    (hnone : first.stages = second.stages) (hstages : stagesOf calls first = stagesOf calls second)
    (hvalues : ∀ token, first.values.get? token = second.values.get? token) :
    (first.run calls).filled = (second.run calls).filled := by
  have hlast : (first.run calls).stages = (second.run calls).stages := by
    rw [hfirst.run_stages hfirstSimple, hsecond.run_stages hsecondSimple, hnone, hstages]
  rw [filled, filled, compose_eq, compose_eq, hbase, hlast]
  apply substitute_congr
  intro token _
  rw [get?_values_run hfirstMissing, get?_values_run hsecondMissing, hvalues]

end Alike

/-- A template that starts from a text of the cache and one that starts from the source render to
the same text after the same calls, if they accept the same stages, if no tag is both resolved and
assigned, and if a tag of the source that a stage has too is resolved by the calls just when the
earlier template resolved it that stored the text. -/
theorem renderText_hit_eq_miss {sourceKey : SourceKey} {source stored hitText missText : Text}
    {before afterEarly cache afterHit afterMiss : Cache} {capacity : Option Nat}
    {early hit miss : Template} {earlier requests : List TemplateRequest}
    (hearly : create sourceKey source before = (.ok early, afterEarly))
    (hstored : ((early.performAll earlier afterEarly).2.1.renderText
      (early.performAll earlier afterEarly).2.2).1 = .ok stored)
    (hcached : (early.performAll earlier afterEarly).2.1.cached = false)
    (hstages : (early.performAll earlier afterEarly).2.1.stages = [])
    (hlookup : (cache.lookup (sourceKey source) source).1 =
      some (early.performAll earlier afterEarly).2.1.base)
    (hhit : create sourceKey source cache = (.ok hit, afterHit))
    (hmiss : create sourceKey source (.ofCapacity capacity) = (.ok miss, afterMiss))
    (hrender : .render ∉ requests.flatMap TemplateRequest.calls)
    (hapart : ∀ path ∈ paths (requests.flatMap TemplateRequest.calls),
      path ∉ names (requests.flatMap TemplateRequest.calls))
    (hsource : source.HasSimpleTags)
    (hsimple : ∀ stage, .appendStage stage ∈ requests → stage.HasSimpleTags)
    (halike : (hit.performAll requests afterHit).1.map Except.isOk =
      (miss.performAll requests afterMiss).1.map Except.isOk)
    (hempty : (early.performAll earlier afterEarly).2.1.base.isEmptyArray = true →
      source.trim.isEmptyArray = true)
    (hshared : ∀ token ∈ source.trim.tokens,
      token ∈ (miss.performAll requests afterMiss).2.1.stageTags →
        (tagName token ∈ paths (earlier.flatMap TemplateRequest.calls) ↔
          tagName token ∈ paths (requests.flatMap TemplateRequest.calls)))
    (hhitText : ((hit.performAll requests afterHit).2.1.renderText
      (hit.performAll requests afterHit).2.2).1 = .ok hitText)
    (hmissText : ((miss.performAll requests afterMiss).2.1.renderText
      (miss.performAll requests afterMiss).2.2).1 = .ok missText) :
    hitText = missText := by
  rw [performAll_template] at hstored hcached hstages hlookup hempty
  simp only [performAll_template] at hshared hhitText hmissText
  obtain ⟨-, hearlySource, rfl⟩ : (before.lookup (sourceKey source) source).1 = none ∧
      IsSource source ∧ early = start source (sourceKey source) false source.trim := by
    rcases create_cases hearly with ⟨expanded, -, rfl⟩ | hfresh
    · rw [run_cached_of_cached rfl] at hcached
      simp at hcached
    · exact hfresh
  obtain ⟨hearlyMissing, -, -⟩ := renderText_eq_ok_iff.mp hstored
  obtain ⟨hhitMissing, hhitCovers, rfl⟩ := renderText_eq_ok_iff.mp hhitText
  obtain ⟨hmissMissing, hmissCovers, rfl⟩ := renderText_eq_ok_iff.mp hmissText
  obtain ⟨hentry, hresolved⟩ :=
    base_of_stages_eq_nil hsource.trim hcached hstages hearlyMissing
  rw [hentry] at hlookup hempty
  generalize paths (earlier.flatMap TemplateRequest.calls) = names
    at hlookup hempty hshared hresolved
  rw [create_of_lookup_some hearlySource.1 hlookup] at hhit
  obtain rfl : start source (sourceKey source) true (source.trim.expand names) = hit :=
    Except.ok.inj (congrArg Prod.fst hhit)
  have hnone : ((Cache.ofCapacity capacity).lookup (sourceKey source) source).1 = none := rfl
  obtain ⟨-, rfl⟩ : IsSource source ∧
      miss = start source (sourceKey source) false source.trim :=
    (create_of_lookup_none hnone).mp (by rw [hmiss])
  have hstagesEq := stagesOf_eq_of_isOk_eq halike
  have hsimpleRun : ∀ template, SimpleStages (requests.flatMap TemplateRequest.calls) template :=
    simpleStages_of_forall fun stage hstage => hsimple stage (mem_of_appendStage_mem_calls hstage)
  generalize requests.flatMap TemplateRequest.calls = calls at *
  have hhitSound : (start source (sourceKey source) true (source.trim.expand names)).IsSound :=
    isSound_start (hsource.trim.expand names)
  have hmissSound : (start source (sourceKey source) false source.trim).IsSound :=
    isSound_start hsource.trim
  have hmissCached : ((start source (sourceKey source) false source.trim).run calls).cached =
      false :=
    run_cached_of_not_mem_render hrender _
  refine filled_run_eq hhitSound hmissSound (hsimpleRun _) (hsimpleRun _) hhitMissing hmissMissing ?_
    rfl hstagesEq fun _ => rfl
  rw [hhitSound.run_base (hsimpleRun _) hhitMissing, basePaths_of_cached rfl, expand_nil,
    hmissSound.run_base (hsimpleRun _) hmissMissing, basePaths_eq_paths hmissCached]
  refine expand_earlier_eq hsource.trim rfl rfl hresolved hapart hempty hhitMissing hhitCovers
    hmissMissing hmissCovers hmissCached ?_ hshared
  rw [run_stageTags, run_stageTags, hstagesEq]
  rfl

/-- A tag that the text and a stage share, resolved before and again. -/
theorem renderText_hit_eq_miss_sort :
    let source : Text := "[{$match:{<f>:<v>}}]".toList
    let early := start source 0 false source
    let earlier := early.performAll [.resolve ['f'], .assign ['v'] ['1']] .unbounded
    let stored := (earlier.2.1.renderText earlier.2.2).2.2
    let hit := start source 0 true "[{$match:{f:<v>}}]".toList
    let miss := start source 0 false source
    let requests : List TemplateRequest :=
      [.appendStage "{$sort:<f>}".toList, .assign ['v'] ['2'], .resolve ['f']]
    let hitLater := hit.performAll requests stored
    let missLater := miss.performAll requests .unbounded
    create (fun _ => 0) source stored = (.ok hit, stored) ∧
      create (fun _ => 0) source .unbounded = (.ok miss, .unbounded) ∧
      (hitLater.2.1.renderText hitLater.2.2).1 = .ok "[{$match:{f:2}},{$sort:f}]".toList ∧
      (missLater.2.1.renderText missLater.2.2).1 = (hitLater.2.1.renderText hitLater.2.2).1 := by
  intro source early earlier stored hit miss requests hitLater missLater
  have hhit : create (fun _ => 0) source stored = (.ok hit, stored) := by decide +kernel
  have hmiss : create (fun _ => 0) source .unbounded = (.ok miss, .unbounded) := by
    decide +kernel
  have hrender : (earlier.2.1.renderText earlier.2.2).1 = .ok "[{$match:{f:1}}]".toList := by
    decide +kernel
  have hsimple : ∀ stage, .appendStage stage ∈ requests → stage.HasSimpleTags := by
    intro stage hstage
    obtain rfl : stage = "{$sort:<f>}".toList := by simpa [requests] using hstage
    decide +kernel
  have hhitText : (hitLater.2.1.renderText hitLater.2.2).1 =
      .ok "[{$match:{f:2}},{$sort:f}]".toList := by
    decide +kernel
  obtain ⟨missText, hmissText⟩ : ∃ text,
      (missLater.2.1.renderText missLater.2.2).1 = .ok text :=
    ⟨"[{$match:{f:2}},{$sort:f}]".toList, by decide +kernel⟩
  have hsame := renderText_hit_eq_miss hmiss hrender (by decide +kernel) (by decide +kernel)
    (by decide +kernel) hhit hmiss (by decide +kernel) (by decide +kernel) (by decide +kernel)
    hsimple (by decide +kernel) (by decide +kernel) (by decide +kernel) hhitText hmissText
  refine ⟨hhit, hmiss, hhitText, ?_⟩
  rw [hhitText, hmissText, hsame]

/-- Where the hypotheses fail, a template can render to one text from the cache and to another from
the source: when a stage has a tag that was resolved and now gets a value, when resolving makes an
array or an empty array, and when a tag has a second `<`. -/
theorem hit_differs_from_miss :
    let answers := fun (source : Text) (earlier requests : List TemplateRequest) =>
      let stored := serve (fun _ => 0) source earlier .unbounded
      (stored.1.isOk, (serve (fun _ => 0) source requests stored.2).1,
        (serve (fun _ => 0) source requests .unbounded).1)
    answers "[<A>]".toList [.resolve ['A']]
        [.appendStage "{<A>}".toList, .assign ['A'] ['x']] =
        (true, .ok "[A,{x}]".toList, .ok "[x,{x}]".toList) ∧
      answers "<[>1<]>".toList [.resolve ['['], .resolve [']']]
        [.appendStage "{}".toList, .resolve ['['], .resolve [']']] =
        (true, .ok "[1,{}]".toList, .ok "[1]".toList) ∧
      answers "[<>]<v>]".toList [.resolve [], .assign ['v'] ['1']]
        [.resolve [], .resolve ['v']] =
        (true, .ok "[]<v>]".toList, .ok "[]v]".toList) ∧
      answers "<<A>> <A>".toList [.resolve "<A".toList, .resolve ['A']]
        [.resolve ['A'], .resolve "<A".toList] =
        (true, .ok "A A".toList, .ok "<A> A".toList) := by
  decide +kernel

end Template
end CommandTemplate
