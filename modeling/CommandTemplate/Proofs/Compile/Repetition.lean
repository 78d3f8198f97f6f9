import CommandTemplate.Compile.Basic
import CommandTemplate.Proofs.Cache.HitAndMiss
import CommandTemplate.Proofs.Cache.Sharing
import CommandTemplate.Proofs.Template.Redaction

/-!
# Compiling twice

The first compilation of a source stores its text in the cache with the structural tags replaced, and
the second one starts from there.  It resolves nothing and can only assign the tags that are left.
When no tag of the source has a second `<`, that makes no difference, with one exception: a tag that
is both resolved and assigned is no longer there to be assigned the second time.
-/

namespace CommandTemplate

open Text Template TemplateCall

/-! ## Requests as calls -/

/-- The call that assigns a value to a tag. -/
def TemplateCall.ofTag (tag : Text × Text) : TemplateCall :=
  .assign tag.1 tag.2

namespace CompileRequest

/-- The names of collections and the paths that a request resolves. -/
def resolved (request : CompileRequest) : List Text :=
  request.collections ++ request.paths.map PathArgument.text

/-- The calls that a request without stages makes of a template with a given goal. -/
def callsFor (goal : TagSet) (request : CompileRequest) : List TemplateCall :=
  request.resolved.map .resolve ++
    ((request.defaultTags.filter fun tag => tagToken tag.1 ∈ goal).map ofTag ++
      request.tags.map ofTag)

variable {goal : TagSet} {request : CompileRequest}

theorem paths_callsFor : TemplateCall.paths (request.callsFor goal) = request.resolved := by
  have hresolve : ∀ names : List Text, TemplateCall.paths (names.map .resolve) = names := by
    intro names
    rw [TemplateCall.paths, List.filterMap_map]
    exact List.filterMap_some
  have hassign : ∀ tags : List (Text × Text), TemplateCall.paths (tags.map ofTag) = [] := by
    intro tags
    rw [TemplateCall.paths, List.filterMap_map, List.filterMap_eq_nil_iff]
    exact fun _ _ => rfl
  rw [callsFor, paths_append, paths_append, hresolve, hassign, hassign, List.append_nil,
    List.append_nil]

theorem names_map_resolve (paths : List Text) : names (paths.map .resolve) = [] := by
  rw [names, List.filterMap_map, List.filterMap_eq_nil_iff]
  exact fun _ _ => rfl

theorem names_map_ofTag (tags : List (Text × Text)) :
    names (tags.map ofTag) = tags.map Prod.fst := by
  rw [names, List.filterMap_map, ← List.filterMap_eq_map]
  rfl

theorem mem_names_callsFor {name : Text} :
    name ∈ names (request.callsFor goal) ↔
      (∃ tag ∈ request.defaultTags, tag.1 = name ∧ tagToken name ∈ goal) ∨
        ∃ tag ∈ request.tags, tag.1 = name := by
  rw [callsFor, names_append, names_append, names_map_resolve, names_map_ofTag, names_map_ofTag,
    List.nil_append, List.mem_append, List.mem_map, List.mem_map]
  simp only [List.mem_filter, decide_eq_true_iff]
  refine or_congr_left ⟨?_, ?_⟩
  · rintro ⟨tag, ⟨htag, hgoal⟩, rfl⟩
    exact ⟨tag, htag, rfl, hgoal⟩
  · rintro ⟨tag, htag, rfl, hgoal⟩
    exact ⟨tag, ⟨htag, hgoal⟩, rfl⟩

theorem appendStage_not_mem_callsFor (stage : Text) :
    .appendStage stage ∉ request.callsFor goal := by
  simp [callsFor, ofTag]

theorem render_not_mem_callsFor : .render ∉ request.callsFor goal := by
  simp [callsFor, ofTag]

theorem lastValue?_append (token : Text) (calls others : List TemplateCall) :
    lastValue? token (calls ++ others) = (lastValue? token others).or (lastValue? token calls) := by
  induction calls with
  | nil => rw [List.nil_append, lastValue?, Option.or_none]
  | cons call calls ih => rw [List.cons_append, lastValue?, ih, lastValue?, Option.or_assoc]

/-- Leaving out tags that a template does not contain changes no value of a tag that it does. -/
theorem lastValue?_filter {token : Text} (hgoal : token ∈ goal) (tags : List (Text × Text)) :
    lastValue? token ((tags.filter fun tag => tagToken tag.1 ∈ goal).map ofTag) =
      lastValue? token (tags.map ofTag) := by
  induction tags with
  | nil => rfl
  | cons tag tags ih =>
      by_cases hmem : tagToken tag.1 ∈ goal
      · rw [List.filter_cons_of_pos (by simpa using hmem), List.map_cons, List.map_cons,
          lastValue?, lastValue?, ih]
      · have hother : tagToken tag.1 ≠ token := fun heq => hmem (heq ▸ hgoal)
        rw [List.filter_cons_of_neg (by simpa using hmem), ih, List.map_cons, lastValue?,
          ofTag, value?, if_neg hother, Option.or_none]

/-- The value of a tag that two templates contain is the same in both. -/
theorem lastValue?_callsFor {other : TagSet} {token : Text} (hgoal : token ∈ goal)
    (hother : token ∈ other) :
    lastValue? token (request.callsFor goal) = lastValue? token (request.callsFor other) := by
  simp only [callsFor, lastValue?_append, lastValue?_filter hgoal, lastValue?_filter hother]

end CompileRequest

namespace Template

theorem resolveCollections_eq_run (names : List Text) (template : Template) :
    template.resolveCollections names = template.run (names.map .resolve) := by
  induction names generalizing template with
  | nil => rfl
  | cons name names ih => exact ih _

theorem resolvePaths_eq_run (arguments : List PathArgument) (template : Template) :
    template.resolvePaths arguments =
      template.run ((arguments.map PathArgument.text).map .resolve) := by
  induction arguments generalizing template with
  | nil => rfl
  | cons argument arguments ih =>
      rw [List.map_cons, List.map_cons, run_cons, after_resolve, PathArgument.text,
        ← resolvePath_eq]
      exact ih _

theorem assignAll_eq_run (tags : List (Text × Text)) (template : Template) :
    template.assignAll tags = template.run (tags.map ofTag) := by
  induction tags generalizing template with
  | nil => rfl
  | cons tag tags ih => exact ih _

theorem assignDefaults_eq_run (tags : List (Text × Text)) (template : Template) :
    template.assignDefaults tags =
      template.run ((tags.filter fun tag => tagToken tag.1 ∈ template.goal).map ofTag) := by
  induction tags generalizing template with
  | nil => rfl
  | cons tag tags ih =>
      rw [assignDefaults, List.foldl_cons]
      by_cases hgoal : tagToken tag.1 ∈ template.goal
      · rw [if_pos hgoal, List.filter_cons_of_pos (by simpa using hgoal), List.map_cons, run_cons]
        have hrest := ih (template.assign tag.1 tag.2)
        rw [assign_goal] at hrest
        exact hrest
      · rw [if_neg hgoal, List.filter_cons_of_neg (by simpa using hgoal)]
        exact ih template

/-- Filling a template is a run: names and paths first, then defaults, then the given values. -/
theorem fill_eq_run (request : CompileRequest) (template : Template) :
    template.fill request = template.run (request.callsFor template.goal) := by
  have hgoal : ∀ (names : List Text) (start : Template),
      (start.run (names.map .resolve)).goal = start.goal :=
    fun _ start => run_goal_of_not_mem (by simp) start
  rw [fill, resolveCollections_eq_run, resolvePaths_eq_run, assignDefaults_eq_run,
    assignAll_eq_run, hgoal, hgoal, ← run_append, ← run_append, ← run_append,
    CompileRequest.callsFor, CompileRequest.resolved, List.map_append, List.append_assoc]

end Template

/-- What a view makes of a rendered text. -/
def OutputView.show (view : OutputView) (text : Text) : Except TemplateError Text :=
  match view with
  | .text => .ok text
  | .stages | .filters =>
    ((readDocuments text).mapError TemplateError.documents).map fun documents =>
      (Document.arrayOf documents).indented

/-- A view of a rendered text can fail, but not for a missing tag. -/
theorem OutputView.show_ne_missingTags (view : OutputView) (text : Text) (missing : TagSet) :
    view.show text ≠ .error (.missingTags missing) := by
  cases view <;> cases hread : readDocuments text <;>
    simp [OutputView.show, hread, Except.map]

theorem mapError_template_injective {α : Type} :
    Function.Injective (Except.mapError CompileError.template (α := α)) := by
  intro first second h
  cases first <;> cases second <;> simp_all

theorem mapError_template_eq_ok_iff {α : Type} {result : Except TemplateError α} {value : α} :
    result.mapError CompileError.template = .ok value ↔ result = .ok value :=
  mapError_template_injective.eq_iff (b := .ok value)

theorem mapError_template_eq_error_iff {α : Type} {result : Except TemplateError α}
    {error : TemplateError} :
    result.mapError CompileError.template = .error (.template error) ↔ result = .error error :=
  mapError_template_injective.eq_iff (b := .error error)

/-- Filters are shown as stages are: the documents are wrapped and unwrapped again. -/
theorem Template.renderView_filters (template : Template) (cache : Cache) :
    template.renderView .filters cache = template.renderView .stages cache := by
  have hunwrapped : ∀ documents : List Document,
      (documents.map ArrayFilter.mk).map ArrayFilter.document = documents :=
    fun documents => by rw [List.map_map]; exact List.map_id documents
  simp only [renderView, renderArrayFilters_eq]
  cases (template.renderDocuments cache).1 with
  | error error => rfl
  | ok documents => simp only [Except.map, hunwrapped]

theorem Template.renderView_eq (view : OutputView) (template : Template) (cache : Cache) :
    template.renderView view cache =
      ((template.renderText cache).1.bind view.show, (template.renderText cache).2.2) := by
  have hdocuments : ((template.renderDocuments cache).1.map fun documents =>
        (Document.arrayOf documents).indented) =
      (template.renderText cache).1.bind fun text =>
        ((readDocuments text).mapError TemplateError.documents).map fun documents =>
          (Document.arrayOf documents).indented := by
    rw [renderDocuments_eq]
    cases (template.renderText cache).1 <;> rfl
  have hcache : (template.renderDocuments cache).2.2 = (template.renderText cache).2.2 := by
    rw [renderDocuments_eq]
  cases view with
  | text =>
      rcases hresult : template.renderText cache with ⟨result, rendered, after⟩
      simp only [renderView, hresult]
      cases result <;> rfl
  | stages => exact Prod.ext hdocuments hcache
  | filters =>
      rw [renderView_filters]
      exact Prod.ext hdocuments hcache

/-! ## One compilation -/

section Compile

variable {sourceKey : SourceKey} {source : Text} {request : CompileRequest} {view : OutputView}
  {cache after : Cache} {made : Template}

theorem compile_of_create_error {error : TemplateError}
    (hmade : create sourceKey source cache = (.error error, after)) :
    compile sourceKey source request view cache = (.error (.template error), after) := by
  rw [compile, hmade]

/-- A request without stages comes down to a render after its calls. -/
theorem compile_of_create_ok {key : UInt64} {cached : Bool} {text : Text} (view : OutputView)
    (hstages : request.stages = [])
    (hmade : create sourceKey source cache = (.ok (start source key cached text), after)) :
    compile sourceKey source request view cache =
      (((((start source key cached text).run (request.callsFor (goalTags text))).renderText
            after).1.bind view.show).mapError .template,
        (((start source key cached text).run (request.callsFor (goalTags text))).renderText
          after).2.2) := by
  have hgoal : (start source key cached text).goal = goalTags text := rfl
  rw [compile, hmade]
  simp only [hstages, appendStages, renderView_eq, fill_eq_run, hgoal]

end Compile

theorem Cache.lookup_store_ofCapacity (capacity : Option Nat) (key : UInt64)
    (source expanded : Text) :
    (ofCapacity capacity).store key source expanded = ofCapacity capacity ∨
      (((ofCapacity capacity).store key source expanded).lookup key source).1 = some expanded := by
  rw [store]
  split
  · right
    rw [lookup_eq_some_iff, RecencyMap.get?_put, if_pos rfl]
  · exact Or.inl rfl

/-! ## The two templates -/

namespace CompileRequest

/-- The template of the first compilation when it is rendered. -/
def onSource (request : CompileRequest) (source : Text) (key : UInt64) : Template :=
  (start source key false source.trim).run (request.callsFor (goalTags source.trim))

/-- The template of a compilation that starts from a stored text, when it is rendered. -/
def onStored (request : CompileRequest) (source : Text) (key : UInt64) (stored : Text) :
    Template :=
  (start source key true stored).run (request.callsFor (goalTags stored))

section Templates

variable {source stored text : Text} {key : UInt64} {request : CompileRequest} {cache : Cache}

theorem stages_run_callsFor {goal : TagSet} {template : Template} (h : template.stages = []) :
    (template.run (request.callsFor goal)).stages = [] :=
  stages_run_eq_nil appendStage_not_mem_callsFor h

theorem goal_run_callsFor {goal : TagSet} (template : Template) :
    (template.run (request.callsFor goal)).goal = template.goal :=
  run_goal_of_not_mem appendStage_not_mem_callsFor template

theorem filled_of_stages_eq_nil {template : Template} (h : template.stages = []) :
    template.filled = template.base.substitute template.values.get? := by
  rw [filled, compose, if_pos h]

/-- When the first compilation passes its checks, it has replaced the tags that the request resolves,
all of which the source has. -/
theorem base_onSource (hsimple : source.HasSimpleTags)
    (hmissing : (request.onSource source key).MissesNothing) :
    (request.onSource source key).base = source.trim.expand request.resolved ∧
      ∀ path ∈ request.resolved, tagToken path ∈ goalTags source.trim := by
  have hcached : (request.onSource source key).cached = false :=
    run_cached_of_not_mem_render render_not_mem_callsFor _
  have hbase := base_of_stages_eq_nil hsimple.trim hcached (stages_run_callsFor rfl) hmissing
  rwa [paths_callsFor] at hbase

/-- A text with replaced tags that begins with the empty array was made from such a text, or has no
tags left. -/
def KeepsTags (request : CompileRequest) (source : Text) : Prop :=
  (source.trim.expand request.resolved).isEmptyArray = true →
    source.trim.isEmptyArray = true ∨ (source.trim.expand request.resolved).tokens = []

instance (request : CompileRequest) (source : Text) : Decidable (request.KeepsTags source) :=
  inferInstanceAs (Decidable (_ → _))

/-- The stored text has the tags of the source that are not resolved. -/
theorem mem_goalTags_expand (hsimple : source.HasSimpleTags) (hkeeps : request.KeepsTags source)
    (hresolved : ∀ path ∈ request.resolved, tagToken path ∈ goalTags source.trim) {name : Text} :
    tagToken name ∈ goalTags (source.trim.expand request.resolved) ↔
      tagToken name ∈ goalTags source.trim ∧ name ∉ request.resolved := by
  rw [mem_goalTags, mem_tokens_expand hsimple.trim, tagName_tagToken, mem_goalTags]
  constructor
  · rintro ⟨hstored, htoken, hname⟩
    refine ⟨⟨?_, htoken⟩, hname⟩
    by_contra hempty
    rw [Bool.not_eq_false] at hempty
    -- A source that begins with the empty array has no tags to resolve, so that nothing changes.
    have hnone : request.resolved = [] := by
      rw [List.eq_nil_iff_forall_not_mem]
      intro path hpath
      have hgoal := hresolved path hpath
      rw [mem_goalTags, hempty] at hgoal
      simp at hgoal
    rw [hnone, expand_nil, hempty] at hstored
    simp at hstored
  · rintro ⟨⟨hsource, htoken⟩, hname⟩
    refine ⟨?_, htoken, hname⟩
    by_contra hempty
    rw [Bool.not_eq_false] at hempty
    rcases hkeeps hempty with hsource' | hnone
    · simp [hsource] at hsource'
    · have hleft : tagToken name ∈ (source.trim.expand request.resolved).tokens :=
        (mem_tokens_expand hsimple.trim).mpr ⟨htoken, by rwa [tagName_tagToken]⟩
      simp [hnone] at hleft

/-- From the stored text nothing is missing if nothing was from the source and no tag of the request
was resolved: what the request names beside the resolved tags is in the stored text as well. -/
theorem missesNothing_onStored (hsimple : source.HasSimpleTags) (hkeeps : request.KeepsTags source)
    (hmissing : (request.onSource source key).MissesNothing)
    (hapart : ∀ tag ∈ request.tags, tag.1 ∉ request.resolved) :
    (request.onStored source key (source.trim.expand request.resolved)).MissesNothing := by
  have hresolved := (base_onSource hsimple hmissing).2
  refine missesNothing_run (fun _ => TagSet.not_mem_empty _) appendStage_not_mem_callsFor
    (by simp [start]) ?_
  intro name hname
  change tagToken name ∈ goalTags (source.trim.expand request.resolved)
  rcases mem_names_callsFor.mp hname with ⟨tag, -, rfl, hdefault⟩ | ⟨tag, htag, rfl⟩
  · exact hdefault
  · have hgoal := mem_goal_of_mem_names hmissing
      (mem_names_callsFor.mpr (Or.inr ⟨tag, htag, rfl⟩))
    rw [goal_run_callsFor] at hgoal
    exact (mem_goalTags_expand hsimple hkeeps hresolved).mpr ⟨hgoal, hapart tag htag⟩

theorem base_onStored (hstored : stored.HasSimpleTags)
    (hmissing : (request.onStored source key stored).MissesNothing) :
    (request.onStored source key stored).base = stored := by
  rw [onStored, (isSound_start hstored).run_base
    (by simp [SimpleStages, stagesOf_eq_nil appendStage_not_mem_callsFor]) hmissing,
    basePaths_of_cached rfl, expand_nil]
  rfl

/-- A tag that is left in the stored text gets the same value as in the source. -/
theorem lastValue?_onStored (hsimple : source.HasSimpleTags) (hkeeps : request.KeepsTags source)
    (hresolved : ∀ path ∈ request.resolved, tagToken path ∈ goalTags source.trim) {token : Text}
    (htoken : token ∈ (source.trim.expand request.resolved).tokens) :
    lastValue? token (request.callsFor (goalTags (source.trim.expand request.resolved))) =
      lastValue? token (request.callsFor (goalTags source.trim)) := by
  by_cases hempty : (source.trim.expand request.resolved).isEmptyArray = true
  · rcases hkeeps hempty with hsource | hnone
    · rw [goalTags, goalTags, if_pos hempty, if_pos hsource]
    · simp [hnone] at htoken
  · rw [Bool.not_eq_true] at hempty
    have hgoal := mem_goalTags.mpr ⟨hempty, htoken⟩
    obtain ⟨name, -, rfl⟩ := exists_name_of_mem_tokens htoken
    exact lastValue?_callsFor hgoal ((mem_goalTags_expand hsimple hkeeps hresolved).mp hgoal).1

/-- A tag that is left in the stored text was covered in the source by a value, which it gets again. -/
theorem covers_onStored (hsimple : source.HasSimpleTags) (hkeeps : request.KeepsTags source)
    (hmissing : (request.onSource source key).MissesNothing)
    (hcovers : ∀ token ∈ (request.onSource source key).goal,
      (request.onSource source key).Covers token)
    (hstoredMissing :
      (request.onStored source key (source.trim.expand request.resolved)).MissesNothing)
    {token : Text} (htoken : token ∈ goalTags (source.trim.expand request.resolved)) :
    (request.onStored source key (source.trim.expand request.resolved)).Covers token := by
  have hresolved := (base_onSource hsimple hmissing).2
  obtain ⟨name, -, rfl⟩ := exists_name_of_mem_tokens (mem_goalTags.mp htoken).2
  obtain ⟨hgoal, hname⟩ := (mem_goalTags_expand hsimple hkeeps hresolved).mp htoken
  have hcovered : (request.onSource source key).Covers (tagToken name) := by
    apply hcovers
    rw [onSource, goal_run_callsFor]
    exact hgoal
  right
  by_contra hnone
  rw [Option.not_isSome_iff_eq_none, onStored, get?_values_eq_none_iff (fun _ => rfl)
    hstoredMissing, mem_names_callsFor, not_or] at hnone
  have hsourceNone : (request.onSource source key).values.get? (tagToken name) = none := by
    rw [onSource, get?_values_eq_none_iff (fun _ => rfl) hmissing, mem_names_callsFor, not_or]
    refine ⟨?_, hnone.2⟩
    rintro ⟨tag, htag, heq, -⟩
    exact hnone.1 ⟨tag, htag, heq, htoken⟩
  have hpath := mem_paths_of_covers rfl hcovered hsourceNone
  rw [paths_callsFor] at hpath
  exact hname hpath

/-- From the stored text the render succeeds as it did from the source, and to the same text, when
no tag of the request was resolved. -/
theorem renderText_onStored (hsimple : source.HasSimpleTags) (hkeeps : request.KeepsTags source)
    (htext : ((request.onSource source key).renderText cache).1 = .ok text)
    (hapart : ∀ tag ∈ request.tags, tag.1 ∉ request.resolved) (other : Cache) :
    ((request.onStored source key (source.trim.expand request.resolved)).renderText other).1 =
      .ok text := by
  obtain ⟨hmissing, hcovers, rfl⟩ := renderText_eq_ok_iff.mp htext
  obtain ⟨hbase, hresolved⟩ := base_onSource hsimple hmissing
  have hstoredMissing := missesNothing_onStored hsimple hkeeps hmissing hapart
  have hstoredBase := base_onStored (hsimple.trim.expand _) hstoredMissing
  refine renderText_eq_ok_iff.mpr ⟨hstoredMissing, ?_, ?_⟩
  · intro token htoken
    rw [onStored, goal_run_callsFor] at htoken
    exact covers_onStored hsimple hkeeps hmissing hcovers hstoredMissing htoken
  · have hnoStages : (request.onSource source key).stages = [] := stages_run_callsFor rfl
    have hnoStored :
        (request.onStored source key (source.trim.expand request.resolved)).stages = [] :=
      stages_run_callsFor rfl
    rw [filled_of_stages_eq_nil hnoStages, filled_of_stages_eq_nil hnoStored, hbase, hstoredBase]
    apply substitute_congr
    intro token htoken
    rw [onSource, onStored, get?_values_run hmissing, get?_values_run hstoredMissing,
      lastValue?_onStored hsimple hkeeps hresolved htoken]
    rfl

/-- From the stored text, a tag of the request that was resolved is missing. -/
theorem renderText_onStored_of_mem_resolved (hsimple : source.HasSimpleTags)
    {tag : Text × Text} (htag : tag ∈ request.tags) (hresolved : tag.1 ∈ request.resolved)
    (other : Cache) :
    ∃ missing,
      ((request.onStored source key (source.trim.expand request.resolved)).renderText other).1 =
        .error (.missingTags missing) := by
  have hmissing :
      ¬(request.onStored source key (source.trim.expand request.resolved)).MissesNothing := by
    intro hmissing
    have hgoal := mem_goal_of_mem_names hmissing
      (mem_names_callsFor.mpr (Or.inr ⟨tag, htag, rfl⟩))
    rw [goal_run_callsFor] at hgoal
    have htoken := (mem_goalTags.mp hgoal).2
    rw [mem_tokens_expand hsimple.trim, tagName_tagToken] at htoken
    exact htoken.2 hresolved
  obtain ⟨token, htoken⟩ := not_forall_not.mp hmissing
  exact ⟨_, by rw [renderText_eq, obstacle?_countValues_of_missing htoken]⟩

end Templates

end CompileRequest

/-! ## Two compilations -/

/-- Compiling a source twice on one cache that was empty gives the same result both times exactly if
the first time stores nothing, because the source or its tags are refused, or if no tag is named both
by a collection or path and by a value that is not a default. -/
theorem compile_again_eq_iff {sourceKey : SourceKey} {source : Text} {request : CompileRequest}
    {view : OutputView} {capacity : Option Nat} (hstages : request.stages = [])
    (hsimple : source.HasSimpleTags) (hkeeps : request.KeepsTags source) :
    (compile sourceKey source request view
        (compile sourceKey source request view (.ofCapacity capacity)).2).1 =
        (compile sourceKey source request view (.ofCapacity capacity)).1 ↔
      (compile sourceKey source request view (.ofCapacity capacity)).2 = .ofCapacity capacity ∨
        ∀ tag ∈ request.tags, tag.1 ∉ request.resolved := by
  by_cases hnothing :
      (compile sourceKey source request view (.ofCapacity capacity)).2 = .ofCapacity capacity
  · simp [hnothing]
  · rw [or_iff_right hnothing]
    have hempty : (create sourceKey source (.ofCapacity capacity)).2 = .ofCapacity capacity := by
      rw [create_cache, Cache.lookup_ofCapacity, ite_self]
    rcases hmade : create sourceKey source (.ofCapacity capacity) with ⟨made, after⟩
    rw [hmade] at hempty
    obtain rfl : after = .ofCapacity capacity := hempty
    cases made with
    | error error => rw [compile_of_create_error hmade] at hnothing; exact absurd rfl hnothing
    | ok made =>
        obtain ⟨hsource, rfl⟩ : IsSource source ∧
            made = start source (sourceKey source) false source.trim :=
          (create_of_lookup_none (by rw [Cache.lookup_ofCapacity capacity])).mp (by rw [hmade])
        have hfirst := compile_of_create_ok view hstages hmade
        rw [← CompileRequest.onSource] at hfirst
        rw [hfirst] at hnothing ⊢
        rcases renderText_cache (request.onSource source (sourceKey source))
          (.ofCapacity capacity) with hsame | ⟨-, -, hobstacle, hstored⟩
        · exact absurd hsame hnothing
        · have htext : ((request.onSource source (sourceKey source)).renderText
              (.ofCapacity capacity)).1 =
                .ok (request.onSource source (sourceKey source)).filled := by
            rw [renderText_eq, hobstacle]
          have hmissing := (renderText_eq_ok_iff.mp htext).1
          obtain ⟨hbase, -⟩ := CompileRequest.base_onSource hsimple hmissing
          have hkey : (request.onSource source (sourceKey source)).key = sourceKey source :=
            run_key _ _
          have hname : (request.onSource source (sourceKey source)).source = source :=
            run_source _ _
          rw [hbase, hkey, hname] at hstored
          rw [hstored] at hnothing ⊢
          have hlookup := (Cache.lookup_store_ofCapacity capacity (sourceKey source) source
            (source.trim.expand request.resolved)).resolve_left hnothing
          have hsecond := compile_of_create_ok view hstages
            (create_of_lookup_some hsource.1 hlookup)
          rw [← CompileRequest.onStored] at hsecond
          rw [hsecond, htext]
          constructor
          · intro hsame tag htag hresolved
            obtain ⟨missing, hrefused⟩ := CompileRequest.renderText_onStored_of_mem_resolved
              hsimple htag hresolved
              (((Cache.ofCapacity capacity).store (sourceKey source) source
                (source.trim.expand request.resolved)).lookup (sourceKey source) source).2
            rw [hrefused] at hsame
            exact view.show_ne_missingTags _ missing (mapError_template_injective hsame.symm)
          · intro hapart
            rw [CompileRequest.renderText_onStored hsimple hkeeps htext hapart]

/-- A collection and a path that are resolved, a value, and default values of which one has no tag. -/
theorem compile_match_again :
    let source : Text := "[{$match:{<f>:<v>,<g>:<w>}}]".toList
    let request : CompileRequest := {
      collections := [['f']]
      paths := [⟨.dotted, .single ['g']⟩]
      stages := []
      defaultTags := [(['w'], ['0']), (['x'], ['0'])]
      tags := [(['v'], ['1'])] }
    (compile (fun _ => 0) source request .stages
        (compile (fun _ => 0) source request .stages (.ofCapacity (some 1))).2).1 =
      (compile (fun _ => 0) source request .stages (.ofCapacity (some 1))).1 :=
  (compile_again_eq_iff rfl (by decide +kernel) (by decide +kernel)).mpr
    (Or.inr (by decide +kernel))

/-- A compilation can fail the second time: when a tag is both resolved and assigned, when a tag has
a second `<`, and when resolving leaves a text that begins with the empty array. -/
theorem compile_again_refused :
    let request := fun (collection : Text) (tags : List (Text × Text)) =>
      (⟨[collection], [], [], [], tags⟩ : CompileRequest)
    let results := fun (source : Text) (request : CompileRequest) =>
      let first := compile (fun _ => 0) source request .text .unbounded
      (first.1, (compile (fun _ => 0) source request .text first.2).1)
    results "<A>".toList (request ['A'] [(['A'], ['1'])]) =
        (.ok ['A'], .error (.template (.missingTags (Text.tags "<A>".toList)))) ∧
      results "<a<b>>".toList (request "a<b".toList []) =
        (.ok "a<b>".toList, .error (.template (.unresolvedTags (Text.tags "<b>".toList)))) ∧
      results "[<>]<v>]".toList (request [] [(['v'], ['1'])]) =
        (.ok "[]1]".toList, .error (.template (.missingTags (Text.tags "<v>".toList)))) := by
  decide +kernel

end CommandTemplate
