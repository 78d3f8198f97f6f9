import CommandTemplate.Proofs.Template.Soundness

/-!
# What a run of calls leaves

A run is described by what was asked for in it: the paths that were resolved, the names that got
values, and the stages with the calls that came after each of them.  In a sound template a stage ends
up as it was appended, with the tags of all paths resolved since then replaced, and the goal grows by
the tags of the stages.
-/

namespace CommandTemplate

open Text

namespace TemplateCall

def path? : TemplateCall → Option Text
  | .resolve path => some path
  | _ => none

/-- The name that a call assigns a value to. -/
def name? : TemplateCall → Option Text
  | .assign name _ => some name
  | _ => none

def appended? : TemplateCall → Option Text
  | .appendStage stage => some stage
  | _ => none

/-- The value that a call assigns to a token. -/
def value? (token : Text) : TemplateCall → Option Text
  | .assign name value => if tagToken name = token then some value else none
  | _ => none

/-- The paths that calls resolve. -/
def paths (calls : List TemplateCall) : List Text :=
  calls.filterMap path?

/-- The names that calls assign values to. -/
def names (calls : List TemplateCall) : List Text :=
  calls.filterMap name?

/-- The last value that calls assign to a token. -/
def lastValue? (token : Text) : List TemplateCall → Option Text
  | [] => none
  | call :: calls => (lastValue? token calls).or (call.value? token)

end TemplateCall

namespace Template

open TemplateCall

def stageOf? (template : Template) : TemplateCall → Option Text
  | .appendStage stage => if template.accepts stage then some stage.trim else none
  | _ => none

/-- The stages that calls append to a template, each with the calls that come after it. -/
def stagesOf : List TemplateCall → Template → List (Text × List TemplateCall)
  | [], _ => []
  | call :: calls, template =>
    ((template.stageOf? call).toList.map fun stage => (stage, calls)) ++
      stagesOf calls (template.after call)

/-- The paths that calls resolve while the text of the template is its own, not from the cache. -/
def basePaths : List TemplateCall → Template → List Text
  | [], _ => []
  | call :: calls, template =>
    (if template.cached then [] else call.path?.toList) ++ basePaths calls (template.after call)

/-- The stages that calls append to a template have simple tags. -/
def SimpleStages (calls : List TemplateCall) (template : Template) : Prop :=
  ∀ entry ∈ stagesOf calls template, entry.1.HasSimpleTags

theorem mem_stagesOf_cons {call : TemplateCall} {calls : List TemplateCall}
    {template : Template} {entry : Text × List TemplateCall} :
    entry ∈ stagesOf (call :: calls) template ↔
      (template.stageOf? call = some entry.1 ∧ entry.2 = calls) ∨
        entry ∈ stagesOf calls (template.after call) := by
  rw [stagesOf, List.mem_append, List.mem_map]
  simp only [Option.mem_toList]
  constructor
  · rintro (⟨stage, hstage, rfl⟩ | h)
    · exact Or.inl ⟨hstage, rfl⟩
    · exact Or.inr h
  · rintro (⟨hstage, hrest⟩ | h)
    · exact Or.inl ⟨entry.1, hstage, by rw [← hrest]⟩
    · exact Or.inr h

theorem SimpleStages.head {call : TemplateCall} {calls : List TemplateCall} {template : Template}
    (h : SimpleStages (call :: calls) template) (stage : Text) (hcall : call = .appendStage stage)
    (haccepts : template.accepts stage = true) : stage.trim.HasSimpleTags := by
  refine h (stage.trim, calls) (mem_stagesOf_cons.mpr (Or.inl ⟨?_, rfl⟩))
  rw [hcall, stageOf?, if_pos haccepts]

theorem SimpleStages.tail {call : TemplateCall} {calls : List TemplateCall} {template : Template}
    (h : SimpleStages (call :: calls) template) : SimpleStages calls (template.after call) :=
  fun entry hentry => h entry (mem_stagesOf_cons.mpr (Or.inr hentry))

theorem trim_of_stageOf? {call : TemplateCall} {template : Template} {stage : Text}
    (h : template.stageOf? call = some stage) :
    ∃ before, call = .appendStage before ∧ stage = before.trim := by
  cases call with
  | appendStage before =>
      rw [stageOf?] at h
      split at h
      · exact ⟨before, rfl, (Option.some.inj h).symm⟩
      · simp at h
  | resolve path => simp [stageOf?] at h
  | assign name value => simp [stageOf?] at h
  | render => simp [stageOf?] at h

theorem simpleStages_of_forall {calls : List TemplateCall}
    (h : ∀ stage, .appendStage stage ∈ calls → stage.HasSimpleTags) (template : Template) :
    SimpleStages calls template := by
  induction calls generalizing template with
  | nil => simp [SimpleStages, stagesOf]
  | cons call calls ih =>
      intro entry hentry
      rcases mem_stagesOf_cons.mp hentry with ⟨hstage, -⟩ | hrest
      · obtain ⟨before, rfl, heq⟩ := trim_of_stageOf? hstage
        rw [heq]
        exact (h before List.mem_cons_self).trim
      · exact ih (fun stage hstage => h stage (List.mem_cons_of_mem _ hstage)) _ entry hrest

theorem mem_of_appendStage_mem_calls {requests : List TemplateRequest} {stage : Text}
    (h : .appendStage stage ∈ requests.flatMap TemplateRequest.calls) :
    .appendStage stage ∈ requests := by
  obtain ⟨request, hrequest, hcall⟩ := List.mem_flatMap.mp h
  cases request with
  | appendStage other =>
      obtain rfl : stage = other := by simpa [TemplateRequest.calls] using hcall
      exact hrequest
  | resolveAll group paths => simp [TemplateRequest.calls] at hcall
  | resolve path => simp [TemplateRequest.calls] at hcall
  | resolvePath path form => simp [TemplateRequest.calls] at hcall
  | collection name => simp [TemplateRequest.calls] at hcall
  | assign name value => simp [TemplateRequest.calls] at hcall
  | renderText => simp [TemplateRequest.calls] at hcall
  | renderDocuments => simp [TemplateRequest.calls] at hcall

theorem IsSound.run {template : Template} (h : template.IsSound) {calls : List TemplateCall}
    (hcalls : SimpleStages calls template) : (template.run calls).IsSound := by
  induction calls generalizing template with
  | nil => exact h
  | cons call calls ih => exact ih (h.after hcalls.head) hcalls.tail

theorem run_source (calls : List TemplateCall) (template : Template) :
    (template.run calls).source = template.source := by
  induction calls generalizing template with
  | nil => rfl
  | cons call calls ih =>
      rw [run_cons, ih]
      cases call with
      | resolve path =>
          simp only [after_resolve, resolve]
          split <;> split <;> rfl
      | assign name value =>
          simp only [after_assign, assign]
          split <;> rfl
      | appendStage stage => exact appended_source template stage
      | render => rfl

theorem run_key (calls : List TemplateCall) (template : Template) :
    (template.run calls).key = template.key := by
  induction calls generalizing template with
  | nil => rfl
  | cons call calls ih =>
      rw [run_cons, ih]
      cases call with
      | resolve path =>
          simp only [after_resolve, resolve]
          split <;> split <;> rfl
      | assign name value =>
          simp only [after_assign, assign]
          split <;> rfl
      | appendStage stage => exact appended_key template stage
      | render => rfl

theorem paths_cons (call : TemplateCall) (calls : List TemplateCall) :
    paths (call :: calls) = call.path?.toList ++ paths calls := by
  rw [paths, List.filterMap_cons]
  cases call.path? <;> rfl

theorem paths_append (calls others : List TemplateCall) :
    paths (calls ++ others) = paths calls ++ paths others :=
  List.filterMap_append

theorem names_append (calls others : List TemplateCall) :
    names (calls ++ others) = names calls ++ names others :=
  List.filterMap_append

theorem names_cons (call : TemplateCall) (calls : List TemplateCall) :
    names (call :: calls) = call.name?.toList ++ names calls := by
  rw [names, List.filterMap_cons]
  cases call.name? <;> rfl

/-- A call that changes the text replaces the tag of the path that it resolves. -/
theorem after_base_cases (call : TemplateCall) (template : Template) :
    (template.after call).base = template.base ∨
      ∃ path, call.path? = some path ∧
        (template.after call).base = template.base.replaceAll (tagToken path) path := by
  cases call with
  | resolve path =>
      by_cases hsame : template.cached = true ∨ tagToken path ∉ template.goal
      · exact Or.inl (resolve_base_of_not_mem hsame)
      · rw [not_or, Bool.not_eq_true, not_not] at hsame
        exact Or.inr ⟨path, rfl, by simp [resolve, hsame.1, hsame.2]⟩
  | assign name value => exact Or.inl (assign_base template name value)
  | appendStage stage => exact Or.inl (appended_base template stage)
  | render => exact Or.inl rfl

/-! ## Templates of the cache -/

theorem after_cached_of_cached {call : TemplateCall} {template : Template}
    (h : template.cached = true) : (template.after call).cached = true := by
  cases call with
  | resolve path => simpa using h
  | assign name value => simpa using h
  | appendStage stage => simpa using h
  | render => simp [rendered, h]

theorem eq_render_of_after_cached {call : TemplateCall} {template : Template}
    (hcached : template.cached = false) (h : (template.after call).cached = true) :
    call = .render := by
  cases call with
  | resolve path => simp [hcached] at h
  | assign name value => simp [hcached] at h
  | appendStage stage => simp [hcached] at h
  | render => rfl

theorem run_cached_of_cached {calls : List TemplateCall} {template : Template}
    (h : template.cached = true) : (template.run calls).cached = true := by
  induction calls generalizing template with
  | nil => exact h
  | cons call calls ih => exact ih (after_cached_of_cached h)

theorem cached_of_run_cached {calls : List TemplateCall} {template : Template}
    (h : (template.run calls).cached = false) : template.cached = false := by
  cases hcached : template.cached with
  | false => rfl
  | true => rw [run_cached_of_cached hcached] at h; exact h

theorem basePaths_of_cached {calls : List TemplateCall} {template : Template}
    (h : template.cached = true) : basePaths calls template = [] := by
  induction calls generalizing template with
  | nil => rfl
  | cons call calls ih => rw [basePaths, if_pos h, ih (after_cached_of_cached h)]; rfl

theorem basePaths_eq_paths {calls : List TemplateCall} {template : Template}
    (h : (template.run calls).cached = false) : basePaths calls template = paths calls := by
  induction calls generalizing template with
  | nil => rfl
  | cons call calls ih =>
      have hcached : template.cached = false := cached_of_run_cached h
      rw [basePaths, hcached, ih h, paths_cons]
      rfl

theorem run_cached_of_not_mem_render {calls : List TemplateCall} (h : .render ∉ calls)
    (template : Template) : (template.run calls).cached = template.cached := by
  induction calls generalizing template with
  | nil => rfl
  | cons call calls ih =>
      rw [List.mem_cons, not_or] at h
      rw [run_cons, ih h.2]
      cases call with
      | resolve path => simp
      | assign name value => simp
      | appendStage stage => simp
      | render => exact absurd rfl h.1

/-! ## Stages and goals -/

/-- The stages after a call: the old ones with the path of the call expanded, and a new one. -/
theorem IsSound.after_stages {template : Template} (h : template.IsSound) (call : TemplateCall) :
    (template.after call).stages =
      template.stages.map (expand call.path?.toList) ++ (template.stageOf? call).toList := by
  have hsame : template.stages.map (expand []) = template.stages :=
    (List.map_congr_left fun stage _ => expand_nil stage).trans (List.map_id _)
  cases call with
  | resolve path => simpa [path?, stageOf?] using h.resolve_stages path
  | assign name value => simp [path?, stageOf?, hsame]
  | appendStage stage =>
      rw [after_appendStage, appended_eq, stageOf?]
      split
      · simp [path?, hsame]
      · simp [path?, hsame]
  | render => simp [path?, stageOf?, hsame]

/-- Every stage ends up with the tags of the paths expanded that were resolved after it came. -/
theorem IsSound.run_stages {template : Template} (h : template.IsSound)
    {calls : List TemplateCall} (hcalls : SimpleStages calls template) :
    (template.run calls).stages =
      template.stages.map (expand (paths calls)) ++
        (stagesOf calls template).map fun entry => entry.1.expand (paths entry.2) := by
  induction calls generalizing template with
  | nil =>
      have hsame : template.stages.map (expand []) = template.stages :=
        (List.map_congr_left fun stage _ => expand_nil stage).trans (List.map_id _)
      simp [paths, stagesOf, hsame]
  | cons call calls ih =>
      have hold : (template.stages.map (expand call.path?.toList)).map (expand (paths calls)) =
          template.stages.map (expand (paths (call :: calls))) := by
        rw [List.map_map]
        apply List.map_congr_left
        intro stage hstage
        rw [Function.comp_apply, expand_expand (h.stage_simple stage hstage), paths_cons]
      rw [run_cons, ih (h.after hcalls.head) hcalls.tail, h.after_stages, List.map_append, hold,
        stagesOf, List.map_append, List.map_map, ← List.append_assoc]
      rfl

theorem stagesOf_append (calls others : List TemplateCall) (template : Template) :
    stagesOf (calls ++ others) template =
      ((stagesOf calls template).map fun entry => (entry.1, entry.2 ++ others)) ++
        stagesOf others (template.run calls) := by
  induction calls generalizing template with
  | nil => rfl
  | cons call calls ih =>
      rw [List.cons_append, stagesOf, ih, stagesOf, List.map_append, List.map_map,
        List.append_assoc, run_cons]
      rfl

theorem length_stages_after (call : TemplateCall) (template : Template) :
    (template.after call).stages.length =
      template.stages.length + (template.stageOf? call).toList.length := by
  cases call with
  | resolve path =>
      simp only [after_resolve, resolve, stageOf?, replaceInStages]
      split <;> split <;> simp
  | assign name value => simp [stageOf?]
  | appendStage stage =>
      rw [after_appendStage, appended_eq, stageOf?]
      split <;> simp
  | render => simp [stageOf?]

theorem length_stages_run (calls : List TemplateCall) (template : Template) :
    (template.run calls).stages.length =
      template.stages.length + (stagesOf calls template).length := by
  induction calls generalizing template with
  | nil => rfl
  | cons call calls ih =>
      rw [run_cons, ih, length_stages_after, stagesOf, List.length_append, List.length_map,
        Nat.add_assoc]

theorem stagesOf_eq_nil_of_stages {calls : List TemplateCall} {template : Template}
    (h : (template.run calls).stages = []) : stagesOf calls template = [] := by
  have hlength := length_stages_run calls template
  rw [h, List.length_nil] at hlength
  exact List.length_eq_zero_iff.mp (by omega)

theorem after_goal (call : TemplateCall) (template : Template) :
    (template.after call).goal =
      (template.stageOf? call).toList.foldl TagSet.scan template.goal := by
  cases call with
  | appendStage stage =>
      rw [after_appendStage, appended_eq, stageOf?]
      split <;> rfl
  | resolve path => simp [stageOf?]
  | assign name value => simp [stageOf?]
  | render => simp [stageOf?]

theorem after_stageTags (call : TemplateCall) (template : Template) :
    (template.after call).stageTags =
      (template.stageOf? call).toList.foldl TagSet.scan template.stageTags := by
  cases call with
  | appendStage stage =>
      rw [after_appendStage, appended_eq, stageOf?]
      split <;> rfl
  | resolve path => simp [stageOf?]
  | assign name value => simp [stageOf?]
  | render => simp [stageOf?]

theorem map_fst_stagesOf_cons (call : TemplateCall) (calls : List TemplateCall)
    (template : Template) :
    (stagesOf (call :: calls) template).map Prod.fst =
      (template.stageOf? call).toList ++ (stagesOf calls (template.after call)).map Prod.fst := by
  rw [stagesOf, List.map_append, List.map_map]
  exact congrArg (· ++ _) (List.map_id _)

/-- The goal grows by the tags of the stages in the order in which they are appended. -/
theorem run_goal (calls : List TemplateCall) (template : Template) :
    (template.run calls).goal =
      ((stagesOf calls template).map Prod.fst).foldl TagSet.scan template.goal := by
  induction calls generalizing template with
  | nil => rfl
  | cons call calls ih =>
      rw [run_cons, ih, after_goal, map_fst_stagesOf_cons, List.foldl_append]

theorem run_stageTags (calls : List TemplateCall) (template : Template) :
    (template.run calls).stageTags =
      ((stagesOf calls template).map Prod.fst).foldl TagSet.scan template.stageTags := by
  induction calls generalizing template with
  | nil => rfl
  | cons call calls ih =>
      rw [run_cons, ih, after_stageTags, map_fst_stagesOf_cons, List.foldl_append]

theorem mem_foldl_scan {texts : List Text} {tags : TagSet} {token : Text} :
    token ∈ texts.foldl TagSet.scan tags ↔
      token ∈ tags ∨ ∃ text ∈ texts, token ∈ text.tokens := by
  induction texts generalizing tags with
  | nil => simp
  | cons text texts ih =>
      simp only [List.foldl_cons, ih, mem_goal_scan, List.mem_cons, exists_eq_or_imp, or_assoc]

theorem mem_goal_run {calls : List TemplateCall} {template : Template} {token : Text} :
    token ∈ (template.run calls).goal ↔
      token ∈ template.goal ∨ ∃ entry ∈ stagesOf calls template, token ∈ entry.1.tokens := by
  simp only [run_goal, mem_foldl_scan, List.mem_map, exists_exists_and_eq_and]

theorem mem_stageTags_run {calls : List TemplateCall} {template : Template} {token : Text} :
    token ∈ (template.run calls).stageTags ↔
      token ∈ template.stageTags ∨ ∃ entry ∈ stagesOf calls template, token ∈ entry.1.tokens := by
  simp only [run_stageTags, mem_foldl_scan, List.mem_map, exists_exists_and_eq_and]

/-! ## Runs without stages -/

theorem stageOf?_eq_none {call : TemplateCall} (h : ∀ stage, call ≠ .appendStage stage)
    (template : Template) : template.stageOf? call = none := by
  cases call with
  | appendStage stage => exact absurd rfl (h stage)
  | resolve path => rfl
  | assign name value => rfl
  | render => rfl

theorem ne_appendStage_of_not_mem_cons {call : TemplateCall} {calls : List TemplateCall}
    (h : ∀ stage, .appendStage stage ∉ call :: calls) :
    (∀ stage, call ≠ .appendStage stage) ∧ ∀ stage, .appendStage stage ∉ calls := by
  constructor
  · rintro stage rfl
    exact h stage List.mem_cons_self
  · exact fun stage hstage => h stage (List.mem_cons_of_mem _ hstage)

theorem stagesOf_eq_nil {calls : List TemplateCall}
    (h : ∀ stage, .appendStage stage ∉ calls) (template : Template) :
    stagesOf calls template = [] := by
  induction calls generalizing template with
  | nil => rfl
  | cons call calls ih =>
      obtain ⟨hcall, hrest⟩ := ne_appendStage_of_not_mem_cons h
      rw [stagesOf, stageOf?_eq_none hcall, ih hrest]
      rfl

theorem run_goal_of_not_mem {calls : List TemplateCall}
    (hcalls : ∀ stage, .appendStage stage ∉ calls) (template : Template) :
    (template.run calls).goal = template.goal := by
  rw [run_goal, stagesOf_eq_nil hcalls]
  rfl

theorem stages_run_eq_nil {calls : List TemplateCall} {template : Template}
    (hcalls : ∀ stage, .appendStage stage ∉ calls) (h : template.stages = []) :
    (template.run calls).stages = [] := by
  have hlength := length_stages_run calls template
  rw [stagesOf_eq_nil hcalls, h] at hlength
  exact List.length_eq_zero_iff.mp hlength

theorem after_goal_of_ne {call : TemplateCall} (h : ∀ stage, call ≠ .appendStage stage)
    (template : Template) : (template.after call).goal = template.goal := by
  rw [after_goal, stageOf?_eq_none h]
  rfl

end Template
end CommandTemplate
