import CommandTemplate.Proofs.Cache.HitAndMiss
import CommandTemplate.Proofs.Cache.Sharing
import CommandTemplate.Proofs.Template.Redaction
import Mathlib.Data.List.Forall2

/-!
# Where the entries of a cache come from

Whatever happens to templates that share a cache, each entry of the cache was made from its source by
replacing tags by paths, one after the other, and the paths were resolved on a template of this
source.  What is assigned or appended is not in the entries: without it, the cache would be the
same.
-/

namespace CommandTemplate

open Text Template TemplateCall

/-- The text after the tags of paths are replaced by the paths, one after the other. -/
def Text.replacePaths (paths : List Text) (text : Text) : Text :=
  paths.foldl (fun text path => text.replaceAll (tagToken path) path) text

/-! ## The text of a template -/

namespace Template

/-- Calls do nothing to the text but replace tags of paths that they resolve. -/
theorem exists_run_base_eq_replacePaths (calls : List TemplateCall) (template : Template) :
    ∃ replaced, replaced.Sublist (paths calls) ∧
      (template.run calls).base = template.base.replacePaths replaced := by
  induction calls generalizing template with
  | nil => exact ⟨[], List.Sublist.refl _, rfl⟩
  | cons call calls ih =>
      obtain ⟨replaced, hsub, hbase⟩ := ih (template.after call)
      rw [run_cons, paths_cons]
      rcases after_base_cases call template with hsame | ⟨path, hpath, hreplaced⟩
      · refine ⟨replaced, hsub.trans (List.sublist_append_right _ _), ?_⟩
        rw [hbase, hsame]
      · refine ⟨path :: replaced, ?_, ?_⟩
        · rw [hpath]
          exact hsub.cons_cons path
        · rw [hbase, hreplaced]
          rfl

theorem perform_cache_of_hasStages {template : Template} (h : template.hasStages = true)
    (request : TemplateRequest) (cache : Cache) :
    (template.perform request cache).2.2 = cache := by
  rcases perform_cache request template cache with hsame | ⟨-, hnone, -⟩
  · exact hsame
  · simp [h] at hnone

/-- A request that is refused because of tags that are missing or not taken care of. -/
def IsUnmet (reply : Except TemplateError TemplateReply) : Prop :=
  ∃ tags, reply = .error (.missingTags tags) ∨ reply = .error (.unresolvedTags tags)

theorem perform_cache_of_isUnmet {request : TemplateRequest} {template : Template} {cache : Cache}
    (h : IsUnmet (template.perform request cache).1) :
    (template.perform request cache).2.2 = cache := by
  have htext : ∀ error, (template.renderText cache).1 = .error error →
      (template.renderText cache).2.2 = cache := by
    intro error herror
    rcases renderText_cache template cache with hsame | ⟨-, -, hobstacle, -⟩
    · exact hsame
    · rw [renderText_eq, hobstacle] at herror
      simp at herror
  obtain ⟨tags, htags⟩ := h
  cases request with
  | renderText =>
      simp only [perform] at htags ⊢
      cases hresult : (template.renderText cache).1 with
      | error error => exact htext error hresult
      | ok text => simp [hresult, Except.map] at htags
  | renderDocuments =>
      simp only [perform, renderDocuments_eq] at htags ⊢
      cases hresult : (template.renderText cache).1 with
      | error error => exact htext error hresult
      | ok text =>
          rw [hresult] at htags
          cases hread : readDocuments text <;>
            simp [hread, Except.bind, Except.map] at htags
  | resolve path => rfl
  | resolvePath path form => rfl
  | resolveAll group paths =>
      simp only [perform]
      cases template.resolveAll group paths <;> rfl
  | collection name => rfl
  | assign name value => rfl
  | appendStage stage =>
      simp only [perform]
      cases template.appendStage stage <;> rfl

end Template

/-! ## What is left out of the cache -/

/-- The request without the texts that no path is made of: an assigned value becomes empty, and an
appended stage becomes the empty document if it is in braces and else nothing. -/
def TemplateRequest.bare : TemplateRequest → TemplateRequest
  | .assign name _ => .assign name []
  | .appendStage stage =>
    .appendStage (if isEnclosed '{' '}' stage.trim then ['{', '}'] else [])
  | request => request

namespace Template

/-- Two templates that store the same: both have stages and store nothing, or both have none and
differ in nothing but values. -/
def StoresLike (first second : Template) : Prop :=
  (first.hasStages = true ∧ second.hasStages = true) ∨
    first.stages = [] ∧ first.redacted = second.redacted

theorem hasStages_run_of_hasStages {template : Template} (h : template.hasStages = true)
    (calls : List TemplateCall) : (template.run calls).hasStages = true := by
  have hlength := length_stages_run calls template
  rw [hasStages, Bool.not_eq_true', List.isEmpty_eq_false_iff] at h ⊢
  intro hnone
  rw [hnone, List.length_nil] at hlength
  exact h (List.length_eq_zero_iff.mp (by omega))

theorem stages_perform_of_ne_appendStage {request : TemplateRequest} {template : Template}
    (hrequest : ∀ stage, request ≠ .appendStage stage) (hnone : template.stages = [])
    (cache : Cache) : (template.perform request cache).2.1.stages = [] := by
  have hlength := length_stages_run request.calls template
  rw [stagesOf_calls_eq_nil hrequest, hnone] at hlength
  rw [perform_template]
  exact List.length_eq_zero_iff.mp hlength

theorem perform_appendStage (stage : Text) (template : Template) (cache : Cache) :
    (template.perform (.appendStage stage) cache).2 = (template.appended stage, cache) := by
  rw [perform, appended]
  cases template.appendStage stage <;> rfl

theorem isEnclosed_bare (stage : Text) :
    isEnclosed '{' '}' (Text.trim (if isEnclosed '{' '}' stage.trim then ['{', '}'] else [])) =
      isEnclosed '{' '}' stage.trim := by
  cases isEnclosed '{' '}' stage.trim with
  | true => decide
  | false => decide

theorem StoresLike.appended {first second : Template} (h : StoresLike first second)
    (stage : Text) :
    StoresLike (first.appended stage)
      (second.appended (if isEnclosed '{' '}' stage.trim then ['{', '}'] else [])) := by
  rcases h with ⟨hfirst, hsecond⟩ | ⟨hnone, hsame⟩
  · exact Or.inl ⟨hasStages_run_of_hasStages hfirst [.appendStage stage],
      hasStages_run_of_hasStages hsecond [.appendStage _]⟩
  · have hbase : first.base = second.base := by
      change first.redacted.base = second.redacted.base
      rw [hsame]
    have haccepts : second.accepts (if isEnclosed '{' '}' stage.trim then ['{', '}'] else []) =
        first.accepts stage := by
      rw [accepts_eq, accepts_eq, isEnclosed_bare, hbase]
    rw [appended_eq, appended_eq, haccepts]
    split
    · exact Or.inl ⟨by simp [hasStages], by simp [hasStages]⟩
    · exact Or.inr ⟨hnone, hsame⟩

/-- Templates that store the same do so after any request, whatever is assigned or appended by it. -/
theorem StoresLike.perform {first second : Template} (h : StoresLike first second)
    (request : TemplateRequest) (cache : Cache) :
    StoresLike (first.perform request cache).2.1 (second.perform request.bare cache).2.1 ∧
      (first.perform request cache).2.2 = (second.perform request.bare cache).2.2 := by
  by_cases happend : ∃ stage, request = .appendStage stage
  · obtain ⟨stage, rfl⟩ := happend
    rw [TemplateRequest.bare, perform_appendStage, perform_appendStage]
    exact ⟨h.appended stage, rfl⟩
  · rcases h with ⟨hfirst, hsecond⟩ | ⟨hnone, hsame⟩
    · rw [perform_template, perform_template, perform_cache_of_hasStages hfirst,
        perform_cache_of_hasStages hsecond]
      exact ⟨Or.inl ⟨hasStages_run_of_hasStages hfirst _, hasStages_run_of_hasStages hsecond _⟩,
        rfl⟩
    · have hother : ∀ stage, request ≠ .appendStage stage :=
        fun stage heq => happend ⟨stage, heq⟩
      have hbare : request.bare = request.redacted ∧
          request.redacted.redacted = request.redacted := by
        cases request with
        | appendStage stage => exact absurd rfl (hother stage)
        | resolve path => exact ⟨rfl, rfl⟩
        | resolvePath path form => exact ⟨rfl, rfl⟩
        | resolveAll group paths => exact ⟨rfl, rfl⟩
        | collection name => exact ⟨rfl, rfl⟩
        | assign name value => exact ⟨rfl, rfl⟩
        | renderText => exact ⟨rfl, rfl⟩
        | renderDocuments => exact ⟨rfl, rfl⟩
      have hfirst := (perform_redacted request first cache).1
      have hsecond := (perform_redacted request.redacted second cache).1
      rw [hbare.2, ← hsame, hfirst, Prod.mk.injEq] at hsecond
      rw [hbare.1]
      exact ⟨Or.inr ⟨stages_perform_of_ne_appendStage hother hnone cache, hsecond.1⟩, hsecond.2⟩

end Template

/-! ## Templates that share a cache -/

/-- The step without the texts that no path is made of. -/
def SharingStep.bare : SharingStep → SharingStep
  | .perform index request => .perform index request.bare
  | step => step

namespace Tenant

/-- An entry has the source of the tenant, with the tags of some of the paths replaced that were
resolved on it. -/
def Supplies (tenant : Tenant) (entry : CacheEntry) : Prop :=
  tenant.source = entry.source ∧
    ∃ replaced, replaced.Sublist (paths tenant.calls) ∧
      entry.expanded = entry.source.trim.replacePaths replaced

theorem Continues.supplies {tenant later : Tenant} {entry : CacheEntry}
    (h : tenant.Continues later) (hentry : tenant.Supplies entry) : later.Supplies entry := by
  obtain ⟨more, hmore⟩ := h.calls
  obtain ⟨hsource, replaced, hsub, hexpanded⟩ := hentry
  refine ⟨h.1.trans hsource, replaced, ?_, hexpanded⟩
  rw [hmore, paths_append]
  exact hsub.trans (List.sublist_append_left _ _)

end Tenant

namespace Sharing

variable {sourceKey : SourceKey} {sharing : Sharing}

/-- Every template was made from its source or with the help of the cache, and every entry was
supplied by a template. -/
structure HasOrigins (sourceKey : SourceKey) (sharing : Sharing) : Prop where
  tenants : ∀ tenant ∈ sharing.tenants, ∃ cached base,
    (cached = false → base = tenant.source.trim) ∧
      tenant.template =
        (start tenant.source (sourceKey tenant.source) cached base).run tenant.calls
  entries : ∀ key entry, sharing.cache.entries.get? key = some entry →
    key = sourceKey entry.source ∧ ∃ tenant ∈ sharing.tenants, tenant.Supplies entry

/-- What a tenant stores is supplied by it. -/
theorem HasOrigins.of_get?_perform (h : sharing.HasOrigins sourceKey) {tenant : Tenant}
    (htenant : tenant ∈ sharing.tenants) (request : TemplateRequest) {key : UInt64}
    {entry : CacheEntry}
    (hentry : (tenant.perform request sharing.cache).2.entries.get? key = some entry) :
    sharing.cache.entries.get? key = some entry ∨
      key = sourceKey entry.source ∧ tenant.Supplies entry := by
  change (tenant.template.perform request sharing.cache).2.2.entries.get? key = some entry
    at hentry
  rcases perform_cache request tenant.template sharing.cache with
    hsame | ⟨hcached, -, -, hstored⟩
  · rw [hsame] at hentry
    exact Or.inl hentry
  · rw [hstored] at hentry
    rcases Cache.of_get?_store hentry with ⟨hkey, rfl⟩ | ⟨-, hold⟩
    · obtain ⟨cached, base, hbase, htemplate⟩ := h.tenants tenant htenant
      rw [htemplate] at hcached hkey ⊢
      obtain rfl : cached = false := cached_of_run_cached hcached
      obtain rfl := hbase rfl
      rw [run_key] at hkey
      rw [run_source]
      obtain ⟨replaced, hsub, hreplaced⟩ :=
        exists_run_base_eq_replacePaths tenant.calls
          (start tenant.source (sourceKey tenant.source) false tenant.source.trim)
      exact Or.inr ⟨hkey, rfl, replaced, hsub, hreplaced⟩
    · exact Or.inl hold

/-- An entry that was there is supplied by the tenant that it had, with more requests. -/
theorem HasOrigins.exists_supplies (h : sharing.HasOrigins sourceKey) (step : SharingStep)
    (key : UInt64) (entry : CacheEntry) (hentry : sharing.cache.entries.get? key = some entry) :
    key = sourceKey entry.source ∧
      ∃ tenant ∈ (sharing.step sourceKey step).tenants, tenant.Supplies entry := by
  obtain ⟨hkey, tenant, htenant, hsupplies⟩ := h.entries key entry hentry
  obtain ⟨later, hlater, hcontinues⟩ := exists_continues_step sourceKey step htenant
  exact ⟨hkey, later, hlater, hcontinues.supplies hsupplies⟩

theorem HasOrigins.step (h : sharing.HasOrigins sourceKey) (step : SharingStep) :
    (sharing.step sourceKey step).HasOrigins sourceKey where
  tenants := by
    intro tenant htenant
    rcases mem_tenants_step htenant with
      hold | ⟨source, template, cache, hmade, rfl⟩ | ⟨performer, hperformer, request, rfl⟩
    · exact h.tenants tenant hold
    · rcases create_cases hmade with ⟨expanded, -, rfl⟩ | ⟨-, -, rfl⟩
      · exact ⟨true, expanded, by simp, rfl⟩
      · exact ⟨false, source.trim, fun _ => rfl, rfl⟩
    · obtain ⟨cached, base, hbase, htemplate⟩ := h.tenants performer hperformer
      exact ⟨cached, base, hbase, Tenant.template_perform htemplate request sharing.cache⟩
  entries := by
    intro key entry hentry
    rcases of_get?_step hentry with hold | ⟨performer, hperformer, request, hafter, hstored⟩
    · exact h.exists_supplies step key entry hold
    · rcases h.of_get?_perform hperformer request hstored with hold | ⟨hkey, hsupplies⟩
      · exact h.exists_supplies step key entry hold
      · refine ⟨hkey, _, hafter, ?_⟩
        exact (Tenant.continues_perform request performer sharing.cache).supplies hsupplies

theorem HasOrigins.run (h : sharing.HasOrigins sourceKey) (steps : List SharingStep) :
    (sharing.run sourceKey steps).HasOrigins sourceKey := by
  induction steps generalizing sharing with
  | nil => exact h
  | cons step steps ih => exact ih (h.step step)

theorem hasOrigins_ofCapacity (capacity : Option Nat) :
    (ofCapacity capacity).HasOrigins sourceKey where
  tenants := by simp [ofCapacity]
  entries := by simp [ofCapacity, Cache.ofCapacity, RecencyMap.get?_empty]

end Sharing

/-! ## Runs without values and stages -/

section Pointwise

variable {α β : Type} {R : α → β → Prop} {as : List α} {bs : List β}

theorem forall₂_getElem? (h : List.Forall₂ R as bs) (index : Nat) :
    Option.Rel R as[index]? bs[index]? := by
  induction h generalizing index with
  | nil => exact .none
  | cons hab _ ih =>
      cases index with
      | zero => exact .some hab
      | succ index => exact ih index

theorem forall₂_set (h : List.Forall₂ R as bs) {a : α} {b : β} (hab : R a b) (index : Nat) :
    List.Forall₂ R (as.set index a) (bs.set index b) := by
  induction h generalizing index with
  | nil => exact .nil
  | cons hhead htail ih =>
      cases index with
      | zero => exact .cons hab htail
      | succ index => exact .cons hhead (ih index)

end Pointwise

namespace Sharing

variable {sourceKey : SourceKey} {first second : Sharing}

/-- Two groups of templates with the same cache that store the same. -/
def StoresLike (first second : Sharing) : Prop :=
  first.cache = second.cache ∧
    List.Forall₂ (fun a b : Tenant => a.template.StoresLike b.template) first.tenants second.tenants

theorem StoresLike.step (h : StoresLike first second) (step : SharingStep) :
    StoresLike (first.step sourceKey step) (second.step sourceKey step.bare) := by
  obtain ⟨hcache, htenants⟩ := h
  cases step with
  | create source =>
      simp only [SharingStep.bare, Sharing.step, ← hcache]
      rcases hmade : Template.create sourceKey source first.cache with ⟨result, cache⟩
      cases result with
      | error error => exact ⟨rfl, htenants⟩
      | ok template =>
          refine ⟨rfl, List.rel_append htenants (.cons (Or.inr ⟨?_, rfl⟩) .nil)⟩
          rcases create_cases hmade with ⟨expanded, -, rfl⟩ | ⟨-, -, rfl⟩ <;> rfl
  | clone index =>
      have hindex := forall₂_getElem? htenants index
      have hcopy : List.Forall₂ (fun a b : Tenant => a.template.StoresLike b.template)
          first.tenants[index]?.toList second.tenants[index]?.toList := by
        generalize first.tenants[index]? = copied? at hindex ⊢
        generalize second.tenants[index]? = other? at hindex ⊢
        cases hindex with
        | none => exact .nil
        | some hab => exact .cons hab .nil
      exact ⟨hcache, List.rel_append htenants hcopy⟩
  | perform index request =>
      simp only [SharingStep.bare, Sharing.step]
      have hindex := forall₂_getElem? htenants index
      generalize first.tenants[index]? = performer? at hindex ⊢
      generalize second.tenants[index]? = other? at hindex ⊢
      cases hindex with
      | none => exact ⟨hcache, htenants⟩
      | some hab =>
          obtain ⟨hlike, hafter⟩ := hab.perform request first.cache
          rw [hcache] at hlike hafter
          refine ⟨?_, forall₂_set htenants ?_ index⟩
          · rw [hcache]
            exact hafter
          · rw [hcache]
            exact hlike
  | lookup source => exact ⟨by simp only [SharingStep.bare, Sharing.step, hcache], htenants⟩
  | evict key => exact ⟨by simp only [SharingStep.bare, Sharing.step, hcache], htenants⟩
  | clear => exact ⟨by simp only [SharingStep.bare, Sharing.step, hcache], htenants⟩

theorem StoresLike.run (h : StoresLike first second) (steps : List SharingStep) :
    StoresLike (first.run sourceKey steps) (second.run sourceKey (steps.map SharingStep.bare)) := by
  induction steps generalizing first second with
  | nil => exact h
  | cons step steps ih => exact ih (h.step step)

/-- Whatever is done to templates that share a cache, each entry is stored under the key of its
source and was made from the source by replacing tags by paths that were resolved on a template of
this source; the cache is the same, entries and order of use, without the values that were assigned
and with empty stages; a request that is refused because of missing or unresolved tags leaves the
cache as it is, and so does every request of a template with stages. -/
theorem entries_supplied (sourceKey : SourceKey) (capacity : Option Nat)
    (steps : List SharingStep) :
    let sharing := (ofCapacity capacity).run sourceKey steps
    (∀ key entry, sharing.cache.entries.get? key = some entry →
      key = sourceKey entry.source ∧ ∃ tenant ∈ sharing.tenants, tenant.Supplies entry) ∧
    sharing.cache = ((ofCapacity capacity).run sourceKey (steps.map SharingStep.bare)).cache ∧
    (∀ (template : Template) (cache : Cache) (request : TemplateRequest),
      IsUnmet (template.perform request cache).1 ∨ template.hasStages = true →
        (template.perform request cache).2.2 = cache) := by
  intro sharing
  have hlike : StoresLike (ofCapacity capacity) (ofCapacity capacity) := ⟨rfl, .nil⟩
  refine ⟨((hasOrigins_ofCapacity capacity).run steps).entries, (hlike.run steps).1, ?_⟩
  rintro template cache request (hunmet | hstages)
  · exact perform_cache_of_isUnmet hunmet
  · exact perform_cache_of_hasStages hstages request cache

/-- The entry that a template leaves behind before another one of its source appends a stage. -/
theorem entry_supplied_pipeline :
    let sourceKey : SourceKey := fun source => source.length.toUInt64
    let source : Text := "[{$match:{<f>:<v>}}]".toList
    let steps : List SharingStep :=
      [.create source, .perform 0 (.resolve ['f']), .perform 0 (.assign ['v'] "<f>".toList),
        .perform 0 .renderText, .create source, .perform 1 (.appendStage "{$sort:<f>}".toList),
        .perform 1 (.resolve ['f']), .perform 1 (.assign ['v'] ['2']), .perform 1 .renderText]
    ∃ tenant ∈ ((ofCapacity (some 2)).run sourceKey steps).tenants,
      tenant.Supplies ⟨source, "[{$match:{f:<v>}}]".toList⟩ := by
  intro sourceKey source steps
  have hentry : ((ofCapacity (some 2)).run sourceKey steps).cache.entries.get? 20 =
      some ⟨source, "[{$match:{f:<v>}}]".toList⟩ := by
    decide +kernel
  obtain ⟨hentries, -, -⟩ := entries_supplied sourceKey (some 2) steps
  exact (hentries 20 _ hentry).2

end Sharing
end CommandTemplate
