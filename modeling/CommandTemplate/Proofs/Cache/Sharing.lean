import CommandTemplate.Proofs.Cache.Entries
import CommandTemplate.Proofs.Template.Orderly

/-!
# Templates that share a cache

Templates of any sources are made from one cache and used in turn, while entries are looked up,
evicted and dropped.  As long as each of them is used in an orderly way, every entry of the cache
has the settled text of its source.  A template that is complete then renders to the text that it
would have rendered to by itself.
-/

namespace CommandTemplate

open Text Template TemplateCall

/-- A template with its source and the requests made of it. -/
structure Tenant where
  source : Text
  requests : List TemplateRequest
  template : Template

/-- The calls that the requests of a template come down to. -/
def Tenant.calls (tenant : Tenant) : List TemplateCall :=
  tenant.requests.flatMap TemplateRequest.calls

/-- The tenant after a request, and what becomes of its cache. -/
def Tenant.perform (request : TemplateRequest) (tenant : Tenant) (cache : Cache) :
    Tenant × Cache :=
  let (_, template, cache) := tenant.template.perform request cache
  ({ tenant with requests := tenant.requests ++ [request], template }, cache)

/-- A cache with the templates that were made from it, in the order in which they were made. -/
structure Sharing where
  cache : Cache
  tenants : List Tenant

/-- What can happen to a cache and its templates. -/
inductive SharingStep
  | create (source : Text)
  | clone (index : Nat)
  | perform (index : Nat) (request : TemplateRequest)
  | lookup (source : Text)
  | evict (key : UInt64)
  | clear
deriving DecidableEq

namespace Sharing

/-- The empty cache of a capacity, without templates. -/
def ofCapacity (capacity : Option Nat) : Sharing :=
  ⟨.ofCapacity capacity, []⟩

/-- Carries out a step.  A step of a template that was not made changes nothing. -/
def step (sourceKey : SourceKey) (sharing : Sharing) : SharingStep → Sharing
  | .create source =>
    match create sourceKey source sharing.cache with
    | (.ok template, cache) => ⟨cache, sharing.tenants ++ [⟨source, [], template⟩]⟩
    | (.error _, cache) => { sharing with cache }
  | .clone index =>
    { sharing with tenants := sharing.tenants ++ sharing.tenants[index]?.toList }
  | .perform index request =>
    match sharing.tenants[index]? with
    | some tenant =>
      let (tenant, cache) := tenant.perform request sharing.cache
      ⟨cache, sharing.tenants.set index tenant⟩
    | none => sharing
  | .lookup source =>
    { sharing with cache := (sharing.cache.lookup (sourceKey source) source).2 }
  | .evict key => { sharing with cache := sharing.cache.evict key }
  | .clear => { sharing with cache := sharing.cache.clear }

/-- Carries out steps in turn. -/
def run (sourceKey : SourceKey) (steps : List SharingStep) (sharing : Sharing) : Sharing :=
  steps.foldl (step sourceKey) sharing

end Sharing

/-! ## Tenants along a run -/

namespace Tenant

/-- A tenant is used in an orderly way, with tags that its source makes structural. -/
def IsOrderly (structural : Text → Text → Bool) (tenant : Tenant) : Prop :=
  Template.IsOrderly (structural tenant.source) tenant.source tenant.calls

/-- Stages are not appended to a text that only becomes an array by its structural tags. -/
def KeepsArray (structural : Text → Text → Bool) (tenant : Tenant) : Prop :=
  Template.KeepsArray (structural tenant.source) tenant.source tenant.calls

/-- All structural tags of a tenant are resolved, and all others have a value. -/
def IsComplete (structural : Text → Text → Bool) (tenant : Tenant) : Prop :=
  Template.IsComplete (structural tenant.source) tenant.source tenant.calls

instance (structural : Text → Text → Bool) (tenant : Tenant) :
    Decidable (tenant.IsOrderly structural) :=
  inferInstanceAs (Decidable (Template.IsOrderly _ _ _))

instance (structural : Text → Text → Bool) (tenant : Tenant) :
    Decidable (tenant.KeepsArray structural) :=
  inferInstanceAs (Decidable (Template.KeepsArray _ _ _))

instance (structural : Text → Text → Bool) (tenant : Tenant) :
    Decidable (tenant.IsComplete structural) :=
  inferInstanceAs (Decidable (Template.IsComplete _ _ _))

/-- The tenant is there later, perhaps with more requests. -/
def Continues (tenant later : Tenant) : Prop :=
  later.source = tenant.source ∧ ∃ more, later.requests = tenant.requests ++ more

theorem Continues.refl (tenant : Tenant) : tenant.Continues tenant :=
  ⟨rfl, [], (List.append_nil _).symm⟩

theorem Continues.trans {first second third : Tenant} (h : first.Continues second)
    (h' : second.Continues third) : first.Continues third := by
  obtain ⟨hsource, more, hmore⟩ := h
  obtain ⟨hsource', others, hothers⟩ := h'
  refine ⟨hsource'.trans hsource, more ++ others, ?_⟩
  rw [hothers, hmore, List.append_assoc]

theorem Continues.calls {tenant later : Tenant} (h : tenant.Continues later) :
    ∃ more, later.calls = tenant.calls ++ more := by
  obtain ⟨-, more, hmore⟩ := h
  exact ⟨more.flatMap TemplateRequest.calls, by rw [Tenant.calls, hmore, List.flatMap_append]; rfl⟩

theorem calls_perform (request : TemplateRequest) (tenant : Tenant) (cache : Cache) :
    (tenant.perform request cache).1.calls = tenant.calls ++ request.calls := by
  change (tenant.requests ++ [request]).flatMap _ = _
  rw [List.flatMap_append, List.flatMap_singleton]
  rfl

/-- A template that comes from its calls still does so after a request. -/
theorem template_perform {tenant : Tenant} {begun : Template}
    (h : tenant.template = begun.run tenant.calls) (request : TemplateRequest) (cache : Cache) :
    (tenant.perform request cache).1.template =
      begun.run (tenant.perform request cache).1.calls := by
  rw [calls_perform, run_append, ← h]
  exact Template.perform_template request tenant.template cache

theorem continues_perform (request : TemplateRequest) (tenant : Tenant) (cache : Cache) :
    tenant.Continues (tenant.perform request cache).1 :=
  ⟨rfl, [request], rfl⟩

variable {structural : Text → Text → Bool} {tenant later : Tenant}

theorem Continues.isOrderly (h : tenant.Continues later) (hlater : later.IsOrderly structural) :
    tenant.IsOrderly structural := by
  obtain ⟨more, hmore⟩ := h.calls
  rw [IsOrderly, h.1, hmore] at hlater
  exact hlater.of_append

end Tenant

namespace Sharing

variable {sourceKey : SourceKey} {structural : Text → Text → Bool}

section Step

variable {sharing : Sharing} {step : SharingStep}

/-- A template was there before a step, or the step made it from the cache, or it has carried out
the request of the step. -/
theorem mem_tenants_step {tenant : Tenant} (h : tenant ∈ (sharing.step sourceKey step).tenants) :
    tenant ∈ sharing.tenants ∨
      (∃ source template cache,
        create sourceKey source sharing.cache = (.ok template, cache) ∧
          tenant = ⟨source, [], template⟩) ∨
      ∃ performer ∈ sharing.tenants, ∃ request,
        tenant = (performer.perform request sharing.cache).1 := by
  cases step with
  | create source =>
      rw [Sharing.step] at h
      rcases hmade : create sourceKey source sharing.cache with ⟨result, cache⟩
      rw [hmade] at h
      cases result with
      | error error => exact Or.inl h
      | ok template =>
          rcases List.mem_append.mp h with hold | hnew
          · exact Or.inl hold
          · exact Or.inr (Or.inl ⟨source, template, cache, hmade, List.mem_singleton.mp hnew⟩)
  | clone index =>
      rcases List.mem_append.mp h with hold | hcopy
      · exact Or.inl hold
      · rw [Option.mem_toList] at hcopy
        exact Or.inl (List.mem_of_getElem? hcopy)
  | perform index request =>
      rw [Sharing.step] at h
      cases hindex : sharing.tenants[index]? with
      | none =>
          rw [hindex] at h
          exact Or.inl h
      | some performer =>
          rw [hindex] at h
          rcases List.mem_or_eq_of_mem_set h with hold | hafter
          · exact Or.inl hold
          · exact Or.inr (Or.inr ⟨performer, List.mem_of_getElem? hindex, request, hafter⟩)
  | lookup source => exact Or.inl h
  | evict key => exact Or.inl h
  | clear => exact Or.inl h

/-- An entry was there before a step, or it is there after the request that one of the templates
carries out. -/
theorem of_get?_step {key : UInt64} {entry : CacheEntry}
    (h : (sharing.step sourceKey step).cache.entries.get? key = some entry) :
    sharing.cache.entries.get? key = some entry ∨
      ∃ performer ∈ sharing.tenants, ∃ request,
        (performer.perform request sharing.cache).1 ∈ (sharing.step sourceKey step).tenants ∧
          (performer.perform request sharing.cache).2.entries.get? key = some entry := by
  cases step with
  | create source =>
      have hcache : (sharing.step sourceKey (.create source)).cache =
          (create sourceKey source sharing.cache).2 := by
        rw [Sharing.step]
        rcases create sourceKey source sharing.cache with ⟨result, cache⟩
        cases result <;> rfl
      rw [hcache, get?_create] at h
      exact Or.inl h
  | clone index => exact Or.inl h
  | perform index request =>
      rw [Sharing.step] at h ⊢
      cases hindex : sharing.tenants[index]? with
      | none =>
          rw [hindex] at h
          exact Or.inl h
      | some performer =>
          rw [hindex] at h
          refine Or.inr ⟨performer, List.mem_of_getElem? hindex, request, ?_, h⟩
          exact List.mem_set (List.getElem?_eq_some_iff.mp hindex).1 _
  | lookup source => exact Or.inl ((Cache.get?_lookup ..).symm.trans h)
  | evict evicted => exact Or.inl (Cache.of_get?_evict h)
  | clear =>
      rw [Sharing.step, Cache.get?_clear] at h
      simp at h

end Step

theorem exists_continues_step (sourceKey : SourceKey) (step : SharingStep) {sharing : Sharing}
    {tenant : Tenant}
    (htenant : tenant ∈ sharing.tenants) :
    ∃ later ∈ (sharing.step sourceKey step).tenants, tenant.Continues later := by
  have hsame : tenant.Continues tenant := Tenant.Continues.refl tenant
  cases step with
  | create source =>
      rw [Sharing.step]
      rcases create sourceKey source sharing.cache with ⟨result, cache⟩
      cases result with
      | ok template => exact ⟨tenant, List.mem_append_left _ htenant, hsame⟩
      | error error => exact ⟨tenant, htenant, hsame⟩
  | clone index => exact ⟨tenant, List.mem_append_left _ htenant, hsame⟩
  | perform index request =>
      rw [Sharing.step]
      cases hindex : sharing.tenants[index]? with
      | none => exact ⟨tenant, htenant, hsame⟩
      | some performer =>
          obtain ⟨other, hother⟩ := List.mem_iff_getElem?.mp htenant
          by_cases heq : index = other
          · subst heq
            obtain rfl : tenant = performer := Option.some.inj (hother.symm.trans hindex)
            refine ⟨(tenant.perform request sharing.cache).1, ?_, rfl, [request], rfl⟩
            exact List.mem_set (List.getElem?_eq_some_iff.mp hindex).1 _
          · refine ⟨tenant, List.mem_iff_getElem?.mpr ⟨other, ?_⟩, hsame⟩
            rw [List.getElem?_set_ne heq]
            exact hother
  | lookup source => exact ⟨tenant, htenant, hsame⟩
  | evict key => exact ⟨tenant, htenant, hsame⟩
  | clear => exact ⟨tenant, htenant, hsame⟩

theorem exists_continues_run (sourceKey : SourceKey) (steps : List SharingStep)
    {sharing : Sharing} {tenant : Tenant}
    (htenant : tenant ∈ sharing.tenants) :
    ∃ later ∈ (sharing.run sourceKey steps).tenants, tenant.Continues later := by
  induction steps generalizing sharing tenant with
  | nil => exact ⟨tenant, htenant, Tenant.Continues.refl tenant⟩
  | cons step steps ih =>
      obtain ⟨next, hnext, hcontinues⟩ := exists_continues_step sourceKey step htenant
      obtain ⟨later, hlater, hcontinues'⟩ := ih hnext
      exact ⟨later, hlater, hcontinues.trans hcontinues'⟩

/-! ## The invariant -/

/-- All tenants are used in an orderly way. -/
def IsOrderly (structural : Text → Text → Bool) (sharing : Sharing) : Prop :=
  ∀ tenant ∈ sharing.tenants, tenant.IsOrderly structural

instance (structural : Text → Text → Bool) (sharing : Sharing) :
    Decidable (sharing.IsOrderly structural) :=
  inferInstanceAs (Decidable (∀ tenant ∈ sharing.tenants, tenant.IsOrderly structural))

/-- An entry has the settled text of a source that templates can be made from. -/
def IsSettled (structural : Text → Text → Bool) (entry : CacheEntry) : Prop :=
  IsSource entry.source ∧
    entry.expanded = entry.source.trim.settled (structural entry.source)

/-- Entries are settled, and every template comes from its source or from a settled entry. -/
structure IsTransparent (sourceKey : SourceKey) (structural : Text → Text → Bool)
    (sharing : Sharing) : Prop where
  entries : sharing.cache.Holds (IsSettled structural)
  tenants : ∀ tenant ∈ sharing.tenants, IsSource tenant.source ∧
    ∃ cached, tenant.template =
      (begun (structural tenant.source) tenant.source (sourceKey tenant.source) cached).run
        tenant.calls

theorem IsTransparent.create {sharing : Sharing} (h : sharing.IsTransparent sourceKey structural)
    {source : Text} {template : Template} {cache : Cache}
    (hmade : Template.create sourceKey source sharing.cache = (.ok template, cache)) :
    IsSource source ∧
      ∃ cached, template = begun (structural source) source (sourceKey source) cached := by
  rcases create_cases hmade with ⟨expanded, hlookup, rfl⟩ | ⟨-, hsource, rfl⟩
  · obtain ⟨hsource, hexpanded⟩ := h.entries.of_lookup hlookup
    exact ⟨hsource, true, congrArg (start source (sourceKey source) true) hexpanded⟩
  · exact ⟨hsource, false, rfl⟩

/-- What a tenant stores is the settled text of its source. -/
theorem IsTransparent.perform_cache {sharing : Sharing}
    (h : sharing.IsTransparent sourceKey structural) {tenant : Tenant}
    (htenant : tenant ∈ sharing.tenants) (horderly : tenant.IsOrderly structural)
    (request : TemplateRequest) :
    (tenant.perform request sharing.cache).2.Holds (IsSettled structural) := by
  obtain ⟨hsource, cached, htemplate⟩ := h.tenants tenant htenant
  rcases Template.perform_cache request tenant.template sharing.cache with
    hsame | ⟨hcached, -, hobstacle, hstored⟩
  · change (tenant.template.perform request sharing.cache).2.2.Holds _
    rw [hsame]
    exact h.entries
  · change (tenant.template.perform request sharing.cache).2.2.Holds _
    rw [hstored]
    obtain ⟨hmissing, hcovers⟩ := obstacle?_countValues_eq_none_iff.mp hobstacle
    have hname : tenant.template.source = tenant.source := by
      rw [htemplate, run_source]
      rfl
    apply h.entries.store
    rw [IsSettled, hname]
    refine ⟨hsource, ?_⟩
    rw [htemplate] at hcached hmissing hcovers ⊢
    obtain rfl : cached = false := cached_of_run_cached hcached
    exact Template.IsOrderly.base_of_covers horderly hmissing hcached hcovers

/-- A step keeps the invariant, as long as the tenants are used in an orderly way. -/
theorem IsTransparent.step {sharing : Sharing} (h : sharing.IsTransparent sourceKey structural)
    (horderly : sharing.IsOrderly structural) (step : SharingStep) :
    (sharing.step sourceKey step).IsTransparent sourceKey structural where
  entries := by
    intro key entry hentry
    rcases of_get?_step hentry with hold | ⟨performer, hperformer, request, -, hstored⟩
    · exact h.entries key entry hold
    · exact h.perform_cache hperformer (horderly performer hperformer) request key entry hstored
  tenants := by
    intro tenant htenant
    rcases mem_tenants_step htenant with
      hold | ⟨source, template, cache, hmade, rfl⟩ | ⟨performer, hperformer, request, rfl⟩
    · exact h.tenants tenant hold
    · exact h.create hmade
    · obtain ⟨hsource, cached, htemplate⟩ := h.tenants performer hperformer
      exact ⟨hsource, cached, Tenant.template_perform htemplate request sharing.cache⟩

/-- The invariant holds after any steps of tenants that end up used in an orderly way. -/
theorem IsTransparent.run {steps : List SharingStep} {sharing : Sharing}
    (h : sharing.IsTransparent sourceKey structural)
    (horderly : (sharing.run sourceKey steps).IsOrderly structural) :
    (sharing.run sourceKey steps).IsTransparent sourceKey structural := by
  induction steps generalizing sharing with
  | nil => exact h
  | cons step steps ih =>
      -- The tenants of now are there at the end, with these calls in front of all others.
      refine ih (h.step ?_ step) horderly
      intro tenant htenant
      obtain ⟨later, hlater, hcontinues⟩ := exists_continues_run sourceKey (step :: steps) htenant
      exact hcontinues.isOrderly (horderly later hlater)

theorem isTransparent_ofCapacity (capacity : Option Nat) :
    (ofCapacity capacity).IsTransparent sourceKey structural :=
  ⟨Cache.holds_ofCapacity capacity, by simp [ofCapacity]⟩

/-- Whatever templates share a cache and in whatever order their steps come, as long as each of them
is used in an orderly way, a complete template renders, and to the text it has when it is alone. -/
theorem renderText_eq_serve {capacity other : Option Nat} {steps : List SharingStep}
    {tenant : Tenant}
    (horderly : ((ofCapacity capacity).run sourceKey steps).IsOrderly structural)
    (htenant : tenant ∈ ((ofCapacity capacity).run sourceKey steps).tenants)
    (hkeeps : tenant.KeepsArray structural) (hcomplete : tenant.IsComplete structural) :
    ∃ text,
      (tenant.template.renderText ((ofCapacity capacity).run sourceKey steps).cache).1 =
        .ok text ∧
      (serve sourceKey tenant.source tenant.requests (.ofCapacity other)).1 = .ok text := by
  have hall : ((ofCapacity capacity).run sourceKey steps).IsTransparent sourceKey structural :=
    (isTransparent_ofCapacity capacity).run horderly
  obtain ⟨hsource, cached, htemplate⟩ := hall.tenants tenant htenant
  have hrender := fun cached cache =>
    Template.IsOrderly.renderText_eq (horderly tenant htenant) hkeeps hcomplete
      (sourceKey tenant.source) cached cache
  refine ⟨settledText (structural tenant.source) tenant.source tenant.calls, ?_, ?_⟩
  · rw [htemplate]
    exact hrender cached _
  · have hmade : (create sourceKey tenant.source (.ofCapacity other)).1 =
        .ok (begun (structural tenant.source) tenant.source (sourceKey tenant.source) false) :=
      (create_of_lookup_none (by simp)).mpr ⟨hsource, rfl⟩
    rw [serve]
    rcases hresult : create sourceKey tenant.source (.ofCapacity other) with ⟨made, cache⟩
    rw [hresult] at hmade
    obtain rfl := hmade
    simp only [performAll_template]
    exact hrender false _

/-- Two templates of one source, the second of them with a stage on the text that the first one
stored, and a template of another source with the same key that pushes the entry out. -/
theorem renderText_shared_pipeline :
    let source : Text := "[{$match:{<f>:<v>}}]".toList
    let sharing := (ofCapacity (some 1)).run (fun _ => 0)
      [.create source, .perform 0 (.resolve ['f']), .perform 0 (.assign ['v'] ['1']),
        .perform 0 .renderText, .create source, .perform 1 (.appendStage "{$sort:<f>}".toList),
        .create "<g>".toList, .perform 2 (.resolve ['g']), .perform 1 (.resolve ['f']),
        .perform 2 .renderText, .perform 1 (.assign ['v'] ['2']), .evict 0]
    sharing.tenants.length = 3 ∧ ∀ tenant ∈ sharing.tenants, ∃ text,
      (tenant.template.renderText sharing.cache).1 = .ok text ∧
        (serve (fun _ => 0) tenant.source tenant.requests .unbounded).1 = .ok text := by
  intro source sharing
  let structural : Text → Text → Bool := fun _ name => name ∈ [['f'], ['g']]
  have horderly : sharing.IsOrderly structural := by decide +kernel
  have hkeeps : ∀ tenant ∈ sharing.tenants, tenant.KeepsArray structural := by decide +kernel
  have hcomplete : ∀ tenant ∈ sharing.tenants, tenant.IsComplete structural := by decide +kernel
  refine ⟨by decide +kernel, ?_⟩
  intro tenant htenant
  exact renderText_eq_serve horderly htenant (hkeeps tenant htenant)
    (hcomplete tenant htenant)

/-- A stage that is refused by the source is appended when the text comes from the cache. -/
theorem array_only_from_cache :
    let structural : Text → Text → Bool := fun _ name => name ∈ [['['], [']']]
    let source : Text := "<[><v><]>".toList
    let sharing := (ofCapacity none).run (fun _ => 0)
      [.create source, .perform 0 (.resolve ['[']), .perform 0 (.resolve [']']),
        .perform 0 (.assign ['v'] ['1']), .perform 0 .renderText, .create source,
        .perform 1 (.appendStage "{}".toList), .perform 1 (.resolve ['[']),
        .perform 1 (.resolve [']']), .perform 1 (.assign ['v'] ['1'])]
    sharing.IsOrderly structural ∧
      ∃ tenant ∈ sharing.tenants, tenant.IsComplete structural ∧
        (tenant.template.renderText sharing.cache).1 = .ok "[1,{}]".toList ∧
        (serve (fun _ => 0) tenant.source tenant.requests .unbounded).1 = .ok "[1]".toList := by
  decide +kernel

end Sharing
end CommandTemplate
