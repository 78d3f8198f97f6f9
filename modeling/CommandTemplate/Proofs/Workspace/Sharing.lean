import CommandTemplate.Proofs.Cache.Provenance
import CommandTemplate.Proofs.Workspace.Renders

/-!
# Templates of a workspace share its caches

A workspace has any number of caches, and names for caches and templates that may be given anew.
Seen from one of its caches, nothing happens in a run but what happens to templates that share this
cache, as long as nothing is stored past the templates and look-ups go by the key of their source.
A step in another cache does nothing, and a request is carried out by a copy of the template, for one
template may stand for several names.  What holds of templates that share a cache then holds of the
caches of a workspace.
-/

namespace CommandTemplate

/-- Nothing is stored, and look-ups go by the key of their source. -/
def CacheRequest.IsPlain (sourceKey : SourceKey) : CacheRequest → Prop
  | .lookup key source => key = sourceKey source
  | .store _ _ _ => False
  | .clear => True

/-- Caches are only written by templates. -/
def WorkspaceStep.IsPlain (sourceKey : SourceKey) : WorkspaceStep → Prop
  | .useCache _ request => request.IsPlain sourceKey
  | _ => True

namespace Workspace

variable {sourceKey : SourceKey} {workspace before after : Workspace} {id : Nat}

/-! ## What a step can do -/

/-- A template has a name. -/
def Holds (workspace : Workspace) (held : HeldTemplate) : Prop :=
  ∃ name, workspace.templates.get? name = some held

/-- What a step can do to the caches of a workspace and to its templates. -/
inductive Changes (sourceKey : SourceKey) (before after : Workspace) : Prop
  | names (hcaches : after.caches = before.caches)
      (hheld : ∀ held, after.Holds held → before.Holds held)
  | addCache (capacity : Option Nat)
      (hcaches : after.caches = before.caches ++ [.ofCapacity capacity])
      (hheld : ∀ held, after.Holds held → before.Holds held)
  | useCache (id : Nat) (cache : Cache) (request : CacheRequest)
      (hrequest : request.IsPlain sourceKey) (hcache : before.caches[id]? = some cache)
      (hcaches : after.caches = before.caches.set id (cache.after request))
      (hheld : ∀ held, after.Holds held → before.Holds held)
  | create (id : Nat) (cache : Cache) (source : Text) (hcache : before.caches[id]? = some cache)
      (hcaches : after.caches = before.caches.set id (Template.create sourceKey source cache).2)
      (hheld : ∀ held, after.Holds held → before.Holds held ∨
        ∃ template, (Template.create sourceKey source cache).1 = .ok template ∧
          held = ⟨template, id⟩)
  | perform (performer : HeldTemplate) (cache : Cache) (request : TemplateRequest)
      (hperformer : before.Holds performer)
      (hcache : before.caches[performer.cacheId]? = some cache)
      (hcaches : after.caches = before.caches.set performer.cacheId
        (performer.template.perform request cache).2.2)
      (hheld : ∀ held, after.Holds held → before.Holds held ∨
        held = ⟨(performer.template.perform request cache).2.1, performer.cacheId⟩)

theorem changes_refl (workspace : Workspace) : Changes sourceKey workspace workspace :=
  .names rfl fun _ h => h

/-- After an operation the workspace is as before, or what the operation made of it. -/
theorem changes_settle {result? : Option (Except TemplateError TemplateReply × Workspace)}
    (h : ∀ result, result? = some result → Changes sourceKey workspace result.2) :
    Changes sourceKey workspace (workspace.settle result?).2 := by
  cases result? with
  | none => exact changes_refl workspace
  | some result => exact h result rfl

theorem holds_put {templates : RecencyMap Text HeldTemplate} {name : Text}
    {held other : HeldTemplate}
    (h : ({ after with templates := templates.put name held } : Workspace).Holds other) :
    ({ after with templates } : Workspace).Holds other ∨ other = held := by
  obtain ⟨key, hkey⟩ := h
  rw [RecencyMap.get?_put] at hkey
  split at hkey
  · exact Or.inr (Option.some.inj hkey).symm
  · exact Or.inl ⟨key, hkey⟩

theorem changes_create (name : Text) (choice : CacheChoice) (source : Text) :
    Changes sourceKey workspace (workspace.step sourceKey (.create name choice source)).2 := by
  apply changes_settle
  intro result hresult
  obtain ⟨made, hmade, rfl⟩ := Option.map_eq_some_iff.mp hresult
  obtain ⟨id, -, hcreate⟩ := Option.bind_eq_some_iff.mp hmade
  obtain ⟨used, hused, rfl⟩ := Option.map_eq_some_iff.mp hcreate
  obtain ⟨cache, hcache, rfl⟩ := Option.map_eq_some_iff.mp hused
  rcases hnew : Template.create sourceKey source cache with ⟨template, later⟩
  cases template with
  | error error =>
      exact .create id cache source hcache (by rw [hnew]) fun _ hheld => Or.inl hheld
  | ok template =>
      refine .create id cache source hcache (by rw [hnew]) fun held hheld => ?_
      rcases holds_put hheld with hold | rfl
      · exact Or.inl hold
      · exact Or.inr ⟨template, by rw [hnew], rfl⟩

theorem changes_perform (name : Text) (request : TemplateRequest) :
    Changes sourceKey workspace (workspace.step sourceKey (.perform name request)).2 := by
  rcases step_perform_cases sourceKey name workspace with ⟨held, cache, hheld, hcache⟩ | hnothing
  · rw [step_perform_eq hheld hcache]
    exact .perform held cache request ⟨name, hheld⟩ hcache rfl fun _ hother => holds_put hother
  · rw [hnothing]
    exact changes_refl workspace

theorem changes_step {step : WorkspaceStep} (hstep : step.IsPlain sourceKey)
    (workspace : Workspace) : Changes sourceKey workspace (workspace.step sourceKey step).2 := by
  cases step with
  | addCache name capacity => exact .addCache capacity rfl fun _ hheld => hheld
  | shareCache name other =>
      apply changes_settle
      intro result hresult
      obtain ⟨changed, hchanged, rfl⟩ := Option.map_eq_some_iff.mp hresult
      obtain ⟨id, -, rfl⟩ := Option.map_eq_some_iff.mp hchanged
      exact .names rfl fun _ hheld => hheld
  | useCache name request =>
      apply changes_settle
      intro result hresult
      obtain ⟨id, -, hused⟩ := Option.bind_eq_some_iff.mp hresult
      obtain ⟨cache, hcache, rfl⟩ := Option.map_eq_some_iff.mp hused
      exact .useCache id cache request hstep hcache rfl fun _ hheld => hheld
  | create name choice source => exact changes_create name choice source
  | clone name other =>
      apply changes_settle
      intro result hresult
      obtain ⟨changed, hchanged, rfl⟩ := Option.map_eq_some_iff.mp hresult
      obtain ⟨held, hheld, rfl⟩ := Option.map_eq_some_iff.mp hchanged
      refine .names rfl fun copy hcopy => ?_
      rcases holds_put hcopy with hold | rfl
      · exact hold
      · exact ⟨name, hheld⟩
  | perform name request => exact changes_perform name request

end Workspace

/-! ## One cache of a workspace -/

namespace Sharing

open Template

variable {sourceKey : SourceKey} {sharing later : Sharing} {before after : Workspace} {id : Nat}

/-- Templates that share a cache stand for a cache of a workspace and for the templates made with
it. -/
structure Shows (sharing : Sharing) (workspace : Workspace) (id : Nat) : Prop where
  cache : workspace.caches[id]? = some sharing.cache
  templates : ∀ held, workspace.Holds held → held.cacheId = id →
    ∃ tenant ∈ sharing.tenants, tenant.template = held.template

theorem run_append (steps others : List SharingStep) (sharing : Sharing) :
    sharing.run sourceKey (steps ++ others) = (sharing.run sourceKey steps).run sourceKey others :=
  List.foldl_append

theorem Shows.of_eq (h : sharing.Shows before id)
    (hcaches : after.caches = before.caches.set id later.cache)
    (hheld : ∀ held, after.Holds held → held.cacheId = id →
      ∃ tenant ∈ later.tenants, tenant.template = held.template) :
    later.Shows after id where
  cache := by
    obtain ⟨hid, -⟩ := List.getElem?_eq_some_iff.mp h.cache
    rw [hcaches, List.getElem?_set_self hid]
  templates := hheld

/-- A copy of a tenant carries out a request, and comes behind the tenants that there are. -/
theorem run_copy {index : Nat} {tenant : Tenant} (hindex : sharing.tenants[index]? = some tenant)
    (request : TemplateRequest) :
    sharing.run sourceKey [.clone index, .perform sharing.tenants.length request] =
      ⟨(tenant.perform request sharing.cache).2,
        sharing.tenants ++ [(tenant.perform request sharing.cache).1]⟩ := by
  have hcloned : sharing.step sourceKey (.clone index) =
      { sharing with tenants := sharing.tenants ++ [tenant] } := by
    rw [Sharing.step, hindex]
    rfl
  have hlast : (sharing.tenants ++ [tenant])[sharing.tenants.length]? = some tenant := by simp
  rw [run, List.foldl_cons, hcloned, List.foldl_cons, List.foldl_nil]
  simp only [Sharing.step, hlast, List.set_append_right _ _ (Nat.le_refl _), Nat.sub_self,
    List.set_cons_zero]

/-- The use of a cache is a step of the templates that share it. -/
theorem exists_step_of_isPlain {request : CacheRequest} (hrequest : request.IsPlain sourceKey)
    (sharing : Sharing) :
    ∃ step, sharing.step sourceKey step = { sharing with cache := sharing.cache.after request } := by
  cases request with
  | lookup key source =>
      obtain rfl : key = sourceKey source := hrequest
      exact ⟨.lookup source, rfl⟩
  | store key source expanded => exact hrequest.elim
  | clear => exact ⟨.clear, rfl⟩

theorem Shows.create (h : sharing.Shows before id) {source : Text}
    (hcaches : after.caches = before.caches.set id (create sourceKey source sharing.cache).2)
    (hheld : ∀ held, after.Holds held → before.Holds held ∨
      ∃ template, (create sourceKey source sharing.cache).1 = .ok template ∧
        held = ⟨template, id⟩) :
    (sharing.run sourceKey [.create source]).Shows after id := by
  rw [run, List.foldl_cons, List.foldl_nil, Sharing.step]
  rcases hmade : Template.create sourceKey source sharing.cache with ⟨made, used⟩
  rw [hmade] at hcaches hheld
  cases made with
  | error error =>
      refine h.of_eq hcaches fun held hafter hid => ?_
      rcases hheld held hafter with hold | ⟨template, hnone, -⟩
      · exact h.templates held hold hid
      · simp at hnone
  | ok made =>
      refine h.of_eq hcaches fun held hafter hid => ?_
      rcases hheld held hafter with hold | ⟨template, hsome, rfl⟩
      · obtain ⟨tenant, htenant, htemplate⟩ := h.templates held hold hid
        exact ⟨tenant, List.mem_append_left _ htenant, htemplate⟩
      · exact ⟨_, List.mem_append_right _ (List.mem_singleton_self _), Except.ok.inj hsome⟩

theorem Shows.perform {performer : HeldTemplate} (h : sharing.Shows before performer.cacheId)
    {request : TemplateRequest} (hperformer : before.Holds performer)
    (hcaches : after.caches = before.caches.set performer.cacheId
      (performer.template.perform request sharing.cache).2.2)
    (hheld : ∀ held, after.Holds held → before.Holds held ∨
      held = ⟨(performer.template.perform request sharing.cache).2.1, performer.cacheId⟩) :
    ∃ steps, (sharing.run sourceKey steps).Shows after performer.cacheId := by
  obtain ⟨tenant, htenant, htemplate⟩ := h.templates performer hperformer rfl
  obtain ⟨index, hindex⟩ := List.mem_iff_getElem?.mp htenant
  -- The tenant may stand for other names too, whose template stays as it is.
  refine ⟨[.clone index, .perform sharing.tenants.length request], ?_⟩
  rw [run_copy hindex]
  rw [← htemplate] at hcaches hheld
  refine h.of_eq hcaches fun held hafter hid => ?_
  rcases hheld held hafter with hold | rfl
  · obtain ⟨owner, howner, hsame⟩ := h.templates held hold hid
    exact ⟨owner, List.mem_append_left _ howner, hsame⟩
  · exact ⟨_, List.mem_append_right _ (List.mem_singleton_self _), rfl⟩

/-- A cache stays as it is when another one is used. -/
theorem Shows.of_use (h : sharing.Shows before id) {used : Nat} {cache : Cache}
    (hcaches : after.caches = before.caches.set used cache)
    (hheld : ∀ held, after.Holds held → before.Holds held ∨ held.cacheId = used)
    (hown : used = id → ∃ steps, (sharing.run sourceKey steps).Shows after id) :
    ∃ steps, (sharing.run sourceKey steps).Shows after id := by
  by_cases hused : used = id
  · exact hown hused
  · refine ⟨[], ?_, fun held hafter hid => ?_⟩
    · rw [hcaches, List.getElem?_set_ne hused]
      exact h.cache
    · rcases hheld held hafter with hold | hmade
      · exact h.templates held hold hid
      · exact absurd (hmade.symm.trans hid) hused

/-- What a step does in a workspace is done to each cache by steps of the templates that share
it. -/
theorem Shows.of_changes (h : sharing.Shows before id)
    (hchanges : before.Changes sourceKey after) :
    ∃ steps, (sharing.run sourceKey steps).Shows after id := by
  have hown : ∀ cache, before.caches[id]? = some cache → cache = sharing.cache :=
    fun _ hcache => Option.some.inj (hcache.symm.trans h.cache)
  cases hchanges with
  | names hcaches hheld =>
      refine ⟨[], by rw [hcaches]; exact h.cache, ?_⟩
      exact fun held hafter hid => h.templates held (hheld held hafter) hid
  | addCache capacity hcaches hheld =>
      obtain ⟨hid, -⟩ := List.getElem?_eq_some_iff.mp h.cache
      refine ⟨[], by rw [hcaches, List.getElem?_append_left hid]; exact h.cache, ?_⟩
      exact fun held hafter hid => h.templates held (hheld held hafter) hid
  | useCache used cache request hrequest hcache hcaches hheld =>
      refine h.of_use hcaches (fun held hafter => Or.inl (hheld held hafter)) ?_
      rintro rfl
      obtain rfl := hown cache hcache
      obtain ⟨step, hstep⟩ := exists_step_of_isPlain hrequest sharing
      refine ⟨[step], ?_⟩
      rw [run, List.foldl_cons, List.foldl_nil, hstep]
      exact h.of_eq hcaches fun held hafter hid => h.templates held (hheld held hafter) hid
  | create used cache source hcache hcaches hheld =>
      refine h.of_use hcaches (fun held hafter => (hheld held hafter).imp_right ?_) ?_
      · rintro ⟨template, -, rfl⟩
        rfl
      · rintro rfl
        obtain rfl := hown cache hcache
        exact ⟨_, h.create hcaches hheld⟩
  | perform performer cache request hperformer hcache hcaches hheld =>
      refine h.of_use hcaches (fun held hafter => (hheld held hafter).imp_right ?_) ?_
      · rintro rfl
        rfl
      · rintro rfl
        obtain rfl := hown cache hcache
        exact h.perform hperformer hcaches hheld

end Sharing

/-! ## All caches of a workspace -/

namespace Workspace

variable {sourceKey : SourceKey} {workspace before after : Workspace}

/-- Every template was made with one of the caches, and each cache came about by steps of templates
that share it. -/
structure IsShared (sourceKey : SourceKey) (workspace : Workspace) : Prop where
  templates : ∀ held, workspace.Holds held → held.cacheId < workspace.caches.length
  caches : ∀ id < workspace.caches.length, ∃ capacity steps,
    ((Sharing.ofCapacity capacity).run sourceKey steps).Shows workspace id

/-- There are as many caches as before, or there is a new one that no template was made with. -/
theorem Changes.length_caches (h : before.Changes sourceKey after) :
    after.caches.length = before.caches.length ∨
      ∃ capacity, after.caches = before.caches ++ [.ofCapacity capacity] ∧
        ∀ held, after.Holds held → before.Holds held := by
  cases h with
  | names hcaches hheld => exact Or.inl (congrArg List.length hcaches)
  | addCache capacity hcaches hheld => exact Or.inr ⟨capacity, hcaches, hheld⟩
  | useCache id cache request hrequest hcache hcaches hheld =>
      exact Or.inl (by rw [hcaches, List.length_set])
  | create id cache source hcache hcaches hheld =>
      exact Or.inl (by rw [hcaches, List.length_set])
  | perform performer cache request hperformer hcache hcaches hheld =>
      exact Or.inl (by rw [hcaches, List.length_set])

/-- A template was there before, or it was made with a cache that there is. -/
theorem Changes.holds (h : before.Changes sourceKey after) {held : HeldTemplate}
    (hafter : after.Holds held) : before.Holds held ∨ held.cacheId < before.caches.length := by
  cases h with
  | names hcaches hheld => exact Or.inl (hheld held hafter)
  | addCache capacity hcaches hheld => exact Or.inl (hheld held hafter)
  | useCache id cache request hrequest hcache hcaches hheld => exact Or.inl (hheld held hafter)
  | create id cache source hcache hcaches hheld =>
      refine (hheld held hafter).imp_right ?_
      rintro ⟨template, -, rfl⟩
      exact (List.getElem?_eq_some_iff.mp hcache).1
  | perform performer cache request hperformer hcache hcaches hheld =>
      refine (hheld held hafter).imp_right ?_
      rintro rfl
      exact (List.getElem?_eq_some_iff.mp hcache).1

theorem IsShared.of_changes (h : before.IsShared sourceKey)
    (hchanges : before.Changes sourceKey after) : after.IsShared sourceKey where
  templates := by
    intro held hafter
    have hbefore : held.cacheId < before.caches.length :=
      (hchanges.holds hafter).elim (h.templates held) id
    rcases hchanges.length_caches with hsame | ⟨capacity, hcaches, -⟩
    · rwa [hsame]
    · rw [hcaches, List.length_append]
      exact Nat.lt_add_right _ hbefore
  caches := by
    intro id hid
    by_cases hbefore : id < before.caches.length
    · obtain ⟨capacity, steps, hshows⟩ := h.caches id hbefore
      obtain ⟨more, hmore⟩ := hshows.of_changes hchanges
      exact ⟨capacity, steps ++ more, by rwa [Sharing.run_append]⟩
    · rcases hchanges.length_caches with hsame | ⟨capacity, hcaches, hheld⟩
      · exact absurd (hsame ▸ hid) hbefore
      · rw [hcaches, List.length_append, List.length_singleton] at hid
        obtain rfl : id = before.caches.length := by omega
        refine ⟨capacity, [], ?_, fun held hafter hown => ?_⟩
        · rw [hcaches, List.getElem?_concat_length]
          rfl
        · exact absurd (h.templates held (hheld held hafter)) (by omega)

theorem isShared_empty : empty.IsShared sourceKey where
  templates := by
    rintro held ⟨name, hheld⟩
    simp [empty, RecencyMap.get?_empty] at hheld
  caches := fun id hid => absurd hid (Nat.not_lt_zero id)

/-- Whatever happens in a workspace, each of its caches is one that the templates made with it
share. -/
theorem IsShared.run {steps : List WorkspaceStep} (h : workspace.IsShared sourceKey)
    (hsteps : ∀ step ∈ steps, step.IsPlain sourceKey) :
    (workspace.run sourceKey steps).IsShared sourceKey := by
  induction steps generalizing workspace with
  | nil => exact h
  | cons step steps ih =>
      rw [List.forall_mem_cons] at hsteps
      exact ih (h.of_changes (changes_step hsteps.1 workspace)) hsteps.2

/-- The caches of a workspace hold texts of their sources with paths replaced, under the keys of
these sources; no value gets into them. -/
theorem entries_of_run {steps : List WorkspaceStep} (hsteps : ∀ step ∈ steps, step.IsPlain sourceKey)
    {id : Nat} {cache : Cache} (hcache : (empty.run sourceKey steps).caches[id]? = some cache)
    {key : UInt64} {entry : CacheEntry} (hentry : cache.entries.get? key = some entry) :
    key = sourceKey entry.source ∧
      ∃ paths, entry.expanded = entry.source.trim.replacePaths paths := by
  obtain ⟨hid, -⟩ := List.getElem?_eq_some_iff.mp hcache
  obtain ⟨capacity, steps, hshows⟩ := (isShared_empty.run hsteps).caches id hid
  obtain rfl := Option.some.inj (hcache.symm.trans hshows.cache)
  have horigins : ((Sharing.ofCapacity capacity).run sourceKey steps).HasOrigins sourceKey :=
    (Sharing.hasOrigins_ofCapacity capacity).run steps
  obtain ⟨hkey, tenant, -, -, paths, -, hexpanded⟩ := horigins.entries key entry hentry
  exact ⟨hkey, paths, hexpanded⟩

end Workspace
end CommandTemplate
