import CommandTemplate.Cache.Key
import CommandTemplate.Proofs.Template.Alike
import CommandTemplate.Proofs.Workspace.Steps
import Mathlib.Data.List.Forall2

/-!
# Renders that store nothing

Most renders store nothing: they fail, or the template has stages, or its text is in the cache
already.  Such a render can be left out of a run.  All other steps answer the same without it, and
after each of them the caches are the same, in their entries and their order of use, and so are the
templates, but for the tags that count as replaced.
-/

namespace CommandTemplate

structure HeldTemplate.IsAlike (first second : HeldTemplate) : Prop where
  template : first.template.IsAlike second.template
  cacheId : first.cacheId = second.cacheId

theorem HeldTemplate.IsAlike.refl (held : HeldTemplate) : held.IsAlike held :=
  ⟨.refl held.template, rfl⟩

namespace Workspace

/-- The caches and their names are the same, and each name has templates that are alike. -/
structure IsAlike (first second : Workspace) : Prop where
  caches : first.caches = second.caches
  cacheNames : first.cacheNames = second.cacheNames
  templates : ∀ name,
    Option.Rel HeldTemplate.IsAlike (first.templates.get? name) (second.templates.get? name)

/-- The results are the same, and the workspaces that they leave are alike. -/
def Agree {α : Type} (first second : α × Workspace) : Prop :=
  first.1 = second.1 ∧ first.2.IsAlike second.2

/-- Whether a render of a named template stores its text. -/
def stores (workspace : Workspace) (name : Text) : Bool :=
  (workspace.template? name).any Template.stores

def run (sourceKey : SourceKey) (steps : List WorkspaceStep) (workspace : Workspace) : Workspace :=
  steps.foldl (fun workspace step => (workspace.step sourceKey step).2) workspace

variable {sourceKey : SourceKey} {first second workspace : Workspace}

theorem rel_map {α β γ δ : Type} {related : α → β → Prop} {mapped : γ → δ → Prop} {f : α → γ}
    {g : β → δ} {a : Option α} {b : Option β} (h : Option.Rel related a b)
    (hmap : ∀ x y, related x y → mapped (f x) (g y)) : Option.Rel mapped (a.map f) (b.map g) := by
  cases h with
  | none => exact .none
  | some hxy => exact .some (hmap _ _ hxy)

/-! ## Workspaces that are alike -/

namespace IsAlike

theorem refl (workspace : Workspace) : workspace.IsAlike workspace := by
  refine ⟨rfl, rfl, ?_⟩
  intro name
  cases workspace.templates.get? name with
  | none => exact .none
  | some held => exact .some (.refl held)

theorem setCaches (h : first.IsAlike second) (caches : List Cache) :
    ({ first with caches := caches } : Workspace).IsAlike { second with caches := caches } :=
  ⟨rfl, h.cacheNames, h.templates⟩

theorem put (h : first.IsAlike second) {held other : HeldTemplate} (halike : held.IsAlike other)
    (name : Text) :
    ({ first with templates := first.templates.put name held } : Workspace).IsAlike
      { second with templates := second.templates.put name other } := by
  refine ⟨h.caches, h.cacheNames, ?_⟩
  intro key
  rw [RecencyMap.get?_put, RecencyMap.get?_put]
  split
  · exact .some halike
  · exact h.templates key

theorem settle (h : first.IsAlike second)
    {result other : Option (Except TemplateError TemplateReply × Workspace)}
    (hresult : Option.Rel Agree result other) :
    Agree (first.settle result) (second.settle other) := by
  cases hresult with
  | none => exact ⟨rfl, h⟩
  | some hboth => exact ⟨congrArg some hboth.1, hboth.2⟩

theorem cacheId?_eq (h : first.IsAlike second) (name : Text) :
    first.cacheId? name = second.cacheId? name :=
  congrArg (fun names => names.get? name) h.cacheNames

theorem chosenId?_eq (h : first.IsAlike second) (choice : CacheChoice) :
    first.chosenId? choice = second.chosenId? choice := by
  cases choice with
  | common => rfl
  | named name => exact h.cacheId?_eq name

/-! ## Steps -/

theorem shareCache? (h : first.IsAlike second) (name other : Text) :
    Option.Rel IsAlike (first.shareCache? name other) (second.shareCache? name other) := by
  rw [Workspace.shareCache?, Workspace.shareCache?, h.cacheId?_eq, h.cacheNames]
  cases second.cacheId? name with
  | none => exact .none
  | some id => exact .some ⟨h.caches, rfl, h.templates⟩

theorem useCacheAt? {α : Type} (h : first.IsAlike second) (id : Nat) (use : Cache → α × Cache) :
    Option.Rel Agree (first.useCacheAt? id use)
      (second.useCacheAt? id use) := by
  rw [Workspace.useCacheAt?, Workspace.useCacheAt?, h.caches]
  cases second.caches[id]? with
  | none => exact .none
  | some cache => exact .some ⟨rfl, h.setCaches _⟩

theorem createTemplate? (h : first.IsAlike second) (name : Text) (choice : CacheChoice)
    (source : Text) :
    Option.Rel Agree (first.createTemplate? sourceKey name choice source)
      (second.createTemplate? sourceKey name choice source) := by
  rw [Workspace.createTemplate?, Workspace.createTemplate?, h.chosenId?_eq]
  cases second.chosenId? choice with
  | none => exact .none
  | some id =>
      apply rel_map (h.useCacheAt? id (Template.create sourceKey source))
      rintro ⟨made, after⟩ ⟨other, otherAfter⟩ ⟨heq, halike⟩
      obtain rfl : made = other := heq
      cases made with
      | error error => exact ⟨rfl, halike⟩
      | ok made => exact ⟨rfl, halike.put (.refl _) name⟩

theorem cloneTemplate? (h : first.IsAlike second) (name other : Text) :
    Option.Rel IsAlike (first.cloneTemplate? name other) (second.cloneTemplate? name other) := by
  have hheld := h.templates name
  rw [Workspace.cloneTemplate?, Workspace.cloneTemplate?]
  generalize first.templates.get? name = held? at hheld ⊢
  generalize second.templates.get? name = other? at hheld ⊢
  cases hheld with
  | none => exact .none
  | some halike => exact .some (h.put halike other)

theorem performOn? (h : first.IsAlike second) (name : Text) (request : TemplateRequest) :
    Option.Rel Agree (first.performOn? name request)
      (second.performOn? name request) := by
  have hheld := h.templates name
  rw [Workspace.performOn?, Workspace.performOn?]
  generalize first.templates.get? name = held? at hheld ⊢
  generalize second.templates.get? name = other? at hheld ⊢
  cases hheld with
  | none => exact .none
  | @some held other halike =>
      obtain ⟨template, id⟩ := held
      obtain ⟨other, otherId⟩ := other
      obtain ⟨htemplate, hid⟩ := halike
      obtain rfl : id = otherId := hid
      simp only [Option.bind_some]
      rw [h.caches]
      cases second.caches[id]? with
      | none => exact .none
      | some cache =>
          have hcache := htemplate.perform_cache request cache
          have hchanged : HeldTemplate.IsAlike ⟨(template.perform request cache).2.1, id⟩
              ⟨(other.perform request cache).2.1, id⟩ :=
            ⟨htemplate.perform_template request cache, rfl⟩
          refine .some ⟨htemplate.perform_reply request cache cache, ?_⟩
          simp only [hcache]
          exact (h.setCaches _).put hchanged name

/-- A step answers the same in workspaces that are alike, and keeps them alike. -/
theorem step (h : first.IsAlike second) (sourceKey : SourceKey) (step : WorkspaceStep) :
    Agree (first.step sourceKey step) (second.step sourceKey step) := by
  cases step with
  | addCache name capacity =>
      have hcaches : (first.addCache name (.ofCapacity capacity)).caches =
          (second.addCache name (.ofCapacity capacity)).caches := by
        rw [addCache, addCache, h.caches]
      have hnames : (first.addCache name (.ofCapacity capacity)).cacheNames =
          (second.addCache name (.ofCapacity capacity)).cacheNames := by
        rw [addCache, addCache, h.caches, h.cacheNames]
      exact ⟨rfl, hcaches, hnames, h.templates⟩
  | shareCache name other =>
      apply h.settle
      exact rel_map (h.shareCache? name other) fun _ _ halike => ⟨rfl, halike⟩
  | useCache name request =>
      apply h.settle
      rw [useCache?, useCache?, h.cacheId?_eq]
      cases second.cacheId? name with
      | none => exact .none
      | some id =>
          rw [Option.bind_some, Option.bind_some]
          exact h.useCacheAt? id _
  | create name choice source =>
      apply h.settle
      apply rel_map (h.createTemplate? name choice source)
      exact fun _ _ hboth => ⟨congrArg (Except.map _) hboth.1, hboth.2⟩
  | clone name other =>
      apply h.settle
      exact rel_map (h.cloneTemplate? name other) fun _ _ halike => ⟨rfl, halike⟩
  | perform name request => exact h.settle (h.performOn? name request)

/-- A run answers the same from workspaces that are alike, and keeps them alike. -/
theorem trace (h : first.IsAlike second) (sourceKey : SourceKey) (steps : List WorkspaceStep) :
    List.Forall₂ Agree (first.trace sourceKey steps) (second.trace sourceKey steps) := by
  induction steps generalizing first second with
  | nil => exact .nil
  | cons step steps ih =>
      have hstep := h.step sourceKey step
      exact .cons hstep (ih hstep.2)

end IsAlike

/-! ## Runs without a render -/

theorem trace_append (front back : List WorkspaceStep) (workspace : Workspace) :
    workspace.trace sourceKey (front ++ back) =
      workspace.trace sourceKey front ++ (workspace.run sourceKey front).trace sourceKey back := by
  induction front generalizing workspace with
  | nil => rfl
  | cons step front ih => exact congrArg (_ :: ·) (ih _)

theorem length_trace (steps : List WorkspaceStep) (workspace : Workspace) :
    (workspace.trace sourceKey steps).length = steps.length := by
  induction steps generalizing workspace with
  | nil => rfl
  | cons step steps ih => exact congrArg (· + 1) (ih _)

/-! ## Requests of a template -/

theorem step_perform_eq {name : Text} {held : HeldTemplate} {cache : Cache}
    (hheld : workspace.templates.get? name = some held)
    (hcache : workspace.caches[held.cacheId]? = some cache) (request : TemplateRequest) :
    workspace.step sourceKey (.perform name request) =
      (some (held.template.perform request cache).1,
        { workspace with
          caches := workspace.caches.set held.cacheId (held.template.perform request cache).2.2
          templates := workspace.templates.put name
            ⟨(held.template.perform request cache).2.1, held.cacheId⟩ }) := by
  rw [step, performOn?, hheld, Option.bind_some, hcache]
  rfl

/-- A request of a template that there is not, or whose cache there is not, changes nothing. -/
theorem step_perform_cases (sourceKey : SourceKey) (name : Text) (workspace : Workspace) :
    (∃ held cache, workspace.templates.get? name = some held ∧
        workspace.caches[held.cacheId]? = some cache) ∨
      ∀ request, workspace.step sourceKey (.perform name request) = (none, workspace) := by
  cases hheld : workspace.templates.get? name with
  | none =>
      right
      intro request
      rw [step, performOn?, hheld]
      rfl
  | some held =>
      cases hcache : workspace.caches[held.cacheId]? with
      | none =>
          right
          intro request
          rw [step, performOn?, hheld, Option.bind_some, hcache]
          rfl
      | some cache => exact Or.inl ⟨held, cache, rfl, hcache⟩

/-- A render that does not store its text leaves a workspace alike. -/
theorem isAlike_of_not_stores {request : TemplateRequest} (hrender : request.isRender = true)
    {name : Text} (hstores : workspace.stores name = false) :
    (workspace.step sourceKey (.perform name request)).2.IsAlike workspace := by
  rcases step_perform_cases sourceKey name workspace with ⟨held, cache, hheld, hcache⟩ | hnothing
  · have hnot : held.template.stores = false := by
      simpa [stores, template?, hheld] using hstores
    have hsame : (held.template.perform request cache).2.2 = cache := by
      rw [Template.perform_cache_eq, hnot, Bool.and_false]
      rfl
    have hset : workspace.caches.set held.cacheId cache = workspace.caches := by
      obtain ⟨hid, hget⟩ := List.getElem?_eq_some_iff.mp hcache
      rw [← hget, List.set_getElem_self]
    have hchanged : HeldTemplate.IsAlike ⟨held.template.rendered, held.cacheId⟩ held :=
      ⟨Template.isAlike_rendered hnot, rfl⟩
    rw [step_perform_eq hheld hcache, hsame, hset, Template.perform_template_of_isRender hrender]
    refine ⟨rfl, rfl, ?_⟩
    intro other
    rw [RecencyMap.get?_put]
    split
    · rename_i hname
      rw [hname, hheld]
      exact .some hchanged
    · exact (IsAlike.refl workspace).templates other
  · rw [hnothing]
    exact .refl workspace

/-- A render answers the same after another one of the same template, also when that has stored the
text. -/
theorem step_render_render {request other : TemplateRequest} (hrender : request.isRender = true)
    (hother : other.isRender = true) (name : Text) (workspace : Workspace) :
    ((workspace.step sourceKey (.perform name request)).2.step sourceKey (.perform name other)).1 =
      (workspace.step sourceKey (.perform name other)).1 := by
  rcases step_perform_cases sourceKey name workspace with ⟨held, cache, hheld, hcache⟩ | hnothing
  · obtain ⟨hid, -⟩ := List.getElem?_eq_some_iff.mp hcache
    have hget : (workspace.step sourceKey (.perform name request)).2.templates.get? name =
        some ⟨held.template.rendered, held.cacheId⟩ := by
      rw [step_perform_eq hheld hcache, Template.perform_template_of_isRender hrender,
        RecencyMap.get?_put, if_pos rfl]
    have hset : (workspace.step sourceKey (.perform name request)).2.caches[held.cacheId]? =
        some (held.template.perform request cache).2.2 := by
      rw [step_perform_eq hheld hcache]
      exact List.getElem?_set_self hid
    rw [step_perform_eq hget hset, step_perform_eq hheld hcache other]
    exact congrArg some (Template.perform_rendered_reply hother held.template _ cache)
  · rw [hnothing, hnothing]

/-- A render that does not store its text can be left out of a run: all other steps answer the same,
with the same caches and with templates that are alike.  And whether it stores its text or not, the
next render of the template answers as if it were the first. -/
theorem agree_without_render {request : TemplateRequest} (hrender : request.isRender = true)
    (sourceKey : SourceKey) (name : Text) (front back : List WorkspaceStep)
    (workspace : Workspace) :
    let here := workspace.run sourceKey front
    (here.stores name = false →
        List.Forall₂ Agree
          ((workspace.trace sourceKey (front ++ .perform name request :: back)).eraseIdx
            front.length)
          (workspace.trace sourceKey (front ++ back))) ∧
      ∀ other : TemplateRequest, other.isRender = true →
        ((here.step sourceKey (.perform name request)).2.step sourceKey (.perform name other)).1 =
          (here.step sourceKey (.perform name other)).1 := by
  intro here
  refine ⟨?_, fun other hother => step_render_render hrender hother name here⟩
  intro hstores
  have halike : (here.step sourceKey (.perform name request)).2.IsAlike here :=
    isAlike_of_not_stores hrender hstores
  have hlength : (workspace.trace sourceKey front).length = front.length :=
    length_trace front workspace
  rw [trace_append, trace_append, List.eraseIdx_append_of_length_le hlength.le, hlength,
    Nat.sub_self]
  -- In front of the render the runs are the same, behind it they start from workspaces alike.
  apply List.rel_append
  · exact List.forall₂_same.mpr fun entry _ => ⟨rfl, .refl entry.2⟩
  · exact halike.trace sourceKey back

/-- A render that fails can be left out in front of one that stores the text, although it already
counts a value. -/
theorem agree_without_failed_render :
    let source : Text := "[{<f>:<v>}]".toList
    let front : List WorkspaceStep :=
      [.addCache ['m'] (some 1), .create ['a'] (.named ['m']) source,
        .perform ['a'] (.assign ['v'] ['1'])]
    let back : List WorkspaceStep :=
      [.perform ['a'] (.resolve ['f']), .perform ['a'] .renderDocuments,
        .create ['b'] (.named ['m']) source, .perform ['b'] (.assign ['v'] ['2']),
        .perform ['b'] .renderText]
    let here := Workspace.empty.run defaultKey front
    let after := (here.step defaultKey (.perform ['a'] .renderText)).2
    here.stores ['a'] = false ∧
      (after.template? ['a']).map Template.replaced ≠ (here.template? ['a']).map Template.replaced ∧
      List.Forall₂ Agree
        ((Workspace.empty.trace defaultKey (front ++ .perform ['a'] .renderText :: back)).eraseIdx 3)
        (Workspace.empty.trace defaultKey (front ++ back)) ∧
      (after.step defaultKey (.perform ['a'] .renderText)).1 =
        (here.step defaultKey (.perform ['a'] .renderText)).1 := by
  intro source front back here after
  have hstores : here.stores ['a'] = false := by decide +kernel
  have hrender : TemplateRequest.isRender .renderText = true := rfl
  obtain ⟨hleft, hagain⟩ :=
    agree_without_render hrender defaultKey ['a'] front back Workspace.empty
  exact ⟨hstores, by decide +kernel, hleft hstores, hagain .renderText rfl⟩

end Workspace
end CommandTemplate
