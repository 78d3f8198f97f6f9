import CommandTemplate.Proofs.Template.Calls

/-!
# How a template comes to be

A template starts from the entry of the cache for its source, or else from its trimmed source.  An
entry answers only for the source that it was stored for, so that a look-up finds just what was
stored under the key for this source.
-/

namespace CommandTemplate

theorem CacheEntry.expandedFor?_eq_some_iff {entry : CacheEntry} {source expanded : Text} :
    entry.expandedFor? source = some expanded ↔ entry = ⟨source, expanded⟩ := by
  obtain ⟨stored, text⟩ := entry
  rw [expandedFor?]
  by_cases h : stored = source
  · simp [h]
  · simp [h]

namespace Cache

/-- A look-up finds what is stored under the key for the source. -/
theorem lookup_eq_some_iff {cache : Cache} {key : UInt64} {source expanded : Text} :
    (cache.lookup key source).1 = some expanded ↔
      cache.entries.get? key = some ⟨source, expanded⟩ := by
  rw [lookup]
  cases hentry : cache.entries.get? key with
  | none => simp
  | some entry => simp [CacheEntry.expandedFor?_eq_some_iff]

/-- A look-up does not change what is stored. -/
theorem get?_lookup (cache : Cache) (key other : UInt64) (source : Text) :
    (cache.lookup key source).2.entries.get? other = cache.entries.get? other := by
  rw [lookup]
  cases hentry : cache.entries.get? key with
  | none => rfl
  | some entry =>
      rw [RecencyMap.get?_put]
      split
      · rename_i hother
        rw [hother, hentry]
      · rfl

@[simp] theorem lookup_ofCapacity (capacity : Option Nat) (key : UInt64) (source : Text) :
    (ofCapacity capacity).lookup key source = (none, ofCapacity capacity) :=
  rfl

end Cache

namespace Template

variable {sourceKey : SourceKey} {source : Text} {cache after : Cache} {template : Template}

/-- A source that a template can be made from without the help of the cache. -/
def IsSource (source : Text) : Prop :=
  source.isBlankText = false ∧
    ((goalTags source.trim).isEmpty = false ∨ source.trim.isEmptyArray = true)

theorem create_of_lookup_some {expanded : Text} (hblank : source.isBlankText = false)
    (hlookup : (cache.lookup (sourceKey source) source).1 = some expanded) :
    create sourceKey source cache =
      (.ok (start source (sourceKey source) true expanded),
        (cache.lookup (sourceKey source) source).2) := by
  rw [create, hblank]
  rcases hresult : cache.lookup (sourceKey source) source with ⟨found, after⟩
  rw [hresult] at hlookup
  obtain rfl : found = some expanded := hlookup
  rfl

theorem create_of_lookup_none (hlookup : (cache.lookup (sourceKey source) source).1 = none) :
    (create sourceKey source cache).1 = .ok template ↔
      IsSource source ∧ template = start source (sourceKey source) false source.trim := by
  rw [create, IsSource]
  rcases hresult : cache.lookup (sourceKey source) source with ⟨found, after⟩
  rw [hresult] at hlookup
  obtain rfl : found = none := hlookup
  cases hblank : source.isBlankText with
  | true => simp
  | false =>
      have hgoal : (start source (sourceKey source) false source.trim).goal =
          goalTags source.trim := rfl
      have hbase : (start source (sourceKey source) false source.trim).base = source.trim := rfl
      simp only [Bool.false_eq_true, if_false, hgoal, hbase]
      cases (goalTags source.trim).isEmpty with
      | false =>
          constructor
          · intro h
            exact ⟨by simp, (Except.ok.inj h).symm⟩
          · rintro ⟨-, rfl⟩
            rfl
      | true =>
          cases source.trim.isEmptyArray with
          | false => simp
          | true =>
              constructor
              · intro h
                exact ⟨by simp, (Except.ok.inj h).symm⟩
              · rintro ⟨-, rfl⟩
                rfl

/-- Making a template does to the cache what a look-up does, if anything. -/
theorem create_cache (sourceKey : SourceKey) (source : Text) (cache : Cache) :
    (create sourceKey source cache).2 =
      if source.isBlankText then cache else (cache.lookup (sourceKey source) source).2 := by
  rw [create]
  cases source.isBlankText with
  | true => rfl
  | false =>
      rcases cache.lookup (sourceKey source) source with ⟨found, after⟩
      cases found with
      | some expanded => rfl
      | none => simp only [Bool.false_eq_true, if_false]; split <;> rfl

theorem get?_create (sourceKey : SourceKey) (source : Text) (cache : Cache) (key : UInt64) :
    (create sourceKey source cache).2.entries.get? key = cache.entries.get? key := by
  rw [create_cache]
  split
  · rfl
  · exact Cache.get?_lookup cache _ key source

/-- A template starts from the text of the cache for its source, or from its trimmed source. -/
theorem create_cases (h : create sourceKey source cache = (.ok template, after)) :
    (∃ expanded, (cache.lookup (sourceKey source) source).1 = some expanded ∧
        template = start source (sourceKey source) true expanded) ∨
      ((cache.lookup (sourceKey source) source).1 = none ∧ IsSource source ∧
        template = start source (sourceKey source) false source.trim) := by
  have hresult : (create sourceKey source cache).1 = .ok template := by rw [h]
  cases hlookup : (cache.lookup (sourceKey source) source).1 with
  | none =>
      obtain ⟨hsource, htemplate⟩ := (create_of_lookup_none hlookup).mp hresult
      exact Or.inr ⟨rfl, hsource, htemplate⟩
  | some expanded =>
      cases hblank : source.isBlankText with
      | true => simp [create, hblank] at hresult
      | false =>
          rw [create_of_lookup_some hblank hlookup] at hresult
          exact Or.inl ⟨expanded, rfl, (Except.ok.inj hresult).symm⟩

end Template
end CommandTemplate
