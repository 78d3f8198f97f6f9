import CommandTemplate.Proofs.Template.Creation

/-!
# What all entries of a cache have in common

Nothing that happens to a cache makes up an entry: look-ups move entries, evictions and `clear` drop
them, and a bounded cache drops the oldest one.  A property of all entries is kept as long as it
holds of what is stored.
-/

namespace CommandTemplate
namespace Cache

def evict (cache : Cache) (key : UInt64) : Cache :=
  { cache with entries := cache.entries.remove key }

def Holds (property : CacheEntry → Prop) (cache : Cache) : Prop :=
  ∀ key entry, cache.entries.get? key = some entry → property entry

variable {property : CacheEntry → Prop} {cache : Cache}

theorem holds_ofCapacity (capacity : Option Nat) : (ofCapacity capacity).Holds property := by
  intro key entry hentry
  simp [ofCapacity, RecencyMap.get?_empty] at hentry

theorem get?_clear (cache : Cache) (key : UInt64) : cache.clear.entries.get? key = none :=
  RecencyMap.get?_empty key

theorem of_get?_evict {key other : UInt64} {entry : CacheEntry}
    (h : (cache.evict key).entries.get? other = some entry) :
    cache.entries.get? other = some entry := by
  rw [evict, RecencyMap.get?_remove] at h
  split at h
  · simp at h
  · exact h

theorem Holds.of_lookup (h : cache.Holds property) {key : UInt64} {source expanded : Text}
    (hlookup : (cache.lookup key source).1 = some expanded) : property ⟨source, expanded⟩ :=
  h key _ (lookup_eq_some_iff.mp hlookup)

/-- There is an entry for a source if a look-up of the source finds a text. -/
theorem contains_eq (sourceKey : SourceKey) (cache : Cache) (source : Text) :
    cache.contains sourceKey source = (cache.lookup (sourceKey source) source).1.isSome := by
  rw [contains, lookup]
  cases cache.entries.get? (sourceKey source) with
  | none => rfl
  | some entry =>
      simp only [CacheEntry.expandedFor?]
      split <;> simp_all

/-- After a store there is what was there before, except that the key of the store has nothing else
than what was stored. -/
theorem of_get?_store {key other : UInt64} {source expanded : Text} {entry : CacheEntry}
    (h : (cache.store key source expanded).entries.get? other = some entry) :
    (other = key ∧ entry = ⟨source, expanded⟩) ∨
      (other ≠ key ∧ cache.entries.get? other = some entry) := by
  have hput : (cache.entries.put key ⟨source, expanded⟩).get? other = some entry := by
    rw [Cache.store] at h
    split at h
    · exact h
    · exact RecencyMap.get?_of_get?_dropOldest h
  rw [RecencyMap.get?_put] at hput
  split at hput
  · rename_i hkey
    exact Or.inl ⟨hkey, (Option.some.inj hput).symm⟩
  · rename_i hkey
    exact Or.inr ⟨hkey, hput⟩

theorem Holds.store (h : cache.Holds property) {key : UInt64} {source expanded : Text}
    (hnew : property ⟨source, expanded⟩) : (cache.store key source expanded).Holds property := by
  intro other entry hentry
  rcases of_get?_store hentry with ⟨-, rfl⟩ | ⟨-, hold⟩
  · exact hnew
  · exact h other entry hold

end Cache
end CommandTemplate
