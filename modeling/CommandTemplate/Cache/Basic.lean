import CommandTemplate.Cache.Recency
import CommandTemplate.Text.Basic

/-!
# The cache of expanded templates

Once the structural tags of a template are filled in, its text depends only on its source and on
the paths supplied, and can serve later templates of the same source.  The cache keeps such texts
under a 64-bit key of the source, along with the source itself: a key alone may be shared by two
sources, and an entry answers only for the source it was stored for.  A bounded cache drops the
entry that has been left alone longest when it grows past its capacity.
-/

namespace CommandTemplate

structure CacheEntry where
  source : Text
  expanded : Text
deriving DecidableEq, Repr

/-- The expanded text that an entry holds for a source. -/
def CacheEntry.expandedFor? (entry : CacheEntry) (source : Text) : Option Text :=
  if entry.source = source then some entry.expanded else none

/-- Expanded texts by the key of their source. -/
structure Cache where
  /-- The greatest number of entries; without one, every entry is kept. -/
  capacity : Option Nat
  entries : RecencyMap UInt64 CacheEntry
deriving DecidableEq

/-- A way to give a source its 64-bit key. -/
abbrev SourceKey := Text → UInt64

namespace Cache

/-- The cache of a given capacity without entries. -/
def ofCapacity (capacity : Option Nat) : Cache :=
  ⟨capacity, ∅⟩

/-- The cache that keeps every entry, without entries. -/
def unbounded : Cache :=
  ofCapacity none

def size (cache : Cache) : Nat :=
  cache.entries.size

/-- The expanded text stored under a key for a source, and the cache after the look-up.  The entry
of the key counts as used, also when it holds another source. -/
def lookup (cache : Cache) (key : UInt64) (source : Text) : Option Text × Cache :=
  match cache.entries.get? key with
  | some entry =>
    (entry.expandedFor? source, { cache with entries := cache.entries.put key entry })
  | none => (none, cache)

/-- Whether a number of entries is within the capacity. -/
def fits (cache : Cache) (count : Nat) : Bool :=
  match cache.capacity with
  | some capacity => count ≤ capacity
  | none => true

/-- Stores the expanded text of a source under a key, in place of what the key held. -/
def store (cache : Cache) (key : UInt64) (source expanded : Text) : Cache :=
  let entries := cache.entries.put key ⟨source, expanded⟩
  { cache with entries := if cache.fits entries.size then entries else entries.dropOldest }

/-- Whether there is an entry for a source.  Nothing counts as used. -/
def contains (sourceKey : SourceKey) (cache : Cache) (source : Text) : Bool :=
  match cache.entries.get? (sourceKey source) with
  | some entry => entry.source = source
  | none => false

def clear (cache : Cache) : Cache :=
  ofCapacity cache.capacity

end Cache
end CommandTemplate
