import CommandTemplate.Proofs.Cache.Entries
import CommandTemplate.Proofs.Distinct
import Mathlib.Data.List.DropRight
import Mathlib.Data.List.Perm.Basic

/-!
# The least recently used entry goes

A bounded cache is described by its history.  A key is used when something is stored under it, and
when it is looked up while it is there, whatever the source.  The keys of the cache are those used
last, as many of them as it has room for, and under each of them stands what was stored there last.
-/

namespace CommandTemplate

inductive CacheCall
  | lookup (key : UInt64) (source : Text)
  | store (key : UInt64) (source expanded : Text)
  | contains (source : Text)
  | size
  | clear
deriving DecidableEq

/-- Whether a call asks if there is an entry for a source. -/
def CacheCall.isContains : CacheCall → Bool
  | .contains _ => true
  | _ => false

inductive CacheAnswer
  | found (expanded : Option Text)
  | present (isPresent : Bool)
  | count (size : Nat)
  | done
deriving DecidableEq

namespace Cache

def afterCall (call : CacheCall) (cache : Cache) : Cache :=
  match call with
  | .lookup key source => (cache.lookup key source).2
  | .store key source expanded => cache.store key source expanded
  | .contains _ => cache
  | .size => cache
  | .clear => cache.clear

def afterCalls (calls : List CacheCall) (cache : Cache) : Cache :=
  calls.foldl (fun cache call => cache.afterCall call) cache

def answer (sourceKey : SourceKey) (call : CacheCall) (cache : Cache) : CacheAnswer :=
  match call with
  | .lookup key source => .found (cache.lookup key source).1
  | .store _ _ _ => .done
  | .contains source => .present (cache.contains sourceKey source)
  | .size => .count cache.size
  | .clear => .done

def answers (sourceKey : SourceKey) : List CacheCall → Cache → List CacheAnswer
  | [], _ => []
  | call :: calls, cache =>
    cache.answer sourceKey call :: answers sourceKey calls (cache.afterCall call)

end Cache

/-- What happened to a cache since it was cleared. -/
structure CacheHistory where
  /-- The keys that were used, each as often as it was, the last one at the back. -/
  uses : List UInt64
  /-- What was stored under which key, the last of it at the back. -/
  stores : List (UInt64 × CacheEntry)

namespace CacheHistory

def empty : CacheHistory :=
  ⟨[], []⟩

/-- The history after a call of a cache. -/
def record (call : CacheCall) (cache : Cache) (history : CacheHistory) : CacheHistory :=
  match call with
  | .lookup key _ =>
    if key ∈ cache.entries.keys then { history with uses := history.uses ++ [key] } else history
  | .store key source expanded =>
    ⟨history.uses ++ [key], history.stores ++ [(key, ⟨source, expanded⟩)]⟩
  | .contains _ => history
  | .size => history
  | .clear => .empty

def recordAll : List CacheCall → Cache → CacheHistory → CacheHistory
  | [], _, history => history
  | call :: calls, cache, history =>
    recordAll calls (cache.afterCall call) (history.record call cache)

/-- The history of calls of a new cache of a capacity. -/
def ofCalls (capacity : Option Nat) (calls : List CacheCall) : CacheHistory :=
  recordAll calls (.ofCapacity capacity) .empty

/-- What was stored under a key last. -/
def latest? (history : CacheHistory) (key : UInt64) : Option CacheEntry :=
  history.stores.reverse.lookup key

/-- The uses of other keys since the last use of a key. -/
def usesSince (history : CacheHistory) (key : UInt64) : List UInt64 :=
  history.uses.rtakeWhile (· ≠ key)

end CacheHistory

/-! ## The order of last use -/

section Order

variable {α : Type} {order keys before after front back : List α} {key : α} {capacity : Nat}

/-- A list without repetition is cut at an item in one way only. -/
theorem after_eq_of_nodup (hnodup : (before ++ key :: after).Nodup)
    (h : before ++ key :: after = front ++ key :: back) : after = back := by
  have hafter : key ∉ after := (List.nodup_cons.mp (List.nodup_append.mp hnodup).2.1).1
  have hbefore : key ∉ before := fun hmem =>
    (List.nodup_append.mp hnodup).2.2 key hmem key List.mem_cons_self rfl
  exact ((List.append_cons_inj_of_notMem hbefore hafter).mp h).2.2

/-- The keys are the last ones in an order, as many of them as there is room for. -/
def AreLast (capacity : Nat) (order keys : List α) : Prop :=
  ∃ dropped, order = dropped ++ keys ∧ keys.length ≤ capacity ∧
    (dropped ≠ [] → keys.length = capacity)

theorem AreLast.subset (h : AreLast capacity order keys) : keys ⊆ order := by
  obtain ⟨dropped, rfl, -⟩ := h
  exact List.subset_append_right dropped keys

theorem AreLast.length_eq (h : AreLast capacity order keys) :
    keys.length = min capacity order.length := by
  obtain ⟨dropped, rfl, hlength, hfull⟩ := h
  rw [List.length_append]
  by_cases hdropped : dropped = []
  · rw [hdropped, List.length_nil, Nat.zero_add, Nat.min_eq_right hlength]
  · rw [hfull hdropped]
    omega

/-- A key is among the last ones if there is room for it and for all that stand behind it. -/
theorem AreLast.mem_iff (h : AreLast capacity order keys) (hnodup : order.Nodup)
    (horder : order = before ++ key :: after) : key ∈ keys ↔ after.length < capacity := by
  obtain ⟨dropped, rfl, hlength, hfull⟩ := h
  rw [horder] at hnodup
  constructor
  · intro hkey
    obtain ⟨front, back, rfl⟩ := List.append_of_mem hkey
    rw [← List.append_assoc] at horder
    rw [after_eq_of_nodup hnodup horder.symm]
    simp only [List.length_append, List.length_cons] at hlength
    omega
  · intro hroom
    have hmem : key ∈ dropped ++ keys := by simp [horder]
    refine (List.mem_append.mp hmem).resolve_left ?_
    intro hdropped
    obtain ⟨front, back, rfl⟩ := List.append_of_mem hdropped
    have hkeys : keys.length = capacity := hfull (by simp)
    rw [List.append_assoc, List.cons_append] at horder
    rw [after_eq_of_nodup hnodup horder.symm, List.length_append] at hroom
    omega

variable [DecidableEq α]

theorem filter_ne_eq_erase (hnodup : keys.Nodup) (key : α) :
    keys.filter (· ≠ key) = keys.erase key := by
  rw [hnodup.erase_eq_filter]
  exact List.filter_congr fun other _ => by simp [bne, beq_eq_decide]

/-- Moving a key to the back of the last ones, where there may be no room for the first of them any
more, gives the last ones of the order in which the key is moved. -/
theorem AreLast.move (h : AreLast capacity order keys) (hnodup : order.Nodup) (key : α)
    {moved : List α} (hmoved : moved = keys.filter (· ≠ key) ++ [key]) :
    AreLast capacity (order.filter (· ≠ key) ++ [key])
      (if moved.length ≤ capacity then moved else moved.tail) := by
  obtain ⟨dropped, rfl, hlength, hfull⟩ := h
  have hshort : (keys.filter (· ≠ key)).length ≤ keys.length := List.length_filter_le _ _
  have hlong : keys.length ≤ (keys.filter (· ≠ key)).length + 1 := by
    have herase : keys.length - 1 ≤ (keys.erase key).length := List.le_length_erase
    rw [filter_ne_eq_erase (List.nodup_append.mp hnodup).2.1]
    omega
  have hmovedLength : moved.length = (keys.filter (· ≠ key)).length + 1 := by
    rw [hmoved, List.length_append, List.length_singleton]
  have horder : (dropped ++ keys).filter (· ≠ key) ++ [key] =
      dropped.filter (· ≠ key) ++ moved := by
    rw [List.filter_append, List.append_assoc, hmoved]
  rw [horder]
  split
  · rename_i hfits
    refine ⟨dropped.filter (· ≠ key), rfl, hfits, ?_⟩
    intro hne
    have hkeys : keys.length = capacity := hfull fun hnil => hne (by rw [hnil, List.filter_nil])
    omega
  · rename_i hfits
    obtain ⟨first, rest, rfl⟩ : ∃ first rest, moved = first :: rest :=
      List.exists_cons_of_length_pos (by omega)
    rw [List.length_cons] at hmovedLength hfits
    refine ⟨dropped.filter (· ≠ key) ++ [first], by simp, ?_, fun _ => ?_⟩
    · rw [List.tail_cons]
      omega
    · rw [List.tail_cons]
      omega

/-- In the order of last use, the keys used since the last use of a key stand behind it. -/
theorem exists_dedup_eq_append {uses : List α} (h : key ∈ uses) :
    ∃ before, uses.dedup = before ++ key :: (uses.rtakeWhile (· ≠ key)).dedup := by
  induction uses using List.reverseRecOn with
  | nil => simp at h
  | append_singleton uses last ih =>
      by_cases hlast : last = key
      · subst hlast
        refine ⟨uses.dedup.filter (· ≠ last), ?_⟩
        rw [dedup_append_singleton, List.rtakeWhile_concat_neg _ _ _ (by simp), List.dedup_nil]
      · have huses : key ∈ uses := by simpa [Ne.symm hlast] using h
        obtain ⟨before, hbefore⟩ := ih huses
        refine ⟨before.filter (· ≠ last), ?_⟩
        rw [List.rtakeWhile_concat_pos _ _ _ (by simpa using hlast), dedup_append_singleton,
          dedup_append_singleton, hbefore, List.filter_append,
          List.filter_cons_of_pos (by simpa using Ne.symm hlast), List.append_assoc,
          List.cons_append]

end Order

/-! ## One call -/

namespace CacheHistory

/-- The distinct keys in the order in which they were used last. -/
def order (history : CacheHistory) : List UInt64 :=
  history.uses.dedup

def storedKeys (history : CacheHistory) : List UInt64 :=
  (history.stores.map Prod.fst).dedup

theorem latest?_store (history : CacheHistory) (cache : Cache) (key other : UInt64)
    (source expanded : Text) :
    (history.record (.store key source expanded) cache).latest? other =
      if other = key then some ⟨source, expanded⟩ else history.latest? other := by
  rw [latest?, record, List.reverse_append, List.reverse_singleton, List.singleton_append,
    List.lookup_cons]
  by_cases hother : other = key
  · simp [hother]
  · rw [beq_false_of_ne hother, if_neg hother]
    rfl

/-- A history goes with a cache of a capacity. -/
structure Describes (history : CacheHistory) (capacity : Nat) (cache : Cache) : Prop where
  bounded : cache.capacity = some capacity
  keys : AreLast capacity history.order cache.entries.keys
  entries : ∀ key entry, cache.entries.get? key = some entry → history.latest? key = some entry
  stored : ∀ key, key ∈ history.uses ↔ key ∈ history.stores.map Prod.fst

variable {history : CacheHistory} {capacity : Nat} {cache : Cache}

theorem describes_ofCapacity (capacity : Nat) :
    empty.Describes capacity (.ofCapacity (some capacity)) where
  bounded := rfl
  keys := ⟨[], rfl, Nat.zero_le _, fun h => absurd rfl h⟩
  entries := by
    intro key entry hentry
    simp [Cache.ofCapacity, RecencyMap.get?_empty] at hentry
  stored := fun key => by simp [empty]

/-- Writing an entry uses its key, and drops the oldest entry when there is no room. -/
theorem Describes.keys_put (h : history.Describes capacity cache) (key : UInt64)
    (entry : CacheEntry) :
    AreLast capacity (history.uses ++ [key]).dedup
      (if (cache.entries.put key entry).size ≤ capacity then (cache.entries.put key entry).keys
        else (cache.entries.put key entry).keys.tail) := by
  rw [dedup_append_singleton, RecencyMap.size_eq]
  exact h.keys.move (List.nodup_dedup _) key (RecencyMap.keys_put _ _ _)

theorem Describes.store (h : history.Describes capacity cache) (key : UInt64)
    (source expanded : Text) :
    (history.record (.store key source expanded) cache).Describes capacity
      (cache.store key source expanded) where
  bounded := h.bounded
  keys := by
    have hkeys := h.keys_put key ⟨source, expanded⟩
    simp only [Cache.store, Cache.fits, h.bounded, decide_eq_true_iff]
    split
    · rename_i hfits
      rwa [if_pos hfits] at hkeys
    · rename_i hfits
      rw [if_neg hfits, RecencyMap.keys, ← List.map_tail] at hkeys
      exact hkeys
  entries := by
    intro other entry hentry
    rw [latest?_store]
    rcases Cache.of_get?_store hentry with ⟨rfl, rfl⟩ | ⟨hother, hold⟩
    · rw [if_pos rfl]
    · rw [if_neg hother]
      exact h.entries other entry hold
  stored := by
    intro other
    simp [record, h.stored other, eq_comm]

/-- There is room for an entry whose key is there. -/
theorem Describes.size_put_le (h : history.Describes capacity cache) {key : UInt64}
    (hkey : key ∈ cache.entries.keys) (entry : CacheEntry) :
    (cache.entries.put key entry).size ≤ capacity := by
  have herase : cache.entries.keys.filter (· ≠ key) = cache.entries.keys.erase key :=
    filter_ne_eq_erase cache.entries.nodup key
  have hlength := List.length_erase_of_mem hkey
  have hpos := List.length_pos_of_mem hkey
  have hroom : cache.entries.keys.length ≤ capacity := by
    rw [h.keys.length_eq]
    exact Nat.min_le_left _ _
  rw [RecencyMap.size_eq, RecencyMap.keys_put, herase, List.length_append, List.length_singleton]
  omega

/-- A look-up uses a key that is there. -/
theorem Describes.lookup (h : history.Describes capacity cache) (key : UInt64) (source : Text) :
    (history.record (.lookup key source) cache).Describes capacity (cache.lookup key source).2 := by
  rw [Cache.lookup, record]
  cases hentry : cache.entries.get? key with
  | none =>
      have hkey : key ∉ cache.entries.keys := by simp [RecencyMap.mem_keys_iff, hentry]
      rw [if_neg hkey]
      exact h
  | some entry =>
      have hkey : key ∈ cache.entries.keys := by simp [RecencyMap.mem_keys_iff, hentry]
      have hstored : key ∈ history.stores.map Prod.fst :=
        (h.stored key).mp (List.mem_dedup.mp (h.keys.subset hkey))
      rw [if_pos hkey]
      refine ⟨h.bounded, ?_, ?_, ?_⟩
      · have hkeys := h.keys_put key entry
        rwa [if_pos (h.size_put_le hkey entry)] at hkeys
      · intro other found hfound
        rw [RecencyMap.get?_put] at hfound
        split at hfound
        · rename_i hother
          rw [hother]
          exact h.entries key found (hentry.trans hfound)
        · exact h.entries other found hfound
      · intro other
        rw [List.mem_append, List.mem_singleton, h.stored other]
        refine or_iff_left_of_imp ?_
        rintro rfl
        exact hstored

theorem Describes.after (h : history.Describes capacity cache) (call : CacheCall) :
    (history.record call cache).Describes capacity (cache.afterCall call) := by
  cases call with
  | lookup key source => exact h.lookup key source
  | store key source expanded => exact h.store key source expanded
  | contains source => exact h
  | size => exact h
  | clear =>
      rw [Cache.afterCall, Cache.clear, h.bounded]
      exact describes_ofCapacity capacity

theorem Describes.afterCalls (h : history.Describes capacity cache) (calls : List CacheCall) :
    (history.recordAll calls cache).Describes capacity (cache.afterCalls calls) := by
  induction calls generalizing history cache with
  | nil => exact h
  | cons call calls ih => exact ih (h.after call)

/-! ## All calls -/

/-- The keys of a cache are those with room for them and for the keys used since. -/
theorem Describes.mem_keys_iff (h : history.Describes capacity cache) {key : UInt64}
    (hkey : key ∈ history.uses) :
    key ∈ cache.entries.keys ↔ (history.usesSince key).dedup.length < capacity := by
  obtain ⟨before, hbefore⟩ := exists_dedup_eq_append hkey
  exact h.keys.mem_iff (List.nodup_dedup _) hbefore

theorem Describes.lookup_eq_some_iff (h : history.Describes capacity cache) {key : UInt64}
    {source expanded : Text} :
    (cache.lookup key source).1 = some expanded ↔
      history.latest? key = some ⟨source, expanded⟩ ∧
        (history.usesSince key).dedup.length < capacity := by
  rw [Cache.lookup_eq_some_iff]
  constructor
  · intro hentry
    have hkey : key ∈ cache.entries.keys := by simp [RecencyMap.mem_keys_iff, hentry]
    refine ⟨h.entries key _ hentry, ?_⟩
    rwa [← h.mem_keys_iff (List.mem_dedup.mp (h.keys.subset hkey))]
  · rintro ⟨hlatest, hroom⟩
    have hused : key ∈ history.uses := by
      rw [h.stored]
      obtain ⟨stored, hstored, heq⟩ :=
        List.lookup_isSome_iff.mp (Option.isSome_of_eq_some hlatest)
      exact List.mem_map.mpr ⟨stored, List.mem_reverse.mp hstored, (beq_iff_eq.mp heq).symm⟩
    obtain ⟨entry, hentry⟩ :=
      Option.isSome_iff_exists.mp (RecencyMap.mem_keys_iff.mp ((h.mem_keys_iff hused).mpr hroom))
    rw [hentry, ← h.entries key entry hentry, hlatest]

theorem Describes.size_eq (h : history.Describes capacity cache) :
    cache.size = min capacity history.storedKeys.length := by
  have horder : history.order.Perm history.storedKeys :=
    (List.perm_ext_iff_of_nodup (List.nodup_dedup _) (List.nodup_dedup _)).mpr fun key => by
      rw [List.mem_dedup, List.mem_dedup, h.stored key]
  rw [Cache.size, RecencyMap.size_eq, h.keys.length_eq, horder.length_eq]

theorem describes_ofCalls (capacity : Nat) (calls : List CacheCall) :
    (ofCalls (some capacity) calls).Describes capacity
      ((Cache.ofCapacity (some capacity)).afterCalls calls) :=
  (describes_ofCapacity capacity).afterCalls calls

end CacheHistory

namespace Cache

/-- Asking whether there is an entry changes nothing. -/
theorem afterCalls_filter (calls : List CacheCall) (cache : Cache) :
    cache.afterCalls (calls.filter fun call => !call.isContains) = cache.afterCalls calls := by
  induction calls generalizing cache with
  | nil => rfl
  | cons call calls ih =>
      cases call with
      | contains source => exact ih cache
      | lookup key source => exact ih _
      | store key source expanded => exact ih _
      | size => exact ih _
      | clear => exact ih _

/-- A cache of a capacity after any calls: a look-up finds what was stored under the key last, if
that was for the source and there was room for the key and for all that were used since; there are as
many entries as there is room for the keys that were stored; and it makes no difference whether
anything was asked about entries. -/
theorem keeps_recently_used (sourceKey : SourceKey) (capacity : Nat) (calls : List CacheCall) :
    (∀ key source expanded,
      (((ofCapacity (some capacity)).afterCalls calls).lookup key source).1 = some expanded ↔
        (CacheHistory.ofCalls (some capacity) calls).latest? key = some ⟨source, expanded⟩ ∧
          ((CacheHistory.ofCalls (some capacity) calls).usesSince key).dedup.length < capacity) ∧
      ((ofCapacity (some capacity)).afterCalls calls).size =
        min capacity (CacheHistory.ofCalls (some capacity) calls).storedKeys.length ∧
      ∀ later,
        answers sourceKey later ((ofCapacity (some capacity)).afterCalls
            (calls.filter fun call => !call.isContains)) =
          answers sourceKey later ((ofCapacity (some capacity)).afterCalls calls) := by
  have hdescribes := CacheHistory.describes_ofCalls capacity calls
  refine ⟨?_, hdescribes.size_eq, ?_⟩
  · intro key source expanded
    exact hdescribes.lookup_eq_some_iff
  · intro later
    rw [afterCalls_filter]

/-- After any calls, the question whether there is an entry for a source is answered by the history:
the last text stored under its key was for the source, and there was room for the key and for all
that were used since. -/
theorem contains_afterCalls_iff (sourceKey : SourceKey) (capacity : Nat) (calls : List CacheCall)
    (source : Text) :
    ((ofCapacity (some capacity)).afterCalls calls).contains sourceKey source = true ↔
      (∃ expanded, (CacheHistory.ofCalls (some capacity) calls).latest? (sourceKey source) =
          some ⟨source, expanded⟩) ∧
        ((CacheHistory.ofCalls (some capacity) calls).usesSince
          (sourceKey source)).dedup.length < capacity := by
  rw [contains_eq, Option.isSome_iff_exists, ← exists_and_right]
  exact exists_congr fun _ => (CacheHistory.describes_ofCalls capacity calls).lookup_eq_some_iff

end Cache
end CommandTemplate
