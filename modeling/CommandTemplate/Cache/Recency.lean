/-!
# Maps in order of last use

A recency map is a list of entries with distinct keys whose order is the order of last use, the
entry used last at the back.  Writing an entry moves it there, so that the front of the list is
the entry that has been left alone longest.
-/

namespace CommandTemplate

/-- A map whose entries are listed from least to most recently used. -/
structure RecencyMap (κ ν : Type) where
  /-- The entries, the most recently used one last. -/
  entries : List (κ × ν)
  /-- No key has two entries. -/
  nodup : (entries.map Prod.fst).Nodup

namespace RecencyMap

variable {κ ν : Type} [DecidableEq κ]

instance [DecidableEq ν] : DecidableEq (RecencyMap κ ν) := fun a b =>
  if h : a.entries = b.entries then
    isTrue (by cases a; cases b; simpa using h)
  else
    isFalse fun hab => h (congrArg entries hab)

omit [DecidableEq κ] in
@[ext] theorem ext {a b : RecencyMap κ ν} (h : a.entries = b.entries) : a = b := by
  cases a
  cases b
  simpa using h

def empty : RecencyMap κ ν :=
  ⟨[], by simp⟩

instance : EmptyCollection (RecencyMap κ ν) := ⟨empty⟩

def size (map : RecencyMap κ ν) : Nat :=
  map.entries.length

/-- The keys in order of last use. -/
def keys (map : RecencyMap κ ν) : List κ :=
  map.entries.map Prod.fst

def get? (map : RecencyMap κ ν) (key : κ) : Option ν :=
  map.entries.lookup key

def remove (map : RecencyMap κ ν) (key : κ) : RecencyMap κ ν :=
  ⟨map.entries.filter fun entry => entry.1 ≠ key,
    map.nodup.sublist (List.filter_sublist.map Prod.fst)⟩

/-- Writes an entry, which becomes the most recently used one. -/
def put (map : RecencyMap κ ν) (key : κ) (value : ν) : RecencyMap κ ν :=
  ⟨(map.remove key).entries ++ [(key, value)], by
    rw [List.map_append, List.nodup_append]
    refine ⟨(map.remove key).nodup, by simp, ?_⟩
    intro a ha b hb
    simp only [List.map_cons, List.map_nil, List.mem_singleton] at hb
    subst hb
    obtain ⟨entry, hentry, rfl⟩ := List.mem_map.mp ha
    simpa using (List.mem_filter.mp hentry).2⟩

/-- The map without the entry that has been left alone longest. -/
def dropOldest (map : RecencyMap κ ν) : RecencyMap κ ν :=
  ⟨map.entries.tail, map.nodup.sublist ((List.tail_sublist _).map Prod.fst)⟩

omit [DecidableEq κ] in
@[simp] theorem entries_empty : (∅ : RecencyMap κ ν).entries = [] :=
  rfl

@[simp] theorem entries_remove (map : RecencyMap κ ν) (key : κ) :
    (map.remove key).entries = map.entries.filter fun entry => entry.1 ≠ key :=
  rfl

@[simp] theorem entries_put (map : RecencyMap κ ν) (key : κ) (value : ν) :
    (map.put key value).entries =
      (map.entries.filter fun entry => entry.1 ≠ key) ++ [(key, value)] :=
  rfl

omit [DecidableEq κ] in
theorem size_eq (map : RecencyMap κ ν) : map.size = map.keys.length :=
  (List.length_map _).symm

theorem keys_put (map : RecencyMap κ ν) (key : κ) (value : ν) :
    (map.put key value).keys = map.keys.filter (· ≠ key) ++ [key] := by
  rw [keys, entries_put, List.map_append, keys, List.filter_map]
  rfl

theorem get?_empty (key : κ) : (∅ : RecencyMap κ ν).get? key = none :=
  rfl

theorem get?_remove (map : RecencyMap κ ν) (key other : κ) :
    (map.remove key).get? other = if other = key then none else map.get? other := by
  rw [get?, get?, entries_remove]
  induction map.entries with
  | nil => simp
  | cons entry rest ih =>
      obtain ⟨first, value⟩ := entry
      by_cases hkey : first = key
      · subst hkey
        by_cases hother : other = first
        · simpa [hother] using ih
        · simpa [hother, List.lookup_cons, beq_false_of_ne hother] using ih
      · by_cases hother : other = first
        · subst hother
          simp [hkey]
        · simpa [hkey, List.lookup_cons, beq_false_of_ne hother] using ih

@[simp] theorem get?_put (map : RecencyMap κ ν) (key other : κ) (value : ν) :
    (map.put key value).get? other = if other = key then some value else map.get? other := by
  have hput : (map.put key value).get? other =
      ((map.remove key).get? other).or (List.lookup other [(key, value)]) := by
    rw [get?, entries_put, List.lookup_append, get?, entries_remove]
  rw [hput, get?_remove]
  by_cases hother : other = key
  · simp [hother]
  · simp [hother, List.lookup_cons, beq_false_of_ne hother]

theorem get?_of_get?_dropOldest {map : RecencyMap κ ν} {key : κ} {value : ν}
    (h : map.dropOldest.get? key = some value) : map.get? key = some value := by
  obtain ⟨entries, hnodup⟩ := map
  cases entries with
  | nil => exact h
  | cons first rest =>
      have hrest : rest.lookup key = some value := h
      have hkey : key ∈ rest.map Prod.fst := by
        obtain ⟨entry, hentry, heq⟩ := List.lookup_isSome_iff.mp (Option.isSome_of_eq_some hrest)
        exact List.mem_map.mpr ⟨entry, hentry, (beq_iff_eq.mp heq).symm⟩
      have hne : key ≠ first.1 := by
        rintro rfl
        exact (List.nodup_cons.mp hnodup).1 hkey
      rw [get?, List.lookup_cons, beq_false_of_ne hne]
      exact hrest

theorem mem_keys_iff {map : RecencyMap κ ν} {key : κ} :
    key ∈ map.keys ↔ (map.get? key).isSome := by
  rw [keys, get?, List.lookup_isSome_iff, List.mem_map]
  constructor
  · rintro ⟨entry, hentry, rfl⟩
    exact ⟨entry, hentry, by simp⟩
  · rintro ⟨entry, hentry, hkey⟩
    exact ⟨entry, hentry, (beq_iff_eq.mp hkey).symm⟩

end RecencyMap
end CommandTemplate
