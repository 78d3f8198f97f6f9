import Mathlib.Data.List.Dedup
import Mathlib.Data.List.Induction

/-!
# Lists without their repetitions

A list with repetitions has two lists of its distinct entries: one in the order in which they come
first, and one in the order in which they come last.  Going on by one entry changes the first list
only if the entry is new, and the second one in any case.  If the entries are labels of other
entries, which are in order, then the first list has the labels in the order of their first entries.
-/

namespace CommandTemplate

variable {α : Type}

section Labels

variable {β : Type} {before : β → β → Prop} {label : β → α} {entries : List β} {last : β}
  {former latter : α}

/-- Some entry with the former label comes before all entries with the latter. -/
def LabelledBefore (before : β → β → Prop) (label : β → α) (entries : List β)
    (former latter : α) : Prop :=
  ∃ entry ∈ entries, label entry = former ∧
    ∀ other ∈ entries, label other = latter → before entry other

theorem LabelledBefore.append_singleton (h : LabelledBefore before label entries former latter)
    (hlast : ∀ entry ∈ entries, before entry last) :
    LabelledBefore before label (entries ++ [last]) former latter := by
  obtain ⟨entry, hentry, hlabel, hfirst⟩ := h
  refine ⟨entry, List.mem_append_left [last] hentry, hlabel, ?_⟩
  intro other hother hlatter
  rcases List.mem_append.mp hother with hother | hother
  · exact hfirst other hother hlatter
  · rw [List.mem_singleton.mp hother]
    exact hlast entry hentry

theorem labelledBefore_of_not_mem (hformer : former ∈ entries.map label)
    (hlatter : latter ∉ entries.map label) : LabelledBefore before label entries former latter := by
  obtain ⟨entry, hentry, hlabel⟩ := List.mem_map.mp hformer
  refine ⟨entry, hentry, hlabel, ?_⟩
  intro other hother hsame
  exact absurd (List.mem_map.mpr ⟨other, hother, hsame⟩) hlatter

end Labels

section First

variable [BEq α] [LawfulBEq α]

/-- The distinct entries in the order of their first places: an entry that was there before changes
nothing. -/
theorem eraseDups_append_singleton (entries : List α) (entry : α) :
    (entries ++ [entry]).eraseDups =
      if entry ∈ entries then entries.eraseDups else entries.eraseDups ++ [entry] := by
  rw [List.eraseDups_append]
  by_cases hmem : entry ∈ entries
  · simp [hmem, List.removeAll]
  · simp [hmem, List.removeAll, List.eraseDups_cons]

theorem eraseDups_of_nodup {entries : List α} (h : entries.Nodup) :
    entries.eraseDups = entries := by
  induction entries using List.reverseRecOn with
  | nil => rfl
  | append_singleton entries entry ih =>
      rw [List.nodup_append] at h
      have hnew : entry ∉ entries := fun hmem => h.2.2 entry hmem entry (by simp) rfl
      rw [eraseDups_append_singleton, if_neg hnew, ih h.1]

/-- Entries that are left out do not change the order of the others. -/
theorem eraseDups_filter (keep : α → Bool) (entries : List α) :
    (entries.filter keep).eraseDups = entries.eraseDups.filter keep := by
  induction entries using List.reverseRecOn with
  | nil => rfl
  | append_singleton entries entry ih =>
      rw [List.filter_append, eraseDups_append_singleton]
      cases hkeep : keep entry with
      | false => split <;> simp [hkeep, ih]
      | true =>
          rw [List.filter_cons_of_pos hkeep, List.filter_nil, eraseDups_append_singleton, ih]
          by_cases hmem : entry ∈ entries
          · simp [hmem, hkeep]
          · simp [hmem, hkeep]

theorem nodup_eraseDups (entries : List α) : entries.eraseDups.Nodup := by
  induction entries using List.reverseRecOn with
  | nil => exact List.nodup_nil
  | append_singleton entries entry ih =>
      rw [eraseDups_append_singleton]
      split
      · exact ih
      · rename_i hnew
        rw [← List.mem_eraseDups] at hnew
        rw [← List.concat_eq_append]
        exact ih.concat hnew

/-- The distinct labels of entries in order stand in the order of their first entries. -/
theorem pairwise_eraseDups_map {β : Type} {before : β → β → Prop} {label : β → α}
    {entries : List β} (h : entries.Pairwise before) :
    (entries.map label).eraseDups.Pairwise (LabelledBefore before label entries) := by
  induction entries using List.reverseRecOn with
  | nil => exact List.Pairwise.nil
  | append_singleton entries last ih =>
      obtain ⟨hentries, -, hlast⟩ := List.pairwise_append.mp h
      simp only [List.mem_singleton, forall_eq] at hlast
      have hpairs := (ih hentries).imp fun hfirst => hfirst.append_singleton hlast
      rw [List.map_append, List.map_singleton, eraseDups_append_singleton]
      split
      · exact hpairs
      · rename_i hnew
        rw [List.pairwise_append]
        refine ⟨hpairs, List.pairwise_singleton _ _, ?_⟩
        intro former hformer latter hlatter
        rw [List.mem_singleton.mp hlatter]
        have hfirst : LabelledBefore before label entries former (label last) :=
          labelledBefore_of_not_mem (List.mem_eraseDups.mp hformer) hnew
        exact hfirst.append_singleton hlast

end First

section Last

variable [DecidableEq α]

/-- The distinct entries in the order of their last places: an entry moves to the back. -/
theorem dedup_append_singleton (entries : List α) (entry : α) :
    (entries ++ [entry]).dedup = entries.dedup.filter (· ≠ entry) ++ [entry] := by
  induction entries with
  | nil => simp
  | cons first entries ih =>
      rw [List.cons_append, List.dedup_cons, ih, List.dedup_cons]
      by_cases hentry : first = entry
      · by_cases hmem : first ∈ entries
        · simp [hmem]
        · rw [if_pos (by simp [hentry]), if_neg hmem, hentry, List.filter_cons_of_neg (by simp)]
      · by_cases hmem : first ∈ entries
        · simp [hmem]
        · simp [hmem, hentry]

end Last

section Both

/-- An entry that may not come again behind another one can only follow itself. -/
theorem eq_last_of_mem {entries : List α} {first last : α}
    (h : ∀ a b, [a, b, a].Sublist (entries ++ [last] ++ [first]) → a = b)
    (hmem : first ∈ entries ++ [last]) : first = last := by
  rcases List.mem_append.mp hmem with hfront | hlast
  · apply h
    exact ((List.singleton_sublist.mpr hfront).append (List.Sublist.refl [last])).append
      (List.Sublist.refl [first])
  · exact List.mem_singleton.mp hlast

variable [BEq α] [LawfulBEq α] [DecidableEq α]

/-- The two orders are the same if no entry comes again behind another one. -/
theorem dedup_eq_eraseDups {entries : List α}
    (h : ∀ a b, [a, b, a].Sublist entries → a = b) : entries.dedup = entries.eraseDups := by
  induction entries using List.reverseRecOn with
  | nil => rfl
  | append_singleton entries entry ih =>
      have hbefore : entries.dedup = entries.eraseDups :=
        ih fun a b hsub => h a b (hsub.trans (List.sublist_append_left entries [entry]))
      rw [dedup_append_singleton, eraseDups_append_singleton, ← hbefore]
      by_cases hmem : entry ∈ entries
      · -- The entry is the last one already, and stays it.
        rw [if_pos hmem]
        obtain rfl | ⟨front, last, rfl⟩ := entries.eq_nil_or_concat'
        · simp at hmem
        · obtain rfl := eq_last_of_mem h hmem
          simp [dedup_append_singleton]
      · have hfilter : entries.dedup.filter (· ≠ entry) = entries.dedup := by
          rw [List.filter_eq_self]
          intro other hother
          rw [decide_eq_true_iff]
          rintro rfl
          exact hmem (List.mem_dedup.mp hother)
        rw [if_neg hmem, hfilter]

end Both

end CommandTemplate
