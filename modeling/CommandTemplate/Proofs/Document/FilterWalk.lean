import CommandTemplate.Document.Collection
import CommandTemplate.Proofs.Distinct
import Mathlib.Data.List.TakeWhile

/-!
# Walking through a filter

A key begins with an identifier, which ends at its first dot.  The identifiers of a filter are
collected into one list that is passed along, and each is compared with those found before.  The
walk can be told without that list: it meets the identifiers one after another, with repetitions,
and what is collected are those met, each at its first place.
-/

namespace CommandTemplate

/-! ## Keys -/

theorem keyIdentifier_of_not_mem {key : Text} (h : '.' ∉ key) : keyIdentifier key = key := by
  rw [keyIdentifier, List.takeWhile_eq_self_iff]
  intro c hc
  rw [decide_eq_true_eq]
  rintro rfl
  exact h hc

theorem keyIdentifier_append {identifier : Text} (h : '.' ∉ identifier) (after : Text) :
    keyIdentifier (identifier ++ '.' :: after) = identifier := by
  have hself := keyIdentifier_of_not_mem h
  rw [keyIdentifier, List.takeWhile_eq_self_iff] at hself
  rw [keyIdentifier, List.takeWhile_append_of_pos hself, List.takeWhile_cons_of_neg (by simp),
    List.append_nil]

/-- The identifier in a key is what stands before its first dot, or all of it. -/
theorem keyIdentifier_eq_iff {key identifier : Text} :
    keyIdentifier key = identifier ↔
      '.' ∉ identifier ∧ (key = identifier ∨ ∃ after, key = identifier ++ '.' :: after) := by
  constructor
  · rintro rfl
    by_cases hdot : '.' ∈ key
    · obtain ⟨identifier, after, rfl, hidentifier⟩ := List.eq_append_cons_of_mem hdot
      rw [keyIdentifier_append hidentifier]
      exact ⟨hidentifier, .inr ⟨after, rfl⟩⟩
    · rw [keyIdentifier_of_not_mem hdot]
      exact ⟨hdot, .inl rfl⟩
  · rintro ⟨hidentifier, rfl | ⟨after, rfl⟩⟩
    · exact keyIdentifier_of_not_mem hidentifier
    · exact keyIdentifier_append hidentifier after

/-! ## The walk -/

theorem foldl_addIdentifier (met : List Text) : met.foldl addIdentifier [] = met.eraseDups := by
  induction met using List.reverseRecOn with
  | nil => rfl
  | append_singleton met identifier ih =>
      rw [List.foldl_append, ih, List.foldl_cons, List.foldl_nil, addIdentifier,
        eraseDups_append_singleton]
      simp only [List.contains_iff_mem, List.mem_eraseDups]

namespace Value

mutual

/-- The identifiers below an operator in the order in which they are met. -/
def walk : Value → List Text
  | .object fields => walkFields fields
  | .array items => walkItems items
  | _ => []

/-- The identifiers of the documents in an array in the order in which they are met. -/
def walkItems : List Value → List Text
  | [] => []
  | .object fields :: items => walkFields fields ++ walkItems items
  | _ :: items => walkItems items

/-- The identifiers of a document in the order in which they are met. -/
def walkFields : List (Text × Value) → List Text
  | [] => []
  | (key, value) :: fields =>
    if isOperator key then walk value ++ walkFields fields
    else keyIdentifier key :: walkFields fields

end

mutual

theorem collect_eq_foldl (found : List Text) (value : Value) :
    collect found value = value.walk.foldl addIdentifier found := by
  cases value with
  | object fields => exact collectFields_eq_foldl found fields
  | array items => exact collectItems_eq_foldl found items
  | _ => rfl

theorem collectItems_eq_foldl (found : List Text) (items : List Value) :
    collectItems found items = (walkItems items).foldl addIdentifier found := by
  cases items with
  | nil => rfl
  | cons item items =>
      cases item with
      | object fields =>
          rw [collectItems, walkItems, List.foldl_append, ← collectFields_eq_foldl,
            collectItems_eq_foldl]
      | _ => exact collectItems_eq_foldl found items

theorem collectFields_eq_foldl (found : List Text) (fields : List (Text × Value)) :
    collectFields found fields = (walkFields fields).foldl addIdentifier found := by
  cases fields with
  | nil => rfl
  | cons field fields =>
      obtain ⟨key, value⟩ := field
      rw [collectFields, walkFields]
      split
      · rw [List.foldl_append, ← collect_eq_foldl, collectFields_eq_foldl]
      · rw [List.foldl_cons, collectFields_eq_foldl]

end

end Value

/-- A filter binds the identifiers that the walk meets, each at its first place. -/
theorem Document.identifiers_eq (document : Document) :
    document.identifiers = (Value.walkFields document).eraseDups := by
  rw [identifiers, Value.collectFields_eq_foldl, foldl_addIdentifier]

end CommandTemplate
