import CommandTemplate.Proofs.Text.Cutting
import Mathlib.Data.List.DropRight

/-!
# Texts without blanks at their ends

Trimming leaves a text as it is exactly if the text neither begins nor ends with a blank.  Texts of
this kind can be put one behind another, with or without a mark between them.
-/

namespace CommandTemplate
namespace Text

variable {text before after : Text} {c : Char}

theorem isBlank_of_head?_trim (h : text.trim.head? = some c) : isBlank c = false := by
  have hprefix : List.rdropWhile isBlank text.trimStart <+: text.trimStart :=
    List.rdropWhile_prefix isBlank _
  obtain ⟨rest, hrest⟩ := hprefix
  have hhead : (text.dropWhile isBlank).head? = some c := by
    rw [← trimStart, ← hrest, List.head?_append, List.rdropWhile, ← trimEnd, ← trim, h,
      Option.some_or]
  have hnot := List.head?_dropWhile_not isBlank text
  rwa [hhead] at hnot

theorem isBlank_of_getLast?_trim (h : text.trim.getLast? = some c) : isBlank c = false := by
  have hne : List.rdropWhile isBlank text.trimStart ≠ [] := by
    intro hnil
    rw [trim, trimEnd, ← List.rdropWhile, hnil] at h
    simp at h
  have hlast := List.rdropWhile_last_not isBlank text.trimStart hne
  rw [trim, trimEnd, ← List.rdropWhile, List.getLast?_eq_some_getLast hne, Option.some.injEq] at h
  rwa [h, Bool.not_eq_true] at hlast

/-- Trimming leaves the texts as they are that have no blank at either end. -/
theorem trim_eq_self_iff :
    text.trim = text ↔ (∀ c, text.head? = some c → isBlank c = false) ∧
      ∀ c, text.getLast? = some c → isBlank c = false := by
  constructor
  · intro h
    rw [← h]
    exact ⟨fun _ => isBlank_of_head?_trim, fun _ => isBlank_of_getLast?_trim⟩
  · rintro ⟨hhead, hlast⟩
    have hstart : text.trimStart = text := by
      cases text with
      | nil => rfl
      | cons c rest =>
          rw [trimStart, List.dropWhile_cons_of_neg]
          simp [hhead c rfl]
    rw [trim, hstart]
    refine List.rdropWhile_eq_self_iff.mpr fun hne => ?_
    simp [hlast _ (List.getLast?_eq_some_getLast hne)]

@[simp] theorem trim_trim (text : Text) : text.trim.trim = text.trim :=
  trim_eq_self_iff.mpr ⟨fun _ => isBlank_of_head?_trim, fun _ => isBlank_of_getLast?_trim⟩

theorem trim_append (hbefore : before.trim = before) (hafter : after.trim = after)
    (hne : before ≠ []) (hne' : after ≠ []) (between : Text) :
    trim (before ++ (between ++ after)) = before ++ (between ++ after) := by
  rw [trim_eq_self_iff] at hbefore hafter ⊢
  constructor
  · intro c hc
    rw [List.head?_append_of_ne_nil _ hne] at hc
    exact hbefore.1 c hc
  · intro c hc
    rw [← List.append_assoc, List.getLast?_append_of_ne_nil _ hne'] at hc
    exact hafter.2 c hc

/-- Texts that are not empty and have no blank at either end can be joined. -/
theorem trim_join {mark : Text} {texts : List Text}
    (h : ∀ text ∈ texts, text ≠ [] ∧ text.trim = text) :
    trim (join mark texts) = join mark texts := by
  induction texts with
  | nil => rfl
  | cons first others ih =>
      rw [List.forall_mem_cons] at h
      cases others with
      | nil =>
          rw [join_singleton]
          exact h.1.2
      | cons second others =>
          have hne : join mark (second :: others) ≠ [] := join_ne_nil (h.2 second (by simp)).1 _ _
          rw [join_cons_cons]
          exact trim_append h.1.2 (ih h.2) h.1.1 hne mark

end Text
end CommandTemplate
