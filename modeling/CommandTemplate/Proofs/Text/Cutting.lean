import CommandTemplate.Text.Basic
import Mathlib.Data.List.Basic

/-!
# Cutting a text at a mark

A text is cut at the first mark in it, or at all of them.  Either way the mark does not occur in what
stands before it, and this determines the cut.
-/

namespace CommandTemplate
namespace Text

variable {mark : Char} {text before after : Text}

theorem cut?_eq_none_iff : text.cut? mark = none ↔ mark ∉ text := by
  induction text with
  | nil => simp [cut?]
  | cons c rest ih =>
      rw [cut?, List.mem_cons, not_or, ← ih]
      by_cases hc : c = mark
      · simp [hc]
      · rw [if_neg hc]
        cases hrest : cut? mark rest with
        | none => simp [Ne.symm hc]
        | some sides => simp

theorem cut?_append_cons (h : mark ∉ before) (after : Text) :
    cut? mark (before ++ mark :: after) = some (before, after) := by
  induction before with
  | nil => simp [cut?]
  | cons c before ih =>
      rw [List.mem_cons, not_or] at h
      rw [List.cons_append, cut?, if_neg (Ne.symm h.1), ih h.2]

/-- A text is cut where the mark stands first. -/
theorem cut?_eq_some_iff :
    text.cut? mark = some (before, after) ↔ text = before ++ mark :: after ∧ mark ∉ before := by
  constructor
  · intro h
    have hmem : mark ∈ text := by
      by_contra hnot
      rw [cut?_eq_none_iff.mpr hnot] at h
      simp at h
    obtain ⟨front, back, rfl, hfront⟩ := List.eq_append_cons_of_mem hmem
    rw [cut?_append_cons hfront, Option.some.injEq, Prod.mk.injEq] at h
    obtain ⟨rfl, rfl⟩ := h
    exact ⟨rfl, hfront⟩
  · rintro ⟨rfl, hbefore⟩
    exact cut?_append_cons hbefore after

theorem parts_of_not_mem (h : mark ∉ text) : parts mark text = [text] := by
  induction text with
  | nil => rfl
  | cons c rest ih =>
      rw [List.mem_cons, not_or] at h
      rw [parts, if_neg (Ne.symm h.1), ih h.2]

theorem parts_append_cons (h : mark ∉ before) (after : Text) :
    parts mark (before ++ mark :: after) = before :: parts mark after := by
  induction before with
  | nil => simp [parts]
  | cons c before ih =>
      rw [List.mem_cons, not_or] at h
      rw [List.cons_append, parts, if_neg (Ne.symm h.1), ih h.2]

theorem not_mem_of_mem_parts {part : Text} (h : part ∈ parts mark text) : mark ∉ part := by
  induction text generalizing part with
  | nil => simp_all [parts]
  | cons c rest ih =>
      rw [parts] at h
      split at h
      · rcases List.mem_cons.mp h with rfl | hrest
        · simp
        · exact ih hrest
      · rename_i hc
        cases hparts : parts mark rest with
        | nil => exact absurd hparts (parts_ne_nil mark rest)
        | cons first others =>
            rw [hparts] at h ih
            rcases List.mem_cons.mp h with rfl | hothers
            · rw [List.mem_cons, not_or]
              exact ⟨Ne.symm hc, ih List.mem_cons_self⟩
            · exact ih (List.mem_cons_of_mem _ hothers)

/-! ## Joining -/

theorem join_singleton (mark text : Text) : join mark [text] = text := by
  rw [join, List.intercalate_singleton]

theorem join_ne_nil {first : Text} (h : first ≠ []) (mark : Text) (others : List Text) :
    join mark (first :: others) ≠ [] := by
  cases others with
  | nil => rwa [join_singleton]
  | cons second others =>
      rw [join_cons_cons]
      exact List.append_ne_nil_of_left_ne_nil h _

theorem join_append {texts others : List Text} (htexts : texts ≠ []) (hothers : others ≠ [])
    (mark : Text) : join mark (texts ++ others) = join mark texts ++ (mark ++ join mark others) := by
  induction texts with
  | nil => exact absurd rfl htexts
  | cons first texts ih =>
      cases texts with
      | nil =>
          obtain ⟨second, others, rfl⟩ := List.exists_cons_of_ne_nil hothers
          rw [join_singleton, List.singleton_append, join_cons_cons]
      | cons second texts =>
          rw [List.cons_append, List.cons_append, join_cons_cons, ← List.cons_append,
            ih (by simp), join_cons_cons]
          simp only [List.append_assoc]

/-- The parts of a text are the texts without marks that it joins. -/
theorem parts_eq_iff {texts : List Text} :
    parts mark text = texts ↔
      texts ≠ [] ∧ text = join [mark] texts ∧ ∀ part ∈ texts, mark ∉ part := by
  constructor
  · rintro rfl
    exact ⟨parts_ne_nil mark text, (join_parts mark text).symm, fun _ => not_mem_of_mem_parts⟩
  · rintro ⟨hne, rfl, hparts⟩
    induction texts with
    | nil => exact absurd rfl hne
    | cons first others ih =>
        rw [List.forall_mem_cons] at hparts
        cases others with
        | nil =>
            rw [join_singleton, parts_of_not_mem hparts.1]
        | cons second others =>
            rw [join_cons_cons, List.singleton_append, parts_append_cons hparts.1,
              ih (by simp) hparts.2]

end Text
end CommandTemplate
