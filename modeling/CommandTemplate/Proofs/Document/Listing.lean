import CommandTemplate.Proofs.Document.Gaps
import CommandTemplate.Proofs.Document.Strings

/-!
# Listings

The items of an array and the members of an object are entries with commas between them.  What
counts as an entry and as a gap depends on the reader, but listings are joined in the same way for
both.
-/

namespace CommandTemplate

/-- A text begins like a value or a name. -/
def BeginsEntry (text : Text) : Prop :=
  ∃ c rest, text = c :: rest ∧ isGapChar c = false ∧ c ∉ [',', ']', '}']

/-- A text lists entries with commas between them.  It begins with an entry and may end with a
gap. -/
inductive Listing {α : Type} (gap : Text → Prop) (entry : Text → α → Prop) : Text → List α → Prop
  | last {used after : Text} {a : α} (hentry : entry used a) (hafter : gap after) :
      Listing gap entry (used ++ after) [a]
  | more {used after before rest : Text} {a : α} {as : List α} (hentry : entry used a)
      (hafter : gap after) (hbefore : gap before) (hrest : Listing gap entry rest as) :
      Listing gap entry (used ++ (after ++ ',' :: (before ++ rest))) (a :: as)

namespace Listing

variable {α : Type} {gap : Text → Prop} {entry : Text → α → Prop} {text other before : Text}
  {as bs : List α}

/-- Listings are joined by a comma. -/
theorem append (h : Listing gap entry text as) (hbefore : gap before)
    (hother : Listing gap entry other bs) :
    Listing gap entry (text ++ ',' :: (before ++ other)) (as ++ bs) := by
  induction h with
  | last hentry hafter =>
      rw [List.append_assoc]
      exact .more hentry hafter hbefore hother
  | more hentry hafter hfirst _ ih =>
      simp only [List.append_assoc, List.cons_append]
      exact .more hentry hafter hfirst ih

end Listing

theorem BeginsEntry.beginsToken {text : Text} (h : BeginsEntry text) : BeginsToken text := by
  obtain ⟨c, rest, rfl, hgap, -⟩ := h
  exact .cons hgap rest

theorem BeginsEntry.append {text : Text} (h : BeginsEntry text) (other : Text) :
    BeginsEntry (text ++ other) := by
  obtain ⟨c, rest, rfl, hc⟩ := h
  exact ⟨c, rest ++ other, rfl, hc⟩

theorem BeginsEntry.ne_nil {text : Text} (h : BeginsEntry text) : text ≠ [] := by
  obtain ⟨c, rest, rfl, -⟩ := h
  simp

/-- The characters that end an entry end the words and numbers in front of them. -/
theorem isWordChar_of_ends {c : Char} (hc : c ∈ [',', ':', ']', '}']) : isWordChar c = false :=
  (List.all_iff_forall_prop (p := fun d => isWordChar d = false)).mp (by decide) c hc

theorem isGapChar_of_ends {c : Char} (hc : c ∈ [',', ':', ']', '}']) : isGapChar c = false :=
  (List.all_iff_forall_prop (p := fun d => isGapChar d = false)).mp (by decide) c hc

theorem beginsEntry_of_isWordChar {c : Char} (h : isWordChar c = true) (rest : Text) :
    BeginsEntry (c :: rest) := by
  refine ⟨c, rest, rfl, ?_, ?_⟩
  · cases hgap : isGapChar c with
    | false => rfl
    | true => rw [isWordChar_of_isGapChar hgap] at h; exact h.symm
  · intro hmem
    have hends : c ∈ [',', ':', ']', '}'] := by
      rw [List.mem_cons] at hmem ⊢
      exact hmem.imp_right (List.mem_cons_of_mem ':')
    rw [isWordChar_of_ends hends] at h
    simp at h

theorem Listing.beginsEntry {α : Type} {gap : Text → Prop} {entry : Text → α → Prop} {text : Text}
    {as : List α} (h : Listing gap entry text as)
    (hentry : ∀ used a, entry used a → BeginsEntry used) : BeginsEntry text := by
  cases h with
  | last hused _ => exact (hentry _ _ hused).append _
  | more hused _ _ _ => exact (hentry _ _ hused).append _

theorem beginsToken_of_ends {c : Char} (hc : c ∈ [',', ':', ']', '}']) (rest : Text) :
    BeginsToken (c :: rest) :=
  .cons (isGapChar_of_ends hc) rest

theorem endsWord_cons {c : Char} (h : isWordChar c = false) (rest : Text) : EndsWord (c :: rest) := by
  rintro d ⟨⟩
  exact h

end CommandTemplate
