import CommandTemplate.Text.Basic

/-!
# Replacing every occurrence of a text

Occurrences are found from left to right and do not overlap.  The replacement is not searched
again.
-/

namespace CommandTemplate
namespace Text

/-- Replaces the occurrences of `old` after passing over the first `skip` characters, which belong
to an occurrence that is already replaced. -/
def replaceFrom (old new : Text) : Nat → Text → Text
  | _, [] => []
  | skip + 1, _ :: rest => replaceFrom old new skip rest
  | 0, c :: rest =>
    if startsWith (c :: rest) old then
      new ++ replaceFrom old new (old.length - 1) rest
    else
      c :: replaceFrom old new 0 rest

/-- The text with every occurrence of the non-empty text `old` replaced by `new`. -/
def replaceAll (text old new : Text) : Text :=
  replaceFrom old new 0 text

theorem replaceFrom_eq_drop (old new : Text) (skip : Nat) (text : Text) :
    replaceFrom old new skip text = replaceAll (text.drop skip) old new := by
  induction text generalizing skip with
  | nil => cases skip <;> simp [replaceAll, replaceFrom]
  | cons c rest ih =>
      cases skip with
      | zero => simp [replaceAll]
      | succ skip => simp [replaceFrom, ih]

@[simp] theorem replaceAll_nil (old new : Text) : replaceAll [] old new = [] := by
  simp [replaceAll, replaceFrom]

theorem replaceAll_cons_of_not_startsWith {old new rest : Text} {c : Char}
    (h : startsWith (c :: rest) old = false) :
    replaceAll (c :: rest) old new = c :: replaceAll rest old new := by
  simp [replaceAll, replaceFrom, h]

/-- An occurrence at the front is replaced, and the search goes on behind it. -/
theorem replaceAll_append_self {old : Text} (hold : old ≠ []) (new rest : Text) :
    replaceAll (old ++ rest) old new = new ++ replaceAll rest old new := by
  cases old with
  | nil => exact absurd rfl hold
  | cons c inner =>
      have hstart : startsWith (c :: (inner ++ rest)) (c :: inner) = true := by
        rw [startsWith, List.isPrefixOf_iff_prefix]
        exact List.prefix_append (c :: inner) rest
      have hstep : replaceAll (c :: (inner ++ rest)) (c :: inner) new =
          new ++ replaceFrom (c :: inner) new inner.length (inner ++ rest) := by
        simp [replaceAll, replaceFrom, hstart]
      rw [List.cons_append, hstep, replaceFrom_eq_drop, List.drop_left]

end Text
end CommandTemplate
