import CommandTemplate.Proofs.Tag.Joins

/-!
# Texts that stand apart

A tag reaches across a join when one text leaves it open and the texts behind close it.  Texts
without such a tag stand apart, and the tags of the whole are then those of each text.  There is no
other way for the tags to agree: a tag across a join takes up more characters than the tags that it
covers.
-/

namespace CommandTemplate
namespace Text

/-- No text leaves a tag open that the texts behind it close. -/
def StandApart : List Text → Prop
  | [] => True
  | text :: texts => (text.LeavesOpen → closing? texts.flatten = none) ∧ StandApart texts

instance (name : Text) : Decidable name.IsTagName :=
  inferInstanceAs (Decidable (_ ∧ _))

/-- Whether a text leaves a tag open is decided from its back. -/
instance decidableLeavesOpen : (text : Text) → Decidable text.LeavesOpen
  | [] => .isFalse fun ⟨front, name, h, _⟩ => by simp at h
  | _ :: rest =>
    have := decidableLeavesOpen rest
    decidable_of_iff _ leavesOpen_cons_iff.symm

instance decidableStandApart : (texts : List Text) → Decidable (StandApart texts)
  | [] => .isTrue trivial
  | _ :: texts =>
    have := decidableStandApart texts
    inferInstanceAs (Decidable (_ ∧ _))

variable {front back : Text} {texts : List Text}

/-! ## Characters in tags -/

/-- The number of characters of a text that are in tags. -/
def tagSize (text : Text) : Nat :=
  text.tokens.flatten.length

theorem tagSize_cons_plain {c : Char} {rest : Text} (h : tagAtStart? (c :: rest) = none) :
    tagSize (c :: rest) = tagSize rest := by
  rw [tagSize, tokens_cons_plain h, tagSize]

theorem tagSize_tagToken_append {name : Text} (hname : IsTagName name) (rest : Text) :
    tagSize (tagToken name ++ rest) = (tagToken name).length + tagSize rest := by
  rw [tagSize, tokens_tagToken_append hname, List.flatten_cons, List.length_append, tagSize]

theorem tagSize_append (h : front.LeavesOpen → closing? back = none) :
    tagSize (front ++ back) = tagSize front + tagSize back := by
  rw [tagSize, tokens_append (pieces_append h), List.flatten_append, List.length_append, tagSize,
    tagSize]

theorem tagSize_le_length (text : Text) : tagSize text ≤ text.length := by
  induction text using pieceInduction with
  | nil => simp [tagSize]
  | plain c rest hstart ih =>
      rw [tagSize_cons_plain hstart, List.length_cons]
      omega
  | tag name rest hname ih =>
      rw [tagSize_tagToken_append hname, List.length_append]
      omega

theorem tagSize_append_closing_le (name rest : Text) :
    tagSize (name ++ '>' :: rest) ≤ name.length + 1 + tagSize rest := by
  have hclosed : ¬LeavesOpen (name ++ ['>']) := by
    rw [leavesOpen_append_closing]
    simp [LeavesOpen]
  have hlength := tagSize_le_length (name ++ ['>'])
  rw [List.length_append, List.length_singleton] at hlength
  rw [List.append_cons, tagSize_append fun hopen => absurd hopen hclosed]
  omega

/-- A tag that is left open and closed behind has more characters than the tags that it covers. -/
theorem tagSize_append_lt (hopen : LeavesOpen front) (hback : closing? back ≠ none) :
    tagSize front + tagSize back < tagSize (front ++ back) := by
  induction front using pieceInduction with
  | nil => simp [LeavesOpen] at hopen
  | plain c rest hstart ih =>
      by_cases hfirst : c = '<' ∧ IsTagName rest
      · -- The first `<` that is left open takes in all of the first text and covers, behind the
        -- join, every tag up to the `>` that closes it.
        obtain ⟨rfl, hrest⟩ := hfirst
        obtain ⟨close, hclose⟩ := Option.ne_none_iff_exists'.mp hback
        obtain ⟨name, rest', hname, -, rfl⟩ := exists_name_of_closing? hclose
        have hwhole : '<' :: rest ++ (name ++ '>' :: rest') = tagToken (rest ++ name) ++ rest' := by
          simp [tagToken]
        have hjoined : IsTagName (rest ++ name) := by
          simp [IsTagName, hrest.1, hrest.2, hname.1, hname.2]
        have hfront : tagSize ('<' :: rest) = 0 := by
          rw [tagSize, tokens_eq_nil_of_not_mem (by simpa using hrest.1)]
          rfl
        have hcovered := tagSize_append_closing_le name rest'
        rw [hwhole, tagSize_tagToken_append hjoined, hfront, tagToken, List.length_cons,
          List.length_append, List.length_append, List.length_singleton]
        omega
      · have hstart' : tagAtStart? (c :: (rest ++ back)) = none := by
          rw [tagAtStart?_cons_eq_none_iff] at hstart ⊢
          intro hc
          rw [closing?_append_eq_none_iff (hstart hc)]
          exact fun hname => absurd ⟨hc, hname⟩ hfirst
        have hrest : LeavesOpen rest := (leavesOpen_cons_iff.mp hopen).resolve_left hfirst
        rw [List.cons_append, tagSize_cons_plain hstart', tagSize_cons_plain hstart]
        exact ih hrest
  | tag name rest hname ih =>
      have htext : tagToken name ++ rest = '<' :: name ++ '>' :: rest := by simp [tagToken]
      have hrest : LeavesOpen rest := by rwa [htext, leavesOpen_append_closing] at hopen
      have hless := ih hrest
      rw [List.append_assoc, tagSize_tagToken_append hname, tagSize_tagToken_append hname]
      omega

theorem tagSize_append_le (front back : Text) :
    tagSize front + tagSize back ≤ tagSize (front ++ back) := by
  by_cases hapart : LeavesOpen front → closing? back = none
  · exact (tagSize_append hapart).ge
  · obtain ⟨hopen, hback⟩ := Classical.not_imp.mp hapart
    exact (tagSize_append_lt hopen hback).le

theorem length_flatMap_tokens_le (texts : List Text) :
    (texts.flatMap tokens).flatten.length ≤ tagSize texts.flatten := by
  induction texts with
  | nil => simp
  | cons text texts ih =>
      have happend := tagSize_append_le text texts.flatten
      rw [List.flatMap_cons, List.flatten_append, List.length_append, List.flatten_cons]
      exact (Nat.add_le_add_left ih _).trans happend

/-! ## Tags of texts one after another -/

/-- The pieces of texts that stand apart are those of each text. -/
theorem StandApart.pieces_flatten (h : StandApart texts) :
    pieces texts.flatten = texts.flatMap pieces := by
  induction texts with
  | nil => rfl
  | cons text texts ih =>
      rw [List.flatten_cons, pieces_append h.1, ih h.2, List.flatMap_cons]

theorem StandApart.substitute_flatten (h : StandApart texts)
    (replacement? : Text → Option Text) :
    substitute replacement? texts.flatten = (texts.map (substitute replacement?)).flatten := by
  rw [substitute, h.pieces_flatten, List.flatMap_assoc, ← List.flatMap_def]
  rfl

/-- Texts stand apart when the tags of the whole are those of each text. -/
theorem standApart_iff : StandApart texts ↔ tokens texts.flatten = texts.flatMap tokens := by
  constructor
  · intro h
    rw [tokens, h.pieces_flatten, List.filterMap_flatMap]
    rfl
  · intro h
    induction texts with
    | nil => trivial
    | cons text texts ih =>
        rw [List.flatten_cons, List.flatMap_cons] at h
        have hhead : LeavesOpen text → closing? texts.flatten = none := by
          intro hopen
          by_contra hclosed
          -- Equal lists of tags have equally many characters, but the whole would have more.
          have hless := tagSize_append_lt hopen hclosed
          have hrest := length_flatMap_tokens_le texts
          have hwhole := congrArg (fun tokens => tokens.flatten.length) h
          simp only [List.flatten_append, List.length_append] at hwhole
          simp only [tagSize] at hless hrest
          omega
        refine ⟨hhead, ih ?_⟩
        rw [tokens_append (pieces_append hhead)] at h
        exact List.append_cancel_left h

/-! ## Separators -/

section Separators

variable {separator : Text}

theorem closing?_insert (h : IsTagName separator) (front back : Text) :
    closing? (front ++ (separator ++ back)) = none ↔ closing? (front ++ back) = none := by
  induction front with
  | nil =>
      rw [List.nil_append, List.nil_append,
        closing?_append_eq_none_iff (closing?_eq_none_of_not_mem h.1), forall_prop_of_true h]
  | cons c front ih =>
      rw [List.cons_append, List.cons_append, closing?, closing?]
      by_cases hclose : c = '>'
      · simp [hclose]
      · rw [if_neg hclose, if_neg hclose]
        by_cases hbreak : c = '\n'
        · simp [hbreak]
        · rw [if_neg hbreak, if_neg hbreak, Option.map_eq_none_iff, Option.map_eq_none_iff, ih]

theorem not_leavesOpen_of_not_mem {text : Text} (h : '<' ∉ text) : ¬LeavesOpen text := by
  rintro ⟨front, name, rfl, -⟩
  simp at h

theorem leavesOpen_append_separator (h : IsPlainName separator) (text : Text) :
    LeavesOpen (text ++ separator) ↔ LeavesOpen text := by
  induction text with
  | nil => exact iff_of_false (not_leavesOpen_of_not_mem h.1) (by simp [LeavesOpen])
  | cons c rest ih =>
      have hname : IsTagName (rest ++ separator) ↔ IsTagName rest := by
        simp [IsTagName, h.2.1, h.2.2]
      rw [List.cons_append, leavesOpen_cons_iff, leavesOpen_cons_iff, ih, hname]

/-- Separators neither bring texts together nor keep them apart. -/
theorem standApart_insert (h : IsPlainName separator) (front back : List Text) :
    StandApart (front ++ separator :: back) ↔ StandApart (front ++ back) := by
  induction front with
  | nil =>
      exact and_iff_right fun hopen => absurd hopen (not_leavesOpen_of_not_mem h.1)
  | cons text front ih =>
      rw [List.cons_append, List.cons_append, StandApart, StandApart, ih, List.flatten_append,
        List.flatten_append, List.flatten_cons, closing?_insert h.2]

end Separators

end Text
end CommandTemplate
