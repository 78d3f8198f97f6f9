import CommandTemplate.Tag.Scan

/-!
# How a text falls into pieces

The pieces of a text are found from its front: a tag is the bracketed name up to the first `>`, and
a character belongs to no tag when the rest of its line does not close one.  From these two rules
follow the equations for pieces of joined texts, and the pieces of a text whose tags are replaced:
replacements without `<` neither make a tag nor hide one.
-/

namespace CommandTemplate
namespace Text

/-- A name that a tag can have: it neither closes the tag nor ends the line. -/
def IsTagName (name : Text) : Prop :=
  '>' ∉ name ∧ '\n' ∉ name

/-! ## Tags at the front of a text -/

theorem closing?_name_append {name : Text} (hname : IsTagName name) (rest : Text) :
    closing? (name ++ '>' :: rest) = some (name ++ ['>']) := by
  induction name with
  | nil => simp [closing?]
  | cons c name ih =>
      obtain ⟨hclose, hbreak⟩ := hname
      rw [List.mem_cons, not_or] at hclose hbreak
      have hc : c ≠ '>' := fun h => hclose.1 h.symm
      have hc' : c ≠ '\n' := fun h => hbreak.1 h.symm
      simp [closing?, hc, hc', ih ⟨hclose.2, hbreak.2⟩]

theorem exists_name_of_closing? {text close : Text} (h : closing? text = some close) :
    ∃ name rest, IsTagName name ∧ close = name ++ ['>'] ∧ text = name ++ '>' :: rest := by
  induction text generalizing close with
  | nil => simp [closing?] at h
  | cons c text ih =>
      unfold closing? at h
      split at h
      · rename_i hc
        obtain rfl := Option.some.inj h
        exact ⟨[], text, by simp [IsTagName], rfl, by simp [hc]⟩
      · rename_i hc
        split at h
        · simp at h
        · rename_i hc'
          obtain ⟨tail, htail, rfl⟩ := Option.map_eq_some_iff.mp h
          obtain ⟨name, rest, ⟨hclose, hbreak⟩, rfl, rfl⟩ := ih htail
          refine ⟨c :: name, rest, ⟨?_, ?_⟩, rfl, rfl⟩
          · rw [List.mem_cons, not_or]
            exact ⟨fun h => hc h.symm, hclose⟩
          · rw [List.mem_cons, not_or]
            exact ⟨fun h => hc' h.symm, hbreak⟩

/-- Text that closes no tag stays so with text behind it, unless that closes one in the same line. -/
theorem closing?_append_eq_none_iff {front : Text} (hfront : closing? front = none)
    (back : Text) : closing? (front ++ back) = none ↔ (IsTagName front → closing? back = none) := by
  induction front with
  | nil => simp [IsTagName]
  | cons c front ih =>
      have hc : c ≠ '>' := by
        rintro rfl
        simp [closing?] at hfront
      rw [List.cons_append, closing?, if_neg hc]
      by_cases hbreak : c = '\n'
      · simp [hbreak, IsTagName]
      · have hname : IsTagName (c :: front) ↔ IsTagName front := by
          simp [IsTagName, hc.symm, Ne.symm hbreak]
        rw [closing?, if_neg hc, if_neg hbreak, Option.map_eq_none_iff] at hfront
        rw [if_neg hbreak, Option.map_eq_none_iff, ih hfront, hname]

theorem closing?_eq_none_of_not_mem {text : Text} (h : '>' ∉ text) : closing? text = none := by
  cases hclose : closing? text with
  | none => rfl
  | some close =>
      obtain ⟨name, rest, -, -, rfl⟩ := exists_name_of_closing? hclose
      simp at h

theorem tagAtStart?_tagToken_append {name : Text} (hname : IsTagName name) (rest : Text) :
    tagAtStart? (tagToken name ++ rest) = some (tagToken name) := by
  have hclose := closing?_name_append hname rest
  simp [tagToken, tagAtStart?, hclose]

theorem exists_name_of_tagAtStart? {text token : Text} (h : tagAtStart? text = some token) :
    ∃ name rest, IsTagName name ∧ token = tagToken name ∧ text = tagToken name ++ rest := by
  unfold tagAtStart? at h
  split at h
  · obtain ⟨close, hclose, rfl⟩ := Option.map_eq_some_iff.mp h
    obtain ⟨name, rest, hname, rfl, rfl⟩ := exists_name_of_closing? hclose
    exact ⟨name, rest, hname, rfl, by simp [tagToken]⟩
  · simp at h

theorem tagAtStart?_cons_of_ne {c : Char} (hc : c ≠ '<') (rest : Text) :
    tagAtStart? (c :: rest) = none := by
  unfold tagAtStart?
  split
  · rename_i h
    exact absurd (List.cons.inj h).1 hc
  · rfl

theorem tagAtStart?_cons_eq_none_iff {c : Char} {rest : Text} :
    tagAtStart? (c :: rest) = none ↔ c = '<' → closing? rest = none := by
  by_cases hc : c = '<'
  · subst hc
    simp [tagAtStart?]
  · simp [tagAtStart?_cons_of_ne hc, hc]

/-! ## The equations for pieces -/

@[simp] theorem pieces_nil : pieces [] = [] :=
  rfl

theorem pieces_cons_plain {c : Char} {rest : Text} (h : tagAtStart? (c :: rest) = none) :
    pieces (c :: rest) = .plain c :: pieces rest := by
  rw [pieces, piecesFrom, h, pieces]

theorem pieces_cons_of_ne {c : Char} (hc : c ≠ '<') (rest : Text) :
    pieces (c :: rest) = .plain c :: pieces rest :=
  pieces_cons_plain (tagAtStart?_cons_of_ne hc rest)

theorem pieces_tagToken_append {name : Text} (hname : IsTagName name) (rest : Text) :
    pieces (tagToken name ++ rest) = .tag (tagToken name) :: pieces rest := by
  have hstart := tagAtStart?_tagToken_append hname rest
  rw [tagToken, List.cons_append] at hstart ⊢
  rw [pieces, piecesFrom, hstart]
  simp [piecesFrom_eq_drop]

/-- A text is empty, or begins with a character outside of all tags, or begins with a tag. -/
@[elab_as_elim]
theorem pieceInduction {motive : Text → Prop} (nil : motive [])
    (plain : ∀ c rest, tagAtStart? (c :: rest) = none → motive rest → motive (c :: rest))
    (tag : ∀ name rest, IsTagName name → motive rest → motive (tagToken name ++ rest))
    (text : Text) : motive text := by
  induction hlength : text.length using Nat.strongRecOn generalizing text with
  | _ n ih =>
      cases text with
      | nil => exact nil
      | cons c rest =>
          cases hstart : tagAtStart? (c :: rest) with
          | none =>
              apply plain c rest hstart
              exact ih rest.length (by simp [← hlength]) rest rfl
          | some token =>
              obtain ⟨name, rest', hname, -, htext⟩ := exists_name_of_tagAtStart? hstart
              rw [htext] at hlength ⊢
              apply tag name rest' hname
              refine ih rest'.length ?_ rest' rfl
              simp only [tagToken, List.length_append, List.length_cons] at hlength
              omega

/-! ## Texts one after another -/

/-- The text leaves a tag open: it ends in a `<` with what could be the beginning of a name. -/
def LeavesOpen (text : Text) : Prop :=
  ∃ front name, text = front ++ '<' :: name ∧ IsTagName name

theorem leavesOpen_cons_iff {c : Char} {rest : Text} :
    LeavesOpen (c :: rest) ↔ (c = '<' ∧ IsTagName rest) ∨ LeavesOpen rest := by
  constructor
  · rintro ⟨front, name, h, hname⟩
    cases front with
    | nil =>
        obtain ⟨rfl, rfl⟩ := List.cons.inj h
        exact Or.inl ⟨rfl, hname⟩
    | cons d front =>
        obtain ⟨-, rfl⟩ := List.cons.inj h
        exact Or.inr ⟨front, name, rfl, hname⟩
  · rintro (⟨rfl, hname⟩ | ⟨front, name, rfl, hname⟩)
    · exact ⟨[], rest, rfl, hname⟩
    · exact ⟨c :: front, name, rfl, hname⟩

theorem LeavesOpen.append_left {back : Text} (h : LeavesOpen back) (front : Text) :
    LeavesOpen (front ++ back) := by
  obtain ⟨before, name, rfl, hname⟩ := h
  exact ⟨front ++ before, name, (List.append_assoc _ _ _).symm, hname⟩

/-- No tag is left open in front of a `>`. -/
theorem leavesOpen_append_closing (front rest : Text) :
    LeavesOpen (front ++ '>' :: rest) ↔ LeavesOpen rest := by
  induction front with
  | nil => simp [leavesOpen_cons_iff]
  | cons c front ih =>
      rw [List.cons_append, leavesOpen_cons_iff, ih]
      exact or_iff_right fun h => h.2.1 (by simp)

/-- Texts one after another keep their pieces unless one leaves a tag open that the next closes. -/
theorem pieces_append {front back : Text} (h : LeavesOpen front → closing? back = none) :
    pieces (front ++ back) = pieces front ++ pieces back := by
  induction front using pieceInduction with
  | nil => rfl
  | plain c rest hstart ih =>
      have hstart' : tagAtStart? (c :: (rest ++ back)) = none := by
        rw [tagAtStart?_cons_eq_none_iff] at hstart ⊢
        intro hc
        rw [closing?_append_eq_none_iff (hstart hc)]
        exact fun hname => h (leavesOpen_cons_iff.mpr (Or.inl ⟨hc, hname⟩))
      have hrest : LeavesOpen rest → closing? back = none :=
        fun hopen => h (hopen.append_left [c])
      rw [List.cons_append, pieces_cons_plain hstart', pieces_cons_plain hstart, ih hrest,
        List.cons_append]
  | tag name rest hname ih =>
      have hrest : LeavesOpen rest → closing? back = none :=
        fun hopen => h (hopen.append_left (tagToken name))
      rw [List.append_assoc, pieces_tagToken_append hname, pieces_tagToken_append hname, ih hrest,
        List.cons_append]

/-- What follows a text that closes no tag left open does not change the pieces before it. -/
theorem pieces_append_of_closing?_eq_none (front : Text) {back : Text}
    (hback : closing? back = none) :
    pieces (front ++ back) = pieces front ++ pieces back :=
  pieces_append fun _ => hback

theorem mem_pieces_of_leavesOpen {text : Text} (h : LeavesOpen text) :
    .plain '<' ∈ pieces text := by
  induction text using pieceInduction with
  | nil => simp [LeavesOpen] at h
  | plain c rest hstart ih =>
      rw [pieces_cons_plain hstart, List.mem_cons]
      rcases leavesOpen_cons_iff.mp h with ⟨rfl, -⟩ | hrest
      · exact Or.inl rfl
      · exact Or.inr (ih hrest)
  | tag name rest hname ih =>
      have htext : tagToken name ++ rest = '<' :: name ++ '>' :: rest := by simp [tagToken]
      rw [pieces_tagToken_append hname]
      rw [htext, leavesOpen_append_closing] at h
      exact List.mem_cons_of_mem _ (ih h)

/-- Nothing that follows a text without a `<` outside of its tags changes the pieces before it. -/
theorem pieces_append_of_not_mem {front : Text} (hfront : .plain '<' ∉ pieces front)
    (back : Text) : pieces (front ++ back) = pieces front ++ pieces back :=
  pieces_append fun hopen => absurd (mem_pieces_of_leavesOpen hopen) hfront

theorem pieces_eq_map_plain {text : Text} (h : '<' ∉ text) : pieces text = text.map .plain := by
  induction text with
  | nil => rfl
  | cons c rest ih =>
      rw [List.mem_cons, not_or] at h
      rw [pieces_cons_of_ne (fun hc => h.1 hc.symm), ih h.2, List.map_cons]

theorem pieces_append_of_not_mem_left {front : Text} (hfront : '<' ∉ front) (back : Text) :
    pieces (front ++ back) = front.map .plain ++ pieces back := by
  rw [pieces_append_of_not_mem _ back, pieces_eq_map_plain hfront]
  rw [pieces_eq_map_plain hfront]
  simpa using hfront

end Text
end CommandTemplate
