import CommandTemplate.Proofs.Tag.Ends

/-!
# Texts that are put behind others

Behind a `<` that opens no tag, a text that follows can close one.  Such a tag reaches across the
join; all tags of the first text that end before it stay what they are, and a tag that is not
replaced is text like any other.
-/

namespace CommandTemplate
namespace Text

variable {replacement? : Text → Option Text} {front back : Text}

/-! ## Pieces before a join -/

theorem tokens_eq_nil_of_not_mem {text : Text} (h : '>' ∉ text) : text.tokens = [] := by
  induction text using pieceInduction with
  | nil => rfl
  | plain c rest hstart ih =>
      rw [tokens_cons_plain hstart]
      exact ih fun hmem => h (List.mem_cons_of_mem c hmem)
  | tag name rest hname _ => simp [tagToken] at h

/-- A text that follows changes the pieces only behind the last tag that it does not change. -/
theorem exists_pieces_append (front back : Text) :
    ∃ kept left joined, pieces front = kept ++ left ∧ left.filterMap Piece.token? = [] ∧
      pieces (front ++ back) = kept ++ joined := by
  induction front using pieceInduction with
  | nil => exact ⟨[], [], pieces back, rfl, rfl, rfl⟩
  | plain c rest hstart ih =>
      cases hjoin : tagAtStart? (c :: (rest ++ back)) with
      | none =>
          obtain ⟨kept, left, joined, hfront, hleft, hjoined⟩ := ih
          refine ⟨.plain c :: kept, left, joined, ?_, hleft, ?_⟩
          · rw [pieces_cons_plain hstart, hfront, List.cons_append]
          · rw [List.cons_append, pieces_cons_plain hjoin, hjoined, List.cons_append]
      | some token =>
          refine ⟨[], pieces (c :: rest), pieces (c :: rest ++ back), rfl, ?_, rfl⟩
          have hclose : ¬(c = '<' → closing? (rest ++ back) = none) := by
            rw [← tagAtStart?_cons_eq_none_iff, hjoin]
            simp
          obtain ⟨rfl, hback⟩ := Classical.not_imp.mp hclose
          -- The tag that the text behind closes ends the first text, and no other tag is in it.
          rw [closing?_append_eq_none_iff (tagAtStart?_cons_eq_none_iff.mp hstart rfl),
            Classical.not_imp] at hback
          exact tokens_eq_nil_of_not_mem (by simpa using hback.1.1)
  | tag name rest hname ih =>
      obtain ⟨kept, left, joined, hfront, hleft, hjoined⟩ := ih
      refine ⟨.tag (tagToken name) :: kept, left, joined, ?_, hleft, ?_⟩
      · rw [pieces_tagToken_append hname, hfront, List.cons_append]
      · rw [List.append_assoc, pieces_tagToken_append hname, hjoined, List.cons_append]

theorem flatMap_fill_eq {pieces : List Piece}
    (h : ∀ token ∈ pieces.filterMap Piece.token?, replacement? token = none) :
    pieces.flatMap (Piece.fill replacement?) = pieces.flatMap Piece.text := by
  induction pieces with
  | nil => rfl
  | cons piece pieces ih =>
      cases piece with
      | plain c => rw [List.flatMap_cons, List.flatMap_cons, ih h, Piece.fill, Piece.text]
      | tag token =>
          rw [List.filterMap_cons, Piece.token?, List.forall_mem_cons] at h
          rw [List.flatMap_cons, List.flatMap_cons, ih h.2, Piece.fill, h.1, Option.getD_none,
            Piece.text]

/-- A text that follows is not changed by a substitution if every tag with a replacement occurs as
often as in the first text alone. -/
theorem substitute_append_of_count
    (h : ∀ token ∈ (front ++ back).tokens, (replacement? token).isSome = true →
      (front ++ back).tokens.count token = front.tokens.count token) :
    substitute replacement? (front ++ back) = substitute replacement? front ++ back := by
  obtain ⟨kept, left, joined, hfront, hleft, hjoined⟩ := exists_pieces_append front back
  have hnone : ∀ token ∈ joined.filterMap Piece.token?, replacement? token = none := by
    intro token htoken
    by_contra hsome
    have hmem : token ∈ (front ++ back).tokens := by
      rw [tokens, hjoined, List.filterMap_append]
      exact List.mem_append_right _ htoken
    have hcount := h token hmem (Option.isSome_iff_ne_none.mpr hsome)
    rw [tokens, tokens, hjoined, hfront, List.filterMap_append, List.filterMap_append, hleft,
      List.append_nil, List.count_append] at hcount
    have hpos := List.count_pos_iff.mpr htoken
    omega
  have htext : joined.flatMap Piece.text = left.flatMap Piece.text ++ back := by
    have hwhole := flatMap_text_pieces (front ++ back)
    rw [hjoined, List.flatMap_append] at hwhole
    have hhead := flatMap_text_pieces front
    rw [hfront, List.flatMap_append] at hhead
    rw [← hhead, List.append_assoc] at hwhole
    exact List.append_cancel_left hwhole
  have hleftNone : ∀ token ∈ left.filterMap Piece.token?, replacement? token = none := by
    simp [hleft]
  rw [substitute, substitute, hjoined, hfront, List.flatMap_append, List.flatMap_append,
    flatMap_fill_eq hnone, flatMap_fill_eq hleftNone, htext, List.append_assoc]

/-! ## Occurrences of a token -/

theorem replaceAll_eq_self {text name : Text} (hname : IsTagName name) (h : text.tokens = [])
    (new : Text) : replaceAll text (tagToken name) new = text := by
  induction text using pieceInduction with
  | nil => exact replaceAll_nil _ _
  | plain c rest hstart ih =>
      rw [tokens_cons_plain hstart] at h
      rw [replaceAll_cons_of_not_startsWith (startsWith_eq_false hname hstart), ih h]
  | tag other rest hother _ =>
      rw [tokens_tagToken_append hother] at h
      simp at h

/-- A character that ends no occurrence stays at the end of a text. -/
theorem replaceAll_concat {old : Text} {c : Char} (hold : old ≠ []) (hlast : old.getLast? ≠ some c)
    (new text : Text) :
    replaceAll (text ++ [c]) old new = replaceAll text old new ++ [c] := by
  induction hlength : text.length using Nat.strongRecOn generalizing text with
  | _ n ih =>
      have hwhole : ¬ text ++ [c] = old := by
        rintro rfl
        simp at hlast
      by_cases hstarts : old <+: text
      · obtain ⟨rest, rfl⟩ := hstarts
        have hpos := List.length_pos_iff.mpr hold
        rw [List.length_append] at hlength
        rw [List.append_assoc, replaceAll_append_self hold, replaceAll_append_self hold,
          ih rest.length (by omega) rest rfl, List.append_assoc]
      · have hnot : startsWith (text ++ [c]) old = false := by
          rw [startsWith, Bool.eq_false_iff, ne_eq, List.isPrefixOf_iff_prefix,
            List.prefix_concat_iff, not_or]
          exact ⟨fun heq => hwhole heq.symm, hstarts⟩
        cases text with
        | nil => rw [List.nil_append, replaceAll_cons_of_not_startsWith hnot, replaceAll_nil]; rfl
        | cons d rest =>
            have hnot' : startsWith (d :: rest) old = false := by
              rwa [startsWith, Bool.eq_false_iff, ne_eq, List.isPrefixOf_iff_prefix]
            rw [List.length_cons] at hlength
            rw [List.cons_append] at hnot ⊢
            rw [replaceAll_cons_of_not_startsWith hnot,
              replaceAll_cons_of_not_startsWith hnot', ih rest.length (by omega) rest rfl,
              List.cons_append]

/-- The ends of a text stay when the occurrences of a token are replaced in it, as long as they are
no angle brackets. -/
theorem replaceAll_enclosed {opening closing : Char} (hopening : opening ≠ '<')
    (hclosing : closing ≠ '>') (inner name new : Text) :
    replaceAll (opening :: (inner ++ [closing])) (tagToken name) new =
      opening :: (replaceAll inner (tagToken name) new ++ [closing]) := by
  have hnot : startsWith (opening :: (inner ++ [closing])) (tagToken name) = false := by
    simp [startsWith, tagToken, List.isPrefixOf, hopening.symm]
  have hlast : (tagToken name).getLast? ≠ some closing := by
    simpa [tagToken, List.getLast?_cons] using hclosing.symm
  rw [replaceAll_cons_of_not_startsWith hnot, replaceAll_concat (by simp [tagToken]) hlast]

end Text
end CommandTemplate
