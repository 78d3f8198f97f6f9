import CommandTemplate.Proofs.Tag.Pieces

/-!
# Texts whose tags are replaced

Substitution acts on the pieces of a text: a tag with a replacement becomes the characters of the
replacement, and everything else stays.  Replacements without `<` leave the other tags as they are,
so that two substitutions one after the other are one.
-/

namespace CommandTemplate

/-- The pieces that stand for a piece once tags are replaced. -/
def Piece.replace (replacement? : Text → Option Text) : Piece → List Piece
  | .plain c => [.plain c]
  | .tag token =>
    match replacement? token with
    | some replacement => replacement.map .plain
    | none => [.tag token]

namespace Text

variable {replacement? : Text → Option Text}

/-! ## The tokens of a text -/

@[simp] theorem tokens_nil : tokens [] = [] :=
  rfl

theorem tokens_cons_plain {c : Char} {rest : Text} (h : tagAtStart? (c :: rest) = none) :
    tokens (c :: rest) = tokens rest := by
  rw [tokens, pieces_cons_plain h]
  rfl

theorem tokens_tagToken_append {name : Text} (hname : IsTagName name) (rest : Text) :
    tokens (tagToken name ++ rest) = tagToken name :: tokens rest := by
  rw [tokens, pieces_tagToken_append hname]
  rfl

theorem tokens_append {front back : Text}
    (h : pieces (front ++ back) = pieces front ++ pieces back) :
    tokens (front ++ back) = tokens front ++ tokens back := by
  rw [tokens, h, List.filterMap_append, tokens, tokens]

theorem mem_tokens_iff {text token : Text} : token ∈ text.tokens ↔ .tag token ∈ pieces text := by
  rw [tokens, List.mem_filterMap]
  constructor
  · rintro ⟨piece, hpiece, htoken⟩
    cases piece with
    | plain c => simp [Piece.token?] at htoken
    | tag other =>
        obtain rfl : other = token := by simpa [Piece.token?] using htoken
        exact hpiece
  · intro h
    exact ⟨.tag token, h, rfl⟩

/-- A token is a name in brackets. -/
theorem exists_name_of_mem_tokens {text token : Text} (h : token ∈ text.tokens) :
    ∃ name, IsTagName name ∧ token = tagToken name := by
  induction text using pieceInduction with
  | nil => simp at h
  | plain c rest hstart ih =>
      rw [tokens_cons_plain hstart] at h
      exact ih h
  | tag name rest hname ih =>
      rw [tokens_tagToken_append hname, List.mem_cons] at h
      rcases h with rfl | h
      · exact ⟨name, hname, rfl⟩
      · exact ih h

/-! ## Substitution along a text -/

@[simp] theorem substitute_nil : substitute replacement? [] = [] :=
  rfl

theorem substitute_cons_plain {c : Char} {rest : Text} (h : tagAtStart? (c :: rest) = none) :
    substitute replacement? (c :: rest) = c :: substitute replacement? rest := by
  simp [substitute, pieces_cons_plain h, Piece.fill]

theorem substitute_cons_of_ne {c : Char} (hc : c ≠ '<') (rest : Text) :
    substitute replacement? (c :: rest) = c :: substitute replacement? rest :=
  substitute_cons_plain (tagAtStart?_cons_of_ne hc rest)

theorem substitute_tagToken_append {name : Text} (hname : IsTagName name) (rest : Text) :
    substitute replacement? (tagToken name ++ rest) =
      (replacement? (tagToken name)).getD (tagToken name) ++ substitute replacement? rest := by
  simp [substitute, pieces_tagToken_append hname, Piece.fill]

theorem substitute_eq_self_of_not_mem {text : Text} (h : '<' ∉ text) :
    substitute replacement? text = text := by
  rw [substitute, pieces_eq_map_plain h, List.flatMap_map]
  exact List.flatMap_singleton' text

theorem substitute_congr {other? : Text → Option Text} {text : Text}
    (h : ∀ token ∈ text.tokens, replacement? token = other? token) :
    substitute replacement? text = substitute other? text := by
  induction text using pieceInduction with
  | nil => rfl
  | plain c rest hstart ih =>
      rw [tokens_cons_plain hstart] at h
      rw [substitute_cons_plain hstart, substitute_cons_plain hstart, ih h]
  | tag name rest hname ih =>
      rw [tokens_tagToken_append hname] at h
      rw [substitute_tagToken_append hname, substitute_tagToken_append hname,
        h _ List.mem_cons_self, ih fun token htoken => h token (List.mem_cons_of_mem _ htoken)]

theorem substitute_eq_self {text : Text} (h : ∀ token ∈ text.tokens, replacement? token = none) :
    substitute replacement? text = text :=
  (substitute_congr h).trans (substitute_none text)

/-- A text whose first line closes no tag has no tag on it, so that nothing is replaced there. -/
theorem closing?_substitute {text : Text} (h : closing? text = none) :
    closing? (substitute replacement? text) = none := by
  induction text using pieceInduction with
  | nil => exact h
  | plain c rest hstart ih =>
      rw [substitute_cons_plain hstart]
      unfold closing? at h ⊢
      split at h
      · simp at h
      · rename_i hc
        rw [if_neg hc]
        split at h
        · rename_i hc'
          rw [if_pos hc']
        · rename_i hc'
          rw [if_neg hc', ih (Option.map_eq_none_iff.mp h), Option.map_none]
  | tag name rest hname ih =>
      have hclose := closing?_name_append hname rest
      have hstart : tagToken name ++ rest = '<' :: (name ++ '>' :: rest) := by simp [tagToken]
      rw [hstart, closing?] at h
      simp [hclose] at h

/-! ## Replacements without an opening bracket -/

/-- The replacements that a text asks for have no `<` in them. -/
def OpensNothing (replacement? : Text → Option Text) (text : Text) : Prop :=
  ∀ token ∈ text.tokens, ∀ replacement, replacement? token = some replacement → '<' ∉ replacement

theorem OpensNothing.of_cons_plain {c : Char} {rest : Text}
    (h : OpensNothing replacement? (c :: rest)) (hstart : tagAtStart? (c :: rest) = none) :
    OpensNothing replacement? rest := by
  intro token htoken
  exact h token (by rwa [tokens_cons_plain hstart])

theorem OpensNothing.of_tagToken_append {name rest : Text}
    (h : OpensNothing replacement? (tagToken name ++ rest)) (hname : IsTagName name) :
    OpensNothing replacement? rest := by
  intro token htoken
  apply h token
  rw [tokens_tagToken_append hname]
  exact List.mem_cons_of_mem _ htoken

/-- The pieces of a text with tags replaced are found piece by piece. -/
theorem pieces_substitute {text : Text} (h : OpensNothing replacement? text) :
    pieces (substitute replacement? text) = (pieces text).flatMap (Piece.replace replacement?) := by
  induction text using pieceInduction with
  | nil => rfl
  | plain c rest hstart ih =>
      have hstart' : tagAtStart? (c :: substitute replacement? rest) = none := by
        rw [tagAtStart?_cons_eq_none_iff] at hstart ⊢
        exact fun hc => closing?_substitute (hstart hc)
      rw [substitute_cons_plain hstart, pieces_cons_plain hstart', pieces_cons_plain hstart,
        List.flatMap_cons, ih (h.of_cons_plain hstart)]
      rfl
  | tag name rest hname ih =>
      have hrest := ih (h.of_tagToken_append hname)
      rw [substitute_tagToken_append hname, pieces_tagToken_append hname, List.flatMap_cons,
        ← hrest]
      cases hreplacement : replacement? (tagToken name) with
      | none =>
          simp [Piece.replace, hreplacement, pieces_tagToken_append hname]
      | some replacement =>
          have hopen : '<' ∉ replacement := by
            apply h (tagToken name) _ replacement hreplacement
            rw [tokens_tagToken_append hname]
            exact List.mem_cons_self
          simp [Piece.replace, hreplacement, pieces_append_of_not_mem_left hopen]

/-- The tokens that are left are those without a replacement. -/
theorem tokens_substitute {text : Text} (h : OpensNothing replacement? text) :
    tokens (substitute replacement? text) =
      text.tokens.filter fun token => (replacement? token).isNone := by
  have hpiece : ∀ piece : Piece, (piece.replace replacement?).filterMap Piece.token? =
      piece.token?.toList.filter fun token => (replacement? token).isNone := by
    intro piece
    cases piece with
    | plain c => rfl
    | tag token =>
        cases hreplacement : replacement? token with
        | none => simp [Piece.replace, Piece.token?, hreplacement]
        | some replacement =>
            simp [Piece.replace, Piece.token?, hreplacement, List.filterMap_map,
              Function.comp_def]
  rw [tokens, pieces_substitute h, List.filterMap_flatMap, tokens]
  induction pieces text with
  | nil => rfl
  | cons piece rest ih =>
      rw [List.flatMap_cons, hpiece, ih]
      cases htoken : piece.token? with
      | none => simp [htoken]
      | some token =>
          cases hreplacement : replacement? token with
          | none => simp [htoken, hreplacement]
          | some replacement => simp [htoken, hreplacement]

/-- Two substitutions one after the other are one, in which the first has precedence. -/
theorem substitute_substitute {text : Text} (h : OpensNothing replacement? text)
    (other? : Text → Option Text) :
    substitute other? (substitute replacement? text) =
      substitute (fun token => (replacement? token).or (other? token)) text := by
  have hpiece : ∀ piece : Piece, (piece.replace replacement?).flatMap (Piece.fill other?) =
      piece.fill fun token => (replacement? token).or (other? token) := by
    intro piece
    cases piece with
    | plain c => rfl
    | tag token =>
        cases hreplacement : replacement? token with
        | none => simp [Piece.replace, Piece.fill, hreplacement]
        | some replacement =>
            simp [Piece.replace, Piece.fill, hreplacement, List.flatMap_map]
  rw [substitute, pieces_substitute h, List.flatMap_assoc, substitute]
  exact congrArg (pieces text).flatMap (funext hpiece)

end Text
end CommandTemplate
