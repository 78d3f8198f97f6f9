import CommandTemplate.Proofs.Tag.Discovery
import CommandTemplate.Proofs.Tag.Substitution

/-!
# The tags of a text

Tags are the leftmost shortest matches of a bracketed name in one line: a tag begins at the first
place where any match begins, it ends with the first `>` from there on, and the next one is looked
for behind it.  This tells how a text falls into pieces, and there is only one way.  Scanning and
substituting both go through these pieces, so that the tags that are found are the tags that a
replacement is asked for.
-/

namespace CommandTemplate
namespace Text

variable {text : Text} {pieces : List Piece}

/-! ## Leftmost shortest matches -/

/-- A text falls into the tags that are its leftmost shortest matches and the characters between
them. -/
inductive FallsInto : Text → List Piece → Prop
  | nil : FallsInto [] []
  | plain {c : Char} {rest : Text} {pieces : List Piece} :
      (∀ name back, IsTagName name → c :: rest ≠ tagToken name ++ back) → FallsInto rest pieces →
        FallsInto (c :: rest) (.plain c :: pieces)
  | tag {name rest : Text} {pieces : List Piece} :
      IsTagName name → FallsInto rest pieces →
        FallsInto (tagToken name ++ rest) (.tag (tagToken name) :: pieces)

theorem tagAtStart?_eq_none_iff :
    tagAtStart? text = none ↔ ∀ name back, IsTagName name → text ≠ tagToken name ++ back := by
  constructor
  · rintro hnone name back hname rfl
    rw [tagAtStart?_tagToken_append hname] at hnone
    cases hnone
  · intro hmatch
    cases hstart : tagAtStart? text with
    | none => rfl
    | some token =>
        obtain ⟨name, back, hname, -, htext⟩ := exists_name_of_tagAtStart? hstart
        exact absurd htext (hmatch name back hname)

theorem fallsInto_pieces (text : Text) : FallsInto text text.pieces := by
  induction text using pieceInduction with
  | nil => exact .nil
  | plain c rest hstart ih =>
      rw [pieces_cons_plain hstart]
      exact .plain (tagAtStart?_eq_none_iff.mp hstart) ih
  | tag name rest hname ih =>
      rw [pieces_tagToken_append hname]
      exact .tag hname ih

theorem FallsInto.pieces_eq (h : FallsInto text pieces) : text.pieces = pieces := by
  induction h with
  | nil => rfl
  | plain hmatch _ ih => rw [pieces_cons_plain (tagAtStart?_eq_none_iff.mpr hmatch), ih]
  | tag hname _ ih => rw [pieces_tagToken_append hname, ih]

/-- The pieces of a text are the only ones that it falls into. -/
theorem fallsInto_iff : FallsInto text pieces ↔ text.pieces = pieces := by
  constructor
  · exact FallsInto.pieces_eq
  · rintro rfl
    exact fallsInto_pieces text

/-! ## What a substitution asks for -/

/-- The look-up of replacements that keeps a record of the tokens it is asked for. -/
def recorded (replacement? : Text → Option Text) (token : Text) :
    StateM (List Text) (Option Text) :=
  fun asked => (replacement? token, asked ++ [token])

theorem run_fillM_recorded (replacement? : Text → Option Text) (piece : Piece)
    (asked : List Text) :
    (piece.fillM (recorded replacement?)).run asked =
      (piece.fill replacement?, asked ++ piece.token?.toList) := by
  cases piece with
  | plain c => exact congrArg (Prod.mk [c]) (List.append_nil asked).symm
  | tag token => rfl

theorem run_mapM_recorded (replacement? : Text → Option Text) (pieces : List Piece)
    (asked : List Text) :
    (pieces.mapM (Piece.fillM (recorded replacement?))).run asked =
      (pieces.map (Piece.fill replacement?), asked ++ pieces.filterMap Piece.token?) := by
  induction pieces generalizing asked with
  | nil => exact congrArg (Prod.mk []) (List.append_nil asked).symm
  | cons piece pieces ih =>
      have htokens : (piece :: pieces).filterMap Piece.token? =
          piece.token?.toList ++ pieces.filterMap Piece.token? := by
        rw [List.filterMap_cons]
        cases piece.token? <;> rfl
      have hstep : ((piece :: pieces).mapM (Piece.fillM (recorded replacement?))).run asked =
          ((pieces.mapM (Piece.fillM (recorded replacement?))).run
            (asked ++ piece.token?.toList)).map (piece.fill replacement? :: ·) id := by
        rw [List.mapM_cons, StateT.run_bind, run_fillM_recorded]
        rfl
      rw [hstep, ih, htokens, List.append_assoc]
      rfl

/-- A substitution asks for the tokens of the text in their order. -/
theorem run_substituteM_recorded (replacement? : Text → Option Text) (text : Text)
    (asked : List Text) :
    (text.substituteM (recorded replacement?)).run asked =
      (text.substitute replacement?, asked ++ text.tokens) := by
  rw [substituteM, StateT.run_bind, run_mapM_recorded, substitute, List.flatMap_def]
  rfl

/-- A substitution asks for a replacement of each tag of the text, which are the tags that scanning
finds, and gives the pieces of the text with those tags replaced that have a replacement.  As long as
no replacement opens a tag, the tags that are left are those without a replacement. -/
theorem substitute_sees_scanned_tags (replacement? : Text → Option Text) (text : Text) :
    (text.substituteM (recorded replacement?)).run [] =
        (text.substitute replacement?, text.tokens) ∧
      text.tokens.eraseDups = text.tags.toList ∧
      (∃ pieces, FallsInto text pieces) ∧
      (∀ pieces, FallsInto text pieces → text = pieces.flatMap Piece.text ∧
        text.tokens = pieces.filterMap Piece.token? ∧
        text.substitute replacement? = pieces.flatMap (Piece.fill replacement?)) ∧
      (OpensNothing replacement? text →
        (text.substitute replacement?).tokens =
            text.tokens.filter (fun token => (replacement? token).isNone) ∧
          (text.substitute replacement?).tags =
            text.tags.filter fun token => (replacement? token).isNone) := by
  refine ⟨run_substituteM_recorded replacement? text [], (TagSet.toList_tags text).symm,
    ⟨text.pieces, fallsInto_pieces text⟩, ?_, ?_⟩
  · intro pieces hpieces
    rw [← fallsInto_iff.mp hpieces]
    exact ⟨(flatMap_text_pieces text).symm, rfl, rfl⟩
  · intro hopens
    have htokens := tokens_substitute hopens
    refine ⟨htokens, TagSet.ext ?_⟩
    calc
      (text.substitute replacement?).tags.toList =
          (text.substitute replacement?).tokens.eraseDups := TagSet.toList_tags _
      _ = text.tokens.eraseDups.filter fun token => (replacement? token).isNone := by
        rw [htokens, eraseDups_filter]
      _ = (text.tags.filter fun token => (replacement? token).isNone).toList := by
        rw [← TagSet.toList_tags]
        rfl

/-- A tag with a second `<`, a `<` that opens no tag and a replacement with a `>` in it. -/
theorem substitute_sees_scanned_tags_unbalanced :
    let replacement? : Text → Option Text := fun token =>
      if token = "<B>".toList then some "1 > 0".toList else none
    let text : Text := "<x <A> <B> <\n<B>><C>".toList
    OpensNothing replacement? text ∧
      (text.substitute replacement?).tags.toList = ["<x <A>".toList, "<C>".toList] := by
  intro replacement? text
  have hopens : OpensNothing replacement? text := by
    intro token _ replacement hreplacement
    simp only [replacement?, Option.ite_none_right_eq_some, Option.some.injEq] at hreplacement
    rw [← hreplacement.2]
    decide
  have htags := ((substitute_sees_scanned_tags replacement? text).2.2.2.2 hopens).2
  rw [htags]
  exact ⟨hopens, by decide +kernel⟩

end Text
end CommandTemplate
