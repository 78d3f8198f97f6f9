import CommandTemplate.Proofs.Tag.StandApart
import CommandTemplate.Template.Render

/-!
# Joining the fragments of a template

The text of a template and its stages are the fragments that rendering joins.  Joining leaves the
fragments their tags when they stand apart, as they do when every `<` of every fragment begins a tag.
Tags can then be replaced in each fragment by itself before the fragments are joined.
-/

namespace CommandTemplate
namespace Text

variable {replacement? : Text → Option Text}

/-- Every `<` of the text begins a tag: none stands outside of the tags, and none in a tag after its
beginning. -/
def OpensTags (text : Text) : Prop :=
  .plain '<' ∉ pieces text ∧ text.HasSimpleTags

instance (text : Text) : Decidable text.OpensTags :=
  inferInstanceAs (Decidable (_ ∧ _))

theorem OpensTags.expand {text : Text} (h : text.OpensTags) (names : List Text) :
    (text.expand names).OpensTags := by
  refine ⟨?_, h.2.expand names⟩
  rw [Text.expand, pieces_substitute (h.2.opensNothing names)]
  intro hmem
  obtain ⟨piece, hpiece, hmem⟩ := List.mem_flatMap.mp hmem
  cases piece with
  | plain c =>
      obtain rfl : c = '<' := by simpa [Piece.replace, eq_comm] using hmem
      exact h.1 hpiece
  | tag token =>
      have hopen := h.2.opensNothing names token (mem_tokens_iff.mpr hpiece)
      cases hreplacement : expansion? names token with
      | none => simp [Piece.replace, hreplacement] at hmem
      | some replacement =>
          have : '<' ∈ replacement := by simpa [Piece.replace, hreplacement] using hmem
          exact hopen replacement hreplacement this

theorem OpensTags.trim {text : Text} (h : text.OpensTags) : text.trim.OpensTags :=
  ⟨fun hmem => h.1 (mem_pieces_of_mem_trim hmem), h.2.trim⟩

theorem standApart_of_not_mem {texts : List Text}
    (h : ∀ text ∈ texts, .plain '<' ∉ pieces text) : StandApart texts := by
  induction texts with
  | nil => trivial
  | cons text texts ih =>
      rw [List.forall_mem_cons] at h
      exact ⟨fun hopen => absurd (mem_pieces_of_leavesOpen hopen) h.1, ih h.2⟩

/-! ## Fragments one after another -/

section Parts

variable {inner : Text} {stages : List Text}

/-- The fragments with the stages as further items of the array, after a comma if the array has
items before them. -/
def joinFragments (isBlank : Bool) (base : Text) (stages : List Text) : Text :=
  if stages = [] then
    base
  else
    base.dropLast ++ (if isBlank then [] else [',']) ++ join [','] stages ++ [']']

/-- The fragments with the commas between them, and the bracket behind. -/
def joinedParts (isBlank : Bool) (base : Text) (stages : List Text) : List Text :=
  base.dropLast :: (if isBlank then [] else [',']) :: (stages.intersperse [','] ++ [[']']])

theorem joinFragments_eq_flatten (h : stages ≠ []) (isBlank : Bool) (base : Text) :
    joinFragments isBlank base stages = (joinedParts isBlank base stages).flatten := by
  rw [joinFragments, if_neg h]
  simp [joinedParts, join, List.intercalate]

theorem standApart_intersperse (front texts back : List Text) :
    StandApart (front ++ (texts.intersperse [','] ++ back)) ↔
      StandApart (front ++ (texts ++ back)) := by
  induction texts generalizing front with
  | nil => rfl
  | cons first others ih =>
      cases others with
      | nil => rfl
      | cons second others =>
          have hcomma : IsPlainName [','] := by simp [IsPlainName, IsTagName]
          have hfirst := ih (front ++ [first])
          rw [List.append_assoc, List.append_assoc] at hfirst
          rw [List.intersperse_cons_cons, List.cons_append, List.cons_append,
            List.append_cons front first, standApart_insert hcomma, List.append_assoc]
          exact hfirst

/-- The fragments stand apart with or without what is put between them. -/
theorem standApart_joinedParts (isBlank : Bool) :
    StandApart (joinedParts isBlank (bracketed inner) stages) ↔
      StandApart (bracketed inner :: stages) := by
  have hcomma : IsPlainName (if isBlank then [] else [',']) := by
    cases isBlank <;> simp [IsPlainName, IsTagName]
  have hbracket : IsPlainName [']'] := by simp [IsPlainName, IsTagName]
  calc
    StandApart (joinedParts isBlank (bracketed inner) stages) ↔
        StandApart (['[' :: inner] ++ (stages.intersperse [','] ++ [[']']])) := by
      rw [joinedParts, dropLast_bracketed, ← standApart_insert hcomma]
      rfl
    _ ↔ StandApart (('[' :: inner) :: stages ++ [[']']]) := standApart_intersperse _ _ _
    _ ↔ StandApart (('[' :: inner) :: stages) := by
      rw [standApart_insert hbracket, List.append_nil]
    _ ↔ StandApart (bracketed inner :: stages) := by
      rw [bracketed, ← List.cons_append, StandApart, StandApart,
        leavesOpen_append_separator hbracket]

theorem map_intersperse (change : Text → Text) (separator : Text) (texts : List Text) :
    (texts.intersperse separator).map change =
      (texts.map change).intersperse (change separator) := by
  induction texts with
  | nil => rfl
  | cons first others ih =>
      cases others with
      | nil => rfl
      | cons second others =>
          rw [List.map_cons, List.map_cons, List.intersperse_cons_cons, List.intersperse_cons_cons,
            List.map_cons, List.map_cons, ih, List.map_cons]

theorem map_joinedParts (isBlank : Bool) :
    (joinedParts isBlank (bracketed inner) stages).map (substitute replacement?) =
      joinedParts isBlank (substitute replacement? (bracketed inner))
        (stages.map (substitute replacement?)) := by
  have hcomma : substitute replacement? (if isBlank then [] else [',']) =
      if isBlank then [] else [','] := by
    cases isBlank <;> rfl
  have hhead : substitute replacement? ('[' :: inner) = '[' :: substitute replacement? inner :=
    substitute_cons_of_ne (by decide) inner
  rw [joinedParts, joinedParts, substitute_bracketed, dropLast_bracketed, dropLast_bracketed,
    List.map_cons, List.map_cons, List.map_append, map_intersperse, hcomma, hhead]
  rfl

/-- Tags can be replaced in each fragment before the fragments are joined, if they stand apart. -/
theorem substitute_joinFragments {base : Text} (isBlank : Bool)
    (happart : StandApart (base :: stages))
    (harray : stages ≠ [] → ∃ inner, base = bracketed inner) :
    substitute replacement? (joinFragments isBlank base stages) =
      joinFragments isBlank (substitute replacement? base)
        (stages.map (substitute replacement?)) := by
  by_cases hnone : stages = []
  · simp [joinFragments, hnone]
  · obtain ⟨inner, rfl⟩ := harray hnone
    have hparts := (standApart_joinedParts isBlank).mpr happart
    rw [joinFragments_eq_flatten hnone, hparts.substitute_flatten, map_joinedParts,
      joinFragments_eq_flatten (mt List.map_eq_nil_iff.mp hnone)]

theorem flatMap_tokens_intersperse (texts : List Text) :
    (texts.intersperse [',']).flatMap tokens = texts.flatMap tokens := by
  induction texts with
  | nil => rfl
  | cons first others ih =>
      cases others with
      | nil => rfl
      | cons second others =>
          rw [List.intersperse_cons_cons, List.flatMap_cons, List.flatMap_cons, ih, List.flatMap_cons]
          rfl

/-- Fragments stand apart when joining them leaves them their tags. -/
theorem standApart_iff_tokens_joinFragments (hne : stages ≠ []) (isBlank : Bool) :
    StandApart (bracketed inner :: stages) ↔
      tokens (joinFragments isBlank (bracketed inner) stages) =
        tokens (bracketed inner) ++ stages.flatMap tokens := by
  have hcomma : tokens (if isBlank then [] else [',']) = [] := by
    cases isBlank <;> rfl
  have hbracket : tokens [']'] = [] := rfl
  rw [← standApart_joinedParts isBlank, standApart_iff, joinFragments_eq_flatten hne,
    joinedParts, dropLast_bracketed, List.flatMap_cons, List.flatMap_cons, List.flatMap_append,
    flatMap_tokens_intersperse, List.flatMap_singleton, tokens_bracketed, hcomma, hbracket, List.nil_append,
    List.append_nil]

end Parts

end Text

namespace Template

open Text

/-- A text in two different brackets has both of them. -/
theorem isEnclosed_iff {opening closing : Char} (hne : opening ≠ closing) {text : Text} :
    isEnclosed opening closing text = true ↔
      ∃ inner, text = opening :: (inner ++ [closing]) := by
  rw [isEnclosed, Bool.and_eq_true, decide_eq_true_iff, decide_eq_true_iff]
  constructor
  · rintro ⟨hhead, hlast⟩
    cases text with
    | nil => simp at hhead
    | cons c rest =>
        obtain rfl : c = opening := by simpa using hhead
        have hrest : rest ≠ [] := by
          rintro rfl
          exact hne (by simpa using hlast)
        have hclosing : rest.getLast hrest = closing := by
          simpa [List.getLast?_cons, List.getLast?_eq_some_getLast hrest] using hlast
        exact ⟨rest.dropLast, by rw [← hclosing, List.dropLast_concat_getLast hrest]⟩
  · rintro ⟨inner, rfl⟩
    simp [List.getLast?_cons]

theorem exists_bracketed_of_isEnclosed {text : Text} (h : isEnclosed '[' ']' text = true) :
    ∃ inner, text = bracketed inner :=
  (isEnclosed_iff (by decide)).mp h

@[simp] theorem isEnclosed_bracketed (inner : Text) :
    isEnclosed '[' ']' (bracketed inner) = true :=
  (isEnclosed_iff (by decide)).mpr ⟨inner, rfl⟩

theorem compose_eq (template : Template) :
    template.compose =
      joinFragments (isBlankText (template.base.dropLast.drop 1)) template.base template.stages :=
  rfl

end Template
end CommandTemplate
