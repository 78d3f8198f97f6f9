import CommandTemplate.Proofs.Tag.Ends
import CommandTemplate.Proofs.Text.Cutting
import CommandTemplate.Proofs.Text.Numerals
import CommandTemplate.Template.Error
import Mathlib.Data.List.Forall2

/-!
# The grammar of path expressions

A path expression has parts with dots between them, and each part spells one field access: a name, or
a name with an index in brackets.  The reader accepts this grammar and nothing else.  A bracket is
out of place in no name without an index, and an opening bracket in no name at all; but the reader
of an indexed part looks only at its first `[` and its last character, so that a `]` before the index
counts to the name.
-/

namespace CommandTemplate

namespace FieldPath

/-- A text that is an index up to blanks at its ends: a numeral below the bound of a word, with or
without a `+` before it. -/
def IsIndex (text : Text) (index : Nat) : Prop :=
  ∃ digits, (text.trim = digits ∨ text.trim = '+' :: digits) ∧ IsNumeral digits ∧
    numeral 10 digits = index ∧ index < wordBound

/-- What a part between dots spells.  The name before an index may have a `]` in it. -/
inductive Spells : Text → Segment → Prop
  | name {part : Text} :
      part.trim ≠ [] → '[' ∉ part.trim → ']' ∉ part.trim → Spells part ⟨part.trim, none⟩
  | indexed {before within : Text} {index : Nat} :
      before.trim ≠ [] → '[' ∉ before.trim → IsIndex within index →
        Spells (before ++ '[' :: (within ++ [']'])) ⟨before.trim, some index⟩

theorem parseIndex_eq_ok_iff {bracketed : Text} {index : Nat} :
    parseIndex bracketed = .ok index ↔
      ∃ within, bracketed = within ++ [']'] ∧ IsIndex within index := by
  have hbound : 0 < wordBound := by decide
  rw [parseIndex]
  split
  · rename_i hlast
    obtain ⟨within, rfl⟩ : ∃ within, bracketed = within ++ [']'] := by
      obtain ⟨within, hwithin⟩ := List.getLast?_eq_some_iff.mp hlast
      exact ⟨within, hwithin⟩
    have hindex : readNatural wordBound within.trim = .ok index ↔ IsIndex within index :=
      readNatural_eq_ok_iff hbound
    rw [List.dropLast_concat]
    constructor
    · intro h
      split at h
      · rename_i hread
        rw [Except.ok.inj h] at hread
        exact ⟨within, rfl, hindex.mp hread⟩
      · cases h
    · rintro ⟨other, hother, hwithin⟩
      rw [← List.append_cancel_right hother] at hwithin
      rw [hindex.mpr hwithin]
  · rename_i hlast
    simp only [reduceCtorEq, false_iff]
    rintro ⟨within, rfl, -⟩
    exact hlast (by simp)

/-- A part is read as the segment that it spells. -/
theorem parseSegment_eq_ok_iff {part : Text} {found : Segment} :
    parseSegment part = .ok found ↔ Spells part found := by
  have hopen {text : Text} : '[' ∈ text.trim ↔ '[' ∈ text := Text.mem_trim_iff (by decide)
  have hclose {text : Text} : ']' ∈ text.trim ↔ ']' ∈ text := Text.mem_trim_iff (by decide)
  have hsegment {name : Text} {index : Option Nat} :
      segment name index = .ok found ↔ name.trim ≠ [] ∧ found = ⟨name.trim, index⟩ := by
    rw [segment]
    split
    · rename_i hempty
      simp [hempty]
    · rename_i hname
      rw [Except.ok.injEq, and_iff_right hname, eq_comm]
  constructor
  · intro h
    rw [parseSegment] at h
    split at h
    · rename_i before bracketed hcut
      obtain ⟨rfl, hbefore⟩ := Text.cut?_eq_some_iff.mp hcut
      split at h
      · rename_i index hindex
        obtain ⟨within, rfl, hwithin⟩ := parseIndex_eq_ok_iff.mp hindex
        obtain ⟨hname, rfl⟩ := hsegment.mp h
        exact .indexed hname (mt hopen.mp hbefore) hwithin
      · cases h
    · rename_i hcut
      have hno := Text.cut?_eq_none_iff.mp hcut
      split at h
      · cases h
      · rename_i hnot
        obtain ⟨hname, rfl⟩ := hsegment.mp h
        exact .name hname (mt hopen.mp hno) (mt hclose.mp hnot)
  · intro h
    cases h with
    | name hname hno hnot =>
        rw [parseSegment, Text.cut?_eq_none_iff.mpr (mt hopen.mpr hno)]
        simpa [mt hclose.mpr hnot] using hsegment.mpr ⟨hname, rfl⟩
    | indexed hname hno hwithin =>
        rw [parseSegment, Text.cut?_append_cons (mt hopen.mpr hno)]
        simpa [parseIndex_eq_ok_iff.mpr ⟨_, rfl, hwithin⟩] using hsegment.mpr ⟨hname, rfl⟩

theorem parseSegments_eq_ok_iff {parts : List Text} {segments : List Segment} :
    parseSegments parts = .ok segments ↔ List.Forall₂ Spells parts segments := by
  induction parts generalizing segments with
  | nil => rw [parseSegments, List.forall₂_nil_left_iff, Except.ok.injEq, eq_comm]
  | cons part parts ih =>
      rw [parseSegments]
      constructor
      · intro h
        split at h
        · cases h
        · rename_i first hfirst
          split at h
          · cases h
          · rename_i others hothers
            rw [← Except.ok.inj h]
            exact .cons (parseSegment_eq_ok_iff.mp hfirst) (ih.mp hothers)
      · rintro (_ | ⟨hfirst, hothers⟩)
        rw [parseSegment_eq_ok_iff.mpr hfirst, ih.mpr hothers]

theorem not_spells_nil (segment : Segment) : ¬Spells [] segment := by
  intro h
  generalize hpart : ([] : Text) = part at h
  cases h with
  | name hname => exact hname (by rw [← hpart]; rfl)
  | indexed => simp at hpart

/-- An expression is read as the path that the parts between its dots spell. -/
theorem parse_eq_ok_iff {expression : Text} {path : FieldPath} :
    FieldPath.parse expression = .ok path ↔
      List.Forall₂ Spells (expression.trim.parts '.') path.segments := by
  obtain ⟨segments⟩ := path
  rw [FieldPath.parse]
  split
  · rename_i hempty
    rw [hempty]
    constructor
    · intro h
      cases h
    · rintro (_ | ⟨hfirst, -⟩)
      exact absurd hfirst (not_spells_nil _)
  · rw [← parseSegments_eq_ok_iff]
    constructor
    · intro h
      split at h
      · rename_i hsegments
        rw [hsegments, ← Except.ok.inj h]
      · cases h
    · intro h
      rw [h]

/-- The brackets in the name of a segment that some part spells. -/
theorem Spells.not_mem_name {part : Text} {segment : Segment} (h : Spells part segment) :
    '[' ∉ segment.name ∧ (segment.index = none → ']' ∉ segment.name) := by
  cases h with
  | name _ hopen hclose => exact ⟨hopen, fun _ => hclose⟩
  | indexed _ hopen _ => exact ⟨hopen, fun h => nomatch h⟩

theorem exists_spells_of_mem {parts : List Text} {segments : List Segment} {segment : Segment}
    (h : List.Forall₂ Spells parts segments) (hmem : segment ∈ segments) :
    ∃ part ∈ parts, Spells part segment := by
  induction h with
  | nil => simp at hmem
  | cons hfirst _ ih =>
      rcases List.mem_cons.mp hmem with rfl | hothers
      · exact ⟨_, List.mem_cons_self, hfirst⟩
      · obtain ⟨part, hpart, hspells⟩ := ih hothers
        exact ⟨part, List.mem_cons_of_mem _ hpart, hspells⟩

/-- A path expression is read exactly if it is made of parts with dots between them, each of which
spells a segment, and the path has these segments; any other expression is refused with an error that
carries it.  No `[` is left in a name, and a `]` only in one that stands before an index. -/
theorem read_eq_ok_iff_spells (expression : Text) :
    (∀ path, FieldPath.read expression = .ok path ↔
      ∃ parts : List Text, parts ≠ [] ∧ expression.trim = Text.join ['.'] parts ∧
        (∀ part ∈ parts, '.' ∉ part) ∧ List.Forall₂ Spells parts path.segments) ∧
    (∀ error, FieldPath.read expression = .error error →
      ∃ fault, error = .invalidPath expression fault) ∧
    ∀ path, FieldPath.read expression = .ok path → ∀ segment ∈ path.segments,
      '[' ∉ segment.name ∧ (']' ∈ segment.name → segment.index ≠ none) := by
  have hread : ∀ path, FieldPath.read expression = .ok path ↔
      List.Forall₂ Spells (expression.trim.parts '.') path.segments := by
    intro path
    rw [← parse_eq_ok_iff, FieldPath.read]
    split <;> simp_all
  refine ⟨fun path => ?_, fun error herror => ?_, fun path hpath segment hsegment => ?_⟩
  · rw [hread]
    constructor
    · intro h
      obtain ⟨hne, hjoin, hdots⟩ := Text.parts_eq_iff.mp (rfl : expression.trim.parts '.' = _)
      exact ⟨_, hne, hjoin, hdots, h⟩
    · rintro ⟨parts, hne, hjoin, hdots, h⟩
      rwa [Text.parts_eq_iff.mpr ⟨hne, hjoin, hdots⟩]
  · rw [FieldPath.read] at herror
    split at herror
    · cases herror
    · exact ⟨_, (Except.error.inj herror).symm⟩
  · obtain ⟨part, -, hpart⟩ := exists_spells_of_mem ((hread path).mp hpath) hsegment
    exact ⟨hpart.not_mem_name.1, fun hclose hnone => hpart.not_mem_name.2 hnone hclose⟩

example : FieldPath.read "a][ +07 ].b".toList =
    .ok ⟨[⟨"a]".toList, some 7⟩, ⟨"b".toList, none⟩]⟩ := by
  decide +kernel

end FieldPath
end CommandTemplate
