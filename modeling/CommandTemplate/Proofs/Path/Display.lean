import CommandTemplate.Proofs.Path.Grammar
import CommandTemplate.Proofs.Text.Trimming

/-!
# Path expressions in canonical form

A path is written with no blanks around its names and indices and with its indices in plain decimal.
The paths that have an expression at all are those whose names are trimmed, not empty and free of
the marks that would cut them, and whose indices fit into a word; written out, each of them is read
back.  So the written form is the same for all expressions of a path, and different for different
paths.
-/

namespace CommandTemplate

/-! ## Numerals between blanks -/

theorem isBlank_of_isDigit {c : Char} (h : isDigit c = true) : Text.isBlank c = false := by
  have hlow : 48 ≤ c.toNat := (isDigit_iff.mp h).1
  have hhigh : c.toNat ≤ 57 := (isDigit_iff.mp h).2
  rw [← Bool.not_eq_true]
  intro hblank
  simp only [Text.isBlank, Text.inRanges, Text.blankRanges, List.any_cons, List.any_nil,
    Bool.or_eq_true, Bool.and_eq_true, decide_eq_true_eq, Bool.or_false] at hblank
  omega

@[simp] theorem trim_ofNat (n : Nat) : (Text.ofNat n).trim = Text.ofNat n := by
  have hblank : ∀ c ∈ Text.ofNat n, Text.isBlank c = false := fun c hc =>
    isBlank_of_isDigit ((isNumeral_ofNat n).2 c hc)
  rw [Text.trim_eq_self_iff]
  exact ⟨fun c hc => hblank c (List.mem_of_head? hc),
    fun c hc => hblank c (List.mem_of_getLast? hc)⟩

namespace FieldPath

theorem isIndex_ofNat {index : Nat} (h : index < wordBound) : IsIndex (Text.ofNat index) index :=
  ⟨Text.ofNat index, Or.inl (trim_ofNat index), isNumeral_ofNat index, numeral_ofNat index, h⟩

/-! ## Segments that can be written -/

/-- A segment that stands for itself in an expression: its name is trimmed and not empty and has no
mark in it that would cut it, and its index fits into a word. -/
structure IsWritable (segment : Segment) : Prop where
  name_ne_nil : segment.name ≠ []
  trim_name : segment.name.trim = segment.name
  dot_not_mem : '.' ∉ segment.name
  open_not_mem : '[' ∉ segment.name
  close_not_mem : segment.index = none → ']' ∉ segment.name
  index_lt : ∀ index, segment.index = some index → index < wordBound

/-- What a part without dots spells can be written. -/
theorem Spells.isWritable {part : Text} {segment : Segment} (h : Spells part segment)
    (hdot : '.' ∉ part) : IsWritable segment := by
  have hname {text : Text} (htext : '.' ∉ text) : '.' ∉ text.trim :=
    mt (Text.mem_trim_iff (by decide)).mp htext
  cases h with
  | name hne hopen hclose =>
      exact ⟨hne, Text.trim_trim _, hname hdot, hopen, fun _ => hclose, by simp⟩
  | indexed hne hopen hindex =>
      rw [List.mem_append, not_or] at hdot
      refine ⟨hne, Text.trim_trim _, hname hdot.1, hopen, by simp, ?_⟩
      rintro _ ⟨rfl⟩
      obtain ⟨_, _, _, _, hlt⟩ := hindex
      exact hlt

namespace IsWritable

variable {segment : Segment}

/-- A segment that can be written is spelled by its written form. -/
theorem spells (h : IsWritable segment) : Spells (displaySegment segment) segment := by
  obtain ⟨name, index⟩ := segment
  have hne : name.trim ≠ [] := by rw [h.trim_name]; exact h.name_ne_nil
  have hopen : '[' ∉ name.trim := by rw [h.trim_name]; exact h.open_not_mem
  cases index with
  | none =>
      have hclose : ']' ∉ name.trim := by rw [h.trim_name]; exact h.close_not_mem rfl
      have hspells := Spells.name hne hopen hclose
      rwa [h.trim_name] at hspells
  | some index =>
      have hspells := Spells.indexed hne hopen (isIndex_ofNat (h.index_lt index rfl))
      rwa [h.trim_name] at hspells

theorem displaySegment_ne_nil (h : IsWritable segment) : displaySegment segment ≠ [] := by
  rw [displaySegment]
  split
  · simp
  · exact h.name_ne_nil

theorem trim_displaySegment (h : IsWritable segment) :
    (displaySegment segment).trim = displaySegment segment := by
  rw [displaySegment]
  split
  · rename_i index _
    exact Text.trim_append h.trim_name (by decide) h.name_ne_nil (by simp) ('[' :: Text.ofNat index)
  · exact h.trim_name

theorem dot_not_mem_displaySegment (h : IsWritable segment) : '.' ∉ displaySegment segment := by
  rw [displaySegment]
  split
  · rename_i index _
    have hdigits : '.' ∉ Text.ofNat index := by
      intro hmem
      have hdigit := (isNumeral_ofNat index).2 '.' hmem
      exact absurd hdigit (by decide)
    simp [h.dot_not_mem, hdigits]
  · exact h.dot_not_mem

end IsWritable

/-! ## Paths -/

theorem read_eq_ok_iff {expression : Text} {path : FieldPath} :
    FieldPath.read expression = .ok path ↔ FieldPath.parse expression = .ok path := by
  rw [FieldPath.read]
  split <;> simp_all

/-- The segments of a path that was read can be written, and there is at least one. -/
theorem isWritable_of_read {expression : Text} {path : FieldPath}
    (h : FieldPath.read expression = .ok path) :
    path.segments ≠ [] ∧ ∀ segment ∈ path.segments, IsWritable segment := by
  have hspells := parse_eq_ok_iff.mp (read_eq_ok_iff.mp h)
  constructor
  · intro hnil
    rw [hnil, List.forall₂_nil_right_iff] at hspells
    exact Text.parts_ne_nil _ _ hspells
  · intro segment hsegment
    obtain ⟨part, hpart, hsegment⟩ := exists_spells_of_mem hspells hsegment
    exact hsegment.isWritable (Text.not_mem_of_mem_parts hpart)

/-- A path whose segments can be written is read back. -/
theorem read_display_of_isWritable {path : FieldPath} (hne : path.segments ≠ [])
    (h : ∀ segment ∈ path.segments, IsWritable segment) :
    FieldPath.read path.display = .ok path := by
  have hparts : path.display.trim.parts '.' = path.segments.map displaySegment := by
    have htrim : path.display.trim = path.display := by
      apply Text.trim_join
      intro text htext
      obtain ⟨segment, hsegment, rfl⟩ := List.mem_map.mp htext
      exact ⟨(h segment hsegment).displaySegment_ne_nil, (h segment hsegment).trim_displaySegment⟩
    rw [htrim, Text.parts_eq_iff]
    refine ⟨by simpa using hne, rfl, ?_⟩
    intro text htext
    obtain ⟨segment, hsegment, rfl⟩ := List.mem_map.mp htext
    exact (h segment hsegment).dot_not_mem_displaySegment
  rw [read_eq_ok_iff, parse_eq_ok_iff, hparts, List.forall₂_map_left_iff, List.forall₂_same]
  exact fun segment hsegment => (h segment hsegment).spells

/-- The written form of a path that was read is read as the same path, so that it is written in the
same way again, and a path read from any other expression has the same written form only if it is
the same path.  The indices are numbers of a word. -/
theorem display_is_canonical {expression : Text} {path : FieldPath}
    (h : FieldPath.read expression = .ok path) :
    FieldPath.read path.display = .ok path ∧
    (∀ again, FieldPath.read path.display = .ok again → again.display = path.display) ∧
    (∀ other found, FieldPath.read other = .ok found →
      (found.display = path.display ↔ found = path)) ∧
    ∀ segment ∈ path.segments, ∀ index, segment.index = some index → index < wordBound := by
  obtain ⟨hne, hwritable⟩ := isWritable_of_read h
  have hback := read_display_of_isWritable hne hwritable
  refine ⟨hback, ?_, ?_, fun segment hsegment => (hwritable segment hsegment).index_lt⟩
  · intro again hagain
    rw [hback, Except.ok.injEq] at hagain
    rw [hagain]
  · intro other found hfound
    obtain ⟨hne', hwritable'⟩ := isWritable_of_read hfound
    constructor
    · intro hdisplay
      have hagain := read_display_of_isWritable hne' hwritable'
      rw [hdisplay, hback, Except.ok.injEq] at hagain
      exact hagain.symm
    · rintro rfl
      rfl

/-- Blanks around and in a path, a plus sign, zeros before an index and a bracket in a name. -/
theorem display_is_canonical_spaced :
    FieldPath.read " a][ +007 ]. b c ".toList =
      .ok ⟨[⟨"a]".toList, some 7⟩, ⟨"b c".toList, none⟩]⟩ ∧
    FieldPath.read "a][7].b c".toList = .ok ⟨[⟨"a]".toList, some 7⟩, ⟨"b c".toList, none⟩]⟩ := by
  have hread : FieldPath.read " a][ +007 ]. b c ".toList =
      .ok ⟨[⟨"a]".toList, some 7⟩, ⟨"b c".toList, none⟩]⟩ := by decide +kernel
  have hseven : Text.ofNat 7 = ['7'] := ofNat_of_lt (by decide)
  have hdisplay : display ⟨[⟨"a]".toList, some 7⟩, ⟨"b c".toList, none⟩]⟩ = "a][7].b c".toList := by
    simp only [display, List.map_cons, displaySegment, hseven]
    rfl
  rw [← hdisplay]
  exact ⟨hread, (display_is_canonical hread).1⟩

end FieldPath
end CommandTemplate
