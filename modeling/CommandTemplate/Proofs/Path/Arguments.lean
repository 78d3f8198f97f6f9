import CommandTemplate.Path.Argument
import CommandTemplate.Proofs.Path.Display

/-!
# Path arguments in writing

A path argument is a form, a colon and a path expression.  The form has no colon in it, so that the
first one of the argument ends it, and colons behind belong to field names.  Six forms are spelled by
their names alone, and two also with an index behind an `@`.  What is written for a form and a path
is read as this form and this path.
-/

namespace CommandTemplate

/-- A text that is an index: a numeral below the bound of a word, with or without a `+` before it. -/
def IsWordNumeral (text : Text) (index : Nat) : Prop :=
  ∃ digits, (text = digits ∨ text = '+' :: digits) ∧ IsNumeral digits ∧
    numeral 10 digits = index ∧ index < wordBound

theorem isWordNumeral_ofNat {index : Nat} (h : index < wordBound) :
    IsWordNumeral (Text.ofNat index) index :=
  ⟨Text.ofNat index, Or.inl rfl, isNumeral_ofNat index, numeral_ofNat index, h⟩

theorem readNatural_word_eq_ok_iff {text : Text} {index : Nat} :
    readNatural wordBound text = .ok index ↔ IsWordNumeral text index :=
  readNatural_eq_ok_iff (by decide)

theorem IsWordNumeral.not_mem {text : Text} {index : Nat} (h : IsWordNumeral text index) {c : Char}
    (hdigit : isDigit c = false) (hplus : c ≠ '+') : c ∉ text := by
  obtain ⟨digits, htext, ⟨-, hdigits⟩, -⟩ := h
  have hnot : c ∉ digits := by
    intro hmem
    rw [hdigits c hmem] at hdigit
    cases hdigit
  rcases htext with rfl | rfl
  · exact hnot
  · rw [List.mem_cons, not_or]
    exact ⟨hplus, hnot⟩

/-! ## Forms -/

namespace PathForm

/-- What spells a form in an argument. -/
inductive Spells : Text → PathForm → Prop
  | property : Spells "property".toList .property
  | dotted : Spells "path".toList .dotted
  | filtered : Spells "filtered".toList .filtered
  | filteredAt {digits : Text} {index : Nat} :
      IsWordNumeral digits index → Spells ("filtered".toList ++ '@' :: digits) (.filteredAt index)
  | all : Spells "all".toList .all
  | first : Spells "first".toList .first
  | elements : Spells "elements".toList .elements
  | elementsAt {digits : Text} {index : Nat} :
      IsWordNumeral digits index → Spells ("elements".toList ++ '@' :: digits) (.elementsAt index)

variable {text name : Text} {form : PathForm} {index : Nat}

theorem spells_of_named? (h : named? text = some form) : Spells text form := by
  have hname : form.name = text := by simpa using List.find?_some h
  have hmem := List.mem_of_find?_eq_some h
  simp only [List.mem_cons, List.not_mem_nil, or_false] at hmem
  rw [← hname]
  rcases hmem with rfl | rfl | rfl | rfl | rfl | rfl
  · exact .property
  · exact .dotted
  · exact .filtered
  · exact .all
  · exact .first
  · exact .elements

theorem spells_of_namedAt? (h : namedAt? name index = some form) {digits : Text}
    (hdigits : IsWordNumeral digits index) : Spells (name ++ '@' :: digits) form := by
  have hname : form.name = name := by simpa using List.find?_some h
  have hmem := List.mem_of_find?_eq_some h
  simp only [List.mem_cons, List.not_mem_nil, or_false] at hmem
  rw [← hname]
  rcases hmem with rfl | rfl
  · exact .filteredAt hdigits
  · exact .elementsAt hdigits

theorem parse_of_not_mem (hmark : '@' ∉ text) (h : named? text = some form) :
    parse text = .ok form := by
  rw [parse, Text.cut?_eq_none_iff.mpr hmark]
  simp [h]

theorem parse_indexed (hmark : '@' ∉ name) {digits : Text} (hdigits : IsWordNumeral digits index)
    (h : namedAt? name index = some form) : parse (name ++ '@' :: digits) = .ok form := by
  rw [parse, Text.cut?_append_cons hmark]
  simp [readNatural_word_eq_ok_iff.mpr hdigits, h]

/-- A form is read from its spellings and from no other text. -/
theorem parse_eq_ok_iff : parse text = .ok form ↔ Spells text form := by
  constructor
  · intro h
    rw [parse] at h
    split at h
    · split at h
      · rename_i found hfound
        obtain rfl := Except.ok.inj h
        exact spells_of_named? hfound
      · cases h
    · rename_i name digits hcut
      obtain ⟨rfl, -⟩ := Text.cut?_eq_some_iff.mp hcut
      split at h
      · cases h
      · rename_i index hindex
        split at h
        · rename_i found hfound
          obtain rfl := Except.ok.inj h
          exact spells_of_namedAt? hfound (readNatural_word_eq_ok_iff.mp hindex)
        · cases h
  · intro h
    cases h with
    | property => exact parse_of_not_mem (by decide) rfl
    | dotted => exact parse_of_not_mem (by decide) rfl
    | filtered => exact parse_of_not_mem (by decide) rfl
    | filteredAt hdigits => exact parse_indexed (by decide) hdigits rfl
    | all => exact parse_of_not_mem (by decide) rfl
    | first => exact parse_of_not_mem (by decide) rfl
    | elements => exact parse_of_not_mem (by decide) rfl
    | elementsAt hdigits => exact parse_indexed (by decide) hdigits rfl

theorem Spells.colon_not_mem (h : Spells text form) : ':' ∉ text := by
  have hindexed {name digits : Text} {index : Nat} (hname : ':' ∉ name)
      (hdigits : IsWordNumeral digits index) : ':' ∉ name ++ '@' :: digits := by
    have hcolon := hdigits.not_mem (c := ':') (by decide) (by decide)
    simp [hname, hcolon]
  cases h with
  | filteredAt hdigits => exact hindexed (by decide) hdigits
  | elementsAt hdigits => exact hindexed (by decide) hdigits
  | _ => decide

theorem spells_display (h : ∀ index, form.index? = some index → index < wordBound) :
    Spells form.display form := by
  cases form with
  | property => exact .property
  | dotted => exact .dotted
  | filtered => exact .filtered
  | filteredAt index => exact .filteredAt (isWordNumeral_ofNat (h index rfl))
  | all => exact .all
  | first => exact .first
  | elements => exact .elements
  | elementsAt index => exact .elementsAt (isWordNumeral_ofNat (h index rfl))

end PathForm

/-! ## Arguments -/

namespace PathArgument

variable {argument : Text} {found : PathArgument}

theorem parse_append_cons {form expression : Text} (hcolon : ':' ∉ form)
    (hform : PathForm.parse form = .ok found.form)
    (hpath : FieldPath.parse expression = .ok found.path) :
    parse (form ++ ':' :: expression) = .ok found := by
  rw [parse, Text.cut?_append_cons hcolon]
  simp [hform, hpath]

theorem parse_eq_ok_iff :
    parse argument = .ok found ↔
      ∃ form expression, argument = form ++ ':' :: expression ∧ ':' ∉ form ∧
        PathForm.Spells form found.form ∧ FieldPath.parse expression = .ok found.path := by
  constructor
  · intro h
    rw [parse] at h
    split at h
    · cases h
    · rename_i form expression hcut
      obtain ⟨rfl, hcolon⟩ := Text.cut?_eq_some_iff.mp hcut
      split at h
      · cases h
      · rename_i found hform
        split at h
        · cases h
        · rename_i path hpath
          obtain rfl := Except.ok.inj h
          exact ⟨form, expression, rfl, hcolon, PathForm.parse_eq_ok_iff.mp hform, hpath⟩
  · rintro ⟨form, expression, rfl, hcolon, hspells, hpath⟩
    exact parse_append_cons hcolon (PathForm.parse_eq_ok_iff.mpr hspells) hpath

/-- The written argument of a form and a path is read as this form and this path. -/
theorem parse_display {form : PathForm} {path : FieldPath}
    (hindex : ∀ index, form.index? = some index → index < wordBound)
    (hpath : FieldPath.parse path.display = .ok path) :
    parse (display ⟨form, path⟩) = .ok ⟨form, path⟩ := by
  have hspells := PathForm.spells_display hindex
  exact parse_append_cons hspells.colon_not_mem (PathForm.parse_eq_ok_iff.mpr hspells) hpath

/-- An argument is read exactly if what stands before its first colon spells a form and what stands
behind it is a path expression, and it is read as these two.  Every form whose index is a number of a
word is read back from what is written for it, with every path that was read. -/
theorem reads_forms_and_paths :
    (∀ argument found, parse argument = .ok found ↔
      ∃ form expression, argument = form ++ ':' :: expression ∧ ':' ∉ form ∧
        PathForm.Spells form found.form ∧ FieldPath.parse expression = .ok found.path) ∧
      ∀ (form : PathForm) (expression : Text) (path : FieldPath),
        (∀ index, form.index? = some index → index < wordBound) →
          FieldPath.parse expression = .ok path →
            parse (form.display ++ ':' :: path.display) = .ok ⟨form, path⟩ := by
  refine ⟨fun _ _ => parse_eq_ok_iff, fun form expression path hindex hpath => ?_⟩
  obtain ⟨hne, hwritable⟩ := FieldPath.isWritable_of_read (FieldPath.read_eq_ok_iff.mpr hpath)
  have hback := FieldPath.read_display_of_isWritable hne hwritable
  exact parse_display hindex (FieldPath.read_eq_ok_iff.mp hback)

/-- A path whose name has the marks of an argument in it. -/
theorem reads_forms_and_paths_marked :
    FieldPath.parse " a:b@1[ +2 ]".toList = .ok ⟨[⟨"a:b@1".toList, some 2⟩]⟩ ∧
      parse "filtered@7:a:b@1[2]".toList =
        .ok ⟨.filteredAt 7, ⟨[⟨"a:b@1".toList, some 2⟩]⟩⟩ := by
  have hpath : FieldPath.parse " a:b@1[ +2 ]".toList = .ok ⟨[⟨"a:b@1".toList, some 2⟩]⟩ := by
    decide +kernel
  have hindex : ∀ index, (PathForm.filteredAt 7).index? = some index → index < wordBound := by
    rintro index ⟨rfl⟩
    decide
  have htwo : Text.ofNat 2 = ['2'] := ofNat_of_lt (by decide)
  have hseven : Text.ofNat 7 = ['7'] := ofNat_of_lt (by decide)
  have hform : (PathForm.filteredAt 7).display = "filtered@7".toList := by
    simp only [PathForm.display, PathForm.index?, hseven]
    rfl
  have hdisplay : FieldPath.display ⟨[⟨"a:b@1".toList, some 2⟩]⟩ = "a:b@1[2]".toList := by
    simp only [FieldPath.display, List.map_cons, FieldPath.displaySegment, htwo]
    rfl
  have hback := reads_forms_and_paths.2 (.filteredAt 7) " a:b@1[ +2 ]".toList _ hindex hpath
  rw [hform, hdisplay] at hback
  exact ⟨hpath, hback⟩

end PathArgument
end CommandTemplate
