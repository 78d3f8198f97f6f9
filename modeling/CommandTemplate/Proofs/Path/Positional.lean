import CommandTemplate.Document.Collection
import CommandTemplate.Proofs.Path.Display
import CommandTemplate.Proofs.Path.Identifiers

/-!
# Positional forms

A positional form has the fields of a path in order, and behind each indexed field one operator.
Names that do not look like operators can be told from these, so the form cut at its dots gives back
the fields and the places of the indices; with the identifiers of the indices in the operators it
gives back the indices too.  Below the last index stands what the element form keeps.
-/

namespace CommandTemplate

/-- Whether a form puts an operator behind each indexed field. -/
def PathForm.IsPositional : PathForm → Prop
  | .filtered | .filteredAt _ | .all | .first => True
  | _ => False

namespace FieldPath

/-- No name of a field begins with `$`, as operators do. -/
def HasPlainNames (segments : List Segment) : Prop :=
  ∀ segment ∈ segments, isOperator segment.name = false

/-- The components are the fields in order, with one operator behind each indexed field and no
operator anywhere else. -/
inductive OperatorsFollow : List Segment → List Text → Prop
  | nil : OperatorsFollow [] []
  | plain {name : Text} {segments : List Segment} {others : List Text} :
      OperatorsFollow segments others → OperatorsFollow (⟨name, none⟩ :: segments) (name :: others)
  | indexed {name operator : Text} {index : Nat} {segments : List Segment} {others : List Text} :
      isOperator operator = true → OperatorsFollow segments others →
        OperatorsFollow (⟨name, some index⟩ :: segments) (name :: operator :: others)

/-- What a positional form writes for an index is a component of its own, and an operator. -/
def WritesOperators (operator : Nat → Text) : Prop :=
  ∀ index, isOperator (operator index) = true ∧ '.' ∉ operator index

variable {operator : Nat → Text} {segments others : List Segment} {path : FieldPath}

/-! ## Operators -/

theorem dot_not_mem_indexIdentifier (index : Nat) : '.' ∉ indexIdentifier index := by
  intro hmem
  have hrange := (isIdentifier_indexIdentifier index).2 '.' hmem
  exact absurd hrange.1 (by decide)

theorem writesOperators_filterOperator : WritesOperators filterOperator := by
  intro index
  refine ⟨rfl, ?_⟩
  simp [filterOperator, dot_not_mem_indexIdentifier]

theorem filterOperator_inj {index other : Nat} :
    filterOperator index = filterOperator other ↔ index = other := by
  simp [filterOperator]

/-- A positional form is the path with operators between its fields. -/
theorem exists_render_eq_positional {form : PathForm} (h : form.IsPositional) :
    ∃ operator, WritesOperators operator ∧
      ∀ path : FieldPath, path.render form = path.positional operator := by
  cases form with
  | filtered => exact ⟨_, writesOperators_filterOperator, fun _ => rfl⟩
  | filteredAt index => exact ⟨_, fun _ => writesOperators_filterOperator index, fun _ => rfl⟩
  | all => exact ⟨_, fun _ => ⟨rfl, by decide⟩, fun _ => rfl⟩
  | first => exact ⟨_, fun _ => ⟨rfl, by decide⟩, fun _ => rfl⟩
  | property => exact h.elim
  | dotted => exact h.elim
  | elements => exact h.elim
  | elementsAt index => exact h.elim

/-! ## Components -/

theorem mem_components_iff {component : Text} :
    component ∈ segments.flatMap (components operator) ↔
      ∃ segment ∈ segments, component = segment.name ∨
        ∃ index, segment.index = some index ∧ component = operator index := by
  rw [List.mem_flatMap]
  refine exists_congr fun segment => and_congr_right fun _ => ?_
  cases hindex : segment.index with
  | none => simp [components, hindex]
  | some index => simp [components, hindex]

theorem components_ne_nil (h : segments ≠ []) : segments.flatMap (components operator) ≠ [] := by
  obtain ⟨⟨name, index⟩, others, rfl⟩ := List.exists_cons_of_ne_nil h
  cases index <;> simp [components]

theorem head?_components :
    (segments.flatMap (components operator)).head? = segments.head?.map Segment.name := by
  cases segments with
  | nil => rfl
  | cons segment others =>
      obtain ⟨name, index⟩ := segment
      cases index <;> rfl

theorem components_of_index_eq_none (h : ∀ segment ∈ segments, segment.index = none) :
    segments.flatMap (components operator) = segments.map Segment.name := by
  induction segments with
  | nil => rfl
  | cons segment others ih =>
      rw [List.forall_mem_cons] at h
      rw [List.flatMap_cons, ih h.2, components, h.1]
      rfl

/-- The form of a path that was read, cut at its dots, has the components that were joined. -/
theorem parts_positional {expression : Text} (hread : FieldPath.read expression = .ok path)
    (hoperator : WritesOperators operator) :
    (path.positional operator).parts '.' = path.segments.flatMap (components operator) := by
  obtain ⟨hne, hwritable⟩ := isWritable_of_read hread
  rw [Text.parts_eq_iff]
  refine ⟨components_ne_nil hne, rfl, ?_⟩
  intro component hcomponent
  obtain ⟨segment, hsegment, rfl | ⟨index, -, rfl⟩⟩ := mem_components_iff.mp hcomponent
  · exact (hwritable segment hsegment).dot_not_mem
  · exact (hoperator index).2

theorem parts_dotted {expression : Text} (hread : FieldPath.read expression = .ok path) :
    path.dotted.parts '.' = path.segments.map Segment.name := by
  obtain ⟨hne, hwritable⟩ := isWritable_of_read hread
  rw [Text.parts_eq_iff]
  refine ⟨by simpa using hne, rfl, ?_⟩
  intro component hcomponent
  obtain ⟨segment, hsegment, rfl⟩ := List.mem_map.mp hcomponent
  exact (hwritable segment hsegment).dot_not_mem

theorem operatorsFollow_components (hoperator : WritesOperators operator)
    (segments : List Segment) :
    OperatorsFollow segments (segments.flatMap (components operator)) := by
  induction segments with
  | nil => exact .nil
  | cons segment others ih =>
      obtain ⟨name, index⟩ := segment
      cases index with
      | none => exact .plain ih
      | some index => exact .indexed (hoperator index).1 ih

/-- Without its operators, a positional form has the names of the fields. -/
theorem OperatorsFollow.filter_eq {components : List Text} (h : OperatorsFollow segments components)
    (hnames : HasPlainNames segments) :
    components.filter (fun component => !isOperator component) = segments.map Segment.name := by
  induction h with
  | nil => rfl
  | plain _ ih =>
      obtain ⟨hname, hothers⟩ := List.forall_mem_cons.mp hnames
      simp [hname, ih hothers]
  | indexed hoperator _ ih =>
      obtain ⟨hname, hothers⟩ := List.forall_mem_cons.mp hnames
      simp [hname, hoperator, ih hothers]

/-- An operator never stands where the name of the next field does. -/
theorem components_ne_operator_cons (hoperator : WritesOperators operator)
    (hsegments : HasPlainNames segments) (index : Nat) (rest : List Text) :
    segments.flatMap (components operator) ≠ operator index :: rest := by
  intro heq
  have hhead : segments.head?.map Segment.name = some (operator index) := by
    rw [← head?_components, heq, List.head?_cons]
  obtain ⟨segment, hsegment, hname⟩ := Option.map_eq_some_iff.mp hhead
  have hplain := hsegments segment (List.mem_of_head? hsegment)
  rw [hname, (hoperator index).1] at hplain
  cases hplain

/-- If different indices have different operators, the components tell the segments. -/
theorem eq_of_components_eq (hoperator : WritesOperators operator)
    (hinj : ∀ index other, operator index = operator other → index = other)
    (hsegments : HasPlainNames segments) (hothers : HasPlainNames others)
    (h : segments.flatMap (components operator) = others.flatMap (components operator)) :
    segments = others := by
  induction segments generalizing others with
  | nil =>
      by_contra hne
      exact components_ne_nil (Ne.symm hne) h.symm
  | cons segment segments ih =>
      cases others with
      | nil => exact absurd h (components_ne_nil (by simp))
      | cons other others =>
          obtain ⟨name, index⟩ := segment
          obtain ⟨name', index'⟩ := other
          have hrest := (List.forall_mem_cons.mp hsegments).2
          have hrest' := (List.forall_mem_cons.mp hothers).2
          cases index with
          | none =>
              cases index' with
              | none =>
                  obtain ⟨rfl, htail⟩ := List.cons.inj h
                  rw [ih hrest hrest' htail]
              | some index' =>
                  have htail := (List.cons.inj h).2
                  exact absurd htail (components_ne_operator_cons hoperator hrest _ _)
          | some index =>
              cases index' with
              | none =>
                  have htail := (List.cons.inj h).2.symm
                  exact absurd htail (components_ne_operator_cons hoperator hrest' _ _)
              | some index' =>
                  obtain ⟨rfl, htail⟩ := List.cons.inj h
                  obtain ⟨hindex, htail⟩ := List.cons.inj htail
                  rw [hinj _ _ hindex, ih hrest hrest' htail]

/-! ## Below the last index -/

theorem index_eq_none_of_mem_belowLastIndex {segment : Segment}
    (h : segment ∈ belowLastIndex segments) : segment.index = none := by
  rw [belowLastIndex, ← List.rtakeWhile] at h
  have hplain := List.mem_rtakeWhile_imp h
  exact Option.isNone_iff_eq_none.mp hplain

/-- An indexed path has a last indexed field, and the others stand behind it. -/
theorem exists_eq_append_belowLastIndex (h : path.hasIndex = true) :
    ∃ front name index,
      path.segments = front ++ ⟨name, some index⟩ :: belowLastIndex path.segments := by
  let isPlain : Segment → Bool := fun segment => segment.index.isNone
  have hne : path.segments.rdropWhile isPlain ≠ [] := by
    intro hnil
    obtain ⟨segment, hsegment, hindex⟩ := List.any_eq_true.mp h
    have hplain := List.rdropWhile_eq_nil_iff.mp hnil segment hsegment
    rw [Option.isNone_iff_eq_none.mp hplain] at hindex
    cases hindex
  have hlast := List.rdropWhile_last_not isPlain path.segments hne
  obtain ⟨index, hindex⟩ := Option.ne_none_iff_exists'.mp fun hnone =>
    hlast (Option.isNone_iff_eq_none.mpr hnone)
  refine ⟨(path.segments.rdropWhile isPlain).dropLast,
    ((path.segments.rdropWhile isPlain).getLast hne).name, index, ?_⟩
  calc
    path.segments = path.segments.rdropWhile isPlain ++ belowLastIndex path.segments :=
      (List.rdropWhile_append_rtakeWhile).symm
    _ = _ := by
      rw [← hindex, List.append_cons, List.dropLast_append_getLast hne]

/-- What stands below the last index ends the positional forms, behind an operator. -/
theorem exists_positional_eq_append_elements (hindex : path.hasIndex = true)
    (helements : path.elements ≠ []) (operator : Nat → Text) :
    ∃ front index,
      path.positional operator = front ++ '.' :: (operator index ++ '.' :: path.elements) := by
  obtain ⟨front, name, index, hsegments⟩ := exists_eq_append_belowLastIndex hindex
  have hbelow : (belowLastIndex path.segments).map Segment.name ≠ [] := by
    intro hnil
    rw [elements, hnil] at helements
    exact helements rfl
  refine ⟨joinDots (front.flatMap (components operator) ++ [name]), index, ?_⟩
  have hcomponents : path.segments.flatMap (components operator) =
      (front.flatMap (components operator) ++ [name]) ++
        ([operator index] ++ (belowLastIndex path.segments).map Segment.name) := by
    have hbelowNames : (belowLastIndex path.segments).flatMap (components operator) =
        (belowLastIndex path.segments).map Segment.name :=
      components_of_index_eq_none fun _ => index_eq_none_of_mem_belowLastIndex
    calc
      path.segments.flatMap (components operator) =
          (front ++ ⟨name, some index⟩ :: belowLastIndex path.segments).flatMap
            (components operator) := by rw [← hsegments]
      _ = _ := by
        rw [List.flatMap_append, List.flatMap_cons, hbelowNames]
        simp [components]
  rw [positional, hcomponents, joinDots, Text.join_append (by simp) (by simp),
    Text.join_append (by simp) hbelow, Text.join_singleton]
  rfl

/-! ## Fields and operators -/

/-- The only operator in a form with one given index is the operator of that index. -/
theorem mem_parts_filteredAt_iff {expression component : Text}
    (hread : FieldPath.read expression = .ok path) (hindexed : path.hasIndex = true)
    (hnames : HasPlainNames path.segments) (index : Nat) :
    component ∈ (path.render (.filteredAt index)).parts '.' ∧ isOperator component = true ↔
      component = filterOperator index := by
  have hoperator : WritesOperators fun _ => filterOperator index := fun _ =>
    writesOperators_filterOperator index
  rw [render, parts_positional hread hoperator, mem_components_iff]
  constructor
  · rintro ⟨⟨segment, hsegment, rfl | ⟨_, -, rfl⟩⟩, hcomponent⟩
    · rw [hnames segment hsegment] at hcomponent
      cases hcomponent
    · rfl
  · rintro rfl
    obtain ⟨segment, hsegment, hindex⟩ := List.any_eq_true.mp hindexed
    obtain ⟨other, hother⟩ := Option.isSome_iff_exists.mp hindex
    exact ⟨⟨segment, hsegment, Or.inr ⟨other, hother, rfl⟩⟩, rfl⟩

/-- Two paths whose names do not look like operators have the same form with identifiers only if
they are the same path.  Of each positional form, the components that are no operators are those of
the dotted form, and an operator stands behind each indexed field and nowhere else; the form ends
with an operator and the element form, if that is not empty. -/
theorem positional_forms_tell_path {expression : Text}
    (hread : FieldPath.read expression = .ok path) (hnames : HasPlainNames path.segments) :
    (∀ other found, FieldPath.read other = .ok found → HasPlainNames found.segments →
      (found.render .filtered = path.render .filtered ↔ found = path)) ∧
    ∀ form : PathForm, form.IsPositional →
      ((path.render form).parts '.').filter (fun component => !isOperator component) =
        path.dotted.parts '.' ∧
      OperatorsFollow path.segments ((path.render form).parts '.') ∧
      (path.hasIndex = true → path.elements ≠ [] → ∃ front operator,
        isOperator operator = true ∧ '.' ∉ operator ∧
          path.render form = front ++ '.' :: (operator ++ '.' :: path.elements)) := by
  constructor
  · intro other found hfound hplain
    constructor
    · intro hforms
      have hparts : (found.positional filterOperator).parts '.' =
          (path.positional filterOperator).parts '.' := congrArg _ hforms
      rw [parts_positional hread writesOperators_filterOperator,
        parts_positional hfound writesOperators_filterOperator] at hparts
      have hsegments := eq_of_components_eq writesOperators_filterOperator
        (fun _ _ => filterOperator_inj.mp) hplain hnames hparts
      cases found
      cases path
      exact congrArg FieldPath.mk hsegments
    · rintro rfl
      rfl
  · intro form hform
    obtain ⟨operator, hoperator, hrender⟩ := exists_render_eq_positional hform
    have hfollow := operatorsFollow_components hoperator path.segments
    rw [hrender path, parts_positional hread hoperator, parts_dotted hread]
    refine ⟨hfollow.filter_eq hnames, hfollow, fun hindex helements => ?_⟩
    obtain ⟨front, index, hform⟩ := exists_positional_eq_append_elements hindex helements operator
    exact ⟨front, operator index, (hoperator index).1, (hoperator index).2, hform⟩

/-- A path with two indices, one below the other. -/
theorem positional_forms_nested :
    ∃ path, FieldPath.read "Books[0].Reviews[1].Score".toList = .ok path ∧
      HasPlainNames path.segments ∧
      ((path.render .filtered).parts '.').filter (fun component => !isOperator component) =
        path.dotted.parts '.' ∧
      ∃ front operator, isOperator operator = true ∧ '.' ∉ operator ∧
        path.render .first = front ++ '.' :: (operator ++ '.' :: path.elements) := by
  have hread : FieldPath.read "Books[0].Reviews[1].Score".toList =
      .ok ⟨[⟨"Books".toList, some 0⟩, ⟨"Reviews".toList, some 1⟩, ⟨"Score".toList, none⟩]⟩ := by
    decide +kernel
  have hnames : HasPlainNames
      [⟨"Books".toList, some 0⟩, ⟨"Reviews".toList, some 1⟩, ⟨"Score".toList, none⟩] := by
    simp [HasPlainNames, isOperator]
  have hforms := (positional_forms_tell_path hread hnames).2
  exact ⟨_, hread, hnames, (hforms .filtered trivial).1,
    (hforms .first trivial).2.2 (by decide) (by decide)⟩

end FieldPath
end CommandTemplate
