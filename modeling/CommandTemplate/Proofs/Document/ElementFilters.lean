import CommandTemplate.Proofs.Document.FilterWalk
import CommandTemplate.Proofs.Path.Positional

/-!
# Filters of elements

An update names the elements it changes by an operator in a path, and a filter says which elements
these are by keys that begin with the identifier in the operator.  A filter made of element forms,
alone or below operators, binds the identifiers of the indices of these forms, so it binds the
identifier of an update exactly if it has an element form of the same index.
-/

namespace CommandTemplate

mutual

/-- A document whose keys are element forms with any values and operators over such documents, and
the indices of the element forms in their order. -/
inductive IsElementFilter : Document → List Nat → Prop
  | nil : IsElementFilter [] []
  | element {document : Document} {indices : List Nat} (path : FieldPath) (index : Nat)
      (value : Value) : IsElementFilter document indices →
        IsElementFilter ((path.render (.elementsAt index), value) :: document) (index :: indices)
  | operator {key : Text} {value : Value} {document : Document} {below indices : List Nat} :
      isOperator key = true → IsElementOperand value below → IsElementFilter document indices →
        IsElementFilter ((key, value) :: document) (below ++ indices)

/-- What stands below an operator: a document of element forms, or an array of such documents. -/
inductive IsElementOperand : Value → List Nat → Prop
  | document {document : Document} {indices : List Nat} :
      IsElementFilter document indices → IsElementOperand (.object document) indices
  | nil : IsElementOperand (.array []) []
  | cons {document : Document} {items : List Value} {first others : List Nat} :
      IsElementFilter document first → IsElementOperand (.array items) others →
        IsElementOperand (.array (.object document :: items)) (first ++ others)

end

/-! ## Keys -/

/-- An element form begins with the identifier of its index. -/
theorem keyIdentifier_elementsAt (path : FieldPath) (index : Nat) :
    keyIdentifier (path.render (.elementsAt index)) = indexIdentifier index :=
  keyIdentifier_append (FieldPath.dot_not_mem_indexIdentifier index) _

theorem isOperator_elementsAt (path : FieldPath) (index : Nat) :
    isOperator (path.render (.elementsAt index)) = false := by
  obtain ⟨hne, hletters⟩ := isIdentifier_indexIdentifier index
  obtain ⟨c, rest, hword⟩ := List.exists_cons_of_ne_nil hne
  have hletter := (hletters c (by simp [hword])).1
  have hdollar : c ≠ '$' := by
    rintro rfl
    exact absurd hletter (by decide)
  simp [FieldPath.render, isOperator, hword, hdollar]

/-! ## Filters -/

mutual

/-- The walk through a filter of elements meets the identifiers of its indices. -/
theorem IsElementFilter.walk_eq {document : Document} {indices : List Nat}
    (h : IsElementFilter document indices) :
    Value.walkFields document = indices.map indexIdentifier := by
  cases h with
  | nil => rfl
  | element path index value hdocument =>
      rw [Value.walkFields, if_neg (by simp [isOperator_elementsAt]), keyIdentifier_elementsAt,
        hdocument.walk_eq, List.map_cons]
  | operator hkey hvalue hdocument =>
      rw [Value.walkFields, if_pos hkey, hvalue.walk_eq, hdocument.walk_eq, List.map_append]

theorem IsElementOperand.walk_eq {value : Value} {indices : List Nat}
    (h : IsElementOperand value indices) : value.walk = indices.map indexIdentifier := by
  cases h with
  | document hdocument => exact hdocument.walk_eq
  | nil => rfl
  | cons hdocument hitems =>
      have hothers := hitems.walk_eq
      rw [Value.walk] at hothers
      rw [Value.walk, Value.walkItems, hdocument.walk_eq, hothers, List.map_append]

end

theorem mem_identifiers_iff {document : Document} {indices : List Nat}
    (h : IsElementFilter document indices) (index : Nat) :
    indexIdentifier index ∈ document.identifiers ↔ index ∈ indices := by
  rw [Document.identifiers_eq, h.walk_eq, List.mem_eraseDups, List.mem_map]
  constructor
  · rintro ⟨other, hother, hindex⟩
    rwa [← indexIdentifier_inj.mp hindex]
  · exact fun hmem => ⟨index, hmem, rfl⟩

/-- The operators in the form of an indexed path with a given index all name the identifier of this
index, and a filter of elements binds the identifiers of its indices, each at its first place.  So
the filter binds the identifier that the path names exactly if one of its keys has the index. -/
theorem filters_bind_named_identifiers {expression : Text} {path : FieldPath} {document : Document}
    {indices : List Nat} (hread : FieldPath.read expression = .ok path)
    (hindexed : path.hasIndex = true) (hnames : FieldPath.HasPlainNames path.segments)
    (hfilter : IsElementFilter document indices) :
    document.identifiers = (indices.map indexIdentifier).eraseDups ∧
    ∀ index,
      (∀ component, component ∈ (path.render (.filteredAt index)).parts '.' ∧
        isOperator component = true ↔ component = '$' :: '[' :: (indexIdentifier index ++ [']'])) ∧
      (indexIdentifier index ∈ document.identifiers ↔ index ∈ indices) := by
  constructor
  · rw [Document.identifiers_eq, hfilter.walk_eq]
  · intro index
    constructor
    · intro component
      exact FieldPath.mem_parts_filteredAt_iff hread hindexed hnames index
    · exact mem_identifiers_iff hfilter index

/-- A filter with element forms of its own and in the documents below operators. -/
def nestedFilter : Document :=
  [("a.Name".toList, .string "Eckhart".toList),
    ("$or".toList, .array [.object [("b.Age".toList, .int 40)],
      .object [("a.Age".toList, .int 1), ("$not".toList, .object [])]])]

/-- The same index in two element forms, one of them below an operator. -/
theorem filters_bind_named_identifiers_nested :
    ∃ path, FieldPath.read "Authors[2].Name".toList = .ok path ∧
      IsElementFilter nestedFilter [0, 1, 0] ∧
      nestedFilter.identifiers = ([0, 1, 0].map indexIdentifier).eraseDups ∧
      (∀ component, component ∈ (path.render (.filteredAt 1)).parts '.' ∧
        isOperator component = true ↔ component = '$' :: '[' :: (indexIdentifier 1 ++ [']'])) ∧
      (indexIdentifier 1 ∈ nestedFilter.identifiers ↔ 1 ∈ [0, 1, 0]) := by
  have hread : FieldPath.read "Authors[2].Name".toList =
      .ok ⟨[⟨"Authors".toList, some 2⟩, ⟨"Name".toList, none⟩]⟩ := by decide +kernel
  have hnames : FieldPath.HasPlainNames [⟨"Authors".toList, some 2⟩, ⟨"Name".toList, none⟩] := by
    simp [FieldPath.HasPlainNames, isOperator]
  have hkey (name : Text) {index : Nat} (hindex : index < 26) :
      (FieldPath.single name).render (.elementsAt index) = letter index :: '.' :: name := by
    rw [FieldPath.render, indexIdentifier_of_lt hindex]
    simp [FieldPath.dotted, FieldPath.single, FieldPath.joinDots, Text.join_singleton]
  have hnot := IsElementFilter.operator (rfl : isOperator "$not".toList = true)
    (.document .nil) .nil
  have hfirst := IsElementFilter.element (.single "Age".toList) 1 (.int 40) .nil
  have hsecond := IsElementFilter.element (.single "Age".toList) 0 (.int 1) hnot
  have hor := IsElementFilter.operator (rfl : isOperator "$or".toList = true)
    (.cons hfirst (.cons hsecond .nil)) .nil
  have hfilter : IsElementFilter nestedFilter [0, 1, 0] := by
    have hwhole := IsElementFilter.element (.single "Name".toList) 0 (.string "Eckhart".toList) hor
    rwa [hkey _ (by decide), hkey _ (by decide), hkey _ (by decide)] at hwhole
  have hbound := filters_bind_named_identifiers hread (by decide) hnames hfilter
  exact ⟨_, hread, hfilter, hbound.1, hbound.2 1⟩

end CommandTemplate
