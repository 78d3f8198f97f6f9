import CommandTemplate.Proofs.Document.FilterWalk

/-!
# Where a filter binds identifiers

A key stands in a document at a place: the numbers of the fields, and of the items of arrays, on the
way to it.  Places are compared like words in a dictionary, and this is the order of a walk that
goes down before it goes on.  An identifier is bound wherever a plain key that begins with it stands
below operators only.

The identifiers of a filter are those that it binds somewhere, each once and in the order of the
first places that bind them.  What stands below plain keys plays no part in this.
-/

namespace CommandTemplate

/-! ## Places -/

/-- A value holds a document: it is the document, or an array with the document among its items.
In between stands the number of the item, if there is one.  Arrays in arrays are not opened. -/
inductive Value.Holds : Value → List Nat → Document → Prop
  | self (document : Document) : Holds (.object document) [] document
  | item {items : List Value} {index : Nat} {document : Document} :
      items[index]? = some (.object document) → Holds (.array items) [index] document

namespace Document

/-- A key stands at a place in a document, below the given keys.  All keys, operators or not, lead to
the documents that their values hold. -/
inductive StandsAt : Document → List Nat → List Text → Text → Prop
  | field {document : Document} {index : Nat} {key : Text} {value : Value} :
      document[index]? = some (key, value) → StandsAt document [index] [] key
  | under {document inner : Document} {index : Nat} {outer key : Text} {value : Value}
      {steps place : List Nat} {above : List Text} :
      document[index]? = some (outer, value) → value.Holds steps inner →
        StandsAt inner place above key →
        StandsAt document (index :: (steps ++ place)) (outer :: above) key

/-- An identifier is bound at a place: a plain key stands there, below operators only, and the
identifier is what the key has before its first dot. -/
def BindsAt (document : Document) (place : List Nat) (identifier : Text) : Prop :=
  ∃ above key, document.StandsAt place above key ∧ (∀ outer ∈ above, isOperator outer = true) ∧
    isOperator key = false ∧ '.' ∉ identifier ∧
    (key = identifier ∨ ∃ after, key = identifier ++ '.' :: after)

/-- An identifier is bound before another one: at a place that comes before all places where the
other one is bound. -/
def BindsBefore (document : Document) (former latter : Text) : Prop :=
  ∃ place, document.BindsAt place former ∧
    ∀ other, document.BindsAt other latter → List.Lex (· < ·) place other

/-- A list of what a document binds: each identifier once, and in the order in which they are first
bound. -/
structure ListsBound (document : Document) (identifiers : List Text) : Prop where
  nodup : identifiers.Nodup
  mem_iff : ∀ identifier, identifier ∈ identifiers ↔ ∃ place, document.BindsAt place identifier
  pairwise : identifiers.Pairwise document.BindsBefore

variable {document : Document} {identifiers : List Text}

/-- A place begins with the number of a field: of a plain key if it ends there, and else of an
operator that holds a document in which the place goes on. -/
theorem bindsAt_iff {place : List Nat} {identifier : Text} :
    document.BindsAt place identifier ↔
      ∃ index key value, document[index]? = some (key, value) ∧
        ((isOperator key = false ∧ keyIdentifier key = identifier ∧ place = [index]) ∨
          (isOperator key = true ∧ ∃ steps inner rest, value.Holds steps inner ∧
            inner.BindsAt rest identifier ∧ place = index :: (steps ++ rest))) := by
  constructor
  · rintro ⟨above, key, hstands, habove, hplain, hbefore⟩
    cases hstands with
    | field hfield =>
        exact ⟨_, key, _, hfield, .inl ⟨hplain, keyIdentifier_eq_iff.mpr hbefore, rfl⟩⟩
    | under hfield hholds hinner =>
        obtain ⟨houter, habove⟩ := List.forall_mem_cons.mp habove
        have hbinds : BindsAt _ _ identifier := ⟨_, key, hinner, habove, hplain, hbefore⟩
        exact ⟨_, _, _, hfield, .inr ⟨houter, _, _, _, hholds, hbinds, rfl⟩⟩
  · rintro ⟨index, key, value, hfield, ⟨hplain, hbefore, rfl⟩ |
      ⟨houter, steps, inner, rest, hholds, ⟨above, name, hinner, habove, hname⟩, rfl⟩⟩
    · exact ⟨[], key, .field hfield, by simp, hplain, keyIdentifier_eq_iff.mp hbefore⟩
    · exact ⟨key :: above, name, .under hfield hholds hinner,
        List.forall_mem_cons.mpr ⟨houter, habove⟩, hname⟩

theorem BindsBefore.asymm {former latter : Text} (h : document.BindsBefore former latter) :
    ¬ document.BindsBefore latter former := by
  rintro ⟨other, hother, hlast⟩
  obtain ⟨place, hplace, hfirst⟩ := h
  exact List.lex_asymm (fun hlt => Nat.lt_asymm hlt) (hfirst other hother) (hlast place hplace)

/-- There is only one list of what a document binds. -/
theorem ListsBound.unique {others : List Text} (h : document.ListsBound identifiers)
    (hothers : document.ListsBound others) : identifiers = others := by
  have hperm : identifiers.Perm others :=
    (List.perm_ext_iff_of_nodup h.nodup hothers.nodup).mpr fun identifier =>
      (h.mem_iff identifier).trans (hothers.mem_iff identifier).symm
  apply hperm.eq_of_pairwise _ h.pairwise hothers.pairwise
  intro former latter _ _ hbefore hafter
  exact absurd hafter hbefore.asymm

end Document

/-! ## The walk with its places -/

/-- Several lists of identifiers with their places put together: the number of the list is put in
front of the places in it. -/
def numbered (lists : List (List (List Nat × Text))) : List (List Nat × Text) :=
  lists.zipIdx.flatMap fun entry => entry.1.map fun visit => (entry.2 :: visit.1, visit.2)

/-- Identifiers with their places, listed in the order of the places. -/
def InOrder (visits : List (List Nat × Text)) : Prop :=
  visits.Pairwise fun former latter => List.Lex (· < ·) former.1 latter.1

section Numbered

variable {lists : List (List (List Nat × Text))}

theorem mem_numbered_iff {place : List Nat} {identifier : Text} :
    (place, identifier) ∈ numbered lists ↔
      ∃ index visits rest, lists[index]? = some visits ∧ (rest, identifier) ∈ visits ∧
        place = index :: rest := by
  rw [numbered, List.mem_flatMap]
  constructor
  · rintro ⟨⟨visits, index⟩, hentry, hmem⟩
    obtain ⟨⟨rest, name⟩, hvisit, heq⟩ := List.mem_map.mp hmem
    obtain ⟨rfl, rfl⟩ := Prod.mk.inj heq
    exact ⟨index, visits, rest, List.mem_zipIdx_iff_getElem?.mp hentry, hvisit, rfl⟩
  · rintro ⟨index, visits, rest, hentry, hvisit, rfl⟩
    exact ⟨(visits, index), List.mem_zipIdx_iff_getElem?.mpr hentry,
      List.mem_map.mpr ⟨(rest, identifier), hvisit, rfl⟩⟩

theorem map_snd_numbered (lists : List (List (List Nat × Text))) :
    (numbered lists).map Prod.snd = lists.flatten.map Prod.snd := by
  have hlists : lists.zipIdx.flatMap Prod.fst = lists.flatten := by
    rw [List.flatMap_def, List.zipIdx_map_fst]
  rw [numbered, List.map_flatMap, ← hlists, List.map_flatMap]
  simp only [List.map_map, Function.comp_def]

/-- The first numbers keep the lists apart, and the numbers that follow are in order within each. -/
theorem inOrder_numbered (h : ∀ visits ∈ lists, InOrder visits) : InOrder (numbered lists) := by
  rw [InOrder, numbered, List.pairwise_flatMap]
  constructor
  · rintro ⟨visits, index⟩ hentry
    have hvisits := h visits (List.fst_mem_of_mem_zipIdx hentry)
    exact List.pairwise_map.mpr (hvisits.imp List.Lex.cons)
  · have hnumbers : (lists.zipIdx.map Prod.snd).Pairwise (· < ·) := by
      rw [List.zipIdx_map_snd]
      exact List.pairwise_lt_range'
    refine (List.pairwise_map.mp hnumbers).imp ?_
    intro former latter hlt first hfirst second hsecond
    obtain ⟨_, -, rfl⟩ := List.mem_map.mp hfirst
    obtain ⟨_, -, rfl⟩ := List.mem_map.mp hsecond
    exact .rel hlt

end Numbered

namespace Value

mutual

/-- The identifiers below an operator with their places, in the order in which they are met. -/
def visits : Value → List (List Nat × Text)
  | .object fields => numbered (fieldVisits fields)
  | .array items => numbered (itemVisits items)
  | _ => []

/-- The identifiers that are met in each item of an array. -/
def itemVisits : List Value → List (List (List Nat × Text))
  | [] => []
  | .object fields :: items => numbered (fieldVisits fields) :: itemVisits items
  | _ :: items => [] :: itemVisits items

/-- The identifiers that are met in each field of a document. -/
def fieldVisits : List (Text × Value) → List (List (List Nat × Text))
  | [] => []
  | (key, value) :: fields =>
    (if isOperator key then value.visits else [([], keyIdentifier key)]) :: fieldVisits fields

end

mutual

theorem map_snd_visits (value : Value) : value.visits.map Prod.snd = value.walk := by
  cases value with
  | object fields => rw [visits, walk, map_snd_numbered, map_snd_fieldVisits]
  | array items => rw [visits, walk, map_snd_numbered, map_snd_itemVisits]
  | _ => rfl

theorem map_snd_itemVisits (items : List Value) :
    (itemVisits items).flatten.map Prod.snd = walkItems items := by
  cases items with
  | nil => rfl
  | cons item items =>
      cases item with
      | object fields =>
          rw [itemVisits, walkItems, List.flatten_cons, List.map_append, map_snd_numbered,
            map_snd_fieldVisits, map_snd_itemVisits]
      | _ => exact map_snd_itemVisits items

/-- The walk meets these identifiers. -/
theorem map_snd_fieldVisits (fields : List (Text × Value)) :
    (fieldVisits fields).flatten.map Prod.snd = walkFields fields := by
  cases fields with
  | nil => rfl
  | cons field fields =>
      obtain ⟨key, value⟩ := field
      rw [fieldVisits, walkFields, List.flatten_cons, List.map_append, map_snd_fieldVisits]
      split
      · rw [map_snd_visits]
      · rfl

end

mutual

theorem inOrder_visits (value : Value) : InOrder value.visits := by
  cases value with
  | object fields => exact inOrder_numbered (inOrder_fieldVisits fields)
  | array items => exact inOrder_numbered (inOrder_itemVisits items)
  | _ => exact List.Pairwise.nil

theorem inOrder_itemVisits (items : List Value) : ∀ visits ∈ itemVisits items, InOrder visits := by
  cases items with
  | nil => simp [itemVisits]
  | cons item items =>
      have hitems := inOrder_itemVisits items
      cases item with
      | object fields =>
          have hfirst := inOrder_numbered (inOrder_fieldVisits fields)
          exact List.forall_mem_cons.mpr ⟨hfirst, hitems⟩
      | _ => exact List.forall_mem_cons.mpr ⟨List.Pairwise.nil, hitems⟩

/-- The places at which the walk meets identifiers come one after another. -/
theorem inOrder_fieldVisits (fields : List (Text × Value)) :
    ∀ visits ∈ fieldVisits fields, InOrder visits := by
  cases fields with
  | nil => simp [fieldVisits]
  | cons field fields =>
      obtain ⟨key, value⟩ := field
      rw [fieldVisits, List.forall_mem_cons]
      refine ⟨?_, inOrder_fieldVisits fields⟩
      split
      · exact inOrder_visits value
      · exact List.pairwise_singleton _ _

end

theorem fieldVisits_eq_map (fields : List (Text × Value)) :
    fieldVisits fields = fields.map fun field =>
      if isOperator field.1 then field.2.visits else [([], keyIdentifier field.1)] := by
  induction fields with
  | nil => rfl
  | cons field fields ih => rw [fieldVisits, ih, List.map_cons]

theorem itemVisits_eq_map (items : List Value) :
    itemVisits items = items.map fun item =>
      match item with
      | .object fields => numbered (fieldVisits fields)
      | _ => [] := by
  induction items with
  | nil => rfl
  | cons item items ih =>
      rw [List.map_cons, ← ih]
      cases item <;> rfl

end Value

/-- The identifiers in a document with their places, in the order in which they are met. -/
def Document.visits (document : Document) : List (List Nat × Text) :=
  numbered (Value.fieldVisits document)

/-- Below an operator are the identifiers in the documents that its value holds. -/
theorem Value.mem_visits_iff {value : Value} {place : List Nat} {identifier : Text} :
    (place, identifier) ∈ value.visits ↔
      ∃ steps inner rest, value.Holds steps inner ∧ (rest, identifier) ∈ Document.visits inner ∧
        place = steps ++ rest := by
  constructor
  · intro hmem
    cases value with
    | object fields => exact ⟨[], fields, place, .self fields, hmem, rfl⟩
    | array items =>
        obtain ⟨index, visits, rest, hvisits, hrest, rfl⟩ := mem_numbered_iff.mp hmem
        rw [itemVisits_eq_map, List.getElem?_map, Option.map_eq_some_iff] at hvisits
        obtain ⟨item, hitem, rfl⟩ := hvisits
        cases item with
        | object fields => exact ⟨[index], fields, rest, .item hitem, hrest, rfl⟩
        | _ => simp at hrest
    | _ => simp [visits] at hmem
  · rintro ⟨steps, inner, rest, hholds, hrest, rfl⟩
    cases hholds with
    | self => exact hrest
    | item hitem =>
        refine mem_numbered_iff.mpr ⟨_, inner.visits, rest, ?_, hrest, rfl⟩
        rw [itemVisits_eq_map, List.getElem?_map, hitem]
        rfl

namespace Document

variable {document : Document} {place : List Nat}

theorem mem_visits_iff_exists {identifier : Text} :
    (place, identifier) ∈ document.visits ↔
      ∃ index key value, document[index]? = some (key, value) ∧
        ((isOperator key = false ∧ keyIdentifier key = identifier ∧ place = [index]) ∨
          (isOperator key = true ∧ ∃ steps inner rest, value.Holds steps inner ∧
            (rest, identifier) ∈ visits inner ∧ place = index :: (steps ++ rest))) := by
  rw [visits, mem_numbered_iff]
  simp only [Value.fieldVisits_eq_map, List.getElem?_map, Option.map_eq_some_iff]
  constructor
  · rintro ⟨index, _, rest, ⟨⟨key, value⟩, hfield, rfl⟩, hrest, rfl⟩
    refine ⟨index, key, value, hfield, ?_⟩
    cases hkey : isOperator key with
    | false =>
        rw [hkey, if_neg (by simp), List.mem_singleton] at hrest
        obtain ⟨rfl, rfl⟩ := Prod.mk.inj hrest
        exact .inl ⟨rfl, rfl, rfl⟩
    | true =>
        rw [hkey, if_pos rfl, Value.mem_visits_iff] at hrest
        obtain ⟨steps, inner, others, hholds, hothers, rfl⟩ := hrest
        exact .inr ⟨rfl, steps, inner, others, hholds, hothers, rfl⟩
  · rintro ⟨index, key, value, hfield, ⟨hkey, rfl, rfl⟩ |
      ⟨hkey, steps, inner, rest, hholds, hrest, rfl⟩⟩
    · refine ⟨index, _, [], ⟨(key, value), hfield, rfl⟩, ?_, rfl⟩
      simp [hkey]
    · refine ⟨index, _, steps ++ rest, ⟨(key, value), hfield, rfl⟩, ?_, rfl⟩
      rw [if_pos hkey, Value.mem_visits_iff]
      exact ⟨steps, inner, rest, hholds, hrest, rfl⟩

/-- The walk meets what is bound where it is bound. -/
theorem mem_visits_iff {identifier : Text} :
    (place, identifier) ∈ document.visits ↔ document.BindsAt place identifier := by
  -- What is left of the place gets shorter with every document on the way.
  induction hlength : place.length using Nat.strong_induction_on generalizing document place with
  | _ length ih =>
      rw [mem_visits_iff_exists, bindsAt_iff]
      have hinner (index : Nat) (value : Value) (steps : List Nat) (inner : Document)
          (rest : List Nat) :
          value.Holds steps inner ∧ (rest, identifier) ∈ inner.visits ∧
              place = index :: (steps ++ rest) ↔
            value.Holds steps inner ∧ inner.BindsAt rest identifier ∧
              place = index :: (steps ++ rest) := by
        refine and_congr_right fun _ => and_congr_left fun hplace => ih rest.length ?_ rfl
        simp only [← hlength, hplace, List.length_cons, List.length_append]
        omega
      simp only [hinner]

theorem listsBound_identifiers (document : Document) :
    document.ListsBound document.identifiers := by
  have hmet : document.identifiers = (document.visits.map Prod.snd).eraseDups := by
    rw [identifiers_eq, visits, map_snd_numbered, Value.map_snd_fieldVisits]
  have horder : InOrder document.visits := inOrder_numbered (Value.inOrder_fieldVisits document)
  rw [hmet]
  refine ⟨nodup_eraseDups _, ?_, ?_⟩
  · intro identifier
    simp only [List.mem_eraseDups, List.mem_map, Prod.exists, mem_visits_iff, exists_eq_right]
  · refine (pairwise_eraseDups_map horder).imp ?_
    rintro former latter ⟨⟨place, _⟩, hvisit, rfl, hfirst⟩
    refine ⟨place, mem_visits_iff.mp hvisit, ?_⟩
    intro other hother
    exact hfirst (other, latter) (mem_visits_iff.mpr hother) rfl

end Document

/-! ## Below plain keys -/

namespace Value

mutual

/-- A value without what stands below plain keys in it. -/
def bare : Value → Value
  | .object fields => .object (bareFields fields)
  | .array items => .array (bareItems items)
  | value => value

/-- The items of an array without what stands below plain keys in them. -/
def bareItems : List Value → List Value
  | [] => []
  | item :: items => item.bare :: bareItems items

/-- The fields of a document: plain keys are left without a value. -/
def bareFields : List (Text × Value) → List (Text × Value)
  | [] => []
  | (key, value) :: fields =>
    (key, if isOperator key then value.bare else .null) :: bareFields fields

end

theorem bareFields_eq_map (fields : List (Text × Value)) :
    bareFields fields = fields.map fun field =>
      (field.1, if isOperator field.1 then field.2.bare else .null) := by
  induction fields with
  | nil => rfl
  | cons field fields ih => rw [bareFields, ih, List.map_cons]

theorem bareItems_eq_map (items : List Value) : bareItems items = items.map bare := by
  induction items with
  | nil => rfl
  | cons item items ih => rw [bareItems, ih, List.map_cons]

theorem bare_eq_object_iff {value : Value} {inner : Document} :
    value.bare = .object inner ↔
      ∃ document, value = .object document ∧ bareFields document = inner := by
  cases value <;> simp [bare]

theorem holds_bare_iff {value : Value} {steps : List Nat} {inner : Document} :
    value.bare.Holds steps inner ↔
      ∃ document, value.Holds steps document ∧ bareFields document = inner := by
  constructor
  · intro h
    cases value with
    | object document =>
        cases h
        exact ⟨document, .self document, rfl⟩
    | array items =>
        cases h with
        | item hitem =>
            rw [bareItems_eq_map, List.getElem?_map, Option.map_eq_some_iff] at hitem
            obtain ⟨item, hitem, hbare⟩ := hitem
            obtain ⟨document, rfl, hinner⟩ := bare_eq_object_iff.mp hbare
            exact ⟨document, .item hitem, hinner⟩
    | _ => cases h
  · rintro ⟨document, hholds, rfl⟩
    cases hholds with
    | self => exact .self (bareFields document)
    | item hitem =>
        apply Holds.item
        rw [bareItems_eq_map, List.getElem?_map, hitem]
        rfl

end Value

namespace Document

/-- A document without what stands below its plain keys. -/
def bare (document : Document) : Document :=
  Value.bareFields document

variable {document : Document} {place : List Nat} {above : List Text} {key : Text}

theorem getElem?_bare (document : Document) (index : Nat) :
    document.bare[index]? = document[index]?.map fun field =>
      (field.1, if isOperator field.1 then field.2.bare else .null) := by
  rw [bare, Value.bareFields_eq_map, List.getElem?_map]

theorem StandsAt.of_bare (h : document.bare.StandsAt place above key) :
    document.StandsAt place above key ∧ ∀ outer ∈ above, isOperator outer = true := by
  generalize hbare : document.bare = other at h
  induction h generalizing document with
  | field hfield =>
      rw [← hbare, getElem?_bare, Option.map_eq_some_iff] at hfield
      obtain ⟨⟨key, value⟩, hfield, heq⟩ := hfield
      obtain ⟨rfl, -⟩ := Prod.mk.inj heq
      exact ⟨.field hfield, by simp⟩
  | under hfield hholds _ ih =>
      rw [← hbare, getElem?_bare, Option.map_eq_some_iff] at hfield
      obtain ⟨⟨outer, value⟩, hfield, heq⟩ := hfield
      obtain ⟨rfl, rfl⟩ := Prod.mk.inj heq
      cases houter : isOperator outer with
      | false =>
          -- A plain key has lost its value, so that no document is below it.
          rw [houter, if_neg (by simp)] at hholds
          cases hholds
      | true =>
          rw [houter, if_pos rfl, Value.holds_bare_iff] at hholds
          obtain ⟨inner, hholds, hinner⟩ := hholds
          obtain ⟨hstands, habove⟩ := ih hinner
          exact ⟨.under hfield hholds hstands, List.forall_mem_cons.mpr ⟨houter, habove⟩⟩

theorem StandsAt.to_bare (h : document.StandsAt place above key)
    (habove : ∀ outer ∈ above, isOperator outer = true) :
    document.bare.StandsAt place above key := by
  induction h with
  | field hfield =>
      apply StandsAt.field
      rw [getElem?_bare, hfield]
      rfl
  | under hfield hholds _ ih =>
      obtain ⟨houter, habove⟩ := List.forall_mem_cons.mp habove
      refine StandsAt.under ?_ (Value.holds_bare_iff.mpr ⟨_, hholds, rfl⟩) (ih habove)
      rw [getElem?_bare, hfield, Option.map_some, if_pos houter]

theorem bindsAt_bare_iff {identifier : Text} :
    document.bare.BindsAt place identifier ↔ document.BindsAt place identifier := by
  constructor
  · rintro ⟨above, key, hstands, hkey⟩
    exact ⟨above, key, hstands.of_bare.1, hkey⟩
  · rintro ⟨above, key, hstands, habove, hkey⟩
    exact ⟨above, key, hstands.to_bare habove, habove, hkey⟩

theorem ListsBound.of_bare {identifiers : List Text} (h : document.bare.ListsBound identifiers) :
    document.ListsBound identifiers := by
  refine ⟨h.nodup, ?_, h.pairwise.imp ?_⟩
  · intro identifier
    simp only [h.mem_iff, bindsAt_bare_iff]
  · intro former latter hbefore
    simpa only [BindsBefore, bindsAt_bare_iff] using hbefore

/-- The identifiers of a filter are the one list of what it binds, each identifier once and in the
order of first places.  Without what stands below its plain keys, a filter keeps the keys that stand
below operators only, and binds the same identifiers. -/
theorem identifiers_listed_by_place (document : Document) :
    (∀ identifiers, document.ListsBound identifiers ↔ identifiers = document.identifiers) ∧
    (∀ place above key, document.bare.StandsAt place above key ↔
      document.StandsAt place above key ∧ ∀ outer ∈ above, isOperator outer = true) ∧
    document.bare.identifiers = document.identifiers := by
  have hlists := listsBound_identifiers document
  refine ⟨?_, ?_, ?_⟩
  · intro identifiers
    constructor
    · intro h
      exact h.unique hlists
    · rintro rfl
      exact hlists
  · intro place above key
    constructor
    · exact StandsAt.of_bare
    · rintro ⟨hstands, habove⟩
      exact hstands.to_bare habove
  · have hbare := listsBound_identifiers document.bare
    exact hbare.of_bare.unique hlists

/-- An array in an array and the keys below plain keys are not looked through. -/
example : identifiers
    [("a.Name".toList, .string "Eckhart".toList),
      ("$or".toList, .array [.object [("b.Age".toList, .object [("$gt".toList, .int 40)])],
        .array [.object [("c.Age".toList, .int 1)]], .object [("a.Age".toList, .int 1)]]),
      ("d".toList, .object [("$or".toList, .object [("e".toList, .null)])])] =
    ["a".toList, "b".toList, "d".toList] := by decide

end Document

end CommandTemplate
