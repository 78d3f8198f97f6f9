import CommandTemplate.Proofs.Document.Concatenation
import Mathlib.Data.List.Induction

/-!
# The values that readers give

Not every value can be read from a text.  The integers of a value that was read have 64 bits, with or
without a sign, and no object in it has a name twice: of the members with one name, the first gives
the place and the last the value.
-/

namespace CommandTemplate

/-! ## Documents of members -/

namespace Document

variable {document members : Document} {name : Text} {value : Value}

/-- The names of a document in order. -/
def names (document : Document) : List Text :=
  document.map Prod.fst

theorem names_set (name : Text) (value : Value) (document : Document) :
    (document.set name value).names =
      if name ∈ document.names then document.names else document.names ++ [name] := by
  induction document with
  | nil => rfl
  | cons field document ih =>
      obtain ⟨other, old⟩ := field
      rw [set]
      by_cases hother : other = name
      · simp [names, hother]
      · simp only [names, List.map_cons, List.mem_cons, if_neg hother, Ne.symm hother, false_or]
        rw [← names, ih, names]
        split <;> rfl

theorem set_of_not_mem (h : name ∉ document.names) :
    document.set name value = document ++ [(name, value)] := by
  induction document with
  | nil => rfl
  | cons field document ih =>
      obtain ⟨other, old⟩ := field
      rw [names, List.map_cons, List.mem_cons, not_or] at h
      rw [set, if_neg (Ne.symm h.1), ih h.2]
      rfl

theorem mem_of_mem_set {field : Text × Value} (h : field ∈ document.set name value) :
    field = (name, value) ∨ field ∈ document := by
  induction document with
  | nil => exact Or.inl (List.mem_singleton.mp h)
  | cons first document ih =>
      obtain ⟨other, old⟩ := first
      rw [set] at h
      split at h
      · exact (List.mem_cons.mp h).imp_right (List.mem_cons_of_mem _)
      · rcases List.mem_cons.mp h with rfl | hmem
        · exact Or.inr List.mem_cons_self
        · exact (ih hmem).imp_right (List.mem_cons_of_mem _)

/-- The names in a document of members are distinct. -/
theorem nodup_names_ofMembers (members : List (Text × Value)) : (ofMembers members).names.Nodup := by
  induction members using List.reverseRecOn with
  | nil => exact List.nodup_nil
  | append_singleton members member ih =>
      rw [ofMembers, List.foldl_append, ← ofMembers, List.foldl_cons, List.foldl_nil, names_set]
      split
      · exact ih
      · rename_i hnew
        rw [List.nodup_append]
        refine ⟨ih, by simp, ?_⟩
        rintro name hname other hother rfl
        exact hnew (List.mem_singleton.mp hother ▸ hname)

theorem mem_of_mem_ofMembers {field : Text × Value} {members : List (Text × Value)}
    (h : field ∈ ofMembers members) : field ∈ members := by
  induction members using List.reverseRecOn with
  | nil => exact h
  | append_singleton members member ih =>
      rw [ofMembers, List.foldl_append, ← ofMembers, List.foldl_cons, List.foldl_nil] at h
      rcases mem_of_mem_set h with rfl | hmem
      · exact List.mem_append_right _ List.mem_cons_self
      · exact List.mem_append_left _ (ih hmem)

/-- Members with distinct names make up a document as they are. -/
theorem ofMembers_eq_self (h : members.names.Nodup) : ofMembers members = members := by
  induction members using List.reverseRecOn with
  | nil => rfl
  | append_singleton members member ih =>
      rw [names, List.map_append, List.nodup_append] at h
      obtain ⟨hmembers, -, hnew⟩ := h
      rw [ofMembers, List.foldl_append, ← ofMembers, ih hmembers, List.foldl_cons, List.foldl_nil]
      exact set_of_not_mem fun hmem => hnew _ hmem member.1 (List.mem_singleton_self _) rfl

end Document

/-! ## Values that can be read -/

namespace Value

/-- A value that a reader can give: its integers have 64 bits, with or without a sign, and no object
in it has a name twice. -/
inductive IsReadable : Value → Prop
  | null : IsReadable .null
  | bool (b : Bool) : IsReadable (.bool b)
  | int {i : Int} (hlow : -0x8000000000000000 ≤ i) (hhigh : i < wordBound) : IsReadable (.int i)
  | float (x : Binary64) : IsReadable (.float x)
  | string (text : Text) : IsReadable (.string text)
  | array {items : List Value} (hitems : ∀ item ∈ items, item.IsReadable) :
      IsReadable (.array items)
  | object {fields : Document} (hnames : fields.names.Nodup)
      (hfields : ∀ field ∈ fields, field.2.IsReadable) : IsReadable (.object fields)

theorem isReadable_ofMembers {members : List (Text × Value)}
    (h : ∀ member ∈ members, member.2.IsReadable) : (object (Document.ofMembers members)).IsReadable :=
  .object (Document.nodup_names_ofMembers members)
    fun field hfield => h field (Document.mem_of_mem_ofMembers hfield)

theorem isReadable_of_fitsSigned {i : Int} (h : fitsSigned i = true) : (int i).IsReadable := by
  have hbound : wordBound = 0x10000000000000000 := rfl
  rw [fitsSigned, Bool.and_eq_true, decide_eq_true_iff, decide_eq_true_iff] at h
  exact .int (by omega) (by omega)

end Value

/-! ## Numbers of the strict reader -/

namespace JsonNumber

variable {negative : Bool} {significand : Nat} {exponent : Int} {text rest : Text} {value : Value}

theorem gather_lt {taken : Nat} (h : significand < wordBound) :
    (gather significand taken text).1 < wordBound := by
  induction text generalizing significand taken with
  | nil => exact h
  | cons c text ih =>
      rw [gather]
      split
      · exact h
      · split
        · rename_i hfits
          exact ih hfits
        · exact h

theorem isReadable_of_finish (h : finish negative significand exponent text = .ok (value, rest)) :
    value.IsReadable := by
  rw [finish_eq] at h
  split at h
  · obtain ⟨rfl, -⟩ := Prod.mk.inj (Except.ok.inj h)
    exact .float _
  · cases h

theorem isReadable_of_readExponent
    (h : readExponent negative significand exponent text = .ok (value, rest)) :
    value.IsReadable := by
  rw [readExponent] at h
  generalize exponentSign text = signed at h
  rcases signed with ⟨down, _ | ⟨c, signless⟩⟩
  · simp at h
  · dsimp only at h
    split at h
    · split at h
      · exact isReadable_of_finish h
      · split at h
        · cases h
        · obtain ⟨rfl, -⟩ := Prod.mk.inj (Except.ok.inj h)
          exact .float _
    · cases h

theorem isReadable_of_readFraction
    (h : readFraction negative significand exponent text = .ok (value, rest)) :
    value.IsReadable := by
  rw [readFraction] at h
  dsimp only at h
  split at h
  · cases h
  · generalize List.dropWhile isDigit (gather significand 0 text).2.2 = tail at h
    cases tail with
    | nil => exact isReadable_of_finish h
    | cons c tail =>
        rw [readTail_cons] at h
        split at h
        · exact isReadable_of_readExponent h
        · exact isReadable_of_finish h

theorem isReadable_ofInteger (negative : Bool) (h : significand < wordBound) :
    (ofInteger negative significand).IsReadable := by
  have hbound : wordBound = 0x10000000000000000 := rfl
  rw [ofInteger]
  split
  · exact .int (by omega) (by omega)
  · split
    · exact .float _
    · rename_i hfits
      rw [not_or, not_not] at hfits
      exact Value.isReadable_of_fitsSigned hfits.2

theorem isReadable_of_readAfterInteger {dropped : Nat} (hsignificand : significand < wordBound)
    (h : readAfterInteger negative significand dropped text = .ok (value, rest)) :
    value.IsReadable := by
  rw [readAfterInteger.eq_def] at h
  split at h
  · exact isReadable_of_readFraction h
  · exact isReadable_of_readExponent h
  · exact isReadable_of_readExponent h
  · split at h
    · obtain ⟨rfl, -⟩ := Prod.mk.inj (Except.ok.inj h)
      exact isReadable_ofInteger negative hsignificand
    · exact isReadable_of_finish h

theorem isReadable_of_read (h : read text = .ok (value, rest)) : value.IsReadable := by
  have hzero : 0 < wordBound := by decide
  have hunsigned : ∀ {negative text}, readUnsigned negative text = .ok (value, rest) →
      value.IsReadable := by
    intro negative text h
    cases text with
    | nil => simp [readUnsigned] at h
    | cons c text =>
        rw [readUnsigned_cons] at h
        split at h
        · split at h
          · cases h
          · exact isReadable_of_readAfterInteger hzero h
        · split at h
          · have hsignificand : (gather 0 0 (c :: text)).1 < wordBound := gather_lt hzero
            exact isReadable_of_readAfterInteger hsignificand h
          · cases h
  rw [read.eq_def] at h
  split at h
  · exact hunsigned h
  · exact hunsigned h

end JsonNumber

/-! ## Numbers of the relaxed reader -/

namespace Relaxed

variable {text rest : Text} {value : Value}

theorem isReadable_of_readUnsigned? {negative : Bool}
    (h : readUnsigned? negative text = some (value, rest)) : value.IsReadable := by
  rw [readUnsigned?] at h
  split at h
  · rename_i literal _ _
    obtain ⟨found, hfound, heq⟩ := Option.map_eq_some_iff.mp h
    obtain ⟨rfl, -⟩ := Prod.mk.inj heq
    rw [decimalValue?] at hfound
    split at hfound
    · obtain ⟨x, -, rfl⟩ := Option.map_eq_some_iff.mp hfound
      exact .float x
    · dsimp only at hfound
      generalize (if negative then -(literal.digits : Int) else literal.digits) = i at hfound
      split at hfound
      · rename_i hfits
        rw [← Option.some.inj hfound]
        exact Value.isReadable_of_fitsSigned hfits
      · cases hfound
  · cases h

theorem isReadable_of_readHex? (h : readHex? text = some (value, rest)) : value.IsReadable := by
  have hbound : wordBound = 0x10000000000000000 := rfl
  rw [readHex?] at h
  split at h
  · cases h
  · rename_i hsmall
    obtain ⟨rfl, -⟩ := Prod.mk.inj (Option.some.inj h)
    rw [not_or] at hsmall
    exact .int (by omega) (by omega)

theorem isReadable_of_readNonFinite? (h : readNonFinite? text = some (value, rest)) :
    value.IsReadable := by
  obtain ⟨word, -, hword⟩ := List.exists_of_findSome?_eq_some h
  split at hword
  · obtain ⟨rfl, -⟩ := Prod.mk.inj (Option.some.inj hword)
    exact .null
  · cases hword

theorem isReadable_of_readNumber? (h : readNumber? text = some (value, rest)) :
    value.IsReadable := by
  have horElse : ∀ {negative text}, (readNonFinite? text).orElse
      (fun _ => readUnsigned? negative text) = some (value, rest) → value.IsReadable := by
    intro negative text h
    rw [Option.orElse_eq_or, Option.or_eq_some_iff] at h
    rcases h with hword | ⟨-, hnumber⟩
    · exact isReadable_of_readNonFinite? hword
    · exact isReadable_of_readUnsigned? hnumber
  rw [readNumber?.eq_def] at h
  split at h
  · exact isReadable_of_readUnsigned? h
  · exact horElse h
  · exact isReadable_of_readHex? h
  · exact isReadable_of_readHex? h
  · exact horElse h

theorem isReadable_of_readScalar? (h : readScalar? text = some (value, rest)) :
    value.IsReadable := by
  rw [readScalar?, Option.orElse_eq_or, Option.or_eq_some_iff] at h
  rcases h with hword | ⟨-, hnumber⟩
  · obtain ⟨⟨word, found⟩, hmem, hfound⟩ := List.exists_of_findSome?_eq_some hword
    dsimp only at hfound
    split at hfound
    · obtain ⟨rfl, -⟩ := Prod.mk.inj (Option.some.inj hfound)
      simp only [List.mem_cons, Prod.mk.injEq, List.not_mem_nil, or_false] at hmem
      rcases hmem with ⟨-, rfl⟩ | ⟨-, rfl⟩ | ⟨-, rfl⟩
      · exact .null
      · exact .bool true
      · exact .bool false
    · cases hfound
  · exact isReadable_of_readNumber? hnumber

end Relaxed

/-! ## The strict reader -/

namespace Strict

/-- The values that the readers of one budget give can be read. -/
structure GivesReadable (budget : Nat) : Prop where
  value : ∀ {depth text value rest}, readValue depth budget text = .ok (value, rest) →
    value.IsReadable
  items : ∀ {depth read text items rest}, (∀ item ∈ read, item.IsReadable) →
    readItems depth read budget text = .ok (items, rest) → ∀ item ∈ items, item.IsReadable
  members : ∀ {depth read text members rest}, (∀ member ∈ read, member.2.IsReadable) →
    readMembers depth read budget text = .ok (members, rest) →
      ∀ member ∈ members, member.2.IsReadable

theorem GivesReadable.value_succ {budget depth : Nat} (h : GivesReadable budget) {text rest : Text}
    {value : Value} (hread : readValue depth (budget + 1) text = .ok (value, rest)) :
    value.IsReadable := by
  rw [readValue] at hread
  split at hread
  · cases hread
  · rw [(readWord_eq_ok_iff.mp hread).1]
    exact .null
  · rw [(readWord_eq_ok_iff.mp hread).1]
    exact .bool true
  · rw [(readWord_eq_ok_iff.mp hread).1]
    exact .bool false
  · split at hread
    · obtain ⟨rfl, -⟩ := Prod.mk.inj (Except.ok.inj hread)
      exact .string _
    · cases hread
  · split at hread
    · cases hread
    · split at hread
      · cases hread
      · obtain ⟨rfl, -⟩ := Prod.mk.inj (Except.ok.inj hread)
        exact .array (by simp)
      · split at hread
        · rename_i hitems
          obtain ⟨rfl, -⟩ := Prod.mk.inj (Except.ok.inj hread)
          exact .array (h.items (by simp) hitems)
        · cases hread
  · split at hread
    · cases hread
    · split at hread
      · cases hread
      · obtain ⟨rfl, -⟩ := Prod.mk.inj (Except.ok.inj hread)
        exact .object List.nodup_nil (by simp)
      · split at hread
        · rename_i hmembers
          obtain ⟨rfl, -⟩ := Prod.mk.inj (Except.ok.inj hread)
          exact Value.isReadable_ofMembers (h.members (by simp) hmembers)
        · cases hread
  · split at hread
    · exact JsonNumber.isReadable_of_read hread
    · cases hread

theorem GivesReadable.succ {budget : Nat} (h : GivesReadable budget) :
    GivesReadable (budget + 1) where
  value := h.value_succ
  items := by
    intro depth read text items rest hbefore hread
    obtain ⟨item, middle, hitem, hend⟩ := readItems_cases hread
    have hcons : ∀ other ∈ item :: read, other.IsReadable :=
      List.forall_mem_cons.mpr ⟨h.value hitem, hbefore⟩
    rcases hend with ⟨-, rfl⟩ | ⟨after, -, hmore⟩
    · exact fun other hother => hcons other (List.mem_reverse.mp hother)
    · exact h.items hcons hmore
  members := by
    intro depth read text members rest hbefore hread
    obtain ⟨inner, name, named, middle, value, after, rfl, -, -, hvalue, hend⟩ :=
      readMembers_cases hread
    have hcons : ∀ other ∈ (name, value) :: read, other.2.IsReadable :=
      List.forall_mem_cons.mpr ⟨h.value hvalue, hbefore⟩
    rcases hend with ⟨-, rfl⟩ | ⟨next, -, hmore⟩
    · exact fun other hother => hcons other (List.mem_reverse.mp hother)
    · exact h.members hcons hmore

theorem givesReadable (budget : Nat) : GivesReadable budget := by
  induction budget with
  | zero =>
      constructor
      · intro depth text value rest h
        simp at h
      · intro depth read text items rest _ h
        simp at h
      · intro depth read text members rest _ h
        simp at h
  | succ budget ih => exact ih.succ

theorem isReadable_of_readText {text : Text} {value : Value} (h : readText text = .ok value) :
    value.IsReadable := by
  rw [readText] at h
  split at h
  · cases h
  · rename_i hvalue
    split at h
    · rw [← Except.ok.inj h]
      exact (givesReadable _).value hvalue
    · cases h

end Strict

/-! ## The relaxed reader -/

namespace Relaxed

/-- The values that the readers of one budget give can be read. -/
structure GivesReadable (budget : Nat) : Prop where
  value : ∀ {text value rest}, readValue? budget text = some (value, rest) → value.IsReadable
  items : ∀ {read text items rest}, (∀ item ∈ read, item.IsReadable) →
    readItems? read budget text = some (items, rest) → ∀ item ∈ items, item.IsReadable
  members : ∀ {read text members rest}, (∀ member ∈ read, member.2.IsReadable) →
    readMembers? read budget text = some (members, rest) → ∀ member ∈ members, member.2.IsReadable

theorem GivesReadable.succ {budget : Nat} (h : GivesReadable budget) :
    GivesReadable (budget + 1) where
  value := by
    intro text value rest hread
    cases readValue?_cases hread with
    | scalar _ hscalar => exact isReadable_of_readScalar? hscalar
    | string => exact .string _
    | emptyArray => exact .array (by simp)
    | array _ hitems => exact .array (h.items (by simp) hitems)
    | emptyObject => exact .object List.nodup_nil (by simp)
    | object _ hmembers => exact Value.isReadable_ofMembers (h.members (by simp) hmembers)
  items := by
    intro read text items rest hbefore hread
    obtain ⟨item, middle, hitem, hend⟩ := readItems?_cases hread
    have hcons : ∀ other ∈ item :: read, other.IsReadable :=
      List.forall_mem_cons.mpr ⟨h.value hitem, hbefore⟩
    rcases hend with ⟨-, rfl⟩ | ⟨after, -, ⟨-, rfl⟩ | ⟨next, -, hmore⟩⟩
    · exact fun other hother => hcons other (List.mem_reverse.mp hother)
    · exact fun other hother => hcons other (List.mem_reverse.mp hother)
    · exact h.items hcons hmore
  members := by
    intro read text members rest hbefore hread
    obtain ⟨name, named, middle, next, value, after, -, -, -, hvalue, hend⟩ :=
      readMembers?_cases hread
    have hcons : ∀ other ∈ (name, value) :: read, other.2.IsReadable :=
      List.forall_mem_cons.mpr ⟨h.value hvalue, hbefore⟩
    rcases hend with ⟨-, rfl⟩ | ⟨more, -, ⟨-, rfl⟩ | ⟨member, -, hmore⟩⟩
    · exact fun other hother => hcons other (List.mem_reverse.mp hother)
    · exact fun other hother => hcons other (List.mem_reverse.mp hother)
    · exact h.members hcons hmore

theorem givesReadable (budget : Nat) : GivesReadable budget := by
  induction budget with
  | zero =>
      constructor
      · intro text value rest h
        simp at h
      · intro read text items rest _ h
        simp at h
      · intro read text members rest _ h
        simp at h
  | succ budget ih => exact ih.succ

theorem isReadable_of_read? {text : Text} {value : Value} (h : read? text = some value) :
    value.IsReadable := by
  rw [read?] at h
  split at h
  · rename_i hread
    split at h
    · rw [← Option.some.inj h]
      obtain ⟨after, -, hvalue⟩ := Option.bind_eq_some_iff.mp hread
      exact (givesReadable _).value hvalue
    · cases h
  · cases h

end Relaxed

/-! ## Lists of documents -/

theorem readEither_eq_ok_iff {text : Text} {value : Value} :
    readEither text = .ok value ↔ Strict.readText text = .ok value ∨
      (Strict.readText text).isOk = false ∧ Relaxed.read? text = some value := by
  rw [readEither, Strict.read]
  cases hstrict : Strict.readText text with
  | ok found => simp [Except.isOk, Except.toBool]
  | error fault =>
      cases hrelaxed : Relaxed.read? text with
      | none => simp
      | some found => simp [Except.isOk, Except.toBool]

/-- A list of documents is read where either reader gives their array. -/
theorem readDocuments_eq_ok_iff {text : Text} {documents : List Document} :
    readDocuments text = .ok documents ↔ readEither text = .ok (Document.arrayOf documents) := by
  rw [readDocuments, Document.arrayOf]
  cases hread : readEither text with
  | error error => simp
  | ok value =>
      cases value with
      | array values =>
          simp only [documentsFrom_eq_ok_iff, Except.ok.injEq, Value.array.injEq]
      | _ => simp

theorem isReadable_of_readDocuments {text : Text} {documents : List Document}
    (h : readDocuments text = .ok documents) : (Document.arrayOf documents).IsReadable := by
  rw [readDocuments_eq_ok_iff, readEither_eq_ok_iff] at h
  rcases h with hstrict | ⟨-, hrelaxed⟩
  · exact Strict.isReadable_of_readText hstrict
  · exact Relaxed.isReadable_of_read? hrelaxed

end CommandTemplate
