import CommandTemplate.Proofs.Document.Listing

/-!
# What the relaxed reader reads

As for the strict reader, a value is read from the same characters whatever follows them, and arrays
and objects are read from listings.  After the last entry there may be one more comma.
-/

namespace CommandTemplate
namespace Relaxed

/-- A gap of the relaxed reader, which ends before every token. -/
def IsGap (text : Text) : Prop :=
  ∀ other, BeginsToken other → skip (text ++ other) = some other

/-- What may stand between the last entry of a listing and the closing bracket. -/
def IsTail (text : Text) : Prop :=
  text = [] ∨ ∃ gap, text = ',' :: gap ∧ IsGap gap

/-- A text is read as a value, whatever comes after it. -/
structure ReadsAs (used : Text) (value : Value) : Prop where
  begins : BeginsEntry used
  reads : ∀ other budget, EndsWord other → 2 * used.length ≤ budget + 1 →
    readValue? budget (used ++ other) = some (value, other)

/-- A text is read as a name, a colon and a value. -/
def IsMember (used : Text) (member : Text × Value) : Prop :=
  ∃ name before after value, used = name ++ (before ++ ':' :: (after ++ value)) ∧
    BeginsEntry name ∧ IsGap before ∧ IsGap after ∧ ReadsAs value member.2 ∧
    ∀ other, readName? (name ++ (before ++ ':' :: other)) = some (member.1, before ++ ':' :: other)

variable {budget : Nat} {text used rest gap : Text} {value : Value}

theorem IsMember.begins {member : Text × Value} (h : IsMember used member) : BeginsEntry used := by
  obtain ⟨name, before, after, value, rfl, hname, -⟩ := h
  exact hname.append _

theorem isGap_nil : IsGap [] :=
  fun _ => skip_of_beginsToken

theorem IsGap.skip_ends {c : Char} (h : IsGap gap) (hc : c ∈ [',', ':', ']', '}']) (rest : Text) :
    skip (gap ++ c :: rest) = some (c :: rest) :=
  h _ (beginsToken_of_ends hc rest)

theorem IsGap.endsWord {c : Char} (h : IsGap gap) (hc : c ∈ [',', ':', ']', '}']) (rest : Text) :
    EndsWord (gap ++ c :: rest) :=
  endsWord_of_skip (h.skip_ends hc rest) (isWordChar_of_ends hc)

theorem exists_gap_of_skip_ends {c : Char} (h : skip text = some (c :: rest))
    (hc : c ∈ [',', ':', ']', '}']) : ∃ gap, text = gap ++ c :: rest ∧ IsGap gap ∧ EndsWord text := by
  obtain ⟨gap, htext, hgap⟩ := exists_of_skip h (isGapChar_of_ends hc)
  exact ⟨gap, htext, hgap, endsWord_of_skip h (isWordChar_of_ends hc)⟩

theorem exists_gap_of_skip {after : Text} (h : skip text = some after) (hafter : BeginsEntry after) :
    ∃ gap, text = gap ++ after ∧ IsGap gap := by
  obtain ⟨c, next, rfl, hc, -⟩ := hafter
  exact exists_of_skip h hc

/-! ## One step of the readers -/

theorem readValue?_string {quote : Char} (hquote : quote ∈ ['"', '\x27']) :
    readValue? (budget + 1) (quote :: text) =
      (readString quote [] none text).map fun (text, rest) => (.string text, rest) := by
  rcases List.mem_cons.mp hquote with rfl | hquote
  · rfl
  · obtain rfl := List.mem_singleton.mp hquote
    rfl

theorem readValue?_emptyArray (h : skip text = some (']' :: rest)) :
    readValue? (budget + 1) ('[' :: text) = some (.array [], rest) := by
  rw [readValue?]
  simp only [h]

theorem readValue?_array {after : Text} {items : List Value} (hskip : skip text = some after)
    (hbegins : BeginsEntry after) (h : readItems? [] budget after = some (items, rest)) :
    readValue? (budget + 1) ('[' :: text) = some (.array items, rest) := by
  obtain ⟨c, next, rfl, -, hc⟩ := hbegins
  have hclose : c ≠ ']' := by
    rintro rfl
    simp at hc
  rw [readValue?]
  simp [hskip, hclose, h]

theorem readValue?_emptyObject (h : skip text = some ('}' :: rest)) :
    readValue? (budget + 1) ('{' :: text) = some (.object [], rest) := by
  rw [readValue?]
  simp only [h]

theorem readValue?_object {after : Text} {members : List (Text × Value)}
    (hskip : skip text = some after) (hbegins : BeginsEntry after)
    (h : readMembers? [] budget after = some (members, rest)) :
    readValue? (budget + 1) ('{' :: text) = some (.object (Document.ofMembers members), rest) := by
  obtain ⟨c, next, rfl, -, hc⟩ := hbegins
  have hclose : c ≠ '}' := by
    rintro rfl
    simp at hc
  rw [readValue?]
  simp [hskip, hclose, h]

theorem readValue?_scalar {c : Char} (hc : c ∉ ['"', '\x27', '[', '{']) :
    readValue? (budget + 1) (c :: text) = readScalar? (c :: text) := by
  simp only [List.mem_cons, List.not_mem_nil, or_false, not_or] at hc
  rw [readValue?]
  · rfl
  · exact fun rest heq => hc.1 (List.cons.inj heq).1
  · exact fun rest heq => hc.2.1 (List.cons.inj heq).1
  · exact fun rest heq => hc.2.2.1 (List.cons.inj heq).1
  · exact fun rest heq => hc.2.2.2 (List.cons.inj heq).1

/-- What the reader of values can do in one step. -/
inductive ValueStep (budget : Nat) : Text → Value → Text → Prop
  | scalar {text rest : Text} {value : Value}
      (hhead : ∀ c ∈ text.head?, c ∉ ['"', '\x27', '[', '{'])
      (h : readScalar? text = some (value, rest)) : ValueStep budget text value rest
  | string {quote : Char} {text string rest : Text} (hquote : quote ∈ ['"', '\x27'])
      (h : readString quote [] none text = some (string, rest)) :
      ValueStep budget (quote :: text) (.string string) rest
  | emptyArray {text rest : Text} (h : skip text = some (']' :: rest)) :
      ValueStep budget ('[' :: text) (.array []) rest
  | array {text next rest : Text} {items : List Value} (hskip : skip text = some next)
      (h : readItems? [] budget next = some (items, rest)) :
      ValueStep budget ('[' :: text) (.array items) rest
  | emptyObject {text rest : Text} (h : skip text = some ('}' :: rest)) :
      ValueStep budget ('{' :: text) (.object []) rest
  | object {text next rest : Text} {members : List (Text × Value)} (hskip : skip text = some next)
      (h : readMembers? [] budget next = some (members, rest)) :
      ValueStep budget ('{' :: text) (.object (Document.ofMembers members)) rest

theorem readValue?_cases (h : readValue? (budget + 1) text = some (value, rest)) :
    ValueStep budget text value rest := by
  cases text with
  | nil => exact .scalar (by simp) h
  | cons c text =>
      by_cases hquote : c ∈ ['"', '\x27']
      · rw [readValue?_string hquote, Option.map_eq_some_iff] at h
        obtain ⟨⟨string, after⟩, hstring, heq⟩ := h
        obtain ⟨rfl, rfl⟩ := Prod.mk.inj heq
        exact .string hquote hstring
      · by_cases harray : c = '['
        · subst harray
          rw [readValue?] at h
          split at h
          · rename_i hclose
            obtain ⟨rfl, rfl⟩ := Prod.mk.inj (Option.some.inj h)
            exact .emptyArray hclose
          · rename_i next _ hskip
            obtain ⟨⟨items, after⟩, hitems, heq⟩ := Option.map_eq_some_iff.mp h
            obtain ⟨rfl, rfl⟩ := Prod.mk.inj heq
            exact .array hskip hitems
          · simp at h
        · by_cases hobject : c = '{'
          · subst hobject
            rw [readValue?] at h
            split at h
            · rename_i hclose
              obtain ⟨rfl, rfl⟩ := Prod.mk.inj (Option.some.inj h)
              exact .emptyObject hclose
            · rename_i next _ hskip
              obtain ⟨⟨members, after⟩, hmembers, heq⟩ := Option.map_eq_some_iff.mp h
              obtain ⟨rfl, rfl⟩ := Prod.mk.inj heq
              exact .object hskip hmembers
            · simp at h
          · have hc : c ∉ ['"', '\x27', '[', '{'] := by simp_all
            rw [readValue?_scalar hc] at h
            exact .scalar (by rintro d ⟨⟩; exact hc) h

theorem readItems?_last {read : List Value} {middle : Text}
    (h : readValue? budget text = some (value, middle)) (hskip : skip middle = some (']' :: rest)) :
    readItems? read (budget + 1) text = some ((value :: read).reverse, rest) := by
  rw [readItems?]
  simp only [h, hskip]

theorem readItems?_trailing {read : List Value} {middle after : Text}
    (h : readValue? budget text = some (value, middle)) (hskip : skip middle = some (',' :: after))
    (hclose : skip after = some (']' :: rest)) :
    readItems? read (budget + 1) text = some ((value :: read).reverse, rest) := by
  rw [readItems?]
  simp only [h, hskip, hclose]

theorem readItems?_more {read : List Value} {middle after next : Text}
    (h : readValue? budget text = some (value, middle)) (hskip : skip middle = some (',' :: after))
    (hnext : skip after = some next) (hbegins : BeginsEntry next) :
    readItems? read (budget + 1) text = readItems? (value :: read) budget next := by
  obtain ⟨c, more, rfl, -, hc⟩ := hbegins
  have hclose : c ≠ ']' := by
    rintro rfl
    simp at hc
  rw [readItems?]
  simp [h, hskip, hnext, hclose]

theorem readItems?_cases {read items : List Value}
    (h : readItems? read (budget + 1) text = some (items, rest)) :
    ∃ item middle, readValue? budget text = some (item, middle) ∧
      ((skip middle = some (']' :: rest) ∧ items = (item :: read).reverse) ∨
        ∃ after, skip middle = some (',' :: after) ∧
          ((skip after = some (']' :: rest) ∧ items = (item :: read).reverse) ∨
            ∃ next, skip after = some next ∧
              readItems? (item :: read) budget next = some (items, rest))) := by
  rw [readItems?] at h
  split at h
  · simp at h
  · rename_i item middle hvalue
    refine ⟨item, middle, hvalue, ?_⟩
    split at h
    · rename_i hskip
      obtain ⟨rfl, rfl⟩ := Prod.mk.inj (Option.some.inj h)
      exact Or.inl ⟨hskip, rfl⟩
    · rename_i after hskip
      refine Or.inr ⟨after, hskip, ?_⟩
      split at h
      · rename_i hclose
        obtain ⟨rfl, rfl⟩ := Prod.mk.inj (Option.some.inj h)
        exact Or.inl ⟨hclose, rfl⟩
      · rename_i next _ hnext
        exact Or.inr ⟨next, hnext, h⟩
      · simp at h
    · simp at h

section Members

variable {read members : List (Text × Value)} {name named middle next after : Text}

theorem readMembers?_last (hname : readName? text = some (name, named))
    (hcolon : skip named = some (':' :: middle)) (hnext : skip middle = some next)
    (h : readValue? budget next = some (value, after)) (hskip : skip after = some ('}' :: rest)) :
    readMembers? read (budget + 1) text = some (((name, value) :: read).reverse, rest) := by
  rw [readMembers?]
  simp only [hname, hcolon, hnext, Option.bind_some, h, hskip]

theorem readMembers?_trailing {more : Text} (hname : readName? text = some (name, named))
    (hcolon : skip named = some (':' :: middle)) (hnext : skip middle = some next)
    (h : readValue? budget next = some (value, after)) (hskip : skip after = some (',' :: more))
    (hclose : skip more = some ('}' :: rest)) :
    readMembers? read (budget + 1) text = some (((name, value) :: read).reverse, rest) := by
  rw [readMembers?]
  simp only [hname, hcolon, hnext, Option.bind_some, h, hskip, hclose]

theorem readMembers?_more {more member : Text} (hname : readName? text = some (name, named))
    (hcolon : skip named = some (':' :: middle)) (hnext : skip middle = some next)
    (h : readValue? budget next = some (value, after)) (hskip : skip after = some (',' :: more))
    (hmember : skip more = some member) (hbegins : BeginsEntry member) :
    readMembers? read (budget + 1) text = readMembers? ((name, value) :: read) budget member := by
  obtain ⟨c, others, rfl, -, hc⟩ := hbegins
  have hclose : c ≠ '}' := by
    rintro rfl
    simp at hc
  rw [readMembers?]
  simp [hname, hcolon, hnext, h, hskip, hmember, hclose]

theorem readMembers?_cases (h : readMembers? read (budget + 1) text = some (members, rest)) :
    ∃ name named middle next value after, readName? text = some (name, named) ∧
      skip named = some (':' :: middle) ∧ skip middle = some next ∧
      readValue? budget next = some (value, after) ∧
      ((skip after = some ('}' :: rest) ∧ members = ((name, value) :: read).reverse) ∨
        ∃ more, skip after = some (',' :: more) ∧
          ((skip more = some ('}' :: rest) ∧ members = ((name, value) :: read).reverse) ∨
            ∃ member, skip more = some member ∧
              readMembers? ((name, value) :: read) budget member = some (members, rest))) := by
  rw [readMembers?] at h
  split at h
  · simp at h
  · rename_i name named hname
    split at h
    · rename_i middle hcolon
      split at h
      · simp at h
      · rename_i value after hbind
        obtain ⟨next, hnext, hvalue⟩ := Option.bind_eq_some_iff.mp hbind
        refine ⟨name, named, middle, next, value, after, hname, hcolon, hnext, hvalue, ?_⟩
        split at h
        · rename_i hskip
          obtain ⟨rfl, rfl⟩ := Prod.mk.inj (Option.some.inj h)
          exact Or.inl ⟨hskip, rfl⟩
        · rename_i more hskip
          refine Or.inr ⟨more, hskip, ?_⟩
          split at h
          · rename_i hclose
            obtain ⟨rfl, rfl⟩ := Prod.mk.inj (Option.some.inj h)
            exact Or.inl ⟨hclose, rfl⟩
          · rename_i member _ hmember
            exact Or.inr ⟨member, hmember, h⟩
          · simp at h
        · simp at h
    · simp at h

end Members

/-! ## Listings are read -/

theorem readItems?_of_listing {items : List Value} {tail : Text}
    (h : Listing IsGap ReadsAs text items) (htail : IsTail tail) (read : List Value) (rest : Text)
    {budget : Nat} (hbudget : 2 * (text.length + 1) ≤ budget) :
    readItems? read budget (text ++ (tail ++ ']' :: rest)) =
      some (read.reverse ++ items, rest) := by
  induction h generalizing read budget with
  | @last used after item hitem hafter =>
      obtain ⟨budget, rfl⟩ : ∃ more, budget = more + 1 := ⟨budget - 1, by omega⟩
      rw [List.length_append] at hbudget
      rw [List.append_assoc, ← List.reverse_cons]
      rcases htail with rfl | ⟨gap, rfl, hgap⟩
      · have hvalue := hitem.reads (after ++ ']' :: rest) budget (hafter.endsWord (by decide) rest)
          (by omega)
        exact readItems?_last hvalue (hafter.skip_ends (by decide) rest)
      · have hvalue := hitem.reads (after ++ ',' :: (gap ++ ']' :: rest)) budget
          (hafter.endsWord (by decide) _) (by omega)
        exact readItems?_trailing hvalue (hafter.skip_ends (by decide) _)
          (hgap.skip_ends (by decide) rest)
  | @more used after before text item items hitem hafter hbefore hrest ih =>
      obtain ⟨budget, rfl⟩ : ∃ more, budget = more + 1 := ⟨budget - 1, by omega⟩
      simp only [List.length_append, List.length_cons] at hbudget
      have hbegins : BeginsEntry (text ++ (tail ++ ']' :: rest)) :=
        (hrest.beginsEntry fun _ _ => ReadsAs.begins).append _
      have hvalue := hitem.reads (after ++ ',' :: (before ++ (text ++ (tail ++ ']' :: rest))))
        budget (hafter.endsWord (by decide) _) (by omega)
      simp only [List.append_assoc, List.cons_append]
      rw [readItems?_more hvalue (hafter.skip_ends (by decide) _)
        (hbefore _ hbegins.beginsToken) hbegins, ih (item :: read) (by omega), List.reverse_cons,
        List.append_assoc]
      rfl

theorem readMembers?_of_listing {members : List (Text × Value)} {tail : Text}
    (h : Listing IsGap IsMember text members) (htail : IsTail tail) (read : List (Text × Value))
    (rest : Text) {budget : Nat} (hbudget : 2 * (text.length + 1) ≤ budget) :
    readMembers? read budget (text ++ (tail ++ '}' :: rest)) =
      some (read.reverse ++ members, rest) := by
  induction h generalizing read budget with
  | @last used after member hmember hafter =>
      obtain ⟨budget, rfl⟩ : ∃ more, budget = more + 1 := ⟨budget - 1, by omega⟩
      obtain ⟨name, colon, space, used, rfl, -, hcolon, hspace, hvalue, hname⟩ := hmember
      simp only [List.length_append, List.length_cons] at hbudget
      simp only [List.append_assoc, List.cons_append]
      rw [← List.reverse_cons]
      rcases htail with rfl | ⟨gap, rfl, hgap⟩
      · have hread := hvalue.reads (after ++ '}' :: rest) budget (hafter.endsWord (by decide) rest)
          (by omega)
        exact readMembers?_last (hname _) (hcolon.skip_ends (by decide) _)
          (hspace _ (hvalue.begins.append _).beginsToken) hread (hafter.skip_ends (by decide) rest)
      · have hread := hvalue.reads (after ++ ',' :: (gap ++ '}' :: rest)) budget
          (hafter.endsWord (by decide) _) (by omega)
        exact readMembers?_trailing (hname _) (hcolon.skip_ends (by decide) _)
          (hspace _ (hvalue.begins.append _).beginsToken) hread (hafter.skip_ends (by decide) _)
          (hgap.skip_ends (by decide) rest)
  | @more used after before text member members hmember hafter hbefore hrest ih =>
      obtain ⟨budget, rfl⟩ : ∃ more, budget = more + 1 := ⟨budget - 1, by omega⟩
      obtain ⟨name, colon, space, used, rfl, -, hcolon, hspace, hvalue, hname⟩ := hmember
      simp only [List.length_append, List.length_cons] at hbudget
      have hbegins : BeginsEntry (text ++ (tail ++ '}' :: rest)) :=
        (hrest.beginsEntry fun _ _ => IsMember.begins).append _
      have hread := hvalue.reads (after ++ ',' :: (before ++ (text ++ (tail ++ '}' :: rest))))
        budget (hafter.endsWord (by decide) _) (by omega)
      simp only [List.append_assoc, List.cons_append]
      rw [readMembers?_more (hname _) (hcolon.skip_ends (by decide) _)
        (hspace _ (hvalue.begins.append _).beginsToken) hread (hafter.skip_ends (by decide) _)
        (hbefore _ hbegins.beginsToken) hbegins, ih (member :: read) (by omega),
        List.reverse_cons, List.append_assoc]
      rfl

/-- A text has a character, and so its budget is enough for one step more. -/
theorem readsAs_of_step (hbegins : BeginsEntry used)
    (h : ∀ other budget, EndsWord other → 2 * used.length ≤ budget + 2 →
      readValue? (budget + 1) (used ++ other) = some (value, other)) : ReadsAs used value := by
  refine ⟨hbegins, fun other budget hother hbudget => ?_⟩
  have hpos : 0 < used.length := List.length_pos_iff.mpr hbegins.ne_nil
  obtain ⟨budget, rfl⟩ : ∃ more, budget = more + 1 := ⟨budget - 1, by omega⟩
  exact h other budget hother hbudget

theorem readsAs_string {quote : Char} {string : Text} (hquote : quote ∈ ['"', '\x27'])
    (h : ∀ other, readString quote [] none (used ++ other) = some (string, other)) :
    ReadsAs (quote :: used) (.string string) := by
  have hbegins : ∀ d ∈ ['"', '\x27'], isGapChar d = false ∧ d ∉ [',', ']', '}'] :=
    List.all_iff_forall_prop.mp (by decide)
  refine readsAs_of_step ⟨quote, used, rfl, hbegins quote hquote⟩ fun other budget _ _ => ?_
  rw [List.cons_append, readValue?_string hquote, h]
  rfl

theorem readsAs_emptyArray (h : IsGap gap) : ReadsAs ('[' :: (gap ++ [']'])) (.array []) := by
  refine readsAs_of_step ⟨'[', _, rfl, by decide, by decide⟩ fun other budget _ _ => ?_
  rw [List.cons_append, List.append_assoc]
  exact readValue?_emptyArray (h.skip_ends (by decide) other)

theorem readsAs_array {inner tail : Text} {items : List Value} (hgap : IsGap gap)
    (h : Listing IsGap ReadsAs inner items) (htail : IsTail tail) :
    ReadsAs ('[' :: (gap ++ (inner ++ (tail ++ [']'])))) (.array items) := by
  refine readsAs_of_step ⟨'[', _, rfl, by decide, by decide⟩ fun other budget _ hbudget => ?_
  simp only [List.length_cons, List.length_append, List.length_nil] at hbudget
  have hbegins : BeginsEntry (inner ++ (tail ++ ']' :: other)) :=
    (h.beginsEntry fun _ _ => ReadsAs.begins).append _
  simp only [List.cons_append, List.append_assoc, List.nil_append]
  exact readValue?_array (hgap _ hbegins.beginsToken) hbegins
    (readItems?_of_listing h htail [] other (by omega))

theorem readsAs_emptyObject (h : IsGap gap) : ReadsAs ('{' :: (gap ++ ['}'])) (.object []) := by
  refine readsAs_of_step ⟨'{', _, rfl, by decide, by decide⟩ fun other budget _ _ => ?_
  rw [List.cons_append, List.append_assoc]
  exact readValue?_emptyObject (h.skip_ends (by decide) other)

theorem readsAs_object {inner tail : Text} {members : List (Text × Value)} (hgap : IsGap gap)
    (h : Listing IsGap IsMember inner members) (htail : IsTail tail) :
    ReadsAs ('{' :: (gap ++ (inner ++ (tail ++ ['}']))))
      (.object (Document.ofMembers members)) := by
  refine readsAs_of_step ⟨'{', _, rfl, by decide, by decide⟩ fun other budget _ hbudget => ?_
  simp only [List.length_cons, List.length_append, List.length_nil] at hbudget
  have hbegins : BeginsEntry (inner ++ (tail ++ '}' :: other)) :=
    (h.beginsEntry fun _ _ => IsMember.begins).append _
  simp only [List.cons_append, List.append_assoc, List.nil_append]
  exact readValue?_object (hgap _ hbegins.beginsToken) hbegins
    (readMembers?_of_listing h htail [] other (by omega))

theorem readsAs_scalar (h : readScalar? text = some (value, rest)) (hrest : EndsWord rest) :
    ∃ used, text = used ++ rest ∧ ReadsAs used value := by
  obtain ⟨used, htext, hne, hword, hreads⟩ := readScalar?_of_endsWord h hrest
  obtain ⟨c, used, rfl⟩ := List.exists_cons_of_ne_nil hne
  have hcword : isWordChar c = true := hword c List.mem_cons_self
  have hc : c ∉ ['"', '\x27', '[', '{'] := by
    intro hmem
    have hnone : ∀ d ∈ ['"', '\x27', '[', '{'], isWordChar d = false :=
      List.all_iff_forall_prop.mp (by decide)
    rw [hnone c hmem] at hcword
    simp at hcword
  have hbegins : BeginsEntry (c :: used) := beginsEntry_of_isWordChar hcword used
  refine ⟨c :: used, htext, readsAs_of_step hbegins fun other budget hother _ => ?_⟩
  rw [List.cons_append, readValue?_scalar hc]
  exact hreads other hother

/-! ## What is read is a listing -/

theorem head?_of_readName? {c : Char} {name named : Text}
    (h : readName? (c :: text) = some (name, named)) : c ∉ ['/', ':', ',', ']', '}'] := by
  intro hc
  have hends : ∀ d ∈ ['/', ':', ',', ']', '}'],
      d ∉ ['"', '\x27'] ∧ d ≠ '\\' ∧ continuesWord [] d = false :=
    List.all_iff_forall_prop.mp (by decide +kernel)
  obtain ⟨hquote, hescape, hword⟩ := hends c hc
  rw [readName?_of_head?, readWord_cons hescape, hword] at h
  · simp at h
  · rintro quote hmem hhead
    obtain rfl : c = quote := Option.some.inj hhead
    exact hquote hmem

/-- A name that a colon follows is read in the same way in front of every colon. -/
theorem exists_of_name {name colon middle : Text}
    (h : readName? text = some (name, colon ++ ':' :: middle))
    (hcolon : skip (colon ++ ':' :: middle) = some (':' :: middle))
    (hstart : ∀ c ∈ text.head?, isSpace c = false) :
    ∃ used, text = used ++ (colon ++ ':' :: middle) ∧ BeginsEntry used ∧
      ∀ other, readName? (used ++ (colon ++ ':' :: other)) = some (name, colon ++ ':' :: other) := by
  have hescape : (colon ++ ':' :: middle).head? ≠ some '\\' := by
    intro hhead
    obtain ⟨after, hafter⟩ := List.head?_eq_some_iff.mp hhead
    rw [hafter, skip_of_beginsToken (.cons (by decide) after)] at hcolon
    simp at hcolon
  obtain ⟨used, rfl, hlocal⟩ := exists_of_readName? h hescape
  refine ⟨used, rfl, ?_, fun other => hlocal _ ?_⟩
  · cases hused : used ++ (colon ++ ':' :: middle) with
    | nil => simp at hused
    | cons c after =>
        rw [hused] at h hstart
        have hends := head?_of_readName? h
        have hgap : isGapChar c = false := by
          rw [isGapChar, hstart c rfl, Bool.false_or, decide_eq_false_iff_not]
          rintro rfl
          simp at hends
        cases used with
        | nil =>
            -- The name would be empty, and the text begin with the colon.
            rw [List.nil_append] at hused
            rw [hused, skip_of_beginsToken (.cons hgap after)] at hcolon
            obtain ⟨rfl, -⟩ := List.cons.inj (Option.some.inj hcolon)
            simp at hends
        | cons d used =>
            obtain rfl : d = c := (List.cons.inj hused).1
            refine ⟨d, used, rfl, hgap, fun hmem => hends ?_⟩
            exact List.mem_cons_of_mem _ (List.mem_cons_of_mem _ hmem)
  · cases colon <;> rfl

/-- What is proved of a reader with one budget and used for the next. -/
structure Readable (budget : Nat) : Prop where
  value : ∀ {text value rest}, readValue? budget text = some (value, rest) → EndsWord rest →
    ∃ used, text = used ++ rest ∧ ReadsAs used value
  items : ∀ {read text items rest}, readItems? read budget text = some (items, rest) →
    ∃ inner tail listed, text = inner ++ (tail ++ ']' :: rest) ∧
      items = read.reverse ++ listed ∧ Listing IsGap ReadsAs inner listed ∧ IsTail tail
  members : ∀ {read text members rest}, readMembers? read budget text = some (members, rest) →
    (∀ c ∈ text.head?, isSpace c = false) →
      ∃ inner tail listed, text = inner ++ (tail ++ '}' :: rest) ∧
        members = read.reverse ++ listed ∧ Listing IsGap IsMember inner listed ∧ IsTail tail

/-- An entry ends where its listing is closed or goes on. -/
theorem endsWord_of_end {close : Char} {last : Prop} {more : Text → Prop}
    (hclose : close ∈ [']', '}'])
    (h : (skip text = some (close :: rest) ∧ last) ∨
      ∃ after, skip text = some (',' :: after) ∧ more after) : EndsWord text := by
  have hends := isWordChar_of_ends (List.mem_cons_of_mem ',' (List.mem_cons_of_mem ':' hclose))
  rcases h with ⟨hskip, -⟩ | ⟨after, hskip, -⟩
  · exact endsWord_of_skip hskip hends
  · exact endsWord_of_skip hskip (by decide)

theorem Readable.value_succ (h : Readable budget)
    (hread : readValue? (budget + 1) text = some (value, rest)) (hrest : EndsWord rest) :
    ∃ used, text = used ++ rest ∧ ReadsAs used value := by
  cases readValue?_cases hread with
  | scalar _ hscalar => exact readsAs_scalar hscalar hrest
  | @string quote _ _ _ hquote hstring =>
      obtain ⟨used, rfl, -, hused⟩ := exists_of_readString hquote hstring
      exact ⟨quote :: used, rfl, readsAs_string hquote hused⟩
  | emptyArray hclose =>
      obtain ⟨gap, rfl, hgap, -⟩ := exists_gap_of_skip_ends hclose (by decide)
      exact ⟨'[' :: (gap ++ [']']), by simp, readsAs_emptyArray hgap⟩
  | array hskip hitems =>
      obtain ⟨inner, tail, listed, rfl, rfl, hlisting, htail⟩ := h.items hitems
      have hbegins := hlisting.beginsEntry fun _ _ => ReadsAs.begins
      obtain ⟨gap, rfl, hgap⟩ := exists_gap_of_skip hskip (hbegins.append _)
      exact ⟨'[' :: (gap ++ (inner ++ (tail ++ [']']))), by simp,
        readsAs_array hgap hlisting htail⟩
  | emptyObject hclose =>
      obtain ⟨gap, rfl, hgap, -⟩ := exists_gap_of_skip_ends hclose (by decide)
      exact ⟨'{' :: (gap ++ ['}']), by simp, readsAs_emptyObject hgap⟩
  | object hskip hmembers =>
      obtain ⟨inner, tail, listed, rfl, rfl, hlisting, htail⟩ :=
        h.members hmembers (isSpace_of_skip hskip)
      have hbegins := hlisting.beginsEntry fun _ _ => IsMember.begins
      obtain ⟨gap, rfl, hgap⟩ := exists_gap_of_skip hskip (hbegins.append _)
      exact ⟨'{' :: (gap ++ (inner ++ (tail ++ ['}']))), by simp,
        readsAs_object hgap hlisting htail⟩

theorem Readable.items_succ (h : Readable budget) {read items : List Value}
    (hread : readItems? read (budget + 1) text = some (items, rest)) :
    ∃ inner tail listed, text = inner ++ (tail ++ ']' :: rest) ∧
      items = read.reverse ++ listed ∧ Listing IsGap ReadsAs inner listed ∧ IsTail tail := by
  obtain ⟨item, middle, hvalue, hend⟩ := readItems?_cases hread
  obtain ⟨used, rfl, hused⟩ := h.value hvalue (endsWord_of_end (by decide) hend)
  rcases hend with ⟨hclose, rfl⟩ | ⟨after, hcomma, ⟨hclose, rfl⟩ | ⟨next, hnext, hmore⟩⟩
  · obtain ⟨gap, rfl, hgap, -⟩ := exists_gap_of_skip_ends hclose (by decide)
    exact ⟨used ++ gap, [], [item], by simp, by simp, .last hused hgap, Or.inl rfl⟩
  · obtain ⟨gap, rfl, hgap, -⟩ := exists_gap_of_skip_ends hcomma (by decide)
    obtain ⟨space, rfl, hspace, -⟩ := exists_gap_of_skip_ends hclose (by decide)
    exact ⟨used ++ gap, ',' :: space, [item], by simp, by simp, .last hused hgap,
      Or.inr ⟨space, rfl, hspace⟩⟩
  · obtain ⟨gap, rfl, hgap, -⟩ := exists_gap_of_skip_ends hcomma (by decide)
    obtain ⟨inner, tail, listed, rfl, rfl, hlisting, htail⟩ := h.items hmore
    have hbegins := hlisting.beginsEntry fun _ _ => ReadsAs.begins
    obtain ⟨space, rfl, hspace⟩ := exists_gap_of_skip hnext (hbegins.append _)
    exact ⟨used ++ (gap ++ ',' :: (space ++ inner)), tail, item :: listed, by simp, by simp,
      .more hused hgap hspace hlisting, htail⟩

theorem Readable.exists_member (h : Readable budget) {name named middle next after : Text}
    (hname : readName? text = some (name, named)) (hcolon : skip named = some (':' :: middle))
    (hnext : skip middle = some next) (hvalue : readValue? budget next = some (value, after))
    (hafter : EndsWord after) (hstart : ∀ c ∈ text.head?, isSpace c = false) :
    ∃ used, text = used ++ after ∧ IsMember used (name, value) := by
  obtain ⟨colon, rfl, hcolonGap, -⟩ := exists_gap_of_skip_ends hcolon (by decide)
  obtain ⟨named, rfl, hbegins, hlocal⟩ := exists_of_name hname hcolon hstart
  obtain ⟨used, rfl, hused⟩ := h.value hvalue hafter
  obtain ⟨space, rfl, hspace⟩ := exists_gap_of_skip hnext (hused.begins.append _)
  exact ⟨named ++ (colon ++ ':' :: (space ++ used)), by simp,
    named, colon, space, used, rfl, hbegins, hcolonGap, hspace, hused, hlocal⟩

theorem Readable.members_succ (h : Readable budget) {read members : List (Text × Value)}
    (hread : readMembers? read (budget + 1) text = some (members, rest))
    (hstart : ∀ c ∈ text.head?, isSpace c = false) :
    ∃ inner tail listed, text = inner ++ (tail ++ '}' :: rest) ∧
      members = read.reverse ++ listed ∧ Listing IsGap IsMember inner listed ∧ IsTail tail := by
  obtain ⟨name, named, middle, next, value, after, hname, hcolon, hnext, hvalue, hend⟩ :=
    readMembers?_cases hread
  obtain ⟨used, rfl, hmember⟩ := h.exists_member hname hcolon hnext hvalue
    (endsWord_of_end (by decide) hend) hstart
  rcases hend with ⟨hclose, rfl⟩ | ⟨more, hcomma, ⟨hclose, rfl⟩ | ⟨member, hahead, hmore⟩⟩
  · obtain ⟨gap, rfl, hgap, -⟩ := exists_gap_of_skip_ends hclose (by decide)
    exact ⟨used ++ gap, [], [(name, value)], by simp, by simp, .last hmember hgap, Or.inl rfl⟩
  · obtain ⟨gap, rfl, hgap, -⟩ := exists_gap_of_skip_ends hcomma (by decide)
    obtain ⟨last, rfl, hlast, -⟩ := exists_gap_of_skip_ends hclose (by decide)
    exact ⟨used ++ gap, ',' :: last, [(name, value)], by simp, by simp, .last hmember hgap,
      Or.inr ⟨last, rfl, hlast⟩⟩
  · obtain ⟨gap, rfl, hgap, -⟩ := exists_gap_of_skip_ends hcomma (by decide)
    obtain ⟨inner, tail, listed, rfl, rfl, hlisting, htail⟩ :=
      h.members hmore (isSpace_of_skip hahead)
    have hentry := hlisting.beginsEntry fun _ _ => IsMember.begins
    obtain ⟨before, rfl, hbefore⟩ := exists_gap_of_skip hahead (hentry.append _)
    exact ⟨used ++ (gap ++ ',' :: (before ++ inner)), tail, (name, value) :: listed, by simp,
      by simp, .more hmember hgap hbefore hlisting, htail⟩

theorem Readable.succ (h : Readable budget) : Readable (budget + 1) where
  value := h.value_succ
  items := h.items_succ
  members := h.members_succ

theorem readable (budget : Nat) : Readable budget := by
  induction budget with
  | zero =>
      constructor
      · intro text value rest h
        simp at h
      · intro read text items rest h
        simp at h
      · intro read text members rest h
        simp at h
  | succ budget ih => exact ih.succ

end Relaxed
end CommandTemplate
