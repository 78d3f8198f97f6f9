import CommandTemplate.Proofs.Document.Listing

/-!
# What the strict reader reads

A value is read from the same characters whatever follows them, and two calls for each of its
characters are budget enough.  An array is read if and only if its items are listed between the
brackets, and likewise an object.
-/

namespace CommandTemplate
namespace Strict

def IsGap (text : Text) : Prop :=
  ∀ c ∈ text, isSpace c = true

/-- A text is read as a value, whatever comes after it. -/
structure ReadsAs (depth : Nat) (used : Text) (value : Value) : Prop where
  begins : BeginsEntry used
  reads : ∀ other budget, EndsWord other → 2 * used.length ≤ budget + 1 →
    readValue depth budget (used ++ other) = .ok (value, other)

/-- A text is read as a name in quotes, a colon and a value. -/
def IsMember (depth : Nat) (used : Text) (member : Text × Value) : Prop :=
  ∃ name before after value, used = '"' :: (name ++ (before ++ ':' :: (after ++ value))) ∧
    IsGap before ∧ IsGap after ∧ ReadsAs depth value member.2 ∧
    ∀ other, readString [] none (name ++ other) = .ok (member.1, other)

variable {depth budget : Nat} {text used rest : Text} {value : Value}

theorem IsMember.begins {member : Text × Value} (h : IsMember depth used member) :
    BeginsEntry used := by
  obtain ⟨name, before, after, value, rfl, -⟩ := h
  exact ⟨'"', _, rfl, by decide, by decide⟩

theorem isSpace_of_not_gap {c : Char} (h : isGapChar c = false) : isSpace c = false := by
  rw [← Bool.not_eq_true]
  intro hspace
  rw [isGapChar_of_strict hspace] at h
  simp at h

theorem skip_beginsToken (h : BeginsToken text) : skip text = text := by
  obtain ⟨c, rest, rfl, hc⟩ := h
  exact skip_cons_of_not_isSpace (isSpace_of_not_gap hc) rest

theorem IsGap.endsWord_append {gap : Text} (h : IsGap gap) (hrest : EndsWord rest) :
    EndsWord (gap ++ rest) := by
  cases gap with
  | nil => exact hrest
  | cons c gap =>
      have hgap := isGapChar_of_strict (h c List.mem_cons_self)
      exact endsWord_cons (isWordChar_of_isGapChar hgap) _

/-! ## One step of the readers -/

theorem readValue_skip (depth budget : Nat) (text : Text) :
    readValue depth (budget + 1) text = readValue depth (budget + 1) (skip text) := by
  rw [readValue, readValue, skip_skip]

theorem readValue_skip_of_eq_ok (h : readValue depth budget text = .ok (value, rest)) :
    readValue depth budget (skip text) = .ok (value, rest) := by
  cases budget with
  | zero => simp at h
  | succ budget => rwa [← readValue_skip]

theorem readWord_eq_ok_iff {word : Text} {found : Value} :
    readWord value word text = .ok (found, rest) ↔ found = value ∧ text = word ++ rest := by
  induction word generalizing text with
  | nil => simp [readWord, eq_comm]
  | cons expected word ih =>
      cases text with
      | nil => simp [readWord]
      | cons c text =>
          rw [readWord]
          split
          · rename_i hc
            rw [ih, hc, List.cons_append, List.cons_inj_right]
          · rename_i hc
            simp [hc]

theorem readValue_string {string : Text} (h : readString [] none text = .ok (string, rest)) :
    readValue depth (budget + 1) ('"' :: text) = .ok (.string string, rest) := by
  rw [readValue, skip_cons_of_not_isSpace (by decide)]
  simp only [h]

theorem readValue_emptyArray (h : skip text = ']' :: rest) :
    readValue (depth + 1) (budget + 1) ('[' :: text) = .ok (.array [], rest) := by
  rw [readValue, skip_cons_of_not_isSpace (by decide)]
  simp only [h]

theorem readValue_array {items : List Value} (hbegins : BeginsEntry (skip text))
    (h : readItems depth [] budget (skip text) = .ok (items, rest)) :
    readValue (depth + 1) (budget + 1) ('[' :: text) = .ok (.array items, rest) := by
  obtain ⟨c, after, hskip, -, hc⟩ := hbegins
  have hclose : c ≠ ']' := by
    rintro rfl
    simp at hc
  rw [hskip] at h
  rw [readValue, skip_cons_of_not_isSpace (by decide)]
  simp [hskip, hclose, h]

theorem readValue_emptyObject (h : skip text = '}' :: rest) :
    readValue (depth + 1) (budget + 1) ('{' :: text) = .ok (.object [], rest) := by
  rw [readValue, skip_cons_of_not_isSpace (by decide)]
  simp only [h]

theorem readValue_object {members : List (Text × Value)} (hbegins : BeginsEntry (skip text))
    (h : readMembers depth [] budget (skip text) = .ok (members, rest)) :
    readValue (depth + 1) (budget + 1) ('{' :: text) =
      .ok (.object (Document.ofMembers members), rest) := by
  obtain ⟨c, after, hskip, -, hc⟩ := hbegins
  have hclose : c ≠ '}' := by
    rintro rfl
    simp at hc
  rw [hskip] at h
  rw [readValue, skip_cons_of_not_isSpace (by decide)]
  simp [hskip, hclose, h]

theorem readValue_number {c : Char} (hc : c = '-' ∨ isDigit c = true) :
    readValue depth (budget + 1) (c :: text) = JsonNumber.read (c :: text) := by
  have hword : isWordChar c = true := by
    rcases hc with rfl | hc
    · decide
    · exact isWordChar_of_isDigit hc
  have hgap : isGapChar c = false := by
    cases hgap : isGapChar c with
    | false => rfl
    | true => rw [isWordChar_of_isGapChar hgap] at hword; exact hword.symm
  have hne : ∀ d ∈ ['n', 't', 'f', '"', '[', '{'], c ≠ d := by
    rintro d hd rfl
    have hnone : ∀ d ∈ ['n', 't', 'f', '"', '[', '{'], ¬(d = '-' ∨ isDigit d = true) :=
      List.all_iff_forall_prop.mp (by decide)
    exact hnone c hd hc
  simp only [List.forall_mem_cons, List.not_mem_nil, false_implies, implies_true, and_true] at hne
  rw [readValue, skip_cons_of_not_isSpace (isSpace_of_not_gap hgap)]
  simp [hne, hc]

theorem readItems_last {read : List Value} {middle : Text}
    (h : readValue depth budget text = .ok (value, middle)) (hskip : skip middle = ']' :: rest) :
    readItems depth read (budget + 1) text = .ok ((value :: read).reverse, rest) := by
  rw [readItems]
  simp only [h, hskip]

theorem readItems_more {read : List Value} {middle after : Text}
    (h : readValue depth budget text = .ok (value, middle)) (hskip : skip middle = ',' :: after)
    (hbegins : BeginsEntry (skip after)) :
    readItems depth read (budget + 1) text =
      readItems depth (value :: read) budget (skip after) := by
  obtain ⟨c, next, hnext, -, hc⟩ := hbegins
  have hclose : c ≠ ']' := by
    rintro rfl
    simp at hc
  rw [readItems]
  simp [h, hskip, hnext, hclose]

theorem readItems_cases {read items : List Value}
    (h : readItems depth read (budget + 1) text = .ok (items, rest)) :
    ∃ item middle, readValue depth budget text = .ok (item, middle) ∧
      ((skip middle = ']' :: rest ∧ items = (item :: read).reverse) ∨
        ∃ after, skip middle = ',' :: after ∧
          readItems depth (item :: read) budget (skip after) = .ok (items, rest)) := by
  rw [readItems] at h
  split at h
  · simp at h
  · rename_i item middle hvalue
    refine ⟨item, middle, hvalue, ?_⟩
    split at h
    · simp at h
    · rename_i hskip
      obtain ⟨rfl, rfl⟩ := Prod.mk.inj (Except.ok.inj h)
      exact Or.inl ⟨hskip, rfl⟩
    · rename_i after hskip
      split at h
      · simp at h
      · simp at h
      · exact Or.inr ⟨after, hskip, h⟩
    · simp at h

theorem readMembers_last {read : List (Text × Value)} {name named middle after : Text}
    (hname : readString [] none text = .ok (name, named)) (hcolon : skip named = ':' :: middle)
    (h : readValue depth budget middle = .ok (value, after)) (hskip : skip after = '}' :: rest) :
    readMembers depth read (budget + 1) ('"' :: text) =
      .ok (((name, value) :: read).reverse, rest) := by
  rw [readMembers]
  simp only [hname, hcolon, h, hskip]

theorem readMembers_more {read : List (Text × Value)} {name named middle after next : Text}
    (hname : readString [] none text = .ok (name, named)) (hcolon : skip named = ':' :: middle)
    (h : readValue depth budget middle = .ok (value, after)) (hskip : skip after = ',' :: next)
    (hbegins : BeginsEntry (skip next)) :
    readMembers depth read (budget + 1) ('"' :: text) =
      readMembers depth ((name, value) :: read) budget (skip next) := by
  obtain ⟨c, more, hnext, -, hc⟩ := hbegins
  have hclose : c ≠ '}' := by
    rintro rfl
    simp at hc
  rw [readMembers]
  simp [hname, hcolon, h, hskip, hnext, hclose]

theorem readMembers_cases {read members : List (Text × Value)}
    (h : readMembers depth read (budget + 1) text = .ok (members, rest)) :
    ∃ inner name named middle value after, text = '"' :: inner ∧
      readString [] none inner = .ok (name, named) ∧ skip named = ':' :: middle ∧
      readValue depth budget middle = .ok (value, after) ∧
      ((skip after = '}' :: rest ∧ members = ((name, value) :: read).reverse) ∨
        ∃ next, skip after = ',' :: next ∧
          readMembers depth ((name, value) :: read) budget (skip next) =
            .ok (members, rest)) := by
  cases text with
  | nil => simp [readMembers] at h
  | cons c inner =>
      by_cases hc : c = '"'
      · subst hc
        rw [readMembers] at h
        split at h
        · simp at h
        · rename_i name named hname
          split at h
          · simp at h
          · rename_i middle hcolon
            split at h
            · simp at h
            · rename_i value after hvalue
              refine ⟨inner, name, named, middle, value, after, rfl, hname, hcolon, hvalue, ?_⟩
              split at h
              · simp at h
              · rename_i hskip
                obtain ⟨rfl, rfl⟩ := Prod.mk.inj (Except.ok.inj h)
                exact Or.inl ⟨hskip, rfl⟩
              · rename_i next hskip
                split at h
                · simp at h
                · simp at h
                · exact Or.inr ⟨next, hskip, h⟩
              · simp at h
          · simp at h
      · rw [readMembers] at h
        · simp at h
        · exact fun rest heq => hc (List.cons.inj heq).1

theorem ReadsAs.reads_gap {gap other : Text} (h : ReadsAs depth used value) (hgap : IsGap gap)
    (hother : EndsWord other) (hbudget : 2 * used.length ≤ budget + 1) :
    readValue depth budget (gap ++ (used ++ other)) = .ok (value, other) := by
  have hread := h.reads other budget hother hbudget
  have hpos : 0 < used.length := List.length_pos_iff.mpr h.begins.ne_nil
  obtain ⟨budget, rfl⟩ : ∃ more, budget = more + 1 := ⟨budget - 1, by omega⟩
  rwa [readValue_skip, skip_append hgap, ← readValue_skip]

/-! ## Listings are read -/

theorem skip_gap_append {gap : Text} (h : IsGap gap) (hrest : BeginsToken rest) :
    skip (gap ++ rest) = rest := by
  rw [skip_append h, skip_beginsToken hrest]

theorem endsWord_gap_append {gap : Text} {c : Char} (h : IsGap gap)
    (hc : c ∈ [',', ':', ']', '}']) (rest : Text) : EndsWord (gap ++ c :: rest) :=
  h.endsWord_append (endsWord_cons (isWordChar_of_ends hc) rest)

theorem readItems_of_listing {items : List Value} (h : Listing IsGap (ReadsAs depth) text items)
    (read : List Value) (rest : Text) {budget : Nat} (hbudget : 2 * (text.length + 1) ≤ budget) :
    readItems depth read budget (text ++ ']' :: rest) = .ok (read.reverse ++ items, rest) := by
  induction h generalizing read budget with
  | @last used after item hitem hafter =>
      obtain ⟨budget, rfl⟩ : ∃ more, budget = more + 1 := ⟨budget - 1, by omega⟩
      rw [List.length_append] at hbudget
      have hvalue := hitem.reads (after ++ ']' :: rest) budget
        (endsWord_gap_append hafter (by decide) rest) (by omega)
      rw [List.append_assoc, readItems_last hvalue
        (skip_gap_append hafter (beginsToken_of_ends (by decide) rest)), List.reverse_cons]
  | @more used after before text item items hitem hafter hbefore hrest ih =>
      obtain ⟨budget, rfl⟩ : ∃ more, budget = more + 1 := ⟨budget - 1, by omega⟩
      simp only [List.length_append, List.length_cons] at hbudget
      have hbegins : BeginsEntry (text ++ ']' :: rest) :=
        (hrest.beginsEntry fun _ _ => ReadsAs.begins).append _
      have hskip := skip_gap_append hbefore hbegins.beginsToken
      have hvalue := hitem.reads (after ++ ',' :: (before ++ (text ++ ']' :: rest))) budget
        (endsWord_gap_append hafter (by decide) _) (by omega)
      simp only [List.append_assoc, List.cons_append]
      rw [readItems_more hvalue (skip_gap_append hafter (beginsToken_of_ends (by decide) _))
        (by rwa [hskip]), hskip, ih (item :: read) (by omega), List.reverse_cons,
        List.append_assoc]
      rfl

theorem readMembers_of_listing {members : List (Text × Value)}
    (h : Listing IsGap (IsMember depth) text members) (read : List (Text × Value)) (rest : Text)
    {budget : Nat} (hbudget : 2 * (text.length + 1) ≤ budget) :
    readMembers depth read budget (text ++ '}' :: rest) = .ok (read.reverse ++ members, rest) := by
  induction h generalizing read budget with
  | @last used after member hmember hafter =>
      obtain ⟨budget, rfl⟩ : ∃ more, budget = more + 1 := ⟨budget - 1, by omega⟩
      obtain ⟨name, colon, space, used, rfl, hcolon, hspace, hvalue, hname⟩ := hmember
      simp only [List.length_append, List.length_cons] at hbudget
      have hread : readValue depth budget (space ++ (used ++ (after ++ '}' :: rest))) =
          .ok (member.2, after ++ '}' :: rest) :=
        hvalue.reads_gap hspace (endsWord_gap_append hafter (by decide) rest) (by omega)
      simp only [List.append_assoc, List.cons_append]
      rw [readMembers_last (hname _)
        (skip_gap_append hcolon (beginsToken_of_ends (by decide) _)) hread
        (skip_gap_append hafter (beginsToken_of_ends (by decide) rest)), List.reverse_cons]
  | @more used after before text member members hmember hafter hbefore hrest ih =>
      obtain ⟨budget, rfl⟩ : ∃ more, budget = more + 1 := ⟨budget - 1, by omega⟩
      obtain ⟨name, colon, space, used, rfl, hcolon, hspace, hvalue, hname⟩ := hmember
      simp only [List.length_append, List.length_cons] at hbudget
      have hbegins : BeginsEntry (text ++ '}' :: rest) :=
        (hrest.beginsEntry fun _ _ => IsMember.begins).append _
      have hskip := skip_gap_append hbefore hbegins.beginsToken
      have hread : readValue depth budget
          (space ++ (used ++ (after ++ ',' :: (before ++ (text ++ '}' :: rest))))) =
            .ok (member.2, after ++ ',' :: (before ++ (text ++ '}' :: rest))) :=
        hvalue.reads_gap hspace (endsWord_gap_append hafter (by decide) _) (by omega)
      simp only [List.append_assoc, List.cons_append]
      rw [readMembers_more (hname _)
        (skip_gap_append hcolon (beginsToken_of_ends (by decide) _)) hread
        (skip_gap_append hafter (beginsToken_of_ends (by decide) _)) (by rwa [hskip]), hskip,
        ih (member :: read) (by omega), List.reverse_cons, List.append_assoc]
      rfl

/-! ## What is read is a listing -/

theorem exists_gap (text : Text) : ∃ gap, text = gap ++ skip text ∧ IsGap gap :=
  ⟨text.takeWhile isSpace, List.takeWhile_append_dropWhile.symm,
    fun _ hc => List.mem_takeWhile_imp hc⟩

/-- What is proved of a reader with one budget and used for the next. -/
structure Readable (budget : Nat) : Prop where
  value : ∀ {depth text value rest}, readValue depth budget text = .ok (value, rest) →
    skip text = text → EndsWord rest → ∃ used, text = used ++ rest ∧ ReadsAs depth used value
  items : ∀ {depth read text items rest}, readItems depth read budget text = .ok (items, rest) →
    skip text = text → ∃ inner listed, text = inner ++ ']' :: rest ∧
      items = read.reverse ++ listed ∧ Listing IsGap (ReadsAs depth) inner listed
  members : ∀ {depth read text members rest},
    readMembers depth read budget text = .ok (members, rest) → skip text = text →
      ∃ inner listed, text = inner ++ '}' :: rest ∧
        members = read.reverse ++ listed ∧ Listing IsGap (IsMember depth) inner listed

/-- A text has a character, and so its budget is enough for one step more. -/
theorem readsAs_of_step (hbegins : BeginsEntry used)
    (h : ∀ other budget, EndsWord other → 2 * used.length ≤ budget + 2 →
      readValue depth (budget + 1) (used ++ other) = .ok (value, other)) :
    ReadsAs depth used value := by
  refine ⟨hbegins, fun other budget hother hbudget => ?_⟩
  have hpos : 0 < used.length := List.length_pos_iff.mpr hbegins.ne_nil
  obtain ⟨budget, rfl⟩ : ∃ more, budget = more + 1 := ⟨budget - 1, by omega⟩
  exact h other budget hother hbudget

theorem readsAs_word {word : Text} {c : Char} (hword : ∀ d ∈ c :: word, isWordChar d = true)
    (h : ∀ budget other, readValue depth (budget + 1) (c :: (word ++ other)) =
      readWord value word (word ++ other)) : ReadsAs depth (c :: word) value := by
  rw [List.forall_mem_cons] at hword
  refine readsAs_of_step (beginsEntry_of_isWordChar hword.1 word) fun other budget _ _ => ?_
  rw [List.cons_append, h, readWord_eq_ok_iff]
  exact ⟨rfl, rfl⟩

theorem readsAs_string {string : Text}
    (h : ∀ other, readString [] none (used ++ other) = .ok (string, other)) :
    ReadsAs depth ('"' :: used) (.string string) := by
  refine readsAs_of_step ⟨'"', used, rfl, by decide, by decide⟩ fun other budget _ _ => ?_
  exact readValue_string (h other)

theorem readsAs_emptyArray {gap : Text} (h : IsGap gap) :
    ReadsAs (depth + 1) ('[' :: (gap ++ [']'])) (.array []) := by
  refine readsAs_of_step ⟨'[', _, rfl, by decide, by decide⟩ fun other budget _ _ => ?_
  rw [List.cons_append, List.append_assoc]
  apply readValue_emptyArray
  exact skip_gap_append h (beginsToken_of_ends (by decide) other)

theorem readsAs_array {gap inner : Text} {items : List Value} (hgap : IsGap gap)
    (h : Listing IsGap (ReadsAs depth) inner items) :
    ReadsAs (depth + 1) ('[' :: (gap ++ (inner ++ [']']))) (.array items) := by
  refine readsAs_of_step ⟨'[', _, rfl, by decide, by decide⟩ fun other budget _ hbudget => ?_
  simp only [List.length_cons, List.length_append, List.length_nil] at hbudget
  have hbegins : BeginsEntry (inner ++ ']' :: other) :=
    (h.beginsEntry fun _ _ => ReadsAs.begins).append _
  have hskip : skip (gap ++ (inner ++ ']' :: other)) = inner ++ ']' :: other :=
    skip_gap_append hgap hbegins.beginsToken
  have hitems : readItems depth [] budget (inner ++ ']' :: other) = .ok (items, other) :=
    readItems_of_listing h [] other (by omega)
  simp only [List.cons_append, List.append_assoc, List.nil_append]
  apply readValue_array
  · rwa [hskip]
  · rw [hskip]
    exact hitems

theorem readsAs_emptyObject {gap : Text} (h : IsGap gap) :
    ReadsAs (depth + 1) ('{' :: (gap ++ ['}'])) (.object []) := by
  refine readsAs_of_step ⟨'{', _, rfl, by decide, by decide⟩ fun other budget _ _ => ?_
  rw [List.cons_append, List.append_assoc]
  apply readValue_emptyObject
  exact skip_gap_append h (beginsToken_of_ends (by decide) other)

theorem readsAs_object {gap inner : Text} {members : List (Text × Value)} (hgap : IsGap gap)
    (h : Listing IsGap (IsMember depth) inner members) :
    ReadsAs (depth + 1) ('{' :: (gap ++ (inner ++ ['}'])))
      (.object (Document.ofMembers members)) := by
  refine readsAs_of_step ⟨'{', _, rfl, by decide, by decide⟩ fun other budget _ hbudget => ?_
  simp only [List.length_cons, List.length_append, List.length_nil] at hbudget
  have hbegins : BeginsEntry (inner ++ '}' :: other) :=
    (h.beginsEntry fun _ _ => IsMember.begins).append _
  have hskip : skip (gap ++ (inner ++ '}' :: other)) = inner ++ '}' :: other :=
    skip_gap_append hgap hbegins.beginsToken
  have hmembers : readMembers depth [] budget (inner ++ '}' :: other) = .ok (members, other) :=
    readMembers_of_listing h [] other (by omega)
  simp only [List.cons_append, List.append_assoc, List.nil_append]
  apply readValue_object
  · rwa [hskip]
  · rw [hskip]
    exact hmembers

theorem readsAs_number {c : Char} (hc : c = '-' ∨ isDigit c = true)
    (h : JsonNumber.read (c :: text) = .ok (value, rest)) (hrest : EndsWord rest) :
    ∃ used, c :: text = used ++ rest ∧ (∀ d ∈ used, isWordChar d = true) ∧
      ReadsAs depth used value := by
  obtain ⟨used, hused, hne, hword, hreads⟩ := JsonNumber.read_of_endsWord h hrest
  obtain ⟨d, used, rfl⟩ := List.exists_cons_of_ne_nil hne
  obtain rfl : c = d := (List.cons.inj hused).1
  have hbegins : BeginsEntry (c :: used) :=
    beginsEntry_of_isWordChar (hword c List.mem_cons_self) used
  refine ⟨c :: used, hused, hword, readsAs_of_step hbegins fun other budget hother _ => ?_⟩
  rw [List.cons_append, readValue_number hc]
  exact hreads other hother

/-- What the reader of values can do in one step. -/
inductive ValueStep (depth budget : Nat) : Text → Value → Text → Prop
  | scalar {text rest : Text} {value : Value}
      (h : EndsWord rest → ∃ used, text = used ++ rest ∧ (∀ c ∈ used, isWordChar c = true) ∧
        ReadsAs depth used value) : ValueStep depth budget text value rest
  | string {text string rest : Text} (h : readString [] none text = .ok (string, rest)) :
      ValueStep depth budget ('"' :: text) (.string string) rest
  | emptyArray {text rest : Text} {inner : Nat} (hdepth : depth = inner + 1)
      (h : skip text = ']' :: rest) : ValueStep depth budget ('[' :: text) (.array []) rest
  | array {text rest : Text} {inner : Nat} {items : List Value} (hdepth : depth = inner + 1)
      (h : readItems inner [] budget (skip text) = .ok (items, rest)) :
      ValueStep depth budget ('[' :: text) (.array items) rest
  | emptyObject {text rest : Text} {inner : Nat} (hdepth : depth = inner + 1)
      (h : skip text = '}' :: rest) : ValueStep depth budget ('{' :: text) (.object []) rest
  | object {text rest : Text} {inner : Nat} {members : List (Text × Value)}
      (hdepth : depth = inner + 1)
      (h : readMembers inner [] budget (skip text) = .ok (members, rest)) :
      ValueStep depth budget ('{' :: text) (.object (Document.ofMembers members)) rest

theorem valueStep_word {word : Text} {found : Value} {c : Char}
    (hword : ∀ d ∈ c :: word, isWordChar d = true)
    (hread : ∀ budget other, readValue depth (budget + 1) (c :: (word ++ other)) =
      readWord value word (word ++ other))
    (h : readWord value word text = .ok (found, rest)) :
    ValueStep depth budget (c :: text) found rest := by
  obtain ⟨rfl, rfl⟩ := readWord_eq_ok_iff.mp h
  exact .scalar fun _ => ⟨c :: word, rfl, hword, readsAs_word hword hread⟩

theorem readValue_cases (h : readValue depth (budget + 1) text = .ok (value, rest))
    (hskip : skip text = text) : ValueStep depth budget text value rest := by
  rw [readValue, hskip] at h
  split at h
  · simp at h
  · refine valueStep_word (List.all_eq_true.mp (by decide)) (fun budget other => ?_) h
    rw [readValue, skip_cons_of_not_isSpace (by decide)]
    rfl
  · refine valueStep_word (List.all_eq_true.mp (by decide)) (fun budget other => ?_) h
    rw [readValue, skip_cons_of_not_isSpace (by decide)]
    rfl
  · refine valueStep_word (List.all_eq_true.mp (by decide)) (fun budget other => ?_) h
    rw [readValue, skip_cons_of_not_isSpace (by decide)]
    rfl
  · split at h
    · rename_i hstring
      obtain ⟨rfl, rfl⟩ := Prod.mk.inj (Except.ok.inj h)
      exact .string hstring
    · simp at h
  · cases depth with
    | zero => simp at h
    | succ depth =>
        dsimp only at h
        split at h
        · simp at h
        · rename_i hclose
          obtain ⟨rfl, rfl⟩ := Prod.mk.inj (Except.ok.inj h)
          exact .emptyArray rfl hclose
        · split at h
          · rename_i hitems
            obtain ⟨rfl, rfl⟩ := Prod.mk.inj (Except.ok.inj h)
            exact .array rfl hitems
          · simp at h
  · cases depth with
    | zero => simp at h
    | succ depth =>
        dsimp only at h
        split at h
        · simp at h
        · rename_i hclose
          obtain ⟨rfl, rfl⟩ := Prod.mk.inj (Except.ok.inj h)
          exact .emptyObject rfl hclose
        · split at h
          · rename_i hmembers
            obtain ⟨rfl, rfl⟩ := Prod.mk.inj (Except.ok.inj h)
            exact .object rfl hmembers
          · simp at h
  · split at h
    · rename_i hc
      exact .scalar (readsAs_number hc h)
    · simp at h

/-- An entry ends where its listing is closed or goes on. -/
theorem endsWord_of_end {close : Char} {last : Prop} {more : Text → Prop}
    (hclose : close ∈ [']', '}'])
    (h : (skip text = close :: rest ∧ last) ∨ ∃ after, skip text = ',' :: after ∧ more after) :
    EndsWord text := by
  have hends := isWordChar_of_ends (List.mem_cons_of_mem ',' (List.mem_cons_of_mem ':' hclose))
  rcases h with ⟨hskip, -⟩ | ⟨after, hskip, -⟩
  · exact endsWord_of_skip hskip hends
  · exact endsWord_of_skip hskip (by decide)

theorem Readable.value_succ (h : Readable budget)
    (hread : readValue depth (budget + 1) text = .ok (value, rest)) (hskip : skip text = text)
    (hrest : EndsWord rest) : ∃ used, text = used ++ rest ∧ ReadsAs depth used value := by
  cases readValue_cases hread hskip with
  | scalar hscalar =>
      obtain ⟨used, htext, -, hused⟩ := hscalar hrest
      exact ⟨used, htext, hused⟩
  | string hstring =>
      obtain ⟨used, rfl, -, hused⟩ := exists_of_readString hstring
      exact ⟨'"' :: used, rfl, readsAs_string hused⟩
  | emptyArray hdepth hclose =>
      subst hdepth
      obtain ⟨-, gap, rfl, hgap⟩ := exists_of_skip_eq_cons hclose
      exact ⟨'[' :: (gap ++ [']']), by simp, readsAs_emptyArray hgap⟩
  | @array text _ _ _ hdepth hitems =>
      subst hdepth
      obtain ⟨inner, listed, hinner, rfl, hlisting⟩ := h.items hitems (skip_skip text)
      obtain ⟨gap, htext, hgap⟩ := exists_gap text
      refine ⟨'[' :: (gap ++ (inner ++ [']'])), ?_, readsAs_array hgap hlisting⟩
      rw [htext, hinner]
      simp
  | emptyObject hdepth hclose =>
      subst hdepth
      obtain ⟨-, gap, rfl, hgap⟩ := exists_of_skip_eq_cons hclose
      exact ⟨'{' :: (gap ++ ['}']), by simp, readsAs_emptyObject hgap⟩
  | @object text _ _ _ hdepth hmembers =>
      subst hdepth
      obtain ⟨inner, listed, hinner, rfl, hlisting⟩ := h.members hmembers (skip_skip text)
      obtain ⟨gap, htext, hgap⟩ := exists_gap text
      refine ⟨'{' :: (gap ++ (inner ++ ['}'])), ?_, readsAs_object hgap hlisting⟩
      rw [htext, hinner]
      simp

theorem Readable.exists_member (h : Readable budget) {name named middle after : Text}
    (hname : readString [] none text = .ok (name, named)) (hcolon : skip named = ':' :: middle)
    (hvalue : readValue depth budget middle = .ok (value, after)) (hafter : EndsWord after) :
    ∃ used, '"' :: text = used ++ after ∧ IsMember depth used (name, value) := by
  obtain ⟨quoted, rfl, -, hquoted⟩ := exists_of_readString hname
  obtain ⟨-, colon, rfl, hcolonGap⟩ := exists_of_skip_eq_cons hcolon
  obtain ⟨space, hmiddle, hspace⟩ := exists_gap middle
  obtain ⟨used, hused, hreads⟩ :=
    h.value (readValue_skip_of_eq_ok hvalue) (skip_skip middle) hafter
  refine ⟨'"' :: (quoted ++ (colon ++ ':' :: (space ++ used))), ?_,
    quoted, colon, space, used, rfl, hcolonGap, hspace, hreads, hquoted⟩
  rw [hmiddle, hused]
  simp

theorem Readable.items_succ (h : Readable budget) {read items : List Value}
    (hread : readItems depth read (budget + 1) text = .ok (items, rest))
    (hskip : skip text = text) :
    ∃ inner listed, text = inner ++ ']' :: rest ∧ items = read.reverse ++ listed ∧
      Listing IsGap (ReadsAs depth) inner listed := by
  obtain ⟨item, middle, hvalue, hend⟩ := readItems_cases hread
  obtain ⟨used, rfl, hused⟩ := h.value hvalue hskip (endsWord_of_end (by decide) hend)
  rcases hend with ⟨hclose, rfl⟩ | ⟨after, hcomma, hmore⟩
  · obtain ⟨-, gap, rfl, hgap⟩ := exists_of_skip_eq_cons hclose
    exact ⟨used ++ gap, [item], by rw [List.append_assoc], by simp, .last hused hgap⟩
  · obtain ⟨-, gap, rfl, hgap⟩ := exists_of_skip_eq_cons hcomma
    obtain ⟨before, hafter, hbefore⟩ := exists_gap after
    obtain ⟨inner, listed, hinner, rfl, hlisting⟩ := h.items hmore (skip_skip after)
    refine ⟨used ++ (gap ++ ',' :: (before ++ inner)), item :: listed, ?_, by simp,
      .more hused hgap hbefore hlisting⟩
    simp only [List.append_assoc, List.cons_append]
    rw [← hinner, ← hafter]

theorem Readable.members_succ (h : Readable budget) {read members : List (Text × Value)}
    (hread : readMembers depth read (budget + 1) text = .ok (members, rest)) :
    ∃ inner listed, text = inner ++ '}' :: rest ∧ members = read.reverse ++ listed ∧
      Listing IsGap (IsMember depth) inner listed := by
  obtain ⟨text, name, named, middle, value, after, rfl, hname, hcolon, hvalue, hend⟩ :=
    readMembers_cases hread
  obtain ⟨used, hused, hmember⟩ :=
    h.exists_member hname hcolon hvalue (endsWord_of_end (by decide) hend)
  rcases hend with ⟨hclose, rfl⟩ | ⟨next, hcomma, hmore⟩
  · obtain ⟨-, gap, rfl, hgap⟩ := exists_of_skip_eq_cons hclose
    refine ⟨used ++ gap, [(name, value)], ?_, by simp, .last hmember hgap⟩
    rw [hused, List.append_assoc]
  · obtain ⟨-, gap, rfl, hgap⟩ := exists_of_skip_eq_cons hcomma
    obtain ⟨before, hnext, hbefore⟩ := exists_gap next
    obtain ⟨inner, listed, hinner, rfl, hlisting⟩ := h.members hmore (skip_skip next)
    refine ⟨used ++ (gap ++ ',' :: (before ++ inner)), (name, value) :: listed, ?_, by simp,
      .more hmember hgap hbefore hlisting⟩
    simp only [List.append_assoc, List.cons_append]
    rw [← hinner, ← hnext, hused]

theorem Readable.succ (h : Readable budget) : Readable (budget + 1) where
  value := h.value_succ
  items := h.items_succ
  members hread _ := h.members_succ hread

theorem readable (budget : Nat) : Readable budget := by
  induction budget with
  | zero =>
      constructor
      · intro depth text value rest h
        simp at h
      · intro depth read text items rest h
        simp at h
      · intro depth read text members rest h
        simp at h
  | succ budget ih => exact ih.succ

end Strict
end CommandTemplate
