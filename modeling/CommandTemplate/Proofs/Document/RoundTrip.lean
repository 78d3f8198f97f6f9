import CommandTemplate.Proofs.Document.ReadValues
import CommandTemplate.Proofs.Text.Numerals

/-!
# Reading what was written

Documents that were read from a text and written in the indented style are read back as they were,
by the strict reader and therefore by the reader of both syntaxes, whichever of them read the text.
Two things can prevent this: a floating-point number, which need not be read as the number that it
was written for, and a nesting that the strict reader does not allow.
-/

namespace CommandTemplate

namespace Value

mutual

/-- The greatest number of arrays and objects within each other. -/
def depth : Value → Nat
  | .array items => depthOfItems items + 1
  | .object fields => depthOfFields fields + 1
  | _ => 0

def depthOfItems : List Value → Nat
  | [] => 0
  | item :: items => max (depth item) (depthOfItems items)

def depthOfFields : List (Text × Value) → Nat
  | [] => 0
  | (_, value) :: fields => max (depth value) (depthOfFields fields)

end

mutual

def hasOnlyIntegers : Value → Bool
  | .float _ => false
  | .array items => itemsHaveOnlyIntegers items
  | .object fields => fieldsHaveOnlyIntegers fields
  | _ => true

def itemsHaveOnlyIntegers : List Value → Bool
  | [] => true
  | item :: items => hasOnlyIntegers item && itemsHaveOnlyIntegers items

def fieldsHaveOnlyIntegers : List (Text × Value) → Bool
  | [] => true
  | (_, value) :: fields => hasOnlyIntegers value && fieldsHaveOnlyIntegers fields

end

variable {n : Nat} {items : List Value} {fields : List (Text × Value)}

theorem depthOfItems_le_iff : depthOfItems items ≤ n ↔ ∀ item ∈ items, item.depth ≤ n := by
  induction items with
  | nil => simp [depthOfItems]
  | cons item items ih => rw [depthOfItems, Nat.max_le, ih, List.forall_mem_cons]

theorem depthOfFields_le_iff : depthOfFields fields ≤ n ↔ ∀ field ∈ fields, field.2.depth ≤ n := by
  induction fields with
  | nil => simp [depthOfFields]
  | cons field fields ih => rw [depthOfFields, Nat.max_le, ih, List.forall_mem_cons]

theorem itemsHaveOnlyIntegers_iff :
    itemsHaveOnlyIntegers items = true ↔ ∀ item ∈ items, item.hasOnlyIntegers = true := by
  induction items with
  | nil => simp [itemsHaveOnlyIntegers]
  | cons item items ih => rw [itemsHaveOnlyIntegers, Bool.and_eq_true, ih, List.forall_mem_cons]

theorem fieldsHaveOnlyIntegers_iff :
    fieldsHaveOnlyIntegers fields = true ↔ ∀ field ∈ fields, field.2.hasOnlyIntegers = true := by
  induction fields with
  | nil => simp [fieldsHaveOnlyIntegers]
  | cons field fields ih => rw [fieldsHaveOnlyIntegers, Bool.and_eq_true, ih, List.forall_mem_cons]

end Value

/-! ## Strings -/

theorem hexUnit?_hexChar {n : Nat} (h : n < 32) :
    hexUnit? '0' '0' (hexChar (n / 16)) (hexChar (n % 16)) = some n := by
  have hall : ∀ n < 32, hexUnit? '0' '0' (hexChar (n / 16)) (hexChar (n % 16)) = some n := by
    decide
  exact hall n h

theorem writeStringTail_eq_append (text rest : Text) :
    writeStringTail text rest = writeStringTail text [] ++ rest := by
  induction text with
  | nil => rfl
  | cons c text ih => rw [writeStringTail, ih, writeStringTail, List.append_assoc]

namespace Strict

/-- A character is escaped by a letter that stands for it or by its number, or it stands for
itself. -/
theorem escapeChar_cases (c : Char) :
    (∃ letter, simpleEscape? letter = some c ∧ escapeChar c = ['\\', letter]) ∨
      (c.toNat < 32 ∧ escapeChar c =
        ['\\', 'u', '0', '0', hexChar (c.toNat / 16), hexChar (c.toNat % 16)]) ∨
      (c ≠ '"' ∧ c ≠ '\\' ∧ ¬c < ' ' ∧ escapeChar c = [c]) := by
  have hletter : ∀ {d letter : Char}, c = d → simpleEscape? letter = some d →
      ∃ other, simpleEscape? other = some c ∧ ['\\', letter] = ['\\', other] := by
    rintro d letter rfl h
    exact ⟨letter, h, rfl⟩
  rw [escapeChar]
  split_ifs with hquote hescape hbackspace hfeed hnewline hreturn htab hcontrol
  · exact Or.inl (hletter hquote (by decide))
  · exact Or.inl (hletter hescape (by decide))
  · exact Or.inl (hletter hbackspace (by decide))
  · exact Or.inl (hletter hfeed (by decide))
  · exact Or.inl (hletter hnewline (by decide))
  · exact Or.inl (hletter hreturn (by decide))
  · exact Or.inl (hletter htab (by decide))
  · exact Or.inr (Or.inl ⟨hcontrol, rfl⟩)
  · exact Or.inr (Or.inr ⟨hquote, hescape, hcontrol, rfl⟩)

/-- A character is read back from what is written for it in a string. -/
theorem readString_escapeChar (c : Char) (read rest : Text) :
    readString read none (escapeChar c ++ rest) = readString (c :: read) none rest := by
  rcases escapeChar_cases c with ⟨letter, hletter, hc⟩ | ⟨hcontrol, hc⟩ | ⟨hquote, hescape, hplain, hc⟩
  · rw [hc]
    exact readString_escape hletter read rest
  · have hlow : isLowSurrogate c.toNat = false := by
      simp [isLowSurrogate]
      omega
    have hhigh : isHighSurrogate c.toNat = false := by
      simp [isHighSurrogate]
      omega
    have hchar : Char.ofNat c.toNat = c := Char.ofNat_toNat c
    rw [hc]
    simp only [List.cons_append, List.nil_append, readString_unit, hexUnit?_hexChar hcontrol, hlow,
      hhigh, Bool.false_eq_true, if_false, hchar]
  · rw [hc]
    exact readString_plain hquote hescape hplain read rest

theorem readString_writeStringTail (text read rest : Text) :
    readString read none (writeStringTail text rest) = .ok (read.reverse ++ text, rest) := by
  induction text generalizing read with
  | nil => simp [writeStringTail, readString]
  | cons c text ih =>
      rw [writeStringTail, readString_escapeChar, ih, List.reverse_cons, List.append_assoc]
      rfl

end Strict

/-! ## Integers -/

namespace JsonNumber

variable {text rest before digits : Text}

theorem gather_append_digits {taken : Nat} (hdigits : ∀ c ∈ digits, isDigit c = true)
    (hrest : EndsWord rest) (hbound : numeral 10 (before ++ digits) < wordBound) :
    gather (numeral 10 before) taken (digits ++ rest) =
      (numeral 10 (before ++ digits), taken + digits.length, rest) := by
  induction digits generalizing before taken with
  | nil =>
      cases rest with
      | nil => simp [gather]
      | cons c rest => simp [gather, digit?_of_endsWord hrest]
  | cons c digits ih =>
      rw [List.forall_mem_cons] at hdigits
      obtain ⟨d, hd⟩ := Option.isSome_iff_exists.mp hdigits.1
      have hwhole : before ++ c :: digits = (before ++ [c]) ++ digits := by simp
      rw [hwhole] at hbound ⊢
      have hfits : numeral 10 before * 10 + d < wordBound := by
        rw [← numeral_append_digit hd]
        exact lt_of_le_of_lt (numeral_le_append _ _) hbound
      rw [List.cons_append, gather, hd]
      dsimp only
      rw [if_pos hfits, ← numeral_append_digit hd, ih hdigits.2 hbound, List.length_cons]
      congr 2
      omega

theorem readAfterInteger_of_endsWord (hrest : EndsWord rest) (negative : Bool) (significand : Nat) :
    readAfterInteger negative significand 0 rest = .ok (ofInteger negative significand, rest) := by
  cases rest with
  | nil => rw [readAfterInteger_nil, if_pos rfl]
  | cons c rest =>
      have hpoint := hrest.ne (d := '.') (by decide)
      have he := hrest.ne (d := 'e') (by decide)
      have hE := hrest.ne (d := 'E') (by decide)
      rw [readAfterInteger_cons, if_neg hpoint, if_neg (by simp [he, hE]), if_pos rfl]

theorem readUnsigned_ofNat {n : Nat} (hrest : EndsWord rest) (hbound : n < wordBound)
    (negative : Bool) :
    readUnsigned negative (Text.ofNat n ++ rest) = .ok (ofInteger negative n, rest) := by
  have hnumeral := isNumeral_ofNat n
  by_cases hzero : n = 0
  · subst hzero
    have hstart : startsWithDigit rest = false := startsWithDigit_append hrest []
    have hdigit : digitChar 0 = '0' := rfl
    rw [ofNat_of_lt (by decide), hdigit, List.singleton_append, readUnsigned_cons, if_pos rfl,
      hstart]
    exact readAfterInteger_of_endsWord hrest negative 0
  · obtain ⟨c, digits, hdigits⟩ := List.exists_cons_of_ne_nil hnumeral.1
    have hc : c ≠ '0' := by
      rintro rfl
      exact ofNat_head_ne_zero (Nat.pos_of_ne_zero hzero) (by rw [hdigits]; rfl)
    have hgather : gather 0 0 (Text.ofNat n ++ rest) = (n, 0 + (Text.ofNat n).length, rest) := by
      have hnil : numeral 10 [] = 0 := rfl
      have hdigits := @gather_append_digits rest [] (Text.ofNat n) 0 hnumeral.2 hrest (by simpa)
      rwa [List.nil_append, numeral_ofNat, hnil] at hdigits
    have hdrop : rest.dropWhile isDigit = rest := dropWhile_isDigit_append hrest []
    have hall := hnumeral.2
    rw [hdigits, List.cons_append] at hgather ⊢
    rw [hdigits] at hall
    rw [readUnsigned_cons, if_neg hc, if_pos (hall c List.mem_cons_self), hgather]
    dsimp only
    rw [hdrop, Nat.sub_self]
    exact readAfterInteger_of_endsWord hrest negative n

/-- An integer of 64 bits, with or without a sign, is read back from what is written for it. -/
theorem read_ofInt {i : Int} (hrest : EndsWord rest) (hlow : -0x8000000000000000 ≤ i)
    (hhigh : i < wordBound) : read (Text.ofInt i ++ rest) = .ok (.int i, rest) := by
  have hbound : wordBound = 0x10000000000000000 := rfl
  cases i with
  | ofNat n =>
      obtain ⟨c, digits, hdigits⟩ := List.exists_cons_of_ne_nil (isNumeral_ofNat n).1
      have hc : c ≠ '-' := by
        rintro rfl
        have hdigit := (isNumeral_ofNat n).2 '-' (by rw [hdigits]; exact List.mem_cons_self)
        exact absurd hdigit (by decide)
      have hread : read (Text.ofNat n ++ rest) = readUnsigned false (Text.ofNat n ++ rest) := by
        rw [hdigits, List.cons_append, read]
        exact fun after heq => hc (List.cons.inj heq).1
      have hn : n < wordBound := Int.ofNat_lt.mp hhigh
      rw [Text.ofInt, hread, readUnsigned_ofNat hrest hn, ofInteger, if_pos (by decide)]
      rfl
  | negSucc n =>
      have hfits : fitsSigned (-((n + 1 : Nat) : Int)) = true := by
        rw [fitsSigned, Bool.and_eq_true, decide_eq_true_iff, decide_eq_true_iff]
        omega
      have hinteger : ¬(n + 1 = 0 ∨ ¬fitsSigned (-((n + 1 : Nat) : Int)) = true) := by
        rw [hfits]
        simp
      rw [Text.ofInt, List.cons_append, read, readUnsigned_ofNat hrest (by omega), ofInteger,
        if_neg (by decide), if_neg hinteger]
      rfl

end JsonNumber

/-! ## Values -/

namespace Strict

variable {depth level : Nat} {value : Value}

theorem readsAs_int {i : Int} (hlow : -0x8000000000000000 ≤ i) (hhigh : i < wordBound) :
    ReadsAs depth (Text.ofInt i) (.int i) := by
  have hread : JsonNumber.read (Text.ofInt i) = .ok (.int i, []) := by
    have hnil : EndsWord [] := by simp [EndsWord]
    have happend := JsonNumber.read_ofInt hnil hlow hhigh
    rwa [List.append_nil] at happend
  obtain ⟨c, used, hused, hc⟩ : ∃ c used, Text.ofInt i = c :: used ∧ (c = '-' ∨ isDigit c = true) := by
    cases i with
    | ofNat n =>
        obtain ⟨c, digits, hdigits⟩ := List.exists_cons_of_ne_nil (isNumeral_ofNat n).1
        refine ⟨c, digits, hdigits, Or.inr ((isNumeral_ofNat n).2 c ?_)⟩
        rw [hdigits]
        exact List.mem_cons_self
    | negSucc n => exact ⟨'-', _, rfl, Or.inl rfl⟩
  rw [hused] at hread ⊢
  obtain ⟨word, hword, -, hreads⟩ := readsAs_number hc hread (by simp [EndsWord])
  rwa [hword, List.append_nil]

/-- A value is written in the same way whatever follows it, and read back from what is written. -/
def ReadsBack (depth level : Nat) (value : Value) : Prop :=
  ∃ used, ReadsAs depth used value ∧ ∀ rest, value.writeIndented level rest = used ++ rest

theorem isGap_writeLine (level : Nat) : IsGap (writeLine level []) := by
  intro c hc
  rw [writeLine, List.append_nil] at hc
  rcases List.mem_cons.mp hc with rfl | hblank
  · decide
  · rw [List.eq_of_mem_replicate hblank]
    decide

theorem writeLine_eq_append (level : Nat) (rest : Text) :
    writeLine level rest = writeLine level [] ++ rest := by
  simp [writeLine]

theorem readsAs_writeString (text : Text) :
    ReadsAs depth ('"' :: writeStringTail text []) (.string text) := by
  refine readsAs_string fun other => ?_
  rw [← writeStringTail_eq_append]
  exact readString_writeStringTail text [] other

/-- The items of an array that are read back are written as a listing. -/
theorem exists_listing_items {item : Value} {items : List Value}
    (h : ∀ other ∈ item :: items, ReadsBack depth (level + 1) other) :
    ∃ inner, Listing IsGap (ReadsAs depth) inner (item :: items) ∧ ∀ rest,
      item.writeIndented (level + 1) (Value.writeIndentedItems level items rest) =
        inner ++ ']' :: rest := by
  induction items generalizing item with
  | nil =>
      obtain ⟨used, hreads, hwrite⟩ := h item List.mem_cons_self
      refine ⟨used ++ writeLine level [], .last hreads (isGap_writeLine level), fun rest => ?_⟩
      rw [hwrite, Value.writeIndentedItems, writeLine_eq_append, List.append_assoc]
  | cons next items ih =>
      rw [List.forall_mem_cons] at h
      obtain ⟨used, hreads, hwrite⟩ := h.1
      obtain ⟨inner, hlisting, hinner⟩ := ih h.2
      refine ⟨used ++ ([] ++ ',' :: (writeLine (level + 1) [] ++ inner)),
        .more hreads isGap_nil (isGap_writeLine (level + 1)) hlisting, fun rest => ?_⟩
      rw [hwrite, Value.writeIndentedItems, hinner, writeLine_eq_append]
      simp

theorem isMember_writeString {used : Text} (name : Text) (h : ReadsAs depth used value) :
    IsMember depth ('"' :: (writeStringTail name [] ++ ([] ++ ':' :: ([' '] ++ used))))
      (name, value) := by
  refine ⟨writeStringTail name [], [], [' '], used, rfl, isGap_nil, ?_, h, fun other => ?_⟩
  · intro c hc
    rw [List.mem_singleton.mp hc]
    decide
  · rw [← writeStringTail_eq_append]
    exact readString_writeStringTail name [] other

/-- The fields of an object that are read back are written as a listing. -/
theorem exists_listing_fields {name : Text} {fields : List (Text × Value)}
    (h : ∀ field ∈ (name, value) :: fields, ReadsBack depth (level + 1) field.2) :
    ∃ inner, Listing IsGap (IsMember depth) inner ((name, value) :: fields) ∧ ∀ rest,
      writeString name (':' :: ' ' :: value.writeIndented (level + 1)
        (Value.writeIndentedFields level fields rest)) = inner ++ '}' :: rest := by
  induction fields generalizing name value with
  | nil =>
      obtain ⟨used, hreads, hwrite⟩ := h (name, value) List.mem_cons_self
      refine ⟨_, .last (isMember_writeString name hreads) (isGap_writeLine level), fun rest => ?_⟩
      rw [hwrite, Value.writeIndentedFields, writeLine_eq_append, writeString,
        writeStringTail_eq_append]
      simp
  | cons field fields ih =>
      obtain ⟨next, other⟩ := field
      rw [List.forall_mem_cons] at h
      obtain ⟨used, hreads, hwrite⟩ := h.1
      obtain ⟨inner, hlisting, hinner⟩ := ih h.2
      refine ⟨_, .more (isMember_writeString name hreads) isGap_nil
        (isGap_writeLine (level + 1)) hlisting, fun rest => ?_⟩
      rw [hwrite, Value.writeIndentedFields, hinner, writeLine_eq_append, writeString,
        writeStringTail_eq_append]
      simp

theorem readsBack_null : ReadsBack depth level .null := by
  refine ⟨"null".toList, readsAs_word (List.all_eq_true.mp (by decide)) fun budget other => ?_,
    fun _ => rfl⟩
  rw [readValue, skip_cons_of_not_isSpace (by decide)]
  rfl

theorem readsBack_bool (b : Bool) : ReadsBack depth level (.bool b) := by
  cases b with
  | true =>
      refine ⟨"true".toList, readsAs_word (List.all_eq_true.mp (by decide)) fun budget other => ?_,
        fun _ => rfl⟩
      rw [readValue, skip_cons_of_not_isSpace (by decide)]
      rfl
  | false =>
      refine ⟨"false".toList, readsAs_word (List.all_eq_true.mp (by decide)) fun budget other => ?_,
        fun _ => rfl⟩
      rw [readValue, skip_cons_of_not_isSpace (by decide)]
      rfl

theorem readsBack_array {items : List Value}
    (h : ∀ item ∈ items, ReadsBack depth (level + 1) item) :
    ReadsBack (depth + 1) level (.array items) := by
  cases items with
  | nil => exact ⟨_, readsAs_emptyArray isGap_nil, fun _ => rfl⟩
  | cons item items =>
      obtain ⟨inner, hlisting, hinner⟩ := exists_listing_items h
      refine ⟨_, readsAs_array (isGap_writeLine (level + 1)) hlisting, fun rest => ?_⟩
      rw [Value.writeIndented, hinner, writeLine_eq_append]
      simp

theorem readsBack_object {fields : Document} (hnames : fields.names.Nodup)
    (h : ∀ field ∈ fields, ReadsBack depth (level + 1) field.2) :
    ReadsBack (depth + 1) level (.object fields) := by
  cases fields with
  | nil => exact ⟨_, readsAs_emptyObject isGap_nil, fun _ => rfl⟩
  | cons field fields =>
      obtain ⟨name, value⟩ := field
      obtain ⟨inner, hlisting, hinner⟩ := exists_listing_fields h
      have hreads := readsAs_object (isGap_writeLine (level + 1)) hlisting
      rw [Document.ofMembers_eq_self hnames] at hreads
      refine ⟨_, hreads, fun rest => ?_⟩
      rw [Value.writeIndented, hinner, writeLine_eq_append]
      simp

/-- A value that can be read, without floating-point numbers and not too deep, is read back. -/
theorem readsBack (h : value.IsReadable) (hintegers : value.hasOnlyIntegers = true)
    (hdepth : value.depth ≤ depth) (level : Nat) : ReadsBack depth level value := by
  induction h generalizing depth level with
  | null => exact readsBack_null
  | bool b => exact readsBack_bool b
  | int hlow hhigh => exact ⟨_, readsAs_int hlow hhigh, fun _ => rfl⟩
  | float x => simp [Value.hasOnlyIntegers] at hintegers
  | string text =>
      refine ⟨_, readsAs_writeString text, fun rest => ?_⟩
      exact congrArg (List.cons '"') (writeStringTail_eq_append text rest)
  | array _ ih =>
      rw [Value.hasOnlyIntegers, Value.itemsHaveOnlyIntegers_iff] at hintegers
      rw [Value.depth] at hdepth
      obtain ⟨depth, rfl⟩ : ∃ inner, depth = inner + 1 := ⟨depth - 1, by omega⟩
      have hitems := Value.depthOfItems_le_iff.mp (Nat.le_of_succ_le_succ hdepth)
      exact readsBack_array fun item hitem =>
        ih item hitem (hintegers item hitem) (hitems item hitem) (level + 1)
  | object hnames _ ih =>
      rw [Value.hasOnlyIntegers, Value.fieldsHaveOnlyIntegers_iff] at hintegers
      rw [Value.depth] at hdepth
      obtain ⟨depth, rfl⟩ : ∃ inner, depth = inner + 1 := ⟨depth - 1, by omega⟩
      have hfields := Value.depthOfFields_le_iff.mp (Nat.le_of_succ_le_succ hdepth)
      exact readsBack_object hnames fun field hfield =>
        ih field hfield (hintegers field hfield) (hfields field hfield) (level + 1)

theorem readText_of_readsAs {text : Text} (h : ReadsAs maxDepth text value) :
    readText text = .ok value := by
  have hread := h.reads [] (budget text) (by simp [EndsWord]) (by rw [budget]; omega)
  rw [List.append_nil] at hread
  rw [readText, hread]
  rfl

theorem readText_indented (h : value.IsReadable) (hintegers : value.hasOnlyIntegers = true)
    (hdepth : value.depth ≤ maxDepth) : readText value.indented = .ok value := by
  obtain ⟨used, hreads, hwrite⟩ := readsBack h hintegers hdepth 0
  rw [Value.indented, hwrite, List.append_nil]
  exact readText_of_readsAs hreads

end Strict

/-- Documents that were read, without floating-point numbers and not too deep, are read back from
their array in the indented style. -/
theorem readDocuments_indented {text : Text} {documents : List Document}
    (h : readDocuments text = .ok documents)
    (hintegers : (Document.arrayOf documents).hasOnlyIntegers = true)
    (hdepth : (Document.arrayOf documents).depth ≤ Strict.maxDepth) :
    readDocuments (Document.arrayOf documents).indented = .ok documents := by
  rw [readDocuments_eq_ok_iff, readEither_eq_ok_iff]
  exact Or.inl (Strict.readText_indented (isReadable_of_readDocuments h) hintegers hdepth)

end CommandTemplate
