import CommandTemplate.Proofs.Document.StrictNumbers

/-!
# Relaxed numbers and words

As in the strict reader, a number or a word that stands for a value is read in the same way in front
of every text that does not go on with it.
-/

namespace CommandTemplate
namespace Relaxed

variable {text other rest : Text}

/-- What is read, in front of a longer rest. -/
def extend {α : Type} (other : Text) (result : Option (α × Text)) : Option (α × Text) :=
  result.map fun read => (read.1, read.2 ++ other)

/-! ## Decimals -/

theorem readExponent?_cons (c : Char) (text : Text) :
    readExponent? (c :: text) =
      if c = 'e' ∨ c = 'E' then
        if (JsonNumber.exponentSign text).2.takeWhile isDigit = [] then none
        else
          let value : Int := numeral 10 ((JsonNumber.exponentSign text).2.takeWhile isDigit)
          some (if (JsonNumber.exponentSign text).1 then -value else value,
            (JsonNumber.exponentSign text).2.dropWhile isDigit)
      else none := by
  split
  · rename_i hc
    rcases hc with rfl | rfl <;> rfl
  · rename_i hc
    unfold readExponent?
    split
    split
    · rename_i heq
      exact absurd (Or.inl (List.cons.inj heq).1) hc
    · rename_i heq
      exact absurd (Or.inr (List.cons.inj heq).1) hc
    · rfl

theorem readExponent?_append (h : EndsWord other) (text : Text) :
    readExponent? (text ++ other) = extend other (readExponent? text) := by
  cases text with
  | nil =>
      cases other with
      | nil => rfl
      | cons c rest =>
          have he := h.ne (d := 'e') (by decide)
          have hE := h.ne (d := 'E') (by decide)
          rw [List.nil_append, readExponent?_cons, if_neg (by simp [he, hE])]
          rfl
  | cons c text =>
      rw [List.cons_append, readExponent?_cons, readExponent?_cons,
        JsonNumber.exponentSign_append h]
      dsimp only
      rw [takeWhile_isDigit_append h, dropWhile_isDigit_append h]
      split
      · split <;> rfl
      · rfl

theorem takesWord_readExponent? {exponent : Int} (h : readExponent? text = some (exponent, rest)) :
    TakesWord text rest := by
  cases text with
  | nil => simp [readExponent?] at h
  | cons c text =>
      rw [readExponent?_cons] at h
      split at h
      · rename_i hc
        split at h
        · simp at h
        · obtain ⟨-, rfl⟩ := Prod.mk.inj (Option.some.inj h)
          refine .cons ?_ ((JsonNumber.takesWord_exponentSign text).trans (.dropWhile_isDigit _))
          rcases hc with rfl | rfl <;> decide
      · simp at h

theorem withExponent_append (h : EndsWord other) (literal : DecimalLiteral) (text : Text) :
    withExponent literal (text ++ other) =
      ((withExponent literal text).1, (withExponent literal text).2 ++ other) := by
  rw [withExponent, readExponent?_append h, withExponent]
  cases readExponent? text <;> rfl

theorem takesWord_withExponent (literal : DecimalLiteral) (text : Text) :
    TakesWord text (withExponent literal text).2 := by
  rw [withExponent]
  cases hexponent : readExponent? text with
  | none => exact .refl _
  | some result => exact takesWord_readExponent? hexponent

theorem readInteger_cons (c : Char) (text : Text) :
    readInteger (c :: text) =
      if c = '0' then (['0'], text)
      else ((c :: text).takeWhile isDigit, (c :: text).dropWhile isDigit) := by
  unfold readInteger
  split
  · rename_i heq
    obtain ⟨rfl, rfl⟩ := List.cons.inj heq
    rfl
  · rename_i hzero
    rw [if_neg (fun hc => hzero text (by rw [hc]))]

theorem readInteger_append (h : EndsWord other) (text : Text) :
    readInteger (text ++ other) = ((readInteger text).1, (readInteger text).2 ++ other) := by
  have htake := takeWhile_isDigit_append h text
  have hdrop := dropWhile_isDigit_append h text
  cases text with
  | nil =>
      cases other with
      | nil => rfl
      | cons c rest =>
          have hzero := h.ne (d := '0') (by decide)
          rw [List.nil_append] at htake hdrop ⊢
          rw [readInteger_cons, if_neg hzero, htake, hdrop]
          rfl
  | cons c text =>
      rw [List.cons_append] at htake hdrop ⊢
      rw [readInteger_cons, readInteger_cons, htake, hdrop]
      split <;> rfl

theorem takesWord_readInteger (text : Text) : TakesWord text (readInteger text).2 := by
  cases text with
  | nil => exact .refl _
  | cons c text =>
      rw [readInteger_cons]
      split
      · rename_i hc
        exact .cons (by rw [hc]; decide) (.refl _)
      · exact .dropWhile_isDigit _

/-- The rest of a decimal after its integer digits. -/
def readAfterWhole? (whole : Text) : Text → Option (DecimalLiteral × Text)
  | '.' :: after =>
    let fraction := after.takeWhile isDigit
    if whole = [] ∧ fraction = [] then none
    else
      some (withExponent ⟨true, numeral 10 (whole ++ fraction), -(fraction.length : Int)⟩
        (after.dropWhile isDigit))
  | rest => if whole = [] then none else some (withExponent ⟨false, numeral 10 whole, 0⟩ rest)

theorem readAfterWhole?_cons (whole : Text) (c : Char) (text : Text) :
    readAfterWhole? whole (c :: text) =
      if c = '.' then
        if whole = [] ∧ text.takeWhile isDigit = [] then none
        else
          some (withExponent ⟨true, numeral 10 (whole ++ text.takeWhile isDigit),
            -((text.takeWhile isDigit).length : Int)⟩ (text.dropWhile isDigit))
      else
        if whole = [] then none
        else some (withExponent ⟨false, numeral 10 whole, 0⟩ (c :: text)) := by
  unfold readAfterWhole?
  split
  · rename_i heq
    obtain ⟨rfl, rfl⟩ := List.cons.inj heq
    rfl
  · rename_i hpoint
    have hpoint' : c ≠ '.' := fun hc => hpoint text (by rw [hc])
    rw [if_neg hpoint']

theorem readDecimal?_eq (text : Text) :
    readDecimal? text = readAfterWhole? (readInteger text).1 (readInteger text).2 := by
  rw [readDecimal?]
  generalize readInteger text = result
  rcases result with ⟨whole, rest⟩
  cases rest with
  | nil => rfl
  | cons c after =>
      rw [readAfterWhole?_cons]
      dsimp only
      split
      · rename_i heq
        obtain ⟨rfl, rfl⟩ := List.cons.inj heq
        rfl
      · rename_i hpoint
        have hpoint' : c ≠ '.' := fun hc => hpoint after (by rw [hc])
        rw [if_neg hpoint']

theorem readAfterWhole?_nil (whole : Text) :
    readAfterWhole? whole [] =
      if whole = [] then none else some (withExponent ⟨false, numeral 10 whole, 0⟩ []) :=
  rfl

theorem readAfterWhole?_append (h : EndsWord other) (whole text : Text) :
    readAfterWhole? whole (text ++ other) = extend other (readAfterWhole? whole text) := by
  cases text with
  | nil =>
      have hinteger : (if whole = [] then none
            else some (withExponent ⟨false, numeral 10 whole, 0⟩ other)) =
          extend other (if whole = [] then none
            else some (withExponent ⟨false, numeral 10 whole, 0⟩ [])) := by
        have hexponent := withExponent_append h ⟨false, numeral 10 whole, 0⟩ []
        rw [List.nil_append] at hexponent
        split
        · rfl
        · rw [hexponent]
          rfl
      cases other with
      | nil => exact hinteger
      | cons c rest =>
          have hpoint := h.ne (d := '.') (by decide)
          rw [List.nil_append, readAfterWhole?_cons, if_neg hpoint]
          exact hinteger
  | cons c text =>
      rw [List.cons_append, readAfterWhole?_cons, readAfterWhole?_cons,
        takeWhile_isDigit_append h, dropWhile_isDigit_append h, withExponent_append h,
        ← List.cons_append, withExponent_append h]
      split
      · split <;> rfl
      · split <;> rfl

theorem takesWord_readAfterWhole? {whole : Text} {literal : DecimalLiteral}
    (h : readAfterWhole? whole text = some (literal, rest)) : TakesWord text rest := by
  have hend : ∀ {literal' : DecimalLiteral} {after : Text},
      some (withExponent literal' after) = some (literal, rest) → TakesWord after rest := by
    intro literal' after heq
    have htakes := takesWord_withExponent literal' after
    rwa [Option.some.inj heq] at htakes
  cases text with
  | nil =>
      rw [readAfterWhole?_nil] at h
      split at h
      · simp at h
      · exact hend h
  | cons c text =>
      rw [readAfterWhole?_cons] at h
      split at h
      · rename_i hc
        split at h
        · simp at h
        · exact .cons (by rw [hc]; decide) ((TakesWord.dropWhile_isDigit text).trans (hend h))
      · split at h
        · simp at h
        · exact hend h

theorem readUnsigned?_append (h : EndsWord other) (negative : Bool) (text : Text) :
    readUnsigned? negative (text ++ other) = extend other (readUnsigned? negative text) := by
  rw [readUnsigned?, readUnsigned?, readDecimal?_eq, readDecimal?_eq, readInteger_append h]
  dsimp only
  rw [readAfterWhole?_append h]
  cases readAfterWhole? (readInteger text).1 (readInteger text).2 with
  | none => rfl
  | some result =>
      rcases result with ⟨literal, after⟩
      simp only [extend, Option.map_some]
      cases decimalValue? negative literal <;> rfl

theorem takesWord_readUnsigned? {negative : Bool} {value : Value}
    (h : readUnsigned? negative text = some (value, rest)) : TakesWord text rest := by
  rw [readUnsigned?, readDecimal?_eq] at h
  cases hdecimal : readAfterWhole? (readInteger text).1 (readInteger text).2 with
  | none => simp [hdecimal] at h
  | some result =>
      rcases result with ⟨literal, after⟩
      rw [hdecimal] at h
      obtain ⟨found, -, heq⟩ := Option.map_eq_some_iff.mp h
      obtain ⟨-, rfl⟩ := Prod.mk.inj heq
      exact (takesWord_readInteger text).trans (takesWord_readAfterWhole? hdecimal)

/-! ## Words and other numbers -/

theorem startsWith_append {word : Text} (hword : ∀ c ∈ word, isWordChar c = true)
    (h : EndsWord other) (text : Text) :
    Text.startsWith (text ++ other) word = Text.startsWith text word := by
  induction word generalizing text with
  | nil => simp [Text.startsWith]
  | cons d word ih =>
      rw [List.forall_mem_cons] at hword
      cases text with
      | nil =>
          cases other with
          | nil => rfl
          | cons c rest =>
              have hne := (h.ne hword.1).symm
              simp [Text.startsWith, List.isPrefixOf, hne]
      | cons c text =>
          have hrest := ih hword.2 text
          simp only [Text.startsWith, List.cons_append, List.isPrefixOf_cons_cons] at hrest ⊢
          rw [hrest]

theorem takesWord_drop {word : Text} (hword : ∀ c ∈ word, isWordChar c = true)
    (h : word <+: text) : TakesWord text (text.drop word.length) := by
  obtain ⟨after, rfl⟩ := h
  exact ⟨word, by rw [List.drop_left], hword⟩

theorem drop_append_of_startsWith {word : Text} (h : Text.startsWith text word = true)
    (other : Text) : (text ++ other).drop word.length = text.drop word.length ++ other := by
  rw [Text.startsWith, List.isPrefixOf_iff_prefix] at h
  obtain ⟨after, rfl⟩ := h
  rw [List.append_assoc, List.drop_left, List.drop_left]

/-- Reads one of several words, each of which stands for a value. -/
def readOneOf? (words : List (Text × Value)) (text : Text) : Option (Value × Text) :=
  words.findSome? fun word =>
    if text.startsWith word.1 then some (word.2, text.drop word.1.length) else none

section OneOf

variable {words : List (Text × Value)}

theorem readOneOf?_append (hwords : ∀ word ∈ words, ∀ c ∈ word.1, isWordChar c = true)
    (h : EndsWord other) (text : Text) :
    readOneOf? words (text ++ other) = extend other (readOneOf? words text) := by
  induction words with
  | nil => rfl
  | cons word words ih =>
      rw [List.forall_mem_cons] at hwords
      have hrest := ih hwords.2
      rw [readOneOf?, readOneOf?] at hrest
      rw [readOneOf?, readOneOf?, List.findSome?_cons, List.findSome?_cons,
        startsWith_append hwords.1 h, hrest]
      cases hstart : Text.startsWith text word.1 with
      | false => rfl
      | true =>
          rw [drop_append_of_startsWith hstart]
          rfl

theorem takesWord_readOneOf? (hwords : ∀ word ∈ words, ∀ c ∈ word.1, isWordChar c = true)
    {value : Value} (h : readOneOf? words text = some (value, rest)) : TakesWord text rest := by
  obtain ⟨word, hword, hread⟩ := List.exists_of_findSome?_eq_some h
  split at hread
  · rename_i hstart
    obtain ⟨-, rfl⟩ := Prod.mk.inj (Option.some.inj hread)
    exact takesWord_drop (hwords word hword) (List.isPrefixOf_iff_prefix.mp hstart)
  · simp at hread

end OneOf

theorem isWordChar_of_hexDigit? {c : Char} (h : (hexDigit? c).isSome = true) :
    isWordChar c = true := by
  have hrange : ('0' ≤ c ∧ c ≤ '9') ∨ ('a' ≤ c ∧ c ≤ 'f') ∨ ('A' ≤ c ∧ c ≤ 'F') := by
    by_contra hnot
    rw [not_or, not_or] at hnot
    simp [hexDigit?, hnot.1, hnot.2.1, hnot.2.2] at h
  have hnumbers : (48 ≤ c.toNat ∧ c.toNat ≤ 57) ∨ (97 ≤ c.toNat ∧ c.toNat ≤ 102) ∨
      (65 ≤ c.toNat ∧ c.toNat ≤ 70) := hrange
  have halphanum : c.isAlphanum = true := isAlphanum_iff.mpr (by omega)
  simp [isWordChar, halphanum]

theorem takeWhile_hexDigit_append (h : EndsWord other) (text : Text) :
    (text ++ other).takeWhile (fun c => (hexDigit? c).isSome) =
      text.takeWhile fun c => (hexDigit? c).isSome := by
  induction text with
  | nil =>
      cases other with
      | nil => rfl
      | cons c rest =>
          have hnot : (hexDigit? c).isSome = false := by
            cases hdigit : (hexDigit? c).isSome with
            | false => rfl
            | true =>
                have hword := isWordChar_of_hexDigit? hdigit
                rw [h c rfl] at hword
                exact hword.symm
          simp [hnot]
  | cons c text ih => rw [List.cons_append, List.takeWhile_cons, List.takeWhile_cons, ih]

theorem readHex?_append (h : EndsWord other) (text : Text) :
    readHex? (text ++ other) = extend other (readHex? text) := by
  have hlength : (text.takeWhile fun c => (hexDigit? c).isSome).length ≤ text.length :=
    (List.takeWhile_prefix _).length_le
  unfold readHex?
  rw [takeWhile_hexDigit_append h]
  dsimp only
  split
  · rfl
  · rw [List.drop_append_of_le_length hlength]
    rfl

theorem takesWord_readHex? {value : Value} (h : readHex? text = some (value, rest)) :
    TakesWord text rest := by
  unfold readHex? at h
  dsimp only at h
  split at h
  · simp at h
  · obtain ⟨-, rfl⟩ := Prod.mk.inj (Option.some.inj h)
    have hdigits : ∀ c ∈ text.takeWhile fun c => (hexDigit? c).isSome, isWordChar c = true := by
      intro c hc
      have hdigit := List.mem_takeWhile_imp hc
      exact isWordChar_of_hexDigit? hdigit
    exact takesWord_drop hdigits (List.takeWhile_prefix _)

theorem readNumber?_cons (c : Char) (text : Text) :
    readNumber? (c :: text) =
      if c = '+' then readUnsigned? false text
      else if c = '-' then (readNonFinite? text).orElse fun _ => readUnsigned? true text
      else if c = '0' ∧ (text.head? = some 'x' ∨ text.head? = some 'X') then
        readHex? (text.drop 1)
      else (readNonFinite? (c :: text)).orElse fun _ => readUnsigned? false (c :: text) := by
  unfold readNumber?
  split
  · rename_i heq
    obtain ⟨rfl, rfl⟩ := List.cons.inj heq
    rfl
  · rename_i heq
    obtain ⟨rfl, rfl⟩ := List.cons.inj heq
    rfl
  · rename_i heq
    obtain ⟨rfl, rfl⟩ := List.cons.inj heq
    rfl
  · rename_i heq
    obtain ⟨rfl, rfl⟩ := List.cons.inj heq
    rfl
  · rename_i hplus hminus hx hX
    have hplus' : c ≠ '+' := fun hc => hplus text (by rw [hc])
    have hminus' : c ≠ '-' := fun hc => hminus text (by rw [hc])
    have hhex : ¬(c = '0' ∧ (text.head? = some 'x' ∨ text.head? = some 'X')) := by
      rintro ⟨rfl, hhead | hhead⟩
      · obtain ⟨rest, rfl⟩ := List.head?_eq_some_iff.mp hhead
        exact hx rest rfl
      · obtain ⟨rest, rfl⟩ := List.head?_eq_some_iff.mp hhead
        exact hX rest rfl
    rw [if_neg hplus', if_neg hminus', if_neg hhex]

theorem nonFinite_words :
    ∀ word ∈ [("Infinity".toList, Value.null), ("NaN".toList, .null)],
      ∀ c ∈ word.1, isWordChar c = true := by
  simp only [List.forall_mem_cons, List.not_mem_nil, false_implies, implies_true, and_true]
  exact ⟨List.all_eq_true.mp (by decide), List.all_eq_true.mp (by decide)⟩

theorem named_words :
    ∀ word ∈ [("null".toList, Value.null), ("true".toList, .bool true),
      ("false".toList, .bool false)], ∀ c ∈ word.1, isWordChar c = true := by
  simp only [List.forall_mem_cons, List.not_mem_nil, false_implies, implies_true, and_true]
  exact ⟨List.all_eq_true.mp (by decide), List.all_eq_true.mp (by decide),
    List.all_eq_true.mp (by decide)⟩

/-- Reads a number that has no sign of its own and need not be finite. -/
def readSignless? (negative : Bool) (text : Text) : Option (Value × Text) :=
  (readNonFinite? text).orElse fun _ => readUnsigned? negative text

theorem orElse_append {first second : Text → Option (Value × Text)} {text other : Text}
    (hfirst : first (text ++ other) = extend other (first text))
    (hsecond : second (text ++ other) = extend other (second text)) :
    ((first (text ++ other)).orElse fun _ => second (text ++ other)) =
      extend other ((first text).orElse fun _ => second text) := by
  rw [hfirst, hsecond]
  cases first text <;> rfl

theorem readSignless?_append (h : EndsWord other) (negative : Bool) (text : Text) :
    readSignless? negative (text ++ other) = extend other (readSignless? negative text) :=
  orElse_append (readOneOf?_append nonFinite_words h text) (readUnsigned?_append h negative text)

theorem takesWord_orElse {first second : Option (Value × Text)} {value : Value}
    (hfirst : first = some (value, rest) → TakesWord text rest)
    (hsecond : second = some (value, rest) → TakesWord text rest)
    (h : (first.orElse fun _ => second) = some (value, rest)) : TakesWord text rest := by
  cases first with
  | none => exact hsecond h
  | some result => exact hfirst h

theorem takesWord_readSignless? {negative : Bool} {value : Value}
    (h : readSignless? negative text = some (value, rest)) : TakesWord text rest :=
  takesWord_orElse (takesWord_readOneOf? nonFinite_words) takesWord_readUnsigned? h

theorem head?_append_of_endsWord (h : EndsWord other) {d : Char} (hd : isWordChar d = true)
    (text : Text) : (text ++ other).head? = some d ↔ text.head? = some d := by
  cases text with
  | nil =>
      cases other with
      | nil => simp
      | cons c rest => simp [h.ne hd]
  | cons c text => simp

theorem readNumber?_append (h : EndsWord other) (text : Text) :
    readNumber? (text ++ other) = extend other (readNumber? text) := by
  cases text with
  | nil =>
      have hsignless := readSignless?_append h false []
      cases other with
      | nil => exact hsignless
      | cons c rest =>
          have hplus := h.ne (d := '+') (by decide)
          have hminus := h.ne (d := '-') (by decide)
          have hzero := h.ne (d := '0') (by decide)
          rw [List.nil_append, readNumber?_cons, if_neg hplus, if_neg hminus,
            if_neg (by simp [hzero])]
          exact hsignless
  | cons c text =>
      have hx := head?_append_of_endsWord h (d := 'x') (by decide) text
      have hX := head?_append_of_endsWord h (d := 'X') (by decide) text
      rw [List.cons_append, readNumber?_cons, readNumber?_cons]
      simp only [hx, hX]
      split
      · exact readUnsigned?_append h _ _
      · split
        · exact readSignless?_append h true text
        · split
          · rename_i hhex
            have hlength : 1 ≤ text.length := by
              rcases hhex.2 with hhead | hhead
              · obtain ⟨rest, rfl⟩ := List.head?_eq_some_iff.mp hhead
                simp
              · obtain ⟨rest, rfl⟩ := List.head?_eq_some_iff.mp hhead
                simp
            rw [List.drop_append_of_le_length hlength]
            exact readHex?_append h _
          · exact readSignless?_append h false (c :: text)

theorem takesWord_readNumber? {value : Value} (h : readNumber? text = some (value, rest)) :
    TakesWord text rest := by
  cases text with
  | nil =>
      have hsignless : readSignless? false [] = some (value, rest) := h
      exact takesWord_readSignless? hsignless
  | cons c text =>
      rw [readNumber?_cons] at h
      split at h
      · rename_i hc
        exact .cons (by rw [hc]; decide) (takesWord_readUnsigned? h)
      · split at h
        · rename_i hc
          have hsignless : readSignless? true text = some (value, rest) := h
          exact .cons (by rw [hc]; decide) (takesWord_readSignless? hsignless)
        · split at h
          · rename_i hhex
            refine .cons (by rw [hhex.1]; decide) ?_
            rcases hhex.2 with hhead | hhead
            · obtain ⟨after, rfl⟩ := List.head?_eq_some_iff.mp hhead
              exact .cons (by decide) (takesWord_readHex? h)
            · obtain ⟨after, rfl⟩ := List.head?_eq_some_iff.mp hhead
              exact .cons (by decide) (takesWord_readHex? h)
          · have hsignless : readSignless? false (c :: text) = some (value, rest) := h
            exact takesWord_readSignless? hsignless

/-- Reads a value that is neither a string nor an array nor an object. -/
def readScalar? (text : Text) : Option (Value × Text) :=
  (readNamed? text).orElse fun _ => readNumber? text

/-- The value of a number or a word does not depend on what follows it. -/
theorem readScalar?_of_endsWord {value : Value} (h : readScalar? text = some (value, rest))
    (hrest : EndsWord rest) :
    ∃ used, text = used ++ rest ∧ used ≠ [] ∧ (∀ c ∈ used, isWordChar c = true) ∧
      ∀ other, EndsWord other → readScalar? (used ++ other) = some (value, other) := by
  have happend : ∀ {other : Text}, EndsWord other → ∀ text : Text,
      readScalar? (text ++ other) = extend other (readScalar? text) :=
    fun hother text =>
      orElse_append (readOneOf?_append named_words hother text) (readNumber?_append hother text)
  obtain ⟨used, rfl, hused⟩ : TakesWord text rest :=
    takesWord_orElse (takesWord_readOneOf? named_words) takesWord_readNumber? h
  have halone : readScalar? used = some (value, []) := by
    rw [happend hrest used, extend, Option.map_eq_some_iff] at h
    obtain ⟨⟨found, after⟩, hread, heq⟩ := h
    obtain ⟨rfl, hafter⟩ := Prod.mk.inj heq
    obtain rfl : after = [] := List.append_left_eq_self.mp hafter
    exact hread
  refine ⟨used, rfl, ?_, hused, ?_⟩
  · rintro rfl
    have hnone : readScalar? [] = none := by decide
    simp [hnone] at halone
  · intro other hother
    rw [happend hother, halone]
    rfl

end Relaxed
end CommandTemplate
