import CommandTemplate.Proofs.Document.RelaxedNumbers

/-!
# Strings

In either syntax a string ends at the first quote that no backslash stands before, and what follows
the quote is not looked at.  Therefore the two readers find the same end.
-/

namespace CommandTemplate

/-- The rest of a string, up to and including its closing quote. -/
inductive ClosesString (quote : Char) : Text → Prop
  | close : ClosesString quote [quote]
  | plain {c : Char} {text : Text} (hquote : c ≠ quote) (hescape : c ≠ '\\')
      (h : ClosesString quote text) : ClosesString quote (c :: text)
  | escape {c : Char} {text : Text} (h : ClosesString quote text) :
      ClosesString quote ('\\' :: c :: text)

namespace ClosesString

variable {quote : Char} {text other rest after : Text}

theorem ne_nil (h : ClosesString quote text) : text ≠ [] := by
  cases h <;> simp

/-- A string has one end. -/
theorem rest_eq (hquote : quote ≠ '\\') (h : ClosesString quote text)
    (hother : ClosesString quote other) (heq : text ++ rest = other ++ after) : rest = after := by
  induction h generalizing other with
  | close =>
      cases hother with
      | close => exact (List.cons.inj heq).2
      | plain hne _ _ => exact absurd (List.cons.inj heq).1.symm hne
      | escape _ => exact absurd (List.cons.inj heq).1 hquote
  | plain hne hescape _ ih =>
      cases hother with
      | close => exact absurd (List.cons.inj heq).1 hne
      | plain _ _ hother => exact ih hother (List.cons.inj heq).2
      | escape _ => exact absurd (List.cons.inj heq).1 hescape
  | escape _ ih =>
      cases hother with
      | close => exact absurd (List.cons.inj heq).1.symm hquote
      | plain _ hescape _ => exact absurd (List.cons.inj heq).1.symm hescape
      | escape hother => exact ih hother (List.cons.inj (List.cons.inj heq).2).2

/-- The digits of an escape are ordinary characters of the string. -/
theorem hexDigit {c : Char} (hquote : isWordChar quote = false)
    (hc : (hexDigit? c).isSome = true) (h : ClosesString quote text) :
    ClosesString quote (c :: text) := by
  have hword := Relaxed.isWordChar_of_hexDigit? hc
  refine plain ?_ ?_ h
  · rintro rfl
    simp [hquote] at hword
  · rintro rfl
    exact absurd hword (by decide)

theorem hexUnit {a b c d : Char} {unit : Nat} (hquote : isWordChar quote = false)
    (hunit : hexUnit? a b c d = some unit) (h : ClosesString quote text) :
    ClosesString quote ('\\' :: 'u' :: a :: b :: c :: d :: text) := by
  have hdigits : (hexDigit? a).isSome = true ∧ (hexDigit? b).isSome = true ∧
      (hexDigit? c).isSome = true ∧ (hexDigit? d).isSome = true := by
    rw [hexUnit?] at hunit
    split at hunit
    · simp_all
    · simp at hunit
  obtain ⟨ha, hb, hc, hd⟩ := hdigits
  exact escape (hexDigit hquote ha (hexDigit hquote hb (hexDigit hquote hc (hexDigit hquote hd h))))

/-- Where a reader takes some characters and goes on as another one, the string that the other
reader finds is found with these characters in front.  What comes after them may matter for its
first character only. -/
theorem exists_of_step {α : Type} {read next result : Text → α} (front : Text)
    (hfront : ∀ {used}, ClosesString quote used → ClosesString quote (front ++ used))
    (hread : ∀ after : Text, after.head? = text.head? → read (front ++ after) = next after)
    (h : ∃ used, text = used ++ rest ∧ ClosesString quote used ∧
      ∀ other, next (used ++ other) = result other) :
    ∃ used, front ++ text = used ++ rest ∧ ClosesString quote used ∧
      ∀ other, read (used ++ other) = result other := by
  obtain ⟨used, rfl, hcloses, hused⟩ := h
  refine ⟨front ++ used, (List.append_assoc ..).symm, hfront hcloses, fun other => ?_⟩
  have hhead : (used ++ other).head? = (used ++ rest).head? := by
    obtain ⟨c, used, rfl⟩ := List.exists_cons_of_ne_nil hcloses.ne_nil
    rfl
  rw [List.append_assoc, hread _ hhead]
  exact hused other

end ClosesString

/-! ## The strict reader -/

namespace Strict

theorem readString_unit (read : Text) (high : Option Nat) (a b c d : Char) (rest : Text) :
    readString read high ('\\' :: 'u' :: a :: b :: c :: d :: rest) =
      match hexUnit? a b c d, high with
      | none, _ => .error (hexFault (a :: b :: c :: d :: rest))
      | some unit, some first =>
        if isLowSurrogate unit then readString (surrogatePair first unit :: read) none rest
        else .error (.before .loneSurrogate rest)
      | some unit, none =>
        if isLowSurrogate unit then .error (.before .loneSurrogate rest)
        else if isHighSurrogate unit then readString read (some unit) rest
        else readString (Char.ofNat unit :: read) none rest :=
  rfl

theorem readString_escape {c e : Char} (h : simpleEscape? c = some e) (read rest : Text) :
    readString read none ('\\' :: c :: rest) = readString (e :: read) none rest := by
  have hu : c ≠ 'u' := by
    rintro rfl
    have hnone : simpleEscape? 'u' = none := by decide
    simp [hnone] at h
  rw [readString.eq_def]
  simp [hu, h]

theorem readString_plain {c : Char} (hquote : c ≠ '"') (hescape : c ≠ '\\') (hc : ¬c < ' ')
    (read rest : Text) :
    readString read none (c :: rest) = readString (c :: read) none rest := by
  rw [readString.eq_def]
  simp [hescape, hc]

/-- A string is read in the same way whatever follows its closing quote. -/
theorem exists_of_readString {read text string rest : Text} {high : Option Nat}
    (h : readString read high text = .ok (string, rest)) :
    ∃ used, text = used ++ rest ∧ ClosesString '"' used ∧
      ∀ other, readString read high (used ++ other) = .ok (string, other) := by
  have hquote : isWordChar '"' = false := by decide
  fun_induction readString read high text with
  | case1 => simp at h
  | case2 read a b c d text unit first hunit hlow ih =>
      refine ClosesString.exists_of_step ['\\', 'u', a, b, c, d] (.hexUnit hquote hunit) ?_ (ih h)
      intro after _
      simp only [List.cons_append, List.nil_append, readString_unit, hunit, hlow, if_true]
  | case3 => simp at h
  | case4 => simp at h
  | case5 read a b c d text unit hunit hlow hhigh ih =>
      refine ClosesString.exists_of_step ['\\', 'u', a, b, c, d] (.hexUnit hquote hunit) ?_ (ih h)
      intro after _
      simp only [List.cons_append, List.nil_append, readString_unit, hunit, if_neg hlow,
        if_pos hhigh]
  | case6 read a b c d text unit hunit hlow hhigh ih =>
      refine ClosesString.exists_of_step ['\\', 'u', a, b, c, d] (.hexUnit hquote hunit) ?_ (ih h)
      intro after _
      simp only [List.cons_append, List.nil_append, readString_unit, hunit, if_neg hlow,
        if_neg hhigh]
  | case7 => simp at h
  | case8 => simp at h
  | case9 => simp at h
  | case10 read text =>
      obtain ⟨rfl, rfl⟩ := Prod.mk.inj (Except.ok.inj h)
      exact ⟨['"'], rfl, .close, fun other => rfl⟩
  | case11 => simp at h
  | case12 read c text _ e hescape _ ih =>
      exact ClosesString.exists_of_step ['\\', c] .escape
        (fun after _ => readString_escape hescape read after) (ih h)
  | case13 => simp at h
  | case14 => simp at h
  | case15 read c text hend hclose _ hescape hc _ ih =>
      have hbackslash : c ≠ '\\' := by
        rintro rfl
        cases text with
        | nil => exact hend rfl rfl
        | cons d text => exact hescape d text rfl rfl
      exact ClosesString.exists_of_step [c] (.plain hclose hbackslash)
        (fun after _ => readString_plain hclose hbackslash hc read after) (ih h)

end Strict

/-! ## The relaxed reader -/

namespace Relaxed

variable {quote : Char}

theorem readString_unit (quote : Char) (read : Text) (high : Option Nat) (a b c d : Char)
    (rest : Text) :
    readString quote read high ('\\' :: 'u' :: a :: b :: c :: d :: rest) =
      match hexUnit? a b c d with
      | none => none
      | some unit =>
        match takeUnit? read high unit with
        | some (read, high) => readString quote read high rest
        | none => none :=
  rfl

theorem readString_byte (quote : Char) (read : Text) (high : Option Nat) (a b : Char) (rest : Text) :
    readString quote read high ('\\' :: 'x' :: a :: b :: rest) =
      match high, hexDigit? a, hexDigit? b with
      | none, some x, some y => readString quote (Char.ofNat (x * 16 + y) :: read) none rest
      | _, _, _ => none :=
  rfl

theorem readString_break (quote : Char) (read : Text) (high : Option Nat) (rest : Text) :
    readString quote read high ('\\' :: '\r' :: '\n' :: rest) = readString quote read high rest :=
  rfl

theorem readString_backslash {c : Char} {rest : Text} (hunit : c ≠ 'u') (hbyte : c ≠ 'x')
    (hbreak : ¬(c = '\r' ∧ rest.head? = some '\n')) (quote : Char) (read : Text)
    (high : Option Nat) :
    readString quote read high ('\\' :: c :: rest) =
      if isLineEnd c then readString quote read high rest
      else match high, simpleEscape? c with
        | none, some e => readString quote (e :: read) none rest
        | _, _ => none := by
  rw [readString.eq_def]
  split
  · rename_i heq
    exact absurd (List.cons.inj (List.cons.inj heq).2).1 hunit
  · rename_i heq
    exact absurd (List.cons.inj (List.cons.inj heq).2).1 hbyte
  · rename_i heq
    obtain ⟨rfl, rfl⟩ := List.cons.inj (List.cons.inj heq).2
    exact absurd ⟨rfl, rfl⟩ hbreak
  · rename_i heq
    obtain ⟨rfl, rfl⟩ := List.cons.inj (List.cons.inj heq).2
    rfl
  · rename_i hnot heq
    obtain ⟨rfl, rfl⟩ := List.cons.inj heq
    exact (hnot c rest rfl rfl).elim
  · rename_i heq
    exact absurd heq (by simp)

theorem readString_lineEnd {c : Char} {rest : Text} (hc : isLineEnd c = true)
    (h : ¬(c = '\r' ∧ rest.head? = some '\n')) (quote : Char) (read : Text) (high : Option Nat) :
    readString quote read high ('\\' :: c :: rest) = readString quote read high rest := by
  have hletter : ∀ letter ∈ ['u', 'x'], c ≠ letter := by
    rintro letter hletter rfl
    have hnone : ∀ letter ∈ ['u', 'x'], isLineEnd letter = false :=
      List.all_iff_forall_prop.mp (by decide)
    simp [hnone c hletter] at hc
  rw [readString_backslash (hletter 'u' (by simp)) (hletter 'x' (by simp)) h, if_pos hc]

theorem readString_escape {c e : Char} (hline : isLineEnd c = false)
    (h : simpleEscape? c = some e) (quote : Char) (read rest : Text) :
    readString quote read none ('\\' :: c :: rest) = readString quote (e :: read) none rest := by
  have hletter : ∀ letter ∈ ['u', 'x'], c ≠ letter := by
    rintro letter hletter rfl
    have hnone : ∀ letter ∈ ['u', 'x'], simpleEscape? letter = none :=
      List.all_iff_forall_prop.mp (by decide)
    simp [hnone c hletter] at h
  have hbreak : ¬(c = '\r' ∧ rest.head? = some '\n') := by
    rintro ⟨rfl, -⟩
    exact absurd hline (by decide)
  rw [readString_backslash (hletter 'u' (by simp)) (hletter 'x' (by simp)) hbreak,
    if_neg (by simp [hline]), h]

theorem readString_plain {c : Char} (hquote : c ≠ quote) (hescape : c ≠ '\\')
    (hline : isLineEnd c = false) (read rest : Text) :
    readString quote read none (c :: rest) = readString quote (c :: read) none rest := by
  rw [readString.eq_def]
  simp [hquote, hescape, hline]

theorem quotes : ∀ quote ∈ ['"', '\x27'],
    isWordChar quote = false ∧ quote ≠ '\\' ∧ quote ≠ '\n' :=
  List.all_iff_forall_prop.mp (by decide)

/-- A string is read in the same way whatever follows its closing quote. -/
theorem exists_of_readString {read text string rest : Text} {high : Option Nat}
    (hquote : quote ∈ ['"', '\x27']) (h : readString quote read high text = some (string, rest)) :
    ∃ used, text = used ++ rest ∧ ClosesString quote used ∧
      ∀ other, readString quote read high (used ++ other) = some (string, other) := by
  obtain ⟨hword, hescape⟩ := quotes quote hquote
  fun_induction readString quote read high text with
  | case1 => simp at h
  | case2 read high a b c d text unit hunit read' high' htake ih =>
      refine ClosesString.exists_of_step ['\\', 'u', a, b, c, d] (.hexUnit hword hunit) ?_ (ih h)
      intro after _
      simp only [List.cons_append, List.nil_append, readString_unit, hunit, htake]
  | case3 => simp at h
  | case4 read a b text x y hb ha ih =>
      have ha' : (hexDigit? a).isSome = true := by rw [ha]; rfl
      have hb' : (hexDigit? b).isSome = true := by rw [hb]; rfl
      refine ClosesString.exists_of_step ['\\', 'x', a, b]
        (fun hcloses => .escape (.hexDigit hword ha' (.hexDigit hword hb' hcloses))) ?_ (ih h)
      intro after _
      simp only [List.cons_append, List.nil_append, readString_byte, ha, hb]
  | case5 => simp at h
  | case6 read high text ih =>
      exact ClosesString.exists_of_step ['\\', '\r', '\n']
        (fun hcloses => .escape (.plain hescape.2.symm (by decide) hcloses))
        (fun after _ => readString_break quote read high after) (ih h)
  | case7 read high c text _ _ hbreak hline ih =>
      refine ClosesString.exists_of_step ['\\', c] .escape (fun after hafter => ?_) (ih h)
      have hnext : ¬(c = '\r' ∧ after.head? = some '\n') := by
        rintro ⟨hc, hhead⟩
        obtain ⟨more, rfl⟩ := List.head?_eq_some_iff.mp (hafter.symm.trans hhead)
        exact hbreak more hc rfl
      exact readString_lineEnd hline hnext quote read high
  | case8 read c text _ _ _ hline e he ih =>
      exact ClosesString.exists_of_step ['\\', c] .escape
        (fun after _ => readString_escape (by simpa using hline) he quote read after) (ih h)
  | case9 => simp at h
  | case10 => simp at h
  | case11 read text =>
      obtain ⟨rfl, rfl⟩ := Prod.mk.inj (Option.some.inj h)
      refine ⟨[quote], rfl, .close, ?_⟩
      intro other
      rw [readString.eq_def]
      simp [hescape.1]
  | case12 => simp at h
  | case13 read c text _ _ _ _ hc hplain ih =>
      rw [not_or, Bool.not_eq_true] at hplain
      exact ClosesString.exists_of_step [c] (.plain hc hplain.1)
        (fun after _ => readString_plain hc hplain.1 hplain.2 read after) (ih h)
  | case14 => simp at h

/-! ## Names -/

theorem readWord_unit (read : Text) (high : Option Nat) (a b c d : Char) (rest : Text) :
    readWord read high ('\\' :: 'u' :: a :: b :: c :: d :: rest) =
      match hexUnit? a b c d with
      | none => none
      | some unit =>
        match takeUnit? read high unit with
        | some (read, high) => readWord read high rest
        | none => none :=
  rfl

/-- Whether a character goes on with a word of which some characters are read. -/
def continuesWord (read : Text) (c : Char) : Bool :=
  c.isAlpha || c = '$' || c = '_' || (read ≠ [] && isDigit c) || Text.isLetter c ||
    (read ≠ [] && Text.isMark c)

theorem readWord_cons {c : Char} (hc : c ≠ '\\') (read rest : Text) :
    readWord read none (c :: rest) =
      if continuesWord read c then readWord (c :: read) none rest
      else if read = [] then none else some (read.reverse, c :: rest) := by
  rw [readWord.eq_def]
  split
  · rename_i heq
    exact absurd (List.cons.inj heq).1 hc
  · simp only [continuesWord, Bool.or_eq_true, Bool.and_eq_true, decide_eq_true_eq]
    grind

theorem continuesWord_backslash (read : Text) : continuesWord read '\\' = false := by
  have hletter : Text.isLetter '\\' = false := by decide +kernel
  have hmark : Text.isMark '\\' = false := by decide +kernel
  have hdigit : isDigit '\\' = false := by decide
  have halpha : '\\'.isAlpha = false := by decide
  simp [continuesWord, hletter, hmark, hdigit, halpha]

/-- What follows a word is looked at only to see that the word does not go on. -/
theorem exists_of_readWord {read text name rest : Text} {high : Option Nat}
    (h : readWord read high text = some (name, rest)) (hrest : rest.head? ≠ some '\\') :
    ∃ used, text = used ++ rest ∧
      ∀ other, other.head? = rest.head? → readWord read high (used ++ other) = some (name, other) := by
  -- Four kinds of characters go on with a word, all in the same way.
  have hgrow : ∀ {read text : Text} {c : Char}, continuesWord read c = true →
      (∃ used, text = used ++ rest ∧ ∀ other, other.head? = rest.head? →
        readWord (c :: read) none (used ++ other) = some (name, other)) →
      ∃ used, c :: text = used ++ rest ∧ ∀ other, other.head? = rest.head? →
        readWord read none (used ++ other) = some (name, other) := by
    rintro read text c hword ⟨used, rfl, hused⟩
    have hc : c ≠ '\\' := by
      rintro rfl
      simp [continuesWord_backslash] at hword
    refine ⟨c :: used, rfl, fun other hother => ?_⟩
    rw [List.cons_append, readWord_cons hc, if_pos hword]
    exact hused other hother
  fun_induction readWord read high text with
  | case1 => simp at h
  | case2 read high a b c d text unit hunit read' high' htake ih =>
      obtain ⟨used, rfl, hused⟩ := ih h
      refine ⟨_ :: _ :: a :: b :: c :: d :: used, rfl, ?_⟩
      intro other hother
      simp only [List.cons_append, readWord_unit, hunit, htake]
      exact hused other hother
  | case3 => simp at h
  | case4 => simp at h
  | case5 => simp at h
  | case6 read hread =>
      obtain ⟨rfl, rfl⟩ := Prod.mk.inj (Option.some.inj h)
      refine ⟨[], rfl, ?_⟩
      intro other hother
      obtain rfl : other = [] := List.head?_eq_none_iff.mp hother
      rw [readWord.eq_def]
      simp [hread]
  | case7 read c text hc _ ih => exact hgrow (by simp [continuesWord, or_assoc, hc]) (ih h)
  | case8 read c text _ hc _ ih => exact hgrow (by simp [continuesWord, hc]) (ih h)
  | case9 read c text _ _ hc _ ih => exact hgrow (by simp [continuesWord, hc]) (ih h)
  | case10 read c text _ _ _ hc _ ih => exact hgrow (by simp [continuesWord, hc]) (ih h)
  | case11 => simp at h
  | case12 read c text hletter hdigit hother hmark hread =>
      obtain ⟨rfl, rfl⟩ := Prod.mk.inj (Option.some.inj h)
      refine ⟨[], rfl, ?_⟩
      intro other hhead
      have hc : c ≠ '\\' := fun hc => hrest (by rw [hc]; rfl)
      have hend : continuesWord read c = false := by
        simp_all [continuesWord]
      obtain ⟨after, rfl⟩ := List.head?_eq_some_iff.mp hhead
      rw [List.nil_append, readWord_cons hc, hend, if_neg hread]
      rfl

theorem readName?_of_head? {text : Text} (h : ∀ quote ∈ ['"', '\x27'], text.head? ≠ some quote) :
    readName? text = readWord [] none text := by
  cases text with
  | nil => rfl
  | cons c text =>
      have hdouble : c ≠ '"' := fun hc => h '"' (by simp) (by rw [hc]; rfl)
      have hsingle : c ≠ '\x27' := fun hc => h '\x27' (by simp) (by rw [hc]; rfl)
      unfold readName?
      split
      · exact absurd (List.cons.inj ‹_›).1 hdouble
      · exact absurd (List.cons.inj ‹_›).1 hsingle
      · rfl

/-- What follows a name does not matter but for its first character. -/
theorem exists_of_readName? {text name rest : Text} (h : readName? text = some (name, rest))
    (hrest : rest.head? ≠ some '\\') :
    ∃ used, text = used ++ rest ∧
      ∀ other, other.head? = rest.head? → readName? (used ++ other) = some (name, other) := by
  by_cases hquote : ∃ quote ∈ ['"', '\x27'], text.head? = some quote
  · obtain ⟨quote, hmem, hhead⟩ := hquote
    obtain ⟨inner, rfl⟩ := List.head?_eq_some_iff.mp hhead
    have hread : ∀ after, readName? (quote :: after) = readString quote [] none after := by
      intro after
      rcases List.mem_cons.mp hmem with rfl | hmem
      · rfl
      · obtain rfl := List.mem_singleton.mp hmem
        rfl
    rw [hread] at h
    obtain ⟨used, rfl, -, hused⟩ := exists_of_readString hmem h
    refine ⟨quote :: used, rfl, fun other _ => ?_⟩
    rw [List.cons_append, hread]
    exact hused other
  · have hword : ∀ quote ∈ ['"', '\x27'], text.head? ≠ some quote :=
      fun quote hmem hhead => hquote ⟨quote, hmem, hhead⟩
    rw [readName?_of_head? hword] at h
    obtain ⟨used, rfl, hused⟩ := exists_of_readWord h hrest
    refine ⟨used, rfl, fun other hother => ?_⟩
    have hhead : (used ++ other).head? = (used ++ rest).head? := by
      cases used with
      | nil => exact hother
      | cons c used => rfl
    rw [readName?_of_head? (by rwa [hhead])]
    exact hused other hother

end Relaxed
end CommandTemplate
