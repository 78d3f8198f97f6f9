import CommandTemplate.Proofs.Document.Words

/-!
# Strict numbers

A number of the strict reader has the same value in front of every text that does not go on with it.
Each function of the reader takes characters of numbers and passes on what follows them.
-/

namespace CommandTemplate
namespace JsonNumber

/-- What is read, in front of a longer rest. -/
def inFrontOf {α ε : Type} (other : Text) (result : Except ε (α × Text)) : Option (α × Text) :=
  result.toOption.map fun read => (read.1, read.2 ++ other)

variable {text other : Text}

theorem gather_append (h : EndsWord other) (significand taken : Nat) (text : Text) :
    gather significand taken (text ++ other) =
      ((gather significand taken text).1, (gather significand taken text).2.1,
        (gather significand taken text).2.2 ++ other) := by
  induction text generalizing significand taken with
  | nil =>
      cases other with
      | nil => rfl
      | cons c rest => simp [gather, digit?_of_endsWord h]
  | cons c text ih =>
      rw [List.cons_append, gather, gather]
      cases digit? c with
      | none => rfl
      | some d =>
          dsimp only
          split
          · exact ih _ _
          · rfl

theorem takesWord_gather (significand taken : Nat) (text : Text) :
    TakesWord text (gather significand taken text).2.2 := by
  induction text generalizing significand taken with
  | nil => exact .refl _
  | cons c text ih =>
      rw [gather]
      cases hdigit : digit? c with
      | none => exact .refl _
      | some d =>
          dsimp only
          split
          · exact .cons (isWordChar_of_isDigit (by rw [isDigit, hdigit]; rfl)) (ih _ _)
          · exact .refl _

theorem startsWithDigit_append (h : EndsWord other) (text : Text) :
    startsWithDigit (text ++ other) = startsWithDigit text := by
  cases text with
  | nil =>
      cases other with
      | nil => rfl
      | cons c rest => exact isDigit_of_endsWord h
  | cons c text => rfl

theorem finish_eq (negative : Bool) (significand : Nat) (exponent : Int) (rest : Text) :
    finish negative significand exponent rest =
      match scale negative significand exponent with
      | some x => .ok (.float x, rest)
      | none => .error (.before .numberOutOfRange rest) := by
  unfold finish
  rfl

theorem toOption_finish_append (negative : Bool) (significand : Nat) (exponent : Int)
    (text other : Text) :
    (finish negative significand exponent (text ++ other)).toOption =
      inFrontOf other (finish negative significand exponent text) := by
  rw [finish_eq, finish_eq]
  generalize scale negative significand exponent = scaled
  cases scaled <;> rfl

theorem takesWord_finish {negative : Bool} {significand : Nat} {exponent : Int} {rest : Text}
    {value : Value} (h : finish negative significand exponent text = .ok (value, rest)) :
    TakesWord text rest := by
  rw [finish_eq] at h
  generalize scale negative significand exponent = scaled at h
  cases scaled with
  | none => simp at h
  | some x =>
      obtain ⟨-, rfl⟩ := Prod.mk.inj (Except.ok.inj h)
      exact .refl _

/-- The digits of an exponent, in front of a longer rest. -/
def ExponentDigits.append (other : Text) : ExponentDigits → ExponentDigits
  | .ofNat exponent rest => .ofNat exponent (rest ++ other)
  | .outOfReach rest => .outOfReach (rest ++ other)

def ExponentDigits.rest : ExponentDigits → Text
  | .ofNat _ rest => rest
  | .outOfReach rest => rest

theorem exponentDigits_append (h : EndsWord other) (exponent : Nat) (text : Text) :
    exponentDigits exponent (text ++ other) = (exponentDigits exponent text).append other := by
  induction text generalizing exponent with
  | nil =>
      cases other with
      | nil => rfl
      | cons c rest => simp [exponentDigits, digit?_of_endsWord h, ExponentDigits.append]
  | cons c text ih =>
      rw [List.cons_append, exponentDigits, exponentDigits]
      cases digit? c with
      | none => rfl
      | some d =>
          dsimp only
          split
          · exact ih _
          · rfl

theorem takesWord_exponentDigits (exponent : Nat) (text : Text) :
    TakesWord text (exponentDigits exponent text).rest := by
  induction text generalizing exponent with
  | nil => exact .refl _
  | cons c text ih =>
      rw [exponentDigits]
      cases hdigit : digit? c with
      | none => exact .refl _
      | some d =>
          have hc : isWordChar c = true := isWordChar_of_isDigit (by rw [isDigit, hdigit]; rfl)
          dsimp only
          split
          · exact .cons hc (ih _)
          · exact .cons hc (.refl _)

theorem exponentSign_append (h : EndsWord other) (text : Text) :
    exponentSign (text ++ other) = ((exponentSign text).1, (exponentSign text).2 ++ other) := by
  cases text with
  | nil =>
      cases other with
      | nil => rfl
      | cons c rest =>
          have hplus := h.ne (d := '+') (by decide)
          have hminus := h.ne (d := '-') (by decide)
          simp [exponentSign, hplus, hminus]
  | cons c text =>
      rw [List.cons_append, exponentSign.eq_def, exponentSign.eq_def]
      split <;> simp_all

theorem takesWord_exponentSign (text : Text) : TakesWord text (exponentSign text).2 := by
  rw [exponentSign.eq_def]
  split
  · exact .cons (by decide) (.refl _)
  · exact .cons (by decide) (.refl _)
  · exact .refl _

theorem toOption_readExponent_append (h : EndsWord other) (negative : Bool) (significand : Nat)
    (exponent : Int) (text : Text) :
    (readExponent negative significand exponent (text ++ other)).toOption =
      inFrontOf other (readExponent negative significand exponent text) := by
  rw [readExponent, exponentSign_append h, readExponent]
  generalize exponentSign text = signed
  rcases signed with ⟨down, _ | ⟨c, rest⟩⟩
  · cases other with
    | nil => rfl
    | cons d other => simp [isDigit_of_endsWord h, inFrontOf, Except.toOption]
  · cases hdigit : isDigit c with
    | false => simp [hdigit, inFrontOf, Except.toOption]
    | true =>
        have hdigits := exponentDigits_append h 0 (c :: rest)
        rw [List.cons_append] at hdigits
        simp only [List.cons_append, hdigit, if_true, hdigits]
        cases exponentDigits 0 (c :: rest) with
        | ofNat shift rest => exact toOption_finish_append _ _ _ _ _
        | outOfReach rest =>
            simp only [ExponentDigits.append]
            split
            · rfl
            · rw [dropWhile_isDigit_append h]
              rfl

theorem takesWord_readExponent {negative : Bool} {significand : Nat} {exponent : Int} {rest : Text}
    {value : Value} (h : readExponent negative significand exponent text = .ok (value, rest)) :
    TakesWord text rest := by
  have hsign := takesWord_exponentSign text
  rw [readExponent] at h
  generalize exponentSign text = signed at h hsign
  rcases signed with ⟨down, _ | ⟨c, signless⟩⟩
  · simp at h
  · refine hsign.trans ?_
    have hdigits := takesWord_exponentDigits 0 (c :: signless)
    dsimp only at h
    split at h
    · generalize exponentDigits 0 (c :: signless) = digits at h hdigits
      cases digits with
      | ofNat shift after => exact hdigits.trans (takesWord_finish h)
      | outOfReach after =>
          dsimp only at h
          split at h
          · simp at h
          · obtain ⟨-, rfl⟩ := Prod.mk.inj (Except.ok.inj h)
            exact hdigits.trans (.dropWhile_isDigit after)
    · simp at h

theorem readTail_cons (negative : Bool) (significand : Nat) (exponent : Int) (c : Char)
    (rest : Text) :
    readTail negative significand exponent (c :: rest) =
      if c = 'e' ∨ c = 'E' then readExponent negative significand exponent rest
      else finish negative significand exponent (c :: rest) := by
  unfold readTail
  split
  · rename_i heq
    obtain ⟨rfl, rfl⟩ := List.cons.inj heq
    rfl
  · rename_i heq
    obtain ⟨rfl, rfl⟩ := List.cons.inj heq
    rfl
  · rename_i he hE
    rw [if_neg]
    rintro (rfl | rfl)
    · exact he rest rfl
    · exact hE rest rfl

theorem toOption_readTail_append (h : EndsWord other) (negative : Bool) (significand : Nat)
    (exponent : Int) (text : Text) :
    (readTail negative significand exponent (text ++ other)).toOption =
      inFrontOf other (readTail negative significand exponent text) := by
  cases text with
  | nil =>
      have hfinish := toOption_finish_append negative significand exponent [] other
      cases other with
      | nil => exact hfinish
      | cons c rest =>
          have he := h.ne (d := 'e') (by decide)
          have hE := h.ne (d := 'E') (by decide)
          rw [List.nil_append, readTail_cons, if_neg (by simp [he, hE])]
          exact hfinish
  | cons c text =>
      rw [List.cons_append, readTail_cons, readTail_cons]
      split
      · exact toOption_readExponent_append h _ _ _ _
      · exact toOption_finish_append _ _ _ (c :: text) other

theorem takesWord_readTail {negative : Bool} {significand : Nat} {exponent : Int} {rest : Text}
    {value : Value} (h : readTail negative significand exponent text = .ok (value, rest)) :
    TakesWord text rest := by
  cases text with
  | nil => exact takesWord_finish h
  | cons c text =>
      rw [readTail_cons] at h
      split at h
      · rename_i hc
        refine .cons ?_ (takesWord_readExponent h)
        rcases hc with rfl | rfl <;> decide
      · exact takesWord_finish h

theorem toOption_readFraction_append (h : EndsWord other) (negative : Bool) (significand : Nat)
    (exponent : Int) (text : Text) :
    (readFraction negative significand exponent (text ++ other)).toOption =
      inFrontOf other (readFraction negative significand exponent text) := by
  rw [readFraction, gather_append h, readFraction]
  generalize gather significand 0 text = gathered
  rcases gathered with ⟨gathered, taken, rest⟩
  dsimp only
  rw [startsWithDigit_append h]
  split
  · rfl
  · rw [dropWhile_isDigit_append h]
    exact toOption_readTail_append h _ _ _ _

theorem takesWord_readFraction {negative : Bool} {significand : Nat} {exponent : Int} {rest : Text}
    {value : Value} (h : readFraction negative significand exponent text = .ok (value, rest)) :
    TakesWord text rest := by
  have hgather := takesWord_gather significand 0 text
  rw [readFraction] at h
  generalize gather significand 0 text = gathered at h hgather
  rcases gathered with ⟨gathered, taken, after⟩
  dsimp only at h
  split at h
  · simp at h
  · exact hgather.trans ((TakesWord.dropWhile_isDigit after).trans (takesWord_readTail h))

theorem readAfterInteger_cons (negative : Bool) (significand dropped : Nat) (c : Char)
    (rest : Text) :
    readAfterInteger negative significand dropped (c :: rest) =
      if c = '.' then readFraction negative significand dropped rest
      else if c = 'e' ∨ c = 'E' then readExponent negative significand dropped rest
      else if dropped = 0 then .ok (ofInteger negative significand, c :: rest)
      else finish negative significand dropped (c :: rest) := by
  unfold readAfterInteger
  split
  · rename_i heq
    obtain ⟨rfl, rfl⟩ := List.cons.inj heq
    rfl
  · rename_i heq
    obtain ⟨rfl, rfl⟩ := List.cons.inj heq
    rfl
  · rename_i heq
    obtain ⟨rfl, rfl⟩ := List.cons.inj heq
    rfl
  · rename_i hpoint he hE
    have hpoint' : c ≠ '.' := fun hc => hpoint rest (by rw [hc])
    have hexponent : ¬(c = 'e' ∨ c = 'E') := by
      rintro (rfl | rfl)
      · exact he rest rfl
      · exact hE rest rfl
    rw [if_neg hpoint', if_neg hexponent]

theorem readAfterInteger_nil (negative : Bool) (significand dropped : Nat) :
    readAfterInteger negative significand dropped [] =
      if dropped = 0 then .ok (ofInteger negative significand, [])
      else finish negative significand dropped [] := by
  unfold readAfterInteger
  rfl

theorem toOption_readAfterInteger_append (h : EndsWord other) (negative : Bool)
    (significand dropped : Nat) (text : Text) :
    (readAfterInteger negative significand dropped (text ++ other)).toOption =
      inFrontOf other (readAfterInteger negative significand dropped text) := by
  cases text with
  | nil =>
      have hfinish := toOption_finish_append negative significand dropped [] other
      rw [readAfterInteger_nil]
      cases other with
      | nil =>
          rw [List.append_nil, readAfterInteger_nil]
          split
          · rfl
          · exact hfinish
      | cons c rest =>
          have hpoint := h.ne (d := '.') (by decide)
          have he := h.ne (d := 'e') (by decide)
          have hE := h.ne (d := 'E') (by decide)
          rw [List.nil_append, readAfterInteger_cons, if_neg hpoint, if_neg (by simp [he, hE])]
          split
          · rfl
          · exact hfinish
  | cons c text =>
      rw [List.cons_append, readAfterInteger_cons, readAfterInteger_cons]
      split
      · exact toOption_readFraction_append h _ _ _ _
      · split
        · exact toOption_readExponent_append h _ _ _ _
        · split
          · rfl
          · exact toOption_finish_append _ _ _ (c :: text) other

theorem takesWord_readAfterInteger {negative : Bool} {significand dropped : Nat} {rest : Text}
    {value : Value} (h : readAfterInteger negative significand dropped text = .ok (value, rest)) :
    TakesWord text rest := by
  cases text with
  | nil =>
      rw [readAfterInteger_nil] at h
      split at h
      · obtain ⟨-, rfl⟩ := Prod.mk.inj (Except.ok.inj h)
        exact .refl _
      · exact takesWord_finish h
  | cons c text =>
      rw [readAfterInteger_cons] at h
      split at h
      · rename_i hc
        exact .cons (by rw [hc]; decide) (takesWord_readFraction h)
      · split at h
        · rename_i hc
          refine .cons ?_ (takesWord_readExponent h)
          rcases hc with rfl | rfl <;> decide
        · split at h
          · obtain ⟨-, rfl⟩ := Prod.mk.inj (Except.ok.inj h)
            exact .refl _
          · exact takesWord_finish h

theorem readUnsigned_cons (negative : Bool) (c : Char) (rest : Text) :
    readUnsigned negative (c :: rest) =
      if c = '0' then
        if startsWithDigit rest then .error (.next .invalidNumber rest)
        else readAfterInteger negative 0 0 rest
      else if isDigit c then
        let (significand, _, others) := gather 0 0 (c :: rest)
        let after := others.dropWhile isDigit
        readAfterInteger negative significand (others.length - after.length) after
      else
        .error (.next .invalidNumber (c :: rest)) := by
  unfold readUnsigned
  split
  · rename_i heq
    simp at heq
  · rename_i heq
    obtain ⟨rfl, rfl⟩ := List.cons.inj heq
    rfl
  · rename_i hzero heq
    obtain ⟨rfl, rfl⟩ := List.cons.inj heq
    rw [if_neg hzero]

theorem toOption_readUnsigned_append (h : EndsWord other) (negative : Bool) (text : Text) :
    (readUnsigned negative (text ++ other)).toOption =
      inFrontOf other (readUnsigned negative text) := by
  cases text with
  | nil =>
      cases other with
      | nil => rfl
      | cons c rest =>
          have hzero := h.ne (d := '0') (by decide)
          rw [List.nil_append, readUnsigned_cons, if_neg hzero,
            if_neg (by simp [isDigit_of_endsWord h])]
          rfl
  | cons c text =>
      rw [List.cons_append, readUnsigned_cons, readUnsigned_cons, startsWithDigit_append h]
      split
      · split
        · rfl
        · exact toOption_readAfterInteger_append h _ _ _ _
      · split
        · have hgather := gather_append h 0 0 (c :: text)
          rw [List.cons_append] at hgather
          rw [hgather]
          generalize gather 0 0 (c :: text) = gathered
          rcases gathered with ⟨significand, taken, others⟩
          dsimp only
          rw [dropWhile_isDigit_append h, List.length_append, List.length_append,
            Nat.add_sub_add_right]
          exact toOption_readAfterInteger_append h _ _ _ _
        · rfl

theorem takesWord_readUnsigned {negative : Bool} {rest : Text} {value : Value}
    (h : readUnsigned negative text = .ok (value, rest)) : TakesWord text rest := by
  cases text with
  | nil => simp [readUnsigned] at h
  | cons c text =>
      rw [readUnsigned_cons] at h
      split at h
      · rename_i hc
        split at h
        · simp at h
        · exact .cons (by rw [hc]; decide) (takesWord_readAfterInteger h)
      · split at h
        · have hgather := takesWord_gather 0 0 (c :: text)
          generalize gather 0 0 (c :: text) = gathered at h hgather
          rcases gathered with ⟨significand, taken, others⟩
          exact hgather.trans
            ((TakesWord.dropWhile_isDigit others).trans (takesWord_readAfterInteger h))
        · simp at h

theorem read_cons (c : Char) (rest : Text) :
    read (c :: rest) =
      if c = '-' then readUnsigned true rest else readUnsigned false (c :: rest) := by
  unfold read
  split
  · rename_i heq
    obtain ⟨rfl, rfl⟩ := List.cons.inj heq
    rfl
  · rename_i hminus
    rw [if_neg (fun hc => hminus rest (by rw [hc]))]

theorem toOption_read_append (h : EndsWord other) (text : Text) :
    (read (text ++ other)).toOption = inFrontOf other (read text) := by
  cases text with
  | nil =>
      have hunsigned := toOption_readUnsigned_append h false []
      cases other with
      | nil => exact hunsigned
      | cons c rest =>
          have hminus := h.ne (d := '-') (by decide)
          rw [List.nil_append, read_cons, if_neg hminus]
          exact hunsigned
  | cons c text =>
      rw [List.cons_append, read_cons, read_cons]
      split
      · exact toOption_readUnsigned_append h _ _
      · exact toOption_readUnsigned_append h false (c :: text)

theorem takesWord_read {rest : Text} {value : Value} (h : read text = .ok (value, rest)) :
    TakesWord text rest := by
  cases text with
  | nil =>
      have hunsigned : readUnsigned false [] = .ok (value, rest) := h
      exact takesWord_readUnsigned hunsigned
  | cons c text =>
      rw [read_cons] at h
      split at h
      · rename_i hc
        exact .cons (by rw [hc]; decide) (takesWord_readUnsigned h)
      · exact takesWord_readUnsigned h

/-- The value of a number does not depend on what follows the number. -/
theorem read_of_endsWord {rest : Text} {value : Value} (h : read text = .ok (value, rest))
    (hrest : EndsWord rest) :
    ∃ used, text = used ++ rest ∧ used ≠ [] ∧ (∀ c ∈ used, isWordChar c = true) ∧
      ∀ other, EndsWord other → read (used ++ other) = .ok (value, other) := by
  obtain ⟨used, rfl, hused⟩ := takesWord_read h
  have halone : read used = .ok (value, []) := by
    have happend := toOption_read_append hrest used
    rw [h] at happend
    cases hread : read used with
    | error fault => simp [hread, inFrontOf, Except.toOption] at happend
    | ok result =>
        rcases result with ⟨found, after⟩
        simpa [hread, inFrontOf, Except.toOption] using happend.symm
  refine ⟨used, rfl, ?_, hused, ?_⟩
  · rintro rfl
    simp [read, readUnsigned] at halone
  · intro other hother
    have happend := toOption_read_append hother used
    rw [halone] at happend
    cases hread : read (used ++ other) with
    | error fault => simp [hread, inFrontOf, Except.toOption] at happend
    | ok result => simpa [hread, inFrontOf, Except.toOption] using happend

end JsonNumber
end CommandTemplate
