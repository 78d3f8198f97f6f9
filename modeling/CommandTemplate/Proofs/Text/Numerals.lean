import CommandTemplate.Text.Natural
import Mathlib.Data.List.Basic
import Mathlib.Data.List.Induction

/-!
# Numerals

A numeral is a text of decimal digits.  Reading accepts the numerals whose value is below the bound,
with or without a `+`, and the numeral that is written for a number has its value.
-/

namespace CommandTemplate

/-- A text of decimal digits, of which there is at least one. -/
def IsNumeral (digits : Text) : Prop :=
  digits ≠ [] ∧ ∀ c ∈ digits, isDigit c = true

instance (digits : Text) : Decidable (IsNumeral digits) :=
  inferInstanceAs (Decidable (_ ∧ _))

/-! ## Values -/

theorem hexDigit?_of_isDigit {c : Char} (h : isDigit c = true) : hexDigit? c = digit? c := by
  have hrange := isDigit_iff.mp h
  rw [hexDigit?, digit?, if_pos hrange, if_pos hrange]

theorem numeral_append_singleton (base : Nat) (digits : Text) (c : Char) :
    numeral base (digits ++ [c]) = numeral base digits * base + (hexDigit? c).getD 0 := by
  rw [numeral, List.foldl_append]
  rfl

theorem numeral_append_digit {c : Char} {d : Nat} (h : digit? c = some d) (digits : Text) :
    numeral 10 (digits ++ [c]) = numeral 10 digits * 10 + d := by
  have hdigit : isDigit c = true := by rw [isDigit, h]; rfl
  rw [numeral_append_singleton, hexDigit?_of_isDigit hdigit, h, Option.getD_some]

theorem numeral_le_append (digits others : Text) :
    numeral 10 digits ≤ numeral 10 (digits ++ others) := by
  induction others using List.reverseRecOn with
  | nil => simp
  | append_singleton others c ih =>
      rw [← List.append_assoc, numeral_append_singleton]
      omega

/-! ## Reading -/

/-- What follows a numeral is read if it has digits only and the value of the whole stays below the
bound. -/
theorem readDigits_eq_ok_iff {bound n : Nat} {before text : Text}
    (hbefore : numeral 10 before < bound) :
    readDigits bound (numeral 10 before) text = .ok n ↔
      (∀ c ∈ text, isDigit c = true) ∧ numeral 10 (before ++ text) = n ∧ n < bound := by
  induction text generalizing before with
  | nil =>
      simp only [readDigits, Except.ok.injEq, List.not_mem_nil, false_implies, implies_true,
        List.append_nil, true_and]
      refine (and_iff_left_of_imp ?_).symm
      rintro rfl
      exact hbefore
  | cons c rest ih =>
      rw [readDigits, List.forall_mem_cons]
      cases hdigit : digit? c with
      | none => simp [isDigit, hdigit]
      | some d =>
          have hc : isDigit c = true := by rw [isDigit, hdigit]; rfl
          have hwhole : before ++ c :: rest = (before ++ [c]) ++ rest := by simp
          simp only [← numeral_append_digit hdigit before, hc, true_and, hwhole]
          split
          · rename_i hfits
            exact ih hfits
          · rename_i hfits
            have hle := numeral_le_append (before ++ [c]) rest
            constructor
            · intro h
              simp at h
            · rintro ⟨-, rfl, hn⟩
              omega

theorem readDigits_zero_eq_ok_iff {bound n : Nat} {text : Text} (hbound : 0 < bound) :
    readDigits bound 0 text = .ok n ↔
      (∀ c ∈ text, isDigit c = true) ∧ numeral 10 text = n ∧ n < bound :=
  @readDigits_eq_ok_iff bound n [] text hbound

/-- A number is read from a numeral below the bound, in front of which a `+` may stand. -/
theorem readNatural_eq_ok_iff {bound n : Nat} {text : Text} (hbound : 0 < bound) :
    readNatural bound text = .ok n ↔
      ∃ digits, (text = digits ∨ text = '+' :: digits) ∧ IsNumeral digits ∧
        numeral 10 digits = n ∧ n < bound := by
  have hsign : isDigit '+' = false := by decide
  have hplus : ∀ rest, ¬IsNumeral ('+' :: rest) := fun rest h => by
    simp [h.2 '+' List.mem_cons_self] at hsign
  unfold readNatural
  split
  · simp [IsNumeral]
  · simp [IsNumeral, hsign]
  · rename_i digits hdigits
    have hne : digits ≠ [] := fun hnil => hdigits (by rw [hnil])
    rw [readDigits_zero_eq_ok_iff hbound]
    constructor
    · rintro ⟨hall, hn⟩
      exact ⟨digits, Or.inr rfl, ⟨hne, hall⟩, hn⟩
    · rintro ⟨others, rfl | heq, hnumeral, hn⟩
      · exact absurd hnumeral (hplus digits)
      · rw [(List.cons.inj heq).2]
        exact ⟨hnumeral.2, hn⟩
  · rename_i hnil _ hother
    rw [readDigits_zero_eq_ok_iff hbound]
    constructor
    · rintro ⟨hall, hn⟩
      exact ⟨_, Or.inl rfl, ⟨hnil, hall⟩, hn⟩
    · rintro ⟨others, rfl | rfl, hnumeral, hn⟩
      · exact ⟨hnumeral.2, hn⟩
      · exact absurd rfl (hother others)

/-! ## Writing -/

theorem digit?_digitChar {d : Nat} (h : d < 10) : digit? (digitChar d) = some d := by
  have hall : ∀ d < 10, digit? (digitChar d) = some d := by decide
  exact hall d h

theorem isDigit_digitChar {d : Nat} (h : d < 10) : isDigit (digitChar d) = true := by
  rw [isDigit, digit?_digitChar h]
  rfl

theorem writeNatural_eq_append (n : Nat) (rest : Text) :
    writeNatural n rest = Text.ofNat n ++ rest := by
  induction n using Nat.strongRecOn generalizing rest with
  | _ n ih =>
      rw [Text.ofNat, writeNatural.eq_def n rest, writeNatural.eq_def n []]
      split
      · rfl
      · rw [ih (n / 10) (by omega), ih (n / 10) (by omega), List.append_assoc]
        rfl

theorem ofNat_of_lt {n : Nat} (h : n < 10) : Text.ofNat n = [digitChar n] := by
  rw [Text.ofNat, writeNatural, if_pos h]

theorem ofNat_of_le {n : Nat} (h : 10 ≤ n) :
    Text.ofNat n = Text.ofNat (n / 10) ++ [digitChar (n % 10)] := by
  rw [Text.ofNat, writeNatural, if_neg (by omega), writeNatural_eq_append]

theorem isNumeral_ofNat (n : Nat) : IsNumeral (Text.ofNat n) := by
  induction n using Nat.strongRecOn with
  | _ n ih =>
      by_cases hsmall : n < 10
      · rw [ofNat_of_lt hsmall]
        exact ⟨by simp, by simpa using isDigit_digitChar hsmall⟩
      · rw [ofNat_of_le (by omega)]
        refine ⟨by simp, ?_⟩
        rw [List.forall_mem_append, List.forall_mem_singleton]
        exact ⟨(ih (n / 10) (by omega)).2, isDigit_digitChar (by omega)⟩

@[simp] theorem numeral_ofNat (n : Nat) : numeral 10 (Text.ofNat n) = n := by
  induction n using Nat.strongRecOn with
  | _ n ih =>
      by_cases hsmall : n < 10
      · have hdigit := numeral_append_digit (digit?_digitChar hsmall) []
        rw [ofNat_of_lt hsmall]
        simpa [numeral] using hdigit
      · rw [ofNat_of_le (by omega), numeral_append_digit (digit?_digitChar (by omega)),
          ih (n / 10) (by omega)]
        omega

/-- A numeral that is written begins with a zero only for the number zero. -/
theorem ofNat_head_ne_zero {n : Nat} (h : 0 < n) : (Text.ofNat n).head? ≠ some '0' := by
  induction n using Nat.strongRecOn with
  | _ n ih =>
      by_cases hsmall : n < 10
      · rw [ofNat_of_lt hsmall, List.head?_cons]
        intro heq
        have hdigit := digit?_digitChar hsmall
        rw [Option.some.inj heq] at hdigit
        have hzero : digit? '0' = some 0 := by decide
        rw [hzero] at hdigit
        have := Option.some.inj hdigit
        omega
      · rw [ofNat_of_le (by omega), List.head?_append_of_ne_nil _ (isNumeral_ofNat _).1]
        exact ih (n / 10) (by omega) (by omega)

end CommandTemplate
