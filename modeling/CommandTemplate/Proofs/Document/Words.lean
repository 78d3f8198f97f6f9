import CommandTemplate.Document.Relaxed
import CommandTemplate.Document.Strict
import Mathlib.Data.Bool.AllAny
import Mathlib.Data.List.TakeWhile

/-!
# Words and what follows them

Numbers and words such as `null` are made of letters, digits, signs and points.  A reader that has
come to another character does not look at it: what follows a number changes neither its value nor
where it ends.
-/

namespace CommandTemplate

/-- Whether a character can be part of a number or of a word such as `null`. -/
def isWordChar (c : Char) : Bool :=
  c.isAlphanum || c = '+' || c = '-' || c = '.'

/-- No number or word goes on into the text. -/
def EndsWord (text : Text) : Prop :=
  ∀ c ∈ text.head?, isWordChar c = false

/-- A text begins with characters of numbers and words, and the other one is what follows them. -/
def TakesWord (text rest : Text) : Prop :=
  ∃ used, text = used ++ rest ∧ ∀ c ∈ used, isWordChar c = true

theorem isAlphanum_iff {c : Char} :
    c.isAlphanum = true ↔ (65 ≤ c.toNat ∧ c.toNat ≤ 90 ∨ 97 ≤ c.toNat ∧ c.toNat ≤ 122) ∨
      48 ≤ c.toNat ∧ c.toNat ≤ 57 := by
  have hranges : c.isAlphanum = (decide (c.val ≥ 'A'.val ∧ c.val ≤ 'Z'.val) ||
      (decide (c.val ≥ 'a'.val) && decide (c.val ≤ 'z'.val)) ||
      (decide (c.val ≥ '0'.val) && decide (c.val ≤ '9'.val))) := rfl
  simp only [hranges, Bool.or_eq_true, Bool.and_eq_true, decide_eq_true_eq, ge_iff_le,
    UInt32.le_iff_toNat_le]
  rfl

theorem isWordChar_of_isDigit {c : Char} (h : isDigit c = true) : isWordChar c = true := by
  have halphanum : c.isAlphanum = true := isAlphanum_iff.mpr (.inr (isDigit_iff.mp h))
  simp [isWordChar, halphanum]

theorem digit?_of_endsWord {c : Char} {rest : Text} (h : EndsWord (c :: rest)) :
    digit? c = none := by
  by_contra hnot
  have hdigit : isDigit c = true := by
    rw [isDigit, Option.isSome_iff_ne_none]
    exact hnot
  have hword := isWordChar_of_isDigit hdigit
  rw [h c rfl] at hword
  simp at hword

theorem EndsWord.ne {c d : Char} {rest : Text} (h : EndsWord (c :: rest))
    (hd : isWordChar d = true) : c ≠ d := by
  rintro rfl
  rw [h c rfl] at hd
  simp at hd

theorem isDigit_of_endsWord {c : Char} {rest : Text} (h : EndsWord (c :: rest)) :
    isDigit c = false := by
  rw [isDigit, digit?_of_endsWord h]
  rfl

namespace TakesWord

variable {text middle rest : Text} {c : Char}

theorem refl (text : Text) : TakesWord text text :=
  ⟨[], rfl, by simp⟩

theorem cons (hc : isWordChar c = true) (h : TakesWord text rest) : TakesWord (c :: text) rest := by
  obtain ⟨used, rfl, hused⟩ := h
  exact ⟨c :: used, rfl, List.forall_mem_cons.mpr ⟨hc, hused⟩⟩

theorem trans (hfirst : TakesWord text middle) (hsecond : TakesWord middle rest) :
    TakesWord text rest := by
  obtain ⟨first, rfl, hfirst⟩ := hfirst
  obtain ⟨second, rfl, hsecond⟩ := hsecond
  refine ⟨first ++ second, by rw [List.append_assoc], ?_⟩
  intro c hc
  rcases List.mem_append.mp hc with hc | hc
  · exact hfirst c hc
  · exact hsecond c hc

theorem dropWhile_isDigit (text : Text) : TakesWord text (text.dropWhile isDigit) :=
  ⟨text.takeWhile isDigit, List.takeWhile_append_dropWhile.symm,
    fun _ hc => isWordChar_of_isDigit (List.mem_takeWhile_imp hc)⟩

end TakesWord

variable {text other : Text}

theorem dropWhile_isDigit_append (h : EndsWord other) (text : Text) :
    (text ++ other).dropWhile isDigit = text.dropWhile isDigit ++ other := by
  induction text with
  | nil =>
      cases other with
      | nil => rfl
      | cons c rest => simp [isDigit_of_endsWord h]
  | cons c text ih =>
      rw [List.cons_append, List.dropWhile_cons, List.dropWhile_cons, ih]
      split <;> rfl

theorem takeWhile_isDigit_append (h : EndsWord other) (text : Text) :
    (text ++ other).takeWhile isDigit = text.takeWhile isDigit := by
  induction text with
  | nil =>
      cases other with
      | nil => rfl
      | cons c rest => simp [isDigit_of_endsWord h]
  | cons c text ih => rw [List.cons_append, List.takeWhile_cons, List.takeWhile_cons, ih]

end CommandTemplate
