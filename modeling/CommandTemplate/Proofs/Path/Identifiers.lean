import CommandTemplate.Path.Basic
import Mathlib.Data.Char
import Mathlib.Data.List.Shortlex
import Mathlib.Tactic.Ring

/-!
# Identifiers as numerals

The identifier of an index is written from its last letter on: as long as the number is not below
26, its remainder gives a letter, and its quotient, less one, is the number for the letters in
front.  Read in base 26 with letters that count from one, a word has the same value before and after
each such round, and the words of lower-case letters are ordered by their values as they are by
length and then by the alphabet.  So every word is the identifier of exactly one index, and the
identifiers come in this order.
-/

namespace CommandTemplate

def IsLowerCase (text : Text) : Prop :=
  ∀ c ∈ text, 'a' ≤ c ∧ c ≤ 'z'

def IsIdentifier (word : Text) : Prop :=
  word ≠ [] ∧ IsLowerCase word

/-- The value of a word by its places: a letter counts one more than its place in the alphabet,
times the power of 26 that belongs to its position, counted from the end of the word. -/
def placeValue (word : Text) : Nat :=
  (word.reverse.zipIdx.map fun (c, position) => (c.toNat - 'a'.toNat + 1) * 26 ^ position).sum

/-- The rounds that write the word of an index in front of the letters that are there.  The round of
a number that is not below 26 takes one from its quotient, which must not be zero. -/
inductive WritesIdentifier : Nat → Text → Text → Prop
  | last {index : Nat} {rest : Text} : index < 26 →
      WritesIdentifier index rest (letter index :: rest)
  | carry {index left : Nat} {rest word : Text} : 26 ≤ index → index / 26 = left + 1 →
      WritesIdentifier left (letter (index % 26) :: rest) word → WritesIdentifier index rest word

/-! ## Letters -/

theorem toNat_letter {digit : Nat} (h : digit < 26) : (letter digit).toNat = 'a'.toNat + digit := by
  have hall : ∀ digit < 26, (letter digit).toNat = 'a'.toNat + digit := by decide
  exact hall digit h

theorem letter_range {digit : Nat} (h : digit < 26) : 'a' ≤ letter digit ∧ letter digit ≤ 'z' := by
  have hall : ∀ digit < 26, 'a' ≤ letter digit ∧ letter digit ≤ 'z' := by decide
  exact hall digit h

theorem isLowerCase_cons {c : Char} {rest : Text} :
    IsLowerCase (c :: rest) ↔ ('a' ≤ c ∧ c ≤ 'z') ∧ IsLowerCase rest :=
  List.forall_mem_cons

/-- What a letter counts is at least one and at most 26. -/
theorem letterCount_range {c : Char} (h : 'a' ≤ c ∧ c ≤ 'z') :
    1 ≤ c.toNat - 'a'.toNat + 1 ∧ c.toNat - 'a'.toNat + 1 ≤ 26 := by
  have hhigh : c.toNat ≤ 122 := h.2
  have hlow : 'a'.toNat = 97 := rfl
  omega

/-! ## Values -/

theorem wordValue_cons (value : Nat) (c : Char) (rest : Text) :
    wordValue value (c :: rest) = wordValue (value * 26 + (c.toNat - 'a'.toNat + 1)) rest :=
  rfl

theorem wordValue_eq_add (value : Nat) (word : Text) :
    wordValue value word = value * 26 ^ word.length + wordValue 0 word := by
  induction word generalizing value with
  | nil => simp [wordValue]
  | cons c rest ih =>
      rw [wordValue_cons, wordValue_cons 0, ih, ih (0 * 26 + _), List.length_cons]
      ring

/-- The first letter counts in front of all the others. -/
theorem wordValue_zero_cons (c : Char) (rest : Text) :
    wordValue 0 (c :: rest) =
      (c.toNat - 'a'.toNat + 1) * 26 ^ rest.length + wordValue 0 rest := by
  rw [wordValue_cons, wordValue_eq_add, Nat.zero_mul, Nat.zero_add]

theorem placeValue_eq_wordValue (word : Text) : placeValue word = wordValue 0 word := by
  induction word with
  | nil => rfl
  | cons c rest ih =>
      rw [wordValue_zero_cons, ← ih, placeValue, List.reverse_cons, List.zipIdx_append,
        List.map_append, List.sum_append, ← placeValue]
      simp [Nat.add_comm]

/-- The values of the words of one length lie between those of shorter and those of longer words. -/
theorem wordValue_bounds {word : Text} (h : IsLowerCase word) :
    26 ^ word.length ≤ 25 * wordValue 0 word + 1 ∧
      25 * wordValue 0 word + 26 ≤ 26 * 26 ^ word.length := by
  induction word with
  | nil => simp [wordValue]
  | cons c rest ih =>
      rw [isLowerCase_cons] at h
      obtain ⟨hone, hmost⟩ := letterCount_range h.1
      obtain ⟨hlow, hhigh⟩ := ih h.2
      rw [wordValue_zero_cons, List.length_cons, Nat.pow_succ]
      -- 25 times the sum of the lower powers of 26 is the next power less one
      have hleast := Nat.mul_le_mul_right (26 ^ rest.length) hone
      have hgreatest := Nat.mul_le_mul_right (26 ^ rest.length) hmost
      omega

/-! ## Writing -/

namespace WritesIdentifier

variable {index : Nat} {rest word : Text}

/-- There is always something to take one from, and the rounds come to an end. -/
theorem of_writeIdentifier (index : Nat) (rest : Text) :
    WritesIdentifier index rest (writeIdentifier index rest) := by
  induction index using Nat.strongRecOn generalizing rest with
  | _ index ih =>
      rw [writeIdentifier]
      split
      · rename_i hsmall
        exact .last hsmall
      · rename_i hlarge
        have hquotient : index / 26 = index / 26 - 1 + 1 := by omega
        exact .carry (by omega) hquotient (ih (index / 26 - 1) (by omega) _)

theorem eq_writeIdentifier (h : WritesIdentifier index rest word) :
    word = writeIdentifier index rest := by
  induction h with
  | last hsmall => rw [writeIdentifier, if_pos hsmall]
  | @carry index left rest word hlarge hquotient _ ih =>
      rw [ih, writeIdentifier.eq_def index, if_neg (by omega), hquotient, Nat.add_sub_cancel]

/-- The value of the whole word stays the same in every round. -/
theorem wordValue_eq (h : WritesIdentifier index rest word) :
    wordValue 0 word = wordValue (index + 1) rest := by
  induction h with
  | @last index rest hsmall =>
      rw [wordValue_cons, toNat_letter hsmall, Nat.zero_mul, Nat.add_sub_cancel_left, Nat.zero_add]
  | @carry index left rest word hlarge hquotient _ ih =>
      have hdigit : index % 26 < 26 := Nat.mod_lt _ (by decide)
      have hvalue : (left + 1) * 26 + (index % 26 + 1) = index + 1 := by omega
      rw [ih, wordValue_cons, toNat_letter hdigit, Nat.add_sub_cancel_left, hvalue]

theorem isIdentifier (h : WritesIdentifier index rest word) (hrest : IsLowerCase rest) :
    IsIdentifier word := by
  induction h with
  | last hsmall =>
      exact ⟨by simp, isLowerCase_cons.mpr ⟨letter_range hsmall, hrest⟩⟩
  | carry _ _ _ ih =>
      exact ih (isLowerCase_cons.mpr ⟨letter_range (Nat.mod_lt _ (by decide)), hrest⟩)

end WritesIdentifier

/-! ## Order -/

section

variable {word other : Text}

/-- Of two words of one length, the one that comes first in the alphabet has the smaller value. -/
theorem wordValue_lt_of_lex (h : List.Lex (· < ·) word other) (hlength : word.length = other.length)
    (hword : IsLowerCase word) (hother : IsLowerCase other) :
    wordValue 0 word < wordValue 0 other := by
  induction h with
  | nil => simp at hlength
  | @cons c rest rest' _ ih =>
      rw [isLowerCase_cons] at hword hother
      have hrest : rest.length = rest'.length := by simpa using hlength
      have hlt := ih hrest hword.2 hother.2
      rw [wordValue_zero_cons, wordValue_zero_cons, hrest]
      omega
  | @rel c rest d rest' hcd =>
      rw [isLowerCase_cons] at hword hother
      have hrest : rest.length = rest'.length := by simpa using hlength
      have hcount : c.toNat - 'a'.toNat + 1 + 1 ≤ d.toNat - 'a'.toNat + 1 := by
        have hlow : 'a'.toNat ≤ c.toNat := hword.1.1
        have hstep : c.toNat < d.toNat := hcd
        omega
      -- one step of the first letter outweighs whatever the other letters differ in
      have hfirst := Nat.mul_le_mul_right (26 ^ rest'.length) hcount
      have hhigh := (wordValue_bounds hword.2).2
      have hlow := (wordValue_bounds hother.2).1
      rw [wordValue_zero_cons, wordValue_zero_cons, hrest]
      rw [hrest] at hhigh
      rw [Nat.add_mul, Nat.one_mul] at hfirst
      omega

theorem wordValue_lt_of_length_lt (h : word.length < other.length)
    (hword : IsLowerCase word) (hother : IsLowerCase other) :
    wordValue 0 word < wordValue 0 other := by
  have hhigh := (wordValue_bounds hword).2
  have hlow := (wordValue_bounds hother).1
  have hpower : 26 ^ (word.length + 1) ≤ 26 ^ other.length := Nat.pow_le_pow_right (by decide) h
  rw [Nat.pow_succ] at hpower
  omega

theorem wordValue_lt_of_shortlex (h : List.Shortlex (· < ·) word other)
    (hword : IsLowerCase word) (hother : IsLowerCase other) :
    wordValue 0 word < wordValue 0 other := by
  rcases List.shortlex_def.mp h with hlength | ⟨hlength, hlex⟩
  · exact wordValue_lt_of_length_lt hlength hword hother
  · exact wordValue_lt_of_lex hlex hlength hword hother

/-- Different words have different values. -/
theorem eq_of_wordValue_eq (h : wordValue 0 word = wordValue 0 other)
    (hword : IsLowerCase word) (hother : IsLowerCase other) : word = other := by
  rcases trichotomous_of (List.Shortlex (· < ·)) word other with hlt | heq | hgt
  · exact absurd h (wordValue_lt_of_shortlex hlt hword hother).ne
  · exact heq
  · exact absurd h (wordValue_lt_of_shortlex hgt hother hword).ne'

/-- Words are ordered by their values as they are by length and then by the alphabet. -/
theorem wordValue_lt_iff_shortlex (hword : IsLowerCase word) (hother : IsLowerCase other) :
    wordValue 0 word < wordValue 0 other ↔ List.Shortlex (· < ·) word other := by
  constructor
  · intro h
    rcases trichotomous_of (List.Shortlex (· < ·)) word other with hlt | rfl | hgt
    · exact hlt
    · exact absurd h (Nat.lt_irrefl _)
    · exact absurd h (wordValue_lt_of_shortlex hgt hother hword).asymm
  · exact fun h => wordValue_lt_of_shortlex h hword hother

end

/-! ## Identifiers -/

theorem indexIdentifier_of_lt {index : Nat} (h : index < 26) :
    indexIdentifier index = [letter index] := by
  rw [indexIdentifier, writeIdentifier, if_pos h]

theorem isIdentifier_indexIdentifier (index : Nat) : IsIdentifier (indexIdentifier index) :=
  (WritesIdentifier.of_writeIdentifier index []).isIdentifier (by simp [IsLowerCase])

theorem wordValue_indexIdentifier (index : Nat) :
    wordValue 0 (indexIdentifier index) = index + 1 :=
  (WritesIdentifier.of_writeIdentifier index []).wordValue_eq

@[simp] theorem indexIdentifier_inj {index other : Nat} :
    indexIdentifier index = indexIdentifier other ↔ index = other := by
  constructor
  · intro h
    have hindex := wordValue_indexIdentifier index
    rw [h, wordValue_indexIdentifier] at hindex
    omega
  · rintro rfl
    rfl

/-- The rounds for an index come to an end with its identifier, without taking one from zero.  The
identifier is the one word with the value of the index, counted from one; different indices have
different identifiers, and these are ordered by length and then by the alphabet. -/
theorem indexIdentifier_enumerates_words (index : Nat) :
    (∀ word, WritesIdentifier index [] word ↔ word = indexIdentifier index) ∧
    (∀ word, IsIdentifier word ∧ placeValue word = index + 1 ↔ word = indexIdentifier index) ∧
    ∀ other, (indexIdentifier index = indexIdentifier other ↔ index = other) ∧
      (List.Shortlex (· < ·) (indexIdentifier index) (indexIdentifier other) ↔ index < other) := by
  have hidentifier := isIdentifier_indexIdentifier index
  have hvalue := wordValue_indexIdentifier index
  refine ⟨fun word => ?_, fun word => ?_, fun other => ⟨indexIdentifier_inj, ?_⟩⟩
  · constructor
    · exact WritesIdentifier.eq_writeIdentifier
    · rintro rfl
      exact .of_writeIdentifier index []
  · rw [placeValue_eq_wordValue]
    constructor
    · rintro ⟨hword, hplace⟩
      exact eq_of_wordValue_eq (hplace.trans hvalue.symm) hword.2 hidentifier.2
    · rintro rfl
      exact ⟨hidentifier, hvalue⟩
  · rw [← wordValue_lt_iff_shortlex hidentifier.2 (isIdentifier_indexIdentifier other).2, hvalue,
      wordValue_indexIdentifier]
    omega

end CommandTemplate
