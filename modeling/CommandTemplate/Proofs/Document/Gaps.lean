import CommandTemplate.Proofs.Document.Words

/-!
# Gaps between tokens

Between two tokens both readers pass over a gap: spaces, and for the relaxed reader also comments.
Where a gap ends depends only on the gap, and where both readers come to a token they come to the
same one.
-/

namespace CommandTemplate

/-- Whether a gap between tokens may begin with a character. -/
def isGapChar (c : Char) : Bool :=
  Relaxed.isSpace c || c = '/'

/-- A text begins with a token. -/
def BeginsToken (text : Text) : Prop :=
  ∃ c rest, text = c :: rest ∧ isGapChar c = false

theorem BeginsToken.cons {c : Char} (h : isGapChar c = false) (rest : Text) :
    BeginsToken (c :: rest) :=
  ⟨c, rest, rfl, h⟩

theorem BeginsToken.append {text : Text} (h : BeginsToken text) (other : Text) :
    BeginsToken (text ++ other) := by
  obtain ⟨c, rest, rfl, hc⟩ := h
  exact .cons hc _

theorem isSpace_of_isGapChar_eq_false {c : Char} (h : isGapChar c = false) :
    Relaxed.isSpace c = false := by
  rw [isGapChar, Bool.or_eq_false_iff] at h
  exact h.1

theorem ne_slash_of_isGapChar_eq_false {c : Char} (h : isGapChar c = false) : c ≠ '/' := by
  rw [isGapChar, Bool.or_eq_false_iff] at h
  exact of_decide_eq_false h.2

theorem toNat_of_isWordChar {c : Char} (h : isWordChar c = true) :
    43 ≤ c.toNat ∧ c.toNat ≤ 122 ∧ c.toNat ≠ 47 := by
  simp only [isWordChar, Bool.or_eq_true, decide_eq_true_eq] at h
  rcases h with ((h | rfl) | rfl) | rfl
  · have hranges := isAlphanum_iff.mp h
    omega
  · decide
  · decide
  · decide

theorem toNat_of_isSpace {c : Char} (h : Relaxed.isSpace c = true) :
    c.toNat ≤ 32 ∨ 160 ≤ c.toNat := by
  rw [Relaxed.isSpace, Bool.or_eq_true] at h
  rcases h with h | h
  · simp only [Text.inRanges, Relaxed.spaceRanges, List.any_cons, List.any_nil, Bool.or_eq_true,
      Bool.and_eq_true, decide_eq_true_eq, Bool.or_false] at h
    omega
  · simp only [Relaxed.isLineEnd, Bool.or_eq_true, decide_eq_true_eq] at h
    rcases h with ((rfl | rfl) | rfl) | rfl <;> decide

theorem isWordChar_of_isGapChar {c : Char} (h : isGapChar c = true) : isWordChar c = false := by
  rw [← Bool.not_eq_true]
  intro hword
  obtain ⟨hlow, hhigh, hslash⟩ := toNat_of_isWordChar hword
  rw [isGapChar, Bool.or_eq_true] at h
  rcases h with h | h
  · have hspace := toNat_of_isSpace h
    omega
  · rw [of_decide_eq_true h] at hslash
    exact hslash rfl

namespace Strict

variable {text rest gap : Text} {c : Char}

theorem skip_cons_of_isSpace (h : isSpace c = true) (text : Text) : skip (c :: text) = skip text :=
  List.dropWhile_cons_of_pos h

theorem skip_cons_of_not_isSpace (h : isSpace c = false) (text : Text) :
    skip (c :: text) = c :: text :=
  List.dropWhile_cons_of_neg (by simp [h])

theorem skip_append (h : ∀ d ∈ gap, isSpace d = true) (text : Text) :
    skip (gap ++ text) = skip text := by
  induction gap with
  | nil => rfl
  | cons d gap ih =>
      rw [List.forall_mem_cons] at h
      rw [List.cons_append, skip_cons_of_isSpace h.1, ih h.2]

theorem exists_of_skip_eq_cons (h : skip text = c :: rest) :
    isSpace c = false ∧ ∃ gap, text = gap ++ c :: rest ∧ ∀ d ∈ gap, isSpace d = true := by
  constructor
  · have hhead := List.head?_dropWhile_not isSpace text
    rw [skip] at h
    rw [h] at hhead
    simpa using hhead
  · refine ⟨text.takeWhile isSpace, ?_, fun d hd => List.mem_takeWhile_imp hd⟩
    rw [← h, skip, List.takeWhile_append_dropWhile]

@[simp] theorem skip_skip (text : Text) : skip (skip text) = skip text := by
  induction text with
  | nil => rfl
  | cons c text ih =>
      cases hc : isSpace c with
      | true => rw [skip_cons_of_isSpace hc, ih]
      | false => rw [skip_cons_of_not_isSpace hc, skip_cons_of_not_isSpace hc]

end Strict

theorem isSpace_of_strict {c : Char} (h : Strict.isSpace c = true) : Relaxed.isSpace c = true := by
  simp only [Strict.isSpace, Bool.or_eq_true, decide_eq_true_iff] at h
  rcases h with ((rfl | rfl) | rfl) | rfl <;> decide

theorem isGapChar_of_strict {c : Char} (h : Strict.isSpace c = true) : isGapChar c = true := by
  rw [isGapChar, isSpace_of_strict h, Bool.true_or]

namespace Relaxed

variable {text rest : Text} {c : Char}

theorem ne_slash_of_isSpace (h : isSpace c = true) : c ≠ '/' := by
  rintro rfl
  exact absurd h (by decide)

theorem skipFrom_space_cons_of_ne (hslash : c ≠ '/') (text : Text) :
    skipFrom .space (c :: text) =
      if isSpace c then skipFrom .space text else some (c :: text) := by
  simp [skipFrom, hslash]

theorem skipFrom_space_cons (h : isSpace c = true) (text : Text) :
    skipFrom .space (c :: text) = skipFrom .space text := by
  rw [skipFrom_space_cons_of_ne (ne_slash_of_isSpace h), if_pos h]

theorem skip_of_beginsToken (h : BeginsToken text) : skip text = some text := by
  obtain ⟨c, rest, rfl, hc⟩ := h
  have hspace := isSpace_of_isGapChar_eq_false hc
  rw [skip, skipFrom_space_cons_of_ne (ne_slash_of_isGapChar_eq_false hc), if_neg (by simp [hspace])]

theorem skipFrom_blockComment_cons (h : ¬(c = '*' ∧ text.head? = some '/')) :
    skipFrom .blockComment (c :: text) = skipFrom .blockComment text := by
  cases text with
  | nil => simp [skipFrom]
  | cons d text =>
      rw [skipFrom.eq_def]
      split
      all_goals simp_all

/-- A gap is passed over in front of every token. -/
theorem exists_of_skipFrom {gap : Gap} (h : skipFrom gap text = some (c :: rest))
    (hc : isGapChar c = false) :
    ∃ used, text = used ++ c :: rest ∧
      ∀ other, BeginsToken other → skipFrom gap (used ++ other) = some other := by
  fun_induction skipFrom gap text with
  | case1 => simp at h
  | case2 text ih =>
      obtain ⟨used, rfl, hused⟩ := ih h
      exact ⟨'/' :: '/' :: used, rfl, fun other hother => hused other hother⟩
  | case3 text ih =>
      obtain ⟨used, rfl, hused⟩ := ih h
      exact ⟨'/' :: '*' :: used, rfl, fun other hother => hused other hother⟩
  | case4 d text _ _ hspace ih =>
      obtain ⟨used, rfl, hused⟩ := ih h
      refine ⟨d :: used, rfl, fun other hother => ?_⟩
      rw [List.cons_append, skipFrom_space_cons hspace]
      exact hused other hother
  | case5 d text _ _ hspace =>
      obtain ⟨rfl, rfl⟩ := List.cons.inj (Option.some.inj h)
      exact ⟨[], rfl, fun other hother => skip_of_beginsToken hother⟩
  | case6 => simp at h
  | case7 d text ih =>
      obtain ⟨used, rfl, hused⟩ := ih h
      exact ⟨d :: used, rfl, fun other hother => hused other hother⟩
  | case8 => simp at h
  | case9 text ih =>
      obtain ⟨used, rfl, hused⟩ := ih h
      exact ⟨'*' :: '/' :: used, rfl, fun other hother => hused other hother⟩
  | case10 d text hend ih =>
      obtain ⟨used, rfl, hused⟩ := ih h
      refine ⟨d :: used, rfl, fun other hother => ?_⟩
      have hopen : ¬(d = '*' ∧ (used ++ other).head? = some '/') := by
        rintro ⟨rfl, hhead⟩
        cases used with
        | nil =>
            obtain ⟨e, rest', rfl, he⟩ := hother
            exact ne_slash_of_isGapChar_eq_false he (Option.some.inj hhead)
        | cons e used =>
            obtain rfl : e = '/' := Option.some.inj hhead
            exact hend (used ++ c :: rest) rfl rfl
      rw [List.cons_append, skipFrom_blockComment_cons hopen]
      exact hused other hother

theorem isSpace_of_skip {after : Text} (h : skip text = some after) :
    ∀ d ∈ after.head?, isSpace d = false := by
  have hgap : ∀ {gap : Gap} {text after : Text}, skipFrom gap text = some after →
      ∀ d ∈ after.head?, isSpace d = false := by
    intro gap text after h
    fun_induction skipFrom gap text with
    | case5 d text _ _ hspace =>
        obtain rfl := Option.some.inj h
        rintro e ⟨⟩
        simpa using hspace
    | _ => simp_all
  exact hgap h

theorem exists_of_skip (h : skip text = some (c :: rest)) (hc : isGapChar c = false) :
    ∃ gap, text = gap ++ c :: rest ∧
      ∀ other, BeginsToken other → skip (gap ++ other) = some other :=
  exists_of_skipFrom h hc

/-- Where the strict reader comes to a token, so does the relaxed one. -/
theorem skip_of_strict (h : Strict.skip text = c :: rest) (hc : isGapChar c = false) :
    skip text = some (c :: rest) := by
  obtain ⟨-, gap, rfl, hgap⟩ := Strict.exists_of_skip_eq_cons h
  clear h
  induction gap with
  | nil => exact skip_of_beginsToken (.cons hc rest)
  | cons d gap ih =>
      rw [List.forall_mem_cons] at hgap
      rw [List.cons_append, skip, skipFrom_space_cons (isSpace_of_strict hgap.1)]
      exact ih hgap.2

theorem endsWord_of_skip (h : skip text = some (c :: rest)) (hc : isWordChar c = false) :
    EndsWord text := by
  cases text with
  | nil => simp [EndsWord]
  | cons d text =>
      rintro e ⟨⟩
      cases hgap : isGapChar d with
      | true => exact isWordChar_of_isGapChar hgap
      | false =>
          rw [skip_of_beginsToken (.cons hgap text)] at h
          obtain ⟨rfl, -⟩ := List.cons.inj (Option.some.inj h)
          exact hc

end Relaxed

theorem Strict.endsWord_of_skip {text rest : Text} {c : Char} (h : Strict.skip text = c :: rest)
    (hc : isWordChar c = false) : EndsWord text := by
  obtain ⟨-, gap, rfl, hgap⟩ := Strict.exists_of_skip_eq_cons h
  cases gap with
  | nil => rintro e ⟨⟩; exact hc
  | cons d gap =>
      rintro e ⟨⟩
      exact isWordChar_of_isGapChar (isGapChar_of_strict (hgap d List.mem_cons_self))

end CommandTemplate
