import CommandTemplate.Proofs.Document.Agreement
import CommandTemplate.Proofs.Tag.Ends
import Mathlib.Data.List.Forall2

/-!
# The inside of an array

Between the brackets of an array there is a gap or a listing behind a gap.  This describes which
texts in square brackets a reader takes for an array, and so what can be put into one.
-/

namespace CommandTemplate

open Text

/-- What stands between the brackets of an array: nothing but a gap, or entries behind a gap. -/
inductive Interior {α : Type} (gap : Text → Prop) (entry : Text → α → Prop) : Text → List α → Prop
  | empty {text : Text} (h : gap text) : Interior gap entry text []
  | items {before text : Text} {as : List α} (hbefore : gap before)
      (h : Listing gap entry text as) : Interior gap entry (before ++ text) as

section

variable {α : Type} {gap : Text → Prop} {entry : Text → α → Prop} {text other : Text}
  {as bs : List α}

theorem Listing.ne_nil (h : Listing gap entry text as) : as ≠ [] := by
  cases h <;> simp

/-- Entries with commas between them make a listing. -/
theorem Listing.join {texts : List Text} (hnil : gap [])
    (h : List.Forall₂ (fun text a => Listing gap entry text [a]) texts as) (hne : texts ≠ []) :
    Listing gap entry (Text.join [','] texts) as := by
  induction h with
  | nil => exact absurd rfl hne
  | cons hentry hrest ih =>
      cases hrest with
      | nil => simpa [Text.join] using hentry
      | cons hnext hrest =>
          rw [join_cons_cons]
          exact hentry.append hnil (ih (by simp))

namespace Interior

/-- Behind the items of an array stands a comma before the next ones. -/
theorem append {comma : Text} (h : Interior gap entry text as) (hnil : gap [])
    (hother : Listing gap entry other bs) (hcomma : comma = if as = [] then [] else [',']) :
    Interior gap entry (text ++ (comma ++ other)) (as ++ bs) := by
  cases h with
  | empty hgap =>
      rw [if_pos rfl] at hcomma
      rw [hcomma, List.nil_append, List.nil_append]
      exact .items hgap hother
  | items hbefore hlisting =>
      rw [if_neg hlisting.ne_nil] at hcomma
      rw [hcomma, List.append_assoc]
      exact .items hbefore (hlisting.append hnil hother)

theorem listing_of_beginsToken (hgap : ∀ text, gap text → ∀ c ∈ text.head?, isGapChar c = true)
    (h : Interior gap entry text as) (hbegins : BeginsToken text) : Listing gap entry text as := by
  obtain ⟨c, rest, rfl, hc⟩ := hbegins
  have hnot : ∀ text, gap text → text.head? ≠ some c := by
    intro text htext hhead
    rw [hgap text htext c hhead] at hc
    simp at hc
  generalize htext : c :: rest = text at h
  cases h with
  | empty h => exact absurd (by rw [← htext]; rfl) (hnot _ h)
  | @items before _ _ hbefore hlisting =>
      cases before with
      | nil => exact hlisting
      | cons d before =>
          obtain rfl : c = d := (List.cons.inj htext).1
          exact absurd rfl (hnot _ hbefore)

theorem eq_nil_of_isBlankText (h : Interior gap entry text as)
    (hentry : ∀ used a, entry used a → ∃ c ∈ used, isBlank c = false)
    (hblank : isBlankText text = true) : as = [] := by
  cases h with
  | empty _ => rfl
  | items _ hlisting =>
      have hused : ∀ used a, entry used a → ∀ after, ¬ isBlankText (used ++ after) = true := by
        intro used a ha after hused
        obtain ⟨c, hmem, hc⟩ := hentry used a ha
        rw [isBlankText, List.all_append, Bool.and_eq_true, List.all_eq_true] at hused
        rw [hused.1 c hmem] at hc
        simp at hc
      rw [isBlankText, List.all_append, Bool.and_eq_true] at hblank
      cases hlisting with
      | last ha _ => exact absurd hblank.2 (hused _ _ ha _)
      | more ha _ _ _ => exact absurd hblank.2 (hused _ _ ha _)

end Interior
end

theorem isBlank_of_isWordChar {c : Char} (h : isWordChar c = true) : isBlank c = false := by
  rw [← Bool.not_eq_true]
  intro hblank
  have hword := toNat_of_isWordChar h
  simp only [isBlank, inRanges, blankRanges, List.any_cons, List.any_nil, Bool.or_eq_true,
    Bool.and_eq_true, decide_eq_true_eq, Bool.or_false] at hblank
  omega

/-! ## The strict reader -/

namespace Strict

/-- The levels of arrays and objects that are left to the items of an array. -/
def itemDepth : Nat :=
  maxDepth - 1

variable {depth : Nat} {inner used : Text} {value : Value} {items : List Value}

theorem ReadsAs.exists_not_isBlank (h : ReadsAs depth used value) :
    ∃ c ∈ used, isBlank c = false := by
  have hread := h.reads [] (2 * used.length + 1) (by simp [EndsWord]) (by omega)
  rw [List.append_nil] at hread
  cases readValue_cases hread (skip_beginsToken h.begins.beginsToken) with
  | scalar hscalar =>
      obtain ⟨word, rfl, hword, hreads⟩ := hscalar (by simp [EndsWord])
      obtain ⟨c, word, rfl⟩ := List.exists_cons_of_ne_nil hreads.begins.ne_nil
      exact ⟨c, by simp, isBlank_of_isWordChar (hword c List.mem_cons_self)⟩
  | string _ => exact ⟨'"', List.mem_cons_self, by decide⟩
  | emptyArray _ _ => exact ⟨'[', List.mem_cons_self, by decide⟩
  | array _ _ => exact ⟨'[', List.mem_cons_self, by decide⟩
  | emptyObject _ _ => exact ⟨'{', List.mem_cons_self, by decide⟩
  | object _ _ => exact ⟨'{', List.mem_cons_self, by decide⟩

theorem IsGap.isGapChar_of_mem {gap : Text} (h : IsGap gap) : ∀ c ∈ gap, isGapChar c = true :=
  fun c hc => isGapChar_of_strict (h c hc)

theorem isGap_nil : IsGap [] := by
  simp [IsGap]

theorem exists_of_bracketed {front rest : Text} (h : bracketed inner = '[' :: (front ++ ']' :: rest))
    (hrest : skip rest = []) : front = inner ∧ rest = [] := by
  have hspaces : ∀ c ∈ rest, isSpace c = true := List.dropWhile_eq_nil_iff.mp hrest
  have htail : inner ++ [']'] = front ++ ']' :: rest := (List.cons.inj h).2
  rcases List.eq_nil_or_concat rest with rfl | ⟨others, c, rfl⟩
  · exact ⟨(List.append_cancel_right htail).symm, rfl⟩
  · rw [List.concat_eq_append, ← List.cons_append, ← List.append_assoc] at htail
    have hc : [']'] = [c] := (List.append_inj' htail rfl).2
    have hspace := hspaces c (by simp)
    rw [← (List.cons.inj hc).1] at hspace
    exact absurd hspace (by decide)

/-- A text in square brackets that the strict reader reads is an array. -/
theorem interior_of_readText (h : readText (bracketed inner) = .ok value) :
    ∃ items, value = .array items ∧ Interior IsGap (ReadsAs itemDepth) inner items := by
  rw [readText] at h
  split at h
  · simp at h
  · rename_i found rest hread
    split at h
    · rename_i hrest
      obtain rfl := Except.ok.inj h
      have hskip : skip (bracketed inner) = bracketed inner := skip_cons_of_not_isSpace (by decide) _
      generalize htext : bracketed inner = text at hread hskip
      cases readValue_cases hread hskip with
      | scalar hscalar =>
          have hends : EndsWord rest := by
            cases rest with
            | nil => simp [EndsWord]
            | cons c rest =>
                have hspace := List.dropWhile_eq_nil_iff.mp hrest c List.mem_cons_self
                exact endsWord_cons (isWordChar_of_isGapChar (isGapChar_of_strict hspace)) rest
          obtain ⟨used, rfl, hword, hreads⟩ := hscalar hends
          obtain ⟨c, used, rfl⟩ := List.exists_cons_of_ne_nil hreads.begins.ne_nil
          obtain rfl : '[' = c := (List.cons.inj htext).1
          exact absurd (hword _ List.mem_cons_self) (by decide)
      | string _ => exact absurd (List.cons.inj htext).1 (by decide)
      | @emptyArray text _ _ _ hclose =>
          obtain ⟨-, gap, rfl, hgap⟩ := exists_of_skip_eq_cons hclose
          obtain ⟨rfl, rfl⟩ := exists_of_bracketed htext hrest
          exact ⟨[], rfl, .empty hgap⟩
      | @array text _ _ items hdepth hitems =>
          obtain ⟨listed, as, hlisted, rfl, hlisting⟩ := (readable _).items hitems (skip_skip text)
          obtain ⟨gap, hgapText, hgap⟩ := exists_gap text
          rw [hgapText, hlisted, ← List.append_assoc] at htext
          obtain ⟨rfl, rfl⟩ := exists_of_bracketed htext hrest
          obtain rfl : _ = itemDepth := Nat.succ.inj hdepth.symm
          exact ⟨_, rfl, .items hgap hlisting⟩
      | emptyObject _ _ => exact absurd (List.cons.inj htext).1 (by decide)
      | object _ _ => exact absurd (List.cons.inj htext).1 (by decide)
    · simp at h

theorem readText_bracketed (h : Interior IsGap (ReadsAs itemDepth) inner items) :
    readText (bracketed inner) = .ok (.array items) := by
  have hreads : ReadsAs maxDepth (bracketed inner) (.array items) := by
    cases h with
    | empty hgap => exact readsAs_emptyArray hgap
    | items hgap hlisting =>
        rw [bracketed, List.append_assoc]
        exact readsAs_array hgap hlisting
  have hread := hreads.reads [] (budget (bracketed inner)) (by simp [EndsWord])
    (by rw [budget]; omega)
  rw [List.append_nil] at hread
  rw [readText, hread]
  rfl

end Strict

/-! ## The relaxed reader -/

namespace Relaxed

variable {inner used gap text rest : Text} {value : Value} {items : List Value}

theorem ReadsAs.exists_not_isBlank (h : ReadsAs used value) : ∃ c ∈ used, isBlank c = false := by
  have hread := h.reads [] (2 * used.length + 1) (by simp [EndsWord]) (by omega)
  rw [List.append_nil] at hread
  cases readValue?_cases hread with
  | scalar _ hscalar =>
      obtain ⟨word, rfl, hne, hword, -⟩ := readScalar?_of_endsWord hscalar (by simp [EndsWord])
      obtain ⟨c, word, rfl⟩ := List.exists_cons_of_ne_nil hne
      exact ⟨c, by simp, isBlank_of_isWordChar (hword c List.mem_cons_self)⟩
  | @string quote _ _ _ hquote _ =>
      have hquotes : ∀ quote ∈ ['"', '\x27'], isBlank quote = false :=
        List.all_iff_forall_prop.mp (by decide)
      exact ⟨quote, List.mem_cons_self, hquotes quote hquote⟩
  | emptyArray _ => exact ⟨'[', List.mem_cons_self, by decide⟩
  | array _ _ => exact ⟨'[', List.mem_cons_self, by decide⟩
  | emptyObject _ => exact ⟨'{', List.mem_cons_self, by decide⟩
  | object _ _ => exact ⟨'{', List.mem_cons_self, by decide⟩

theorem IsGap.isGapChar_of_head? (h : IsGap gap) : ∀ c ∈ gap.head?, isGapChar c = true := by
  cases gap with
  | nil => simp
  | cons c gap =>
      rintro d ⟨⟩
      by_contra hnot
      rw [Bool.not_eq_true] at hnot
      have hskip := h.skip_ends (c := ',') (by decide) []
      rw [List.cons_append, skip_of_beginsToken (.cons hnot _)] at hskip
      have hlength := congrArg List.length (Option.some.inj hskip)
      simp at hlength

theorem getLast?_of_skipFrom {gap : Gap} {c : Char} (h : skipFrom gap text = some (c :: rest)) :
    ∃ used, text = used ++ c :: rest ∧ (gap ≠ .space → used ≠ []) ∧
      ∀ d ∈ used.getLast?, isGapChar d = true := by
  have hgrow : ∀ {used : Text} (front : Text) (d : Char), used ≠ [] ∨ isGapChar d = true →
      (∀ e ∈ used.getLast?, isGapChar e = true) →
      ∀ e ∈ (front ++ d :: used).getLast?, isGapChar e = true := by
    intro used front d hd hused
    rw [List.getLast?_append_cons]
    cases used with
    | nil =>
        rintro e ⟨⟩
        simpa using hd
    | cons e used => rwa [List.getLast?_cons_cons]
  fun_induction skipFrom gap text with
  | case1 => simp at h
  | case2 text ih =>
      obtain ⟨used, rfl, hne, hlast⟩ := ih h
      exact ⟨'/' :: '/' :: used, rfl, by simp, hgrow ['/'] '/' (Or.inr (by decide)) hlast⟩
  | case3 text ih =>
      obtain ⟨used, rfl, hne, hlast⟩ := ih h
      exact ⟨'/' :: '*' :: used, rfl, by simp, hgrow ['/'] '*' (Or.inl (hne (by simp))) hlast⟩
  | case4 d text _ _ hspace ih =>
      obtain ⟨used, rfl, -, hlast⟩ := ih h
      refine ⟨d :: used, rfl, by simp, hgrow [] d (Or.inr ?_) hlast⟩
      rw [isGapChar, hspace, Bool.true_or]
  | case5 d text _ _ hspace => exact ⟨[], Option.some.inj h, by simp, by simp⟩
  | case6 => simp at h
  | case7 d text ih =>
      obtain ⟨used, rfl, hne, hlast⟩ := ih h
      refine ⟨d :: used, rfl, by simp, hgrow [] d ?_ hlast⟩
      by_cases hline : isLineEnd d = true
      · rw [isGapChar, isSpace, hline, Bool.or_true, Bool.true_or]
        exact Or.inr rfl
      · rw [if_neg hline] at hne
        exact Or.inl (hne (by simp))
  | case8 => simp at h
  | case9 text ih =>
      obtain ⟨used, rfl, -, hlast⟩ := ih h
      exact ⟨'*' :: '/' :: used, rfl, by simp, hgrow ['*'] '/' (Or.inr (by decide)) hlast⟩
  | case10 d text hend ih =>
      obtain ⟨used, rfl, hne, hlast⟩ := ih h
      exact ⟨d :: used, rfl, by simp, hgrow [] d (Or.inl (hne (by simp))) hlast⟩

theorem IsGap.isGapChar_of_getLast? (h : IsGap gap) :
    ∀ c ∈ gap.getLast?, isGapChar c = true := by
  have hskip := h.skip_ends (c := ',') (by decide) []
  obtain ⟨used, htext, -, hlast⟩ := getLast?_of_skipFrom hskip
  rwa [List.append_cancel_right htext]

/-- A text in square brackets that the relaxed reader reads up to its last character is an array,
perhaps with a comma behind its last item. -/
theorem interior_of_readValue? {budget : Nat}
    (h : readValue? budget (bracketed inner) = some (value, [])) :
    ∃ items front tail, value = .array items ∧ inner = front ++ tail ∧ IsTail tail ∧
      Interior IsGap ReadsAs front items ∧ (items = [] → tail = []) := by
  have hclosed : ∀ {front : Text}, bracketed inner = '[' :: (front ++ [']']) → inner = front :=
    fun heq => List.append_cancel_right (List.cons.inj heq).2
  cases budget with
  | zero => simp at h
  | succ budget =>
      generalize htext : bracketed inner = text at h
      cases readValue?_cases h with
      | scalar _ hscalar =>
          obtain ⟨used, rfl, hne, hword, -⟩ := readScalar?_of_endsWord hscalar (by simp [EndsWord])
          obtain ⟨c, used, rfl⟩ := List.exists_cons_of_ne_nil hne
          obtain rfl : '[' = c := (List.cons.inj htext).1
          exact absurd (hword _ List.mem_cons_self) (by decide)
      | string hquote _ =>
          obtain rfl := (List.cons.inj htext).1
          exact absurd hquote (by decide)
      | emptyArray hclose =>
          obtain ⟨gap, rfl, hgap, -⟩ := exists_gap_of_skip_ends hclose (by decide)
          obtain rfl := hclosed htext
          exact ⟨[], inner, [], rfl, by simp, Or.inl rfl, .empty hgap, fun _ => rfl⟩
      | array hskip hitems =>
          have hbegins := beginsEntry_of_readItems? hitems
          obtain ⟨gap, rfl, hgap⟩ := exists_gap_of_skip hskip hbegins
          obtain ⟨listed, tail, items, rfl, rfl, hlisting, htail⟩ := (readable _).items hitems
          have hinner : inner = gap ++ (listed ++ tail) := hclosed (by rw [htext]; simp)
          refine ⟨_, gap ++ listed, tail, rfl, by rw [hinner]; simp, htail, .items hgap hlisting, ?_⟩
          intro hitems
          exact absurd hitems hlisting.ne_nil
      | emptyObject _ => exact absurd (List.cons.inj htext).1 (by decide)
      | object _ _ => exact absurd (List.cons.inj htext).1 (by decide)

theorem read?_bracketed (h : Interior IsGap ReadsAs inner items) :
    read? (bracketed inner) = some (.array items) := by
  have hreads : ReadsAs (bracketed inner) (.array items) := by
    cases h with
    | empty hgap => exact readsAs_emptyArray hgap
    | items hgap hlisting =>
        rw [bracketed, List.append_assoc]
        have htail : IsTail [] := Or.inl rfl
        exact readsAs_array hgap hlisting htail
  have hread := hreads.reads [] (budget (bracketed inner)) (by simp [EndsWord])
    (by rw [budget]; omega)
  rw [List.append_nil] at hread
  have hskip : skip (bracketed inner) = some (bracketed inner) :=
    skip_of_beginsToken (.cons (by decide) _)
  rw [read?, hskip, Option.bind_some, hread]
  rfl

/-- Two commas are one too many. -/
theorem readItems?_commas (hgap : IsGap gap) (h : Listing IsGap ReadsAs text items)
    (read : List Value) {budget : Nat} (hbudget : 2 * (text.length + 1) ≤ budget) :
    readItems? read budget (text ++ ',' :: (gap ++ ',' :: rest)) = none := by
  induction h generalizing read budget with
  | @last used after item hitem hafter =>
      obtain ⟨budget, rfl⟩ : ∃ more, budget = more + 1 := ⟨budget - 1, by omega⟩
      rw [List.length_append] at hbudget
      have hvalue := hitem.reads (after ++ ',' :: (gap ++ ',' :: rest)) budget
        (hafter.endsWord (by decide) _) (by omega)
      have hnone : readItems? (item :: read) budget (',' :: rest) = none := by
        by_contra hsome
        obtain ⟨result, hresult⟩ := Option.ne_none_iff_exists'.mp hsome
        exact absurd rfl ((beginsEntry_of_readItems? hresult).ne_cons (c := ',') (by decide))
      rw [List.append_assoc, readItems?]
      simp only [hvalue, hafter.skip_ends (c := ',') (by decide), hgap.skip_ends (c := ',') (by decide)]
      exact hnone
  | @more used after before text item items hitem hafter hbefore hrest ih =>
      obtain ⟨budget, rfl⟩ : ∃ more, budget = more + 1 := ⟨budget - 1, by omega⟩
      simp only [List.length_append, List.length_cons] at hbudget
      have hbegins : BeginsEntry (text ++ ',' :: (gap ++ ',' :: rest)) :=
        (hrest.beginsEntry fun _ _ => ReadsAs.begins).append _
      have hvalue := hitem.reads (after ++ ',' :: (before ++ (text ++ ',' :: (gap ++ ',' :: rest))))
        budget (hafter.endsWord (by decide) _) (by omega)
      simp only [List.append_assoc, List.cons_append]
      rw [readItems?_more hvalue (hafter.skip_ends (by decide) _)
        (hbefore _ hbegins.beginsToken) hbegins]
      exact ih _ (by omega)

/-- An array that can take one more comma behind its items has none there. -/
theorem tail_eq_nil {front tail : Text} (h : Interior IsGap ReadsAs front items) (hne : items ≠ [])
    (htail : IsTail tail) (hcomma : (read? (bracketed (front ++ tail ++ [',']))).isSome = true) :
    tail = [] := by
  rcases htail with rfl | ⟨gap, rfl, hgap⟩
  · rfl
  · cases h with
    | empty _ => exact absurd rfl hne
    | @items before text _ hbefore hlisting =>
        have hbegins : BeginsEntry (text ++ ',' :: (gap ++ ',' :: [']'])) :=
          (hlisting.beginsEntry fun _ _ => ReadsAs.begins).append _
        have hskip := hbefore _ hbegins.beginsToken
        have htext : bracketed (before ++ text ++ ',' :: gap ++ [',']) =
            '[' :: (before ++ (text ++ ',' :: (gap ++ ',' :: [']']))) := by
          simp [bracketed]
        obtain ⟨value, hvalue⟩ := Option.isSome_iff_exists.mp hcomma
        rw [htext, read?, skip_of_beginsToken (.cons (by decide) _), Option.bind_some] at hvalue
        split at hvalue
        · rename_i found rest hread
          cases readValue?_cases hread with
          | scalar hhead _ => exact absurd (hhead '[' rfl) (by decide)
          | string hquote _ => exact absurd hquote (by decide)
          | emptyArray hclose =>
              rw [hskip] at hclose
              exact absurd (Option.some.inj hclose) (hbegins.ne_cons (by decide))
          | array hnext hitems =>
              rw [hskip] at hnext
              obtain rfl := Option.some.inj hnext
              rw [readItems?_commas hgap hlisting _ (by simp; omega)] at hitems
              simp at hitems
        · simp at hvalue

end Relaxed
end CommandTemplate
