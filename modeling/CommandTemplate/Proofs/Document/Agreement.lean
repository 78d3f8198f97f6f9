import CommandTemplate.Proofs.Document.RelaxedReading
import CommandTemplate.Proofs.Document.StrictReading

/-!
# Where both readers stop

The readers may disagree on which value a text has, as they do on some numbers, but not on where the
value ends: if both read a value from the same place, both stop at the same place.
-/

namespace CommandTemplate

/-- Where a run of word characters ends. -/
theorem dropWhile_isWordChar {used rest : Text} (hused : ∀ c ∈ used, isWordChar c = true)
    (hrest : EndsWord rest) : (used ++ rest).dropWhile isWordChar = rest := by
  rw [List.dropWhile_append_of_pos hused]
  cases rest with
  | nil => rfl
  | cons c rest => exact List.dropWhile_cons_of_neg (by simp [hrest c rfl])

theorem BeginsEntry.ne_cons {text rest : Text} {c : Char} (h : BeginsEntry text)
    (hc : c ∈ [',', ']', '}']) : text ≠ c :: rest := by
  obtain ⟨d, after, rfl, -, hd⟩ := h
  intro heq
  rw [(List.cons.inj heq).1] at hd
  exact hd hc

theorem Strict.beginsEntry_of_readItems {depth budget : Nat} {read items : List Value}
    {text rest : Text} (h : readItems depth read budget text = .ok (items, rest))
    (hskip : skip text = text) : BeginsEntry text := by
  obtain ⟨inner, listed, rfl, -, hlisting⟩ := (readable budget).items h hskip
  exact (hlisting.beginsEntry fun _ _ => ReadsAs.begins).append _

theorem Strict.beginsEntry_of_readMembers {depth budget : Nat} {read members : List (Text × Value)}
    {text rest : Text} (h : readMembers depth read budget text = .ok (members, rest))
    (hskip : skip text = text) : BeginsEntry text := by
  obtain ⟨inner, listed, rfl, -, hlisting⟩ := (readable budget).members h hskip
  exact (hlisting.beginsEntry fun _ _ => IsMember.begins).append _

theorem Relaxed.beginsEntry_of_readItems? {budget : Nat} {read items : List Value}
    {text rest : Text} (h : readItems? read budget text = some (items, rest)) :
    BeginsEntry text := by
  obtain ⟨inner, tail, listed, rfl, -, hlisting, -⟩ := (readable budget).items h
  exact (hlisting.beginsEntry fun _ _ => ReadsAs.begins).append _

theorem Relaxed.beginsEntry_of_readMembers? {budget : Nat} {read members : List (Text × Value)}
    {before text rest : Text} (h : readMembers? read budget text = some (members, rest))
    (hskip : skip before = some text) : BeginsEntry text := by
  obtain ⟨inner, tail, listed, rfl, -, hlisting, -⟩ :=
    (readable budget).members h (isSpace_of_skip hskip)
  exact (hlisting.beginsEntry fun _ _ => IsMember.begins).append _

/-- Both readers come to the same entry. -/
theorem Relaxed.skip_eq_of_strict {text : Text} (h : BeginsEntry (Strict.skip text)) :
    skip text = some (Strict.skip text) := by
  obtain ⟨c, rest, hskip, hc, -⟩ := h
  rw [hskip, skip_of_strict hskip hc]

theorem Relaxed.eq_of_skip_ends {text rest other : Text} {c d : Char}
    (hstrict : Strict.skip text = c :: rest) (h : skip text = some (d :: other))
    (hc : c ∈ [',', ':', ']', '}']) : d = c ∧ other = rest := by
  rw [skip_of_strict hstrict (isGapChar_of_ends hc)] at h
  exact (List.cons.inj (Option.some.inj h)).imp Eq.symm Eq.symm

/-- What is proved of a strict reader with one budget and used for the next. -/
structure Agrees (budget : Nat) : Prop where
  value : ∀ {depth other text rest rest' found found'},
    Strict.readValue depth budget text = .ok (found, rest) → Strict.skip text = text →
    EndsWord rest → Relaxed.readValue? other text = some (found', rest') → EndsWord rest' →
    rest' = rest
  items : ∀ {depth other read read' text rest rest' found found'},
    Strict.readItems depth read budget text = .ok (found, rest) → Strict.skip text = text →
    Relaxed.readItems? read' other text = some (found', rest') → rest' = rest
  members : ∀ {depth other read read' text rest rest' found found'},
    Strict.readMembers depth read budget text = .ok (found, rest) → Strict.skip text = text →
    Relaxed.readMembers? read' other text = some (found', rest') → rest' = rest

/-- A number or a word of the strict reader is one of the relaxed reader. -/
theorem rest_eq_of_word {other : Nat} {text rest rest' used : Text} {found' : Value}
    (htext : text = used ++ rest) (hne : used ≠ []) (hword : ∀ c ∈ used, isWordChar c = true)
    (hrest : EndsWord rest) (h : Relaxed.ValueStep other text found' rest')
    (hrest' : EndsWord rest') : rest' = rest := by
  obtain ⟨c, used, rfl⟩ := List.exists_cons_of_ne_nil hne
  have hc := hword c List.mem_cons_self
  have hstart : ∀ {d : Char} {after : Text}, d :: after = c :: used ++ rest →
      isWordChar d = true := by
    intro d after heq
    rwa [(List.cons.inj heq).1]
  cases h with
  | scalar _ h =>
      obtain ⟨used', htext', -, hword', -⟩ := Relaxed.readScalar?_of_endsWord h hrest'
      rw [← dropWhile_isWordChar hword hrest, ← htext, htext',
        dropWhile_isWordChar hword' hrest']
  | string hquote _ =>
      have hfirst := hstart htext
      rw [(Relaxed.quotes _ hquote).1] at hfirst
      simp at hfirst
  | emptyArray _ => exact absurd (hstart htext) (by decide)
  | array _ _ => exact absurd (hstart htext) (by decide)
  | emptyObject _ => exact absurd (hstart htext) (by decide)
  | object _ _ => exact absurd (hstart htext) (by decide)

section Listings

variable {text rest rest' : Text} {close : Char}

/-- A listing that is empty for the strict reader is not one with entries for the relaxed reader. -/
theorem not_beginsEntry_of_closed (hclose : Strict.skip text = close :: rest)
    (hmem : close ∈ [']', '}']) {next : Text} (hnext : Relaxed.skip text = some next) :
    ¬BeginsEntry next := by
  intro hbegins
  rw [Relaxed.skip_of_strict hclose (isGapChar_of_ends (List.mem_cons_of_mem ','
    (List.mem_cons_of_mem ':' hmem)))] at hnext
  exact absurd (Option.some.inj hnext).symm (hbegins.ne_cons (List.mem_cons_of_mem ',' hmem))

/-- A listing with entries for the strict reader is not an empty one for the relaxed reader. -/
theorem not_closed_of_beginsEntry (hbegins : BeginsEntry (Strict.skip text))
    (hmem : close ∈ [']', '}']) : Relaxed.skip text ≠ some (close :: rest) := by
  intro hclose
  rw [Relaxed.skip_eq_of_strict hbegins] at hclose
  exact absurd (Option.some.inj hclose) (hbegins.ne_cons (List.mem_cons_of_mem ',' hmem))

theorem eq_of_beginsEntry (hbegins : BeginsEntry (Strict.skip text)) {next : Text}
    (hnext : Relaxed.skip text = some next) : next = Strict.skip text := by
  rw [Relaxed.skip_eq_of_strict hbegins] at hnext
  exact (Option.some.inj hnext).symm

/-- Behind an entry at which both readers stop, they come to the same end of the listing: behind a
comma the strict reader comes to an entry, so that the comma is not the last one. -/
theorem rest_eq_of_end {last last' last'' : Prop} {more more' : Text → Prop}
    (hmem : close ∈ [']', '}'])
    (h : (Strict.skip text = close :: rest ∧ last) ∨
      ∃ after, Strict.skip text = ',' :: after ∧ more after)
    (h' : (Relaxed.skip text = some (close :: rest') ∧ last') ∨
      ∃ after, Relaxed.skip text = some (',' :: after) ∧
        ((Relaxed.skip after = some (close :: rest') ∧ last'') ∨
          ∃ next, Relaxed.skip after = some next ∧ more' next))
    (hbegins : ∀ after, more after → BeginsEntry (Strict.skip after))
    (hmore : ∀ after, more after → more' (Strict.skip after) → rest' = rest) : rest' = rest := by
  have hends : close ∈ [',', ':', ']', '}'] :=
    List.mem_cons_of_mem ',' (List.mem_cons_of_mem ':' hmem)
  have hne : close ≠ ',' := by
    rintro rfl
    exact absurd hmem (by decide)
  rcases h with ⟨hclose, -⟩ | ⟨after, hcomma, hafter⟩
  · rcases h' with ⟨hclose', -⟩ | ⟨after', hcomma', -⟩
    · exact (Relaxed.eq_of_skip_ends hclose hclose' hends).2
    · exact absurd (Relaxed.eq_of_skip_ends hclose hcomma' hends).1.symm hne
  · rcases h' with ⟨hclose', -⟩ | ⟨after', hcomma', hend⟩
    · exact absurd (Relaxed.eq_of_skip_ends hcomma hclose' (by decide)).1 hne
    · obtain rfl := (Relaxed.eq_of_skip_ends hcomma hcomma' (by decide)).2
      rcases hend with ⟨hclose', -⟩ | ⟨next, hnext, hafter'⟩
      · exact absurd hclose' (not_closed_of_beginsEntry (hbegins _ hafter) hmem)
      · obtain rfl := eq_of_beginsEntry (hbegins _ hafter) hnext
        exact hmore _ hafter hafter'

end Listings

namespace Agrees

variable {budget depth other : Nat} {text rest rest' : Text}

theorem value_succ (h : Agrees budget) {found found' : Value}
    (hstrict : Strict.readValue depth (budget + 1) text = .ok (found, rest))
    (hskip : Strict.skip text = text) (hrest : EndsWord rest)
    (hrelaxed : Relaxed.readValue? (other + 1) text = some (found', rest'))
    (hrest' : EndsWord rest') : rest' = rest := by
  have hstep := Relaxed.readValue?_cases hrelaxed
  cases Strict.readValue_cases hstrict hskip with
  | scalar hscalar =>
      obtain ⟨used, htext, hword, hreads⟩ := hscalar hrest
      exact rest_eq_of_word htext hreads.begins.ne_nil hword hrest hstep hrest'
  | string hstring =>
      obtain ⟨used, rfl, hcloses, -⟩ := Strict.exists_of_readString hstring
      cases hstep with
      | scalar hhead _ => exact absurd (hhead '"' rfl) (by decide)
      | string hquote hstring' =>
          obtain ⟨used', heq, hcloses', -⟩ := Relaxed.exists_of_readString hquote hstring'
          exact (hcloses.rest_eq (by decide) hcloses' heq).symm
  | emptyArray _ hclose =>
      cases hstep with
      | scalar hhead _ => exact absurd (hhead '[' rfl) (by decide)
      | string hquote _ => exact absurd hquote (by decide)
      | emptyArray hclose' => exact (Relaxed.eq_of_skip_ends hclose hclose' (by decide)).2
      | array hnext hitems =>
          exact absurd (Relaxed.beginsEntry_of_readItems? hitems)
            (not_beginsEntry_of_closed hclose (by decide) hnext)
  | @array text _ _ _ _ hitems =>
      have hbegins := Strict.beginsEntry_of_readItems hitems (Strict.skip_skip text)
      cases hstep with
      | scalar hhead _ => exact absurd (hhead '[' rfl) (by decide)
      | string hquote _ => exact absurd hquote (by decide)
      | emptyArray hclose => exact absurd hclose (not_closed_of_beginsEntry hbegins (by decide))
      | array hnext hitems' =>
          obtain rfl := eq_of_beginsEntry hbegins hnext
          exact h.items hitems (Strict.skip_skip text) hitems'
  | emptyObject _ hclose =>
      cases hstep with
      | scalar hhead _ => exact absurd (hhead '{' rfl) (by decide)
      | string hquote _ => exact absurd hquote (by decide)
      | emptyObject hclose' => exact (Relaxed.eq_of_skip_ends hclose hclose' (by decide)).2
      | object hnext hmembers =>
          exact absurd (Relaxed.beginsEntry_of_readMembers? hmembers hnext)
            (not_beginsEntry_of_closed hclose (by decide) hnext)
  | @object text _ _ _ _ hmembers =>
      have hbegins := Strict.beginsEntry_of_readMembers hmembers (Strict.skip_skip text)
      cases hstep with
      | scalar hhead _ => exact absurd (hhead '{' rfl) (by decide)
      | string hquote _ => exact absurd hquote (by decide)
      | emptyObject hclose => exact absurd hclose (not_closed_of_beginsEntry hbegins (by decide))
      | object hnext hmembers' =>
          obtain rfl := eq_of_beginsEntry hbegins hnext
          exact h.members hmembers (Strict.skip_skip text) hmembers'

theorem items_succ (h : Agrees budget) {read read' found found' : List Value}
    (hstrict : Strict.readItems depth read (budget + 1) text = .ok (found, rest))
    (hskip : Strict.skip text = text)
    (hrelaxed : Relaxed.readItems? read' (other + 1) text = some (found', rest')) :
    rest' = rest := by
  obtain ⟨item, middle, hvalue, hend⟩ := Strict.readItems_cases hstrict
  obtain ⟨item', middle', hvalue', hend'⟩ := Relaxed.readItems?_cases hrelaxed
  have hmiddle := Strict.endsWord_of_end (by decide) hend
  have hmiddle' := Relaxed.endsWord_of_end (by decide) hend'
  obtain rfl : middle' = middle := h.value hvalue hskip hmiddle hvalue' hmiddle'
  refine rest_eq_of_end (by decide) hend hend' ?_ ?_
  · exact fun after hmore => Strict.beginsEntry_of_readItems hmore (Strict.skip_skip after)
  · exact fun after hmore hmore' => h.items hmore (Strict.skip_skip after) hmore'

theorem members_succ (h : Agrees budget) {read read' found found' : List (Text × Value)}
    (hstrict : Strict.readMembers depth read (budget + 1) text = .ok (found, rest))
    (hrelaxed : Relaxed.readMembers? read' (other + 1) text = some (found', rest')) :
    rest' = rest := by
  obtain ⟨inner, name, named, middle, value, after, rfl, hname, hcolon, hvalue, hend⟩ :=
    Strict.readMembers_cases hstrict
  obtain ⟨name', named', middle', next, value', after', hname', hcolon', hnext, hvalue', hend'⟩ :=
    Relaxed.readMembers?_cases hrelaxed
  obtain rfl : named' = named := by
    obtain ⟨used, rfl, hcloses, -⟩ := Strict.exists_of_readString hname
    obtain ⟨used', heq, hcloses', -⟩ := Relaxed.exists_of_readString (by simp) hname'
    exact (hcloses.rest_eq (by decide) hcloses' heq).symm
  obtain rfl := (Relaxed.eq_of_skip_ends hcolon hcolon' (by decide)).2
  have hafter := Strict.endsWord_of_end (by decide) hend
  have hafter' := Relaxed.endsWord_of_end (by decide) hend'
  have hskipped := Strict.readValue_skip_of_eq_ok hvalue
  have hbegins : BeginsEntry (Strict.skip middle') := by
    obtain ⟨used, hused, hreads⟩ :=
      (Strict.readable budget).value hskipped (Strict.skip_skip _) hafter
    rw [hused]
    exact hreads.begins.append _
  obtain rfl := eq_of_beginsEntry hbegins hnext
  obtain rfl : after' = after := h.value hskipped (Strict.skip_skip _) hafter hvalue' hafter'
  refine rest_eq_of_end (by decide) hend hend' ?_ ?_
  · exact fun after hmore => Strict.beginsEntry_of_readMembers hmore (Strict.skip_skip after)
  · exact fun after hmore hmore' => h.members hmore (Strict.skip_skip after) hmore'

theorem succ (h : Agrees budget) : Agrees (budget + 1) where
  value := by
    intro depth other text rest rest' found found' hstrict hskip hrest hrelaxed hrest'
    cases other with
    | zero => simp at hrelaxed
    | succ other => exact h.value_succ hstrict hskip hrest hrelaxed hrest'
  items := by
    intro depth other read read' text rest rest' found found' hstrict hskip hrelaxed
    cases other with
    | zero => simp at hrelaxed
    | succ other => exact h.items_succ hstrict hskip hrelaxed
  members := by
    intro depth other read read' text rest rest' found found' hstrict _ hrelaxed
    cases other with
    | zero => simp at hrelaxed
    | succ other => exact h.members_succ hstrict hrelaxed

end Agrees

theorem agrees (budget : Nat) : Agrees budget := by
  induction budget with
  | zero =>
      constructor
      · intro depth other text rest rest' found found' h
        simp at h
      · intro depth other read read' text rest rest' found found' h
        simp at h
      · intro depth other read read' text rest rest' found found' h
        simp at h
  | succ budget ih => exact ih.succ

/-- Both readers find the end of a value at the same place. -/
theorem Strict.ReadsAs.rest_eq {depth : Nat} {used used' rest rest' : Text} {value value' : Value}
    (h : Strict.ReadsAs depth used value) (h' : Relaxed.ReadsAs used' value')
    (hrest : EndsWord rest) (hrest' : EndsWord rest') (heq : used ++ rest = used' ++ rest') :
    rest' = rest := by
  have hstrict := h.reads rest (2 * used.length) hrest (by omega)
  have hrelaxed := h'.reads rest' (2 * used'.length) hrest' (by omega)
  rw [← heq] at hrelaxed
  exact (agrees _).value hstrict (Strict.skip_beginsToken (h.begins.append _).beginsToken) hrest
    hrelaxed hrest'

end CommandTemplate
