import CommandTemplate.Document.Collection
import CommandTemplate.Proofs.Document.Interior

/-!
# Arrays that are joined

When texts of documents are put behind the items of an array, the array is read as its documents
followed by the others.  One of the readers has to read all the parts, since only one of them reads
the whole; if both of them can read the whole, the parts are found at the same places.
-/

namespace CommandTemplate

open Text

/-! ## Parts of a listing -/

section Parts

variable {depth : Nat} {text front rest used after inner comma : Text} {a : Value}
  {as items : List Value} {stages : List Text} {added : List Value}

theorem Strict.IsGap.eq_nil {gap : Text} (h : Strict.IsGap gap)
    (hbegins : BeginsToken (gap ++ rest)) : gap = [] := by
  cases gap with
  | nil => rfl
  | cons c gap =>
      obtain ⟨d, others, heq, hd⟩ := hbegins
      obtain rfl : c = d := (List.cons.inj heq).1
      rw [h.isGapChar_of_mem c List.mem_cons_self] at hd
      exact absurd hd.symm (by simp)

/-- Where both readers pass over a gap to an entry, it is the same gap. -/
theorem eq_of_gap_append {before next space other : Text} (hbefore : Strict.IsGap before)
    (hnext : BeginsEntry next) (hspace : Relaxed.IsGap space) (hother : BeginsEntry other)
    (h : before ++ next = space ++ other) : before = space ∧ next = other := by
  have hskip : Strict.skip (before ++ next) = next :=
    Strict.skip_gap_append hbefore hnext.beginsToken
  have hsame := Relaxed.skip_eq_of_strict (by rwa [hskip])
  rw [hskip, h, hspace other hother.beginsToken] at hsame
  obtain rfl := Option.some.inj hsame
  exact ⟨List.append_cancel_right h, rfl⟩

/-- Where the relaxed reader finds an entry and a comma, so does the strict one. -/
theorem exists_of_entry (hentry : Relaxed.ReadsAs used a) (hafter : Relaxed.IsGap after)
    (h : Listing Strict.IsGap (Strict.ReadsAs depth) text items)
    (htext : text = used ++ (after ++ ',' :: rest)) :
    ∃ item others before next, items = item :: others ∧ Strict.ReadsAs depth used item ∧
      Strict.IsGap after ∧ Strict.IsGap before ∧ rest = before ++ next ∧
      Listing Strict.IsGap (Strict.ReadsAs depth) next others := by
  have hends : EndsWord (after ++ ',' :: rest) := hafter.endsWord (by decide) rest
  cases h with
  | last hitem hgap =>
      have hnil : EndsWord [] := by simp [EndsWord]
      have hgapEnds := hgap.endsWord_append hnil
      rw [List.append_nil] at hgapEnds
      have hrest := hitem.rest_eq hentry hgapEnds hends htext
      have hcomma := hgap ',' (by rw [← hrest]; simp)
      exact absurd hcomma (by decide)
  | @more used' after' before next item others hitem hgap hbefore hmore =>
      have hrest := hitem.rest_eq hentry (Strict.endsWord_gap_append hgap (by decide) _) hends htext
      have hskip : Strict.skip (after' ++ ',' :: (before ++ next)) = ',' :: (before ++ next) :=
        Strict.skip_gap_append hgap (beginsToken_of_ends (by decide) _)
      have hskip' := hafter.skip_ends (c := ',') (by decide) rest
      rw [hrest] at hskip'
      obtain ⟨-, rfl⟩ := Relaxed.eq_of_skip_ends hskip hskip' (by decide)
      obtain rfl : after = after' := List.append_cancel_right hrest
      obtain rfl : used' = used := List.append_cancel_right htext
      exact ⟨item, others, before, next, rfl, hitem, hgap, hbefore, rfl, hmore⟩

/-- Where the relaxed reader finds a listing and a comma, so does the strict one. -/
theorem exists_of_listing (hfront : Listing Relaxed.IsGap Relaxed.ReadsAs front as)
    (h : Listing Strict.IsGap (Strict.ReadsAs depth) text items)
    (htext : text = front ++ ',' :: rest) :
    ∃ first second before next, items = first ++ second ∧
      Listing Strict.IsGap (Strict.ReadsAs depth) front first ∧ Strict.IsGap before ∧
      rest = before ++ next ∧ Listing Strict.IsGap (Strict.ReadsAs depth) next second := by
  induction hfront generalizing text items with
  | last hentry hafter =>
      rw [List.append_assoc] at htext
      obtain ⟨item, others, before, next, rfl, hitem, hgap, hbefore, hrest, hmore⟩ :=
        exists_of_entry hentry hafter h htext
      exact ⟨[item], others, before, next, rfl, .last hitem hgap, hbefore, hrest, hmore⟩
  | @more used after space listed a as hentry hafter hspace hlisted ih =>
      simp only [List.append_assoc, List.cons_append] at htext
      obtain ⟨item, others, before, next, rfl, hitem, hgap, hbefore, hrest, hmore⟩ :=
        exists_of_entry hentry hafter h htext
      have hbegins : BeginsEntry (listed ++ ',' :: rest) :=
        (hlisted.beginsEntry fun _ _ => Relaxed.ReadsAs.begins).append _
      have hnext : BeginsEntry next := hmore.beginsEntry fun _ _ => Strict.ReadsAs.begins
      obtain ⟨rfl, rfl⟩ := eq_of_gap_append hbefore hnext hspace hbegins hrest.symm
      obtain ⟨first, second, between, last, rfl, hfirst, hbetween, hlast, hsecond⟩ := ih hmore rfl
      exact ⟨item :: first, second, between, last, rfl, .more hitem hgap hbefore hfirst, hbetween,
        hlast, hsecond⟩

theorem beginsEntry_join
    (h : List.Forall₂ (fun stage a => Listing Relaxed.IsGap Relaxed.ReadsAs stage [a]) stages added)
    (hne : stages ≠ []) : BeginsEntry (join [','] stages) :=
  (Listing.join Relaxed.isGap_nil h hne).beginsEntry fun _ _ => Relaxed.ReadsAs.begins

theorem exists_parts_of_join
    (h : List.Forall₂ (fun stage a => Listing Relaxed.IsGap Relaxed.ReadsAs stage [a]) stages added)
    (hne : stages ≠ [])
    (hstrict : Listing Strict.IsGap (Strict.ReadsAs depth) (join [','] stages) items) :
    ∃ parts : List (List Value), items = parts.flatten ∧
      List.Forall₂ (Listing Strict.IsGap (Strict.ReadsAs depth)) stages parts := by
  induction h generalizing items with
  | nil => exact absurd rfl hne
  | @cons stage a stages added hstage hrest ih =>
      cases hrest with
      | nil =>
          rw [join, List.intercalate_singleton] at hstrict
          exact ⟨[items], by simp, .cons hstrict .nil⟩
      | @cons next b stages added hnext hrest =>
          rw [join_cons_cons] at hstrict
          obtain ⟨first, second, before, last, rfl, hfirst, hbefore, hlast, hsecond⟩ :=
            exists_of_listing hstage hstrict rfl
          have hbegins := beginsEntry_join (.cons hnext hrest) (by simp)
          obtain rfl : before = [] := hbefore.eq_nil (by rw [← hlast]; exact hbegins.beginsToken)
          rw [List.nil_append] at hlast
          subst hlast
          obtain ⟨parts, rfl, hparts⟩ := ih (by simp) hsecond
          exact ⟨first :: parts, rfl, .cons hfirst hparts⟩

/-- If the strict reader reads an array that the relaxed one reads part by part, it reads it part
by part as well. -/
theorem exists_parts_of_interior (hinner : Interior Relaxed.IsGap Relaxed.ReadsAs inner as)
    (h : List.Forall₂ (fun stage a => Listing Relaxed.IsGap Relaxed.ReadsAs stage [a]) stages added)
    (hne : stages ≠ []) (hcomma : comma = if as = [] then [] else [','])
    (hstrict : Interior Strict.IsGap (Strict.ReadsAs depth) (inner ++ (comma ++ join [','] stages))
      items) :
    ∃ first parts, items = first ++ List.flatten parts ∧
      Interior Strict.IsGap (Strict.ReadsAs depth) inner first ∧
      List.Forall₂ (Listing Strict.IsGap (Strict.ReadsAs depth)) stages parts := by
  have hjoined := beginsEntry_join h hne
  generalize htext : inner ++ (comma ++ join [','] stages) = text at hstrict
  cases hstrict with
  | empty hgap =>
      obtain ⟨c, others, hjoin, hc, -⟩ := hjoined
      have hspace := hgap.isGapChar_of_mem c (by rw [← htext, hjoin]; simp)
      rw [hc] at hspace
      exact absurd hspace (by simp)
  | @items before listed _ hbefore hlisting =>
      have hlisted : BeginsEntry listed := hlisting.beginsEntry fun _ _ => Strict.ReadsAs.begins
      cases hinner with
      | empty hgap =>
          rw [if_pos rfl] at hcomma
          subst hcomma
          obtain ⟨rfl, rfl⟩ := eq_of_gap_append hbefore hlisted hgap hjoined htext.symm
          obtain ⟨parts, rfl, hparts⟩ := exists_parts_of_join h hne hlisting
          exact ⟨[], parts, rfl, .empty hbefore, hparts⟩
      | @items space front _ hspace hfront =>
          rw [if_neg hfront.ne_nil] at hcomma
          subst hcomma
          have hbegins : BeginsEntry (front ++ ',' :: join [','] stages) :=
            (hfront.beginsEntry fun _ _ => Relaxed.ReadsAs.begins).append _
          simp only [List.append_assoc, List.cons_append, List.nil_append] at htext
          obtain ⟨rfl, rfl⟩ := eq_of_gap_append hbefore hlisted hspace hbegins htext.symm
          obtain ⟨first, second, between, last, rfl, hfirst, hbetween, hlast, hsecond⟩ :=
            exists_of_listing hfront hlisting rfl
          obtain rfl : between = [] :=
            hbetween.eq_nil (by rw [← hlast]; exact hjoined.beginsToken)
          rw [List.nil_append] at hlast
          subst hlast
          obtain ⟨parts, rfl, hparts⟩ := exists_parts_of_join h hne hsecond
          exact ⟨first, parts, rfl, .items hbefore hfirst, hparts⟩

end Parts

/-! ## Documents of an array -/

section Documents

variable {text inner comma stage : Text} {documents added : List Document} {stages : List Text}

/-- The strict reader reads an array and, in square brackets of their own, the texts that are put
behind its items. -/
def ReadStrictly (array : Text) (stages : List Text) : Prop :=
  (Strict.readText array).isOk = true ∧
    ∀ stage ∈ stages, (Strict.readText (bracketed stage)).isOk = true

/-- The relaxed reader reads a text up to its last character as an array of documents. -/
def Relaxed.Spells (text : Text) (documents : List Document) : Prop :=
  readValue? (budget text) text = some (.array (documents.map .object), [])

/-- The relaxed reader reads an array and, in square brackets of their own, the texts that are put
behind its items, and it still reads the array with one more comma behind its items. -/
structure ReadRelaxedly (array : Text) (stages : List Text) (documents added : List Document) :
    Prop where
  spells : Relaxed.Spells array documents
  stages : List.Forall₂ (fun stage document => Relaxed.Spells (bracketed stage) [document])
    stages added
  comma : documents ≠ [] → (Relaxed.read? (array.dropLast ++ [',', ']'])).isSome = true

theorem documentsFrom_eq_ok_iff {index : Nat} {values : List Value} :
    documentsFrom index values = .ok documents ↔ values = documents.map .object := by
  induction values generalizing index documents with
  | nil =>
      rw [documentsFrom]
      constructor
      · intro h
        rw [← Except.ok.inj h]
        rfl
      · intro h
        rw [List.map_eq_nil_iff.mp h.symm]
  | cons value values ih =>
      cases value with
      | object fields =>
          rw [documentsFrom]
          constructor
          · intro h
            split at h
            · rename_i rest hrest
              rw [← Except.ok.inj h, List.map_cons, ← ih.mp hrest]
            · simp at h
          · intro h
            cases documents with
            | nil => simp at h
            | cons document documents =>
                rw [List.map_cons] at h
                obtain ⟨hfields, hvalues⟩ := List.cons.inj h
                rw [ih.mpr hvalues, Value.object.inj hfields]
      | _ =>
          simp only [documentsFrom, reduceCtorEq, false_iff]
          intro h
          cases documents <;> simp at h

theorem readDocuments_of_strict {items : List Value} (h : Strict.readText text = .ok (.array items)) :
    readDocuments text = documentsFrom 0 items := by
  simp [readDocuments, readEither, Strict.read, h]

theorem readDocuments_of_relaxed {items : List Value} {fault : Fault}
    (hstrict : Strict.readText text = .error fault) (h : Relaxed.read? text = some (.array items)) :
    readDocuments text = documentsFrom 0 items := by
  simp [readDocuments, readEither, Strict.read, hstrict, h]

theorem Strict.interior_of_readDocuments (hread : (readText (bracketed inner)).isOk = true)
    (h : readDocuments (bracketed inner) = .ok documents) :
    Interior IsGap (ReadsAs itemDepth) inner (documents.map .object) := by
  cases htext : readText (bracketed inner) with
  | error fault => simp [htext, Except.isOk, Except.toBool] at hread
  | ok value =>
      obtain ⟨items, rfl, hinterior⟩ := interior_of_readText htext
      rw [readDocuments_of_strict htext] at h
      rwa [← documentsFrom_eq_ok_iff.mp h]

theorem Strict.listing_of_readDocuments {document : Document} (hbegins : BeginsToken stage)
    (hread : (readText (bracketed stage)).isOk = true)
    (h : readDocuments (bracketed stage) = .ok [document]) :
    Listing IsGap (ReadsAs itemDepth) stage [.object document] := by
  have hinterior := interior_of_readDocuments hread h
  refine hinterior.listing_of_beginsToken (fun text htext c hc => ?_) hbegins
  exact htext.isGapChar_of_mem c (List.mem_of_mem_head? hc)

theorem Strict.flatten_eq {parts : List (List Value)}
    (hadded : List.Forall₂ (fun stage document => readDocuments (bracketed stage) = .ok [document])
      stages added)
    (h : List.Forall₂ (Listing IsGap (ReadsAs itemDepth)) stages parts) :
    parts.flatten = added.map .object := by
  induction hadded generalizing parts with
  | nil =>
      cases h
      rfl
  | @cons stage document stages added hstage _ ih =>
      cases h with
      | @cons _ part _ parts hpart hparts =>
          have hinterior : Interior IsGap (ReadsAs itemDepth) stage part := by
            simpa using Interior.items isGap_nil hpart
          rw [readDocuments_of_strict (readText_bracketed hinterior)] at hstage
          rw [List.flatten_cons, ih hparts, documentsFrom_eq_ok_iff.mp hstage]
          rfl

theorem Relaxed.interior_of_spells (h : Spells (bracketed inner) documents)
    (hcomma : documents ≠ [] → (read? ((bracketed inner).dropLast ++ [',', ']'])).isSome = true) :
    Interior IsGap ReadsAs inner (documents.map .object) := by
  obtain ⟨items, front, tail, hitems, rfl, htail, hinterior, hempty⟩ := interior_of_readValue? h
  obtain rfl := Value.array.inj hitems
  have htext : (bracketed (front ++ tail)).dropLast ++ [',', ']'] =
      bracketed (front ++ tail ++ [',']) := by
    rw [dropLast_bracketed]
    simp [bracketed]
  have hnil : tail = [] := by
    by_cases hdocuments : documents = []
    · exact hempty (by rw [hdocuments]; rfl)
    · refine tail_eq_nil hinterior (by simpa using hdocuments) htail ?_
      rw [← htext]
      exact hcomma hdocuments
  rwa [hnil, List.append_nil]

theorem Relaxed.listing_of_spells {document : Document} (h : Spells (bracketed stage) [document])
    (hopen : stage.head? = some '{') (hclose : stage.getLast? = some '}') :
    Listing IsGap ReadsAs stage [.object document] := by
  obtain ⟨items, front, tail, hitems, rfl, htail, hinterior, -⟩ := interior_of_readValue? h
  obtain rfl := Value.array.inj hitems
  obtain rfl : tail = [] := by
    rcases htail with rfl | ⟨gap, rfl, hgap⟩
    · rfl
    · rw [List.getLast?_append_cons] at hclose
      cases gap with
      | nil => simp at hclose
      | cons c gap =>
          rw [List.getLast?_cons_cons] at hclose
          exact absurd (hgap.isGapChar_of_getLast? _ hclose) (by decide)
  rw [List.append_nil] at hopen ⊢
  obtain ⟨rest, rfl⟩ := List.head?_eq_some_iff.mp hopen
  exact hinterior.listing_of_beginsToken (fun _ => IsGap.isGapChar_of_head?)
    (.cons (by decide) rest)

/-- Arrays that the strict reader reads are joined. -/
theorem ReadStrictly.readDocuments_eq (h : ReadStrictly (bracketed inner) stages)
    (hdocuments : readDocuments (bracketed inner) = .ok documents)
    (hadded : List.Forall₂ (fun stage document => readDocuments (bracketed stage) = .ok [document])
      stages added)
    (hopen : ∀ stage ∈ stages, stage.head? = some '{') (hne : stages ≠ [])
    (hcomma : comma = if documents = [] then [] else [',']) :
    readDocuments (bracketed (inner ++ (comma ++ join [','] stages))) =
      .ok (documents ++ added) := by
  have hinner := Strict.interior_of_readDocuments h.1 hdocuments
  have hstages : List.Forall₂
      (fun stage value => Listing Strict.IsGap (Strict.ReadsAs Strict.itemDepth) stage [value])
      stages (added.map .object) := by
    rw [List.forall₂_map_right_iff]
    have hread := (List.forall₂_and_left stages added).mpr ⟨h.2, hadded⟩
    refine ((List.forall₂_and_left stages added).mpr ⟨hopen, hread⟩).imp ?_
    rintro stage document ⟨hhead, hstage, hdocument⟩
    obtain ⟨rest, rfl⟩ := List.head?_eq_some_iff.mp hhead
    exact Strict.listing_of_readDocuments (.cons (by decide) rest) hstage hdocument
  have hcomma' : comma = if documents.map Value.object = [] then [] else [','] := by
    simpa using hcomma
  have hwhole := hinner.append Strict.isGap_nil
    (Listing.join Strict.isGap_nil hstages hne) hcomma'
  rw [← List.map_append] at hwhole
  rw [readDocuments_of_strict (Strict.readText_bracketed hwhole), documentsFrom_eq_ok_iff]

/-- Arrays that the relaxed reader reads are joined, also where the strict reader reads the
whole. -/
theorem ReadRelaxedly.readDocuments_eq (h : ReadRelaxedly (bracketed inner) stages documents added)
    (hdocuments : readDocuments (bracketed inner) = .ok documents)
    (hadded : List.Forall₂ (fun stage document => readDocuments (bracketed stage) = .ok [document])
      stages added)
    (hbraces : ∀ stage ∈ stages, stage.head? = some '{' ∧ stage.getLast? = some '}')
    (hne : stages ≠ []) (hcomma : comma = if documents = [] then [] else [',']) :
    readDocuments (bracketed (inner ++ (comma ++ join [','] stages))) =
      .ok (documents ++ added) := by
  have hinner := Relaxed.interior_of_spells h.spells h.comma
  have hstages : List.Forall₂ (fun stage value => Listing Relaxed.IsGap Relaxed.ReadsAs stage [value])
      stages (added.map .object) := by
    rw [List.forall₂_map_right_iff]
    refine ((List.forall₂_and_left stages added).mpr ⟨hbraces, h.stages⟩).imp ?_
    rintro stage document ⟨⟨hopen, hclose⟩, hstage⟩
    exact Relaxed.listing_of_spells hstage hopen hclose
  have hcomma' : comma = if documents.map Value.object = [] then [] else [','] := by
    simpa using hcomma
  cases hread : Strict.readText (bracketed (inner ++ (comma ++ join [','] stages))) with
  | error fault =>
      have hwhole := hinner.append Relaxed.isGap_nil
        (Listing.join Relaxed.isGap_nil hstages hne) hcomma'
      rw [← List.map_append] at hwhole
      rw [readDocuments_of_relaxed hread (Relaxed.read?_bracketed hwhole), documentsFrom_eq_ok_iff]
  | ok value =>
      obtain ⟨items, rfl, hwhole⟩ := Strict.interior_of_readText hread
      obtain ⟨first, parts, rfl, hfirst, hparts⟩ :=
        exists_parts_of_interior hinner hstages hne hcomma' hwhole
      rw [readDocuments_of_strict (Strict.readText_bracketed hfirst),
        documentsFrom_eq_ok_iff] at hdocuments
      rw [readDocuments_of_strict hread, documentsFrom_eq_ok_iff, hdocuments,
        Strict.flatten_eq hadded hparts, List.map_append]

/-- An array with nothing but blanks in it holds no documents. -/
theorem eq_nil_of_isBlankText (hblank : isBlankText inner = true)
    (hread : (Strict.readText (bracketed inner)).isOk = true ∨
      Relaxed.Spells (bracketed inner) documents)
    (h : readDocuments (bracketed inner) = .ok documents) : documents = [] := by
  rw [← List.map_eq_nil_iff (f := Value.object)]
  rcases hread with hread | hread
  · exact (Strict.interior_of_readDocuments hread h).eq_nil_of_isBlankText
      (fun _ _ => Strict.ReadsAs.exists_not_isBlank) hblank
  · obtain ⟨items, front, tail, hitems, rfl, -, hinterior, -⟩ := Relaxed.interior_of_readValue? hread
    obtain rfl := Value.array.inj hitems
    rw [isBlankText, List.all_append, Bool.and_eq_true] at hblank
    exact hinterior.eq_nil_of_isBlankText (fun _ _ => Relaxed.ReadsAs.exists_not_isBlank) hblank.1

end Documents
end CommandTemplate
