import CommandTemplate.Proofs.Tag.Substitution
import CommandTemplate.Text.Replace

/-!
# Tags replaced by their names

Structural replacement puts the name of a tag in place of the tag wherever the token occurs as a
part of the text.  In a text none of whose tags has a second `<` these occurrences are the tags that
scanning finds, so that replacement is a substitution: the tags with the given names are replaced
by them, all at once or one after another and in any order.
-/

namespace CommandTemplate

def tagName (token : Text) : Text :=
  token.tail.dropLast

@[simp] theorem tagName_tagToken (name : Text) : tagName (tagToken name) = name := by
  simp [tagName, tagToken]

theorem tagToken_injective {a b : Text} (h : tagToken a = tagToken b) : a = b := by
  simpa using congrArg tagName h

namespace Text

/-- A name that a tag can have and that opens no tag itself. -/
def IsPlainName (name : Text) : Prop :=
  '<' ∉ name ∧ IsTagName name

/-- No tag of the text has a `<` after its beginning. -/
def HasSimpleTags (text : Text) : Prop :=
  ∀ token ∈ text.tokens, '<' ∉ token.tail

instance (text : Text) : Decidable text.HasSimpleTags :=
  inferInstanceAs (Decidable (∀ token ∈ text.tokens, '<' ∉ token.tail))

/-- Whether a text is among given ones, by comparing it with each of them. -/
instance decidableMemTexts (text : Text) (texts : List Text) : Decidable (text ∈ texts) :=
  decidable_of_iff (texts.elem text) List.elem_iff

/-- The replacement of a token whose name is among the given ones. -/
def expansion? (names : List Text) (token : Text) : Option Text :=
  if tagName token ∈ names then some (tagName token) else none

/-- The text with every tag whose name is among the given ones replaced by its name. -/
def expand (names : List Text) (text : Text) : Text :=
  text.substitute (expansion? names)

/-! ## Simple tags -/

theorem isPlainName_of_tagToken {name : Text} (hname : IsTagName name)
    (hopen : '<' ∉ (tagToken name).tail) : IsPlainName name := by
  refine ⟨?_, hname⟩
  intro h
  apply hopen
  simp [tagToken, h]

theorem HasSimpleTags.exists_name {text token : Text} (h : text.HasSimpleTags)
    (htoken : token ∈ text.tokens) : ∃ name, IsPlainName name ∧ token = tagToken name := by
  obtain ⟨name, hname, rfl⟩ := exists_name_of_mem_tokens htoken
  exact ⟨name, isPlainName_of_tagToken hname (h _ htoken), rfl⟩

theorem HasSimpleTags.tagToken_tagName {text token : Text} (h : text.HasSimpleTags)
    (htoken : token ∈ text.tokens) : tagToken (tagName token) = token := by
  obtain ⟨name, -, rfl⟩ := h.exists_name htoken
  rw [tagName_tagToken]

theorem HasSimpleTags.of_cons_plain {c : Char} {rest : Text} (h : HasSimpleTags (c :: rest))
    (hstart : tagAtStart? (c :: rest) = none) : HasSimpleTags rest := by
  intro token htoken
  exact h token (by rwa [tokens_cons_plain hstart])

theorem HasSimpleTags.of_tagToken_append {name rest : Text}
    (h : HasSimpleTags (tagToken name ++ rest)) (hname : IsTagName name) :
    IsPlainName name ∧ HasSimpleTags rest := by
  rw [HasSimpleTags, tokens_tagToken_append hname, List.forall_mem_cons] at h
  exact ⟨isPlainName_of_tagToken hname h.1, h.2⟩

/-! ## Expansion -/

theorem expand_cons_plain {c : Char} {rest : Text} (h : tagAtStart? (c :: rest) = none)
    (names : List Text) : expand names (c :: rest) = c :: expand names rest :=
  substitute_cons_plain h

theorem expand_tagToken_append {name : Text} (hname : IsTagName name) (names : List Text)
    (rest : Text) :
    expand names (tagToken name ++ rest) =
      (if name ∈ names then name else tagToken name) ++ expand names rest := by
  rw [expand, substitute_tagToken_append hname, expand, expansion?, tagName_tagToken]
  by_cases h : name ∈ names
  · simp [h]
  · simp [h]

theorem HasSimpleTags.opensNothing {text : Text} (h : text.HasSimpleTags) (names : List Text) :
    OpensNothing (expansion? names) text := by
  intro token htoken replacement hreplacement
  obtain ⟨name, hname, rfl⟩ := h.exists_name htoken
  rw [expansion?, tagName_tagToken] at hreplacement
  split at hreplacement
  · obtain rfl := Option.some.inj hreplacement
    exact hname.1
  · simp at hreplacement

theorem mem_tokens_expand {text token : Text} (h : text.HasSimpleTags) {names : List Text} :
    token ∈ (text.expand names).tokens ↔ token ∈ text.tokens ∧ tagName token ∉ names := by
  rw [expand, tokens_substitute (h.opensNothing names), List.mem_filter, expansion?]
  by_cases hnames : tagName token ∈ names
  · simp [hnames]
  · simp [hnames]

theorem HasSimpleTags.expand {text : Text} (h : text.HasSimpleTags) (names : List Text) :
    (text.expand names).HasSimpleTags := by
  intro token htoken
  exact h token ((mem_tokens_expand h).mp htoken).1

theorem expand_congr {text : Text} {names others : List Text}
    (h : ∀ token ∈ text.tokens, tagName token ∈ names ↔ tagName token ∈ others) :
    text.expand names = text.expand others := by
  apply substitute_congr
  intro token htoken
  simp only [expansion?, h token htoken]

theorem expand_eq_self {text : Text} {names : List Text}
    (h : ∀ token ∈ text.tokens, tagName token ∉ names) : text.expand names = text := by
  apply substitute_eq_self
  intro token htoken
  rw [expansion?, if_neg (h token htoken)]

@[simp] theorem expand_nil (text : Text) : text.expand [] = text :=
  expand_eq_self fun _ _ => List.not_mem_nil

theorem expand_expand {text : Text} (h : text.HasSimpleTags) (names others : List Text) :
    (text.expand names).expand others = text.expand (names ++ others) := by
  rw [expand, expand, substitute_substitute (h.opensNothing names), expand]
  apply substitute_congr
  intro token _
  simp only [expansion?, List.mem_append]
  by_cases hnames : tagName token ∈ names
  · simp [hnames]
  · simp [hnames]

/-! ## Replacing the occurrences of a token -/

/-- A token is not found inside of text that does not open a tag. -/
theorem replaceAll_append_of_not_mem {front : Text} (hfront : '<' ∉ front)
    (name new back : Text) :
    replaceAll (front ++ back) (tagToken name) new =
      front ++ replaceAll back (tagToken name) new := by
  induction front with
  | nil => rfl
  | cons c front ih =>
      rw [List.mem_cons, not_or] at hfront
      have hstart : startsWith (c :: (front ++ back)) (tagToken name) = false := by
        simp [startsWith, tagToken, List.isPrefixOf, hfront.1]
      rw [List.cons_append, replaceAll_cons_of_not_startsWith hstart, ih hfront.2,
        List.cons_append]

theorem tagAtStart?_of_startsWith {text name : Text} (hname : IsTagName name)
    (h : startsWith text (tagToken name) = true) : tagAtStart? text = some (tagToken name) := by
  rw [startsWith, List.isPrefixOf_iff_prefix] at h
  obtain ⟨rest, rfl⟩ := h
  exact tagAtStart?_tagToken_append hname rest

theorem startsWith_eq_false {c : Char} {rest name : Text} (hname : IsTagName name)
    (hstart : tagAtStart? (c :: rest) = none) :
    startsWith (c :: rest) (tagToken name) = false := by
  rw [Bool.eq_false_iff]
  intro h
  rw [tagAtStart?_of_startsWith hname h] at hstart
  simp at hstart

/-- Replacing every occurrence of a token by its name replaces the tags with this name. -/
theorem replaceAll_tagToken {text name : Text} (htext : text.HasSimpleTags)
    (hname : IsPlainName name) :
    replaceAll text (tagToken name) name = text.expand [name] := by
  induction text using pieceInduction with
  | nil => rw [replaceAll_nil]; rfl
  | plain c rest hstart ih =>
      rw [replaceAll_cons_of_not_startsWith (startsWith_eq_false hname.2 hstart), ih (htext.of_cons_plain hstart),
        expand_cons_plain hstart]
  | tag other rest hother ih =>
      obtain ⟨hplain, hrest⟩ := htext.of_tagToken_append hother
      rw [expand_tagToken_append hother, ← ih hrest]
      by_cases heq : other = name
      · subst heq
        rw [replaceAll_append_self (by simp [tagToken]), if_pos (List.mem_singleton.mpr rfl)]
      · have hnot : startsWith (tagToken other ++ rest) (tagToken name) = false := by
          rw [Bool.eq_false_iff]
          intro h
          have hfound := tagAtStart?_of_startsWith hname.2 h
          rw [tagAtStart?_tagToken_append hother] at hfound
          exact heq (tagToken_injective (Option.some.inj hfound))
        have hinner : '<' ∉ other ++ ['>'] := by simp [hplain.1]
        have hopen : tagToken other ++ rest = '<' :: (other ++ ['>'] ++ rest) := rfl
        rw [hopen] at hnot ⊢
        rw [if_neg (mt List.mem_singleton.mp heq), replaceAll_cons_of_not_startsWith hnot,
          replaceAll_append_of_not_mem hinner]
        rfl

end Text
end CommandTemplate
