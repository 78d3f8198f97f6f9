import CommandTemplate.Text.Basic

/-!
# Tags

A tag is a name in angle brackets.  Tags are kept with their brackets, as *tokens*, in sets that
remember an order.  A set changes in two ways: `add` puts a new token at the back and leaves a
token that is there where it is, so that the set stays in order of discovery; `touch` moves a
token that is there to the back.
-/

namespace CommandTemplate

/-- The token of a tag name: the name in angle brackets. -/
def tagToken (name : Text) : Text :=
  '<' :: (name ++ ['>'])

/-- A set of tokens with an order. -/
structure TagSet where
  /-- The tokens in their order. -/
  toList : List Text
  /-- No token is listed twice. -/
  nodup : toList.Nodup
deriving DecidableEq

namespace TagSet

def empty : TagSet :=
  ⟨[], List.nodup_nil⟩

instance : EmptyCollection TagSet := ⟨empty⟩

instance : Membership Text TagSet := ⟨fun tags token => token ∈ tags.toList⟩

instance (token : Text) (tags : TagSet) : Decidable (token ∈ tags) :=
  inferInstanceAs (Decidable (token ∈ tags.toList))

def isEmpty (tags : TagSet) : Bool :=
  tags.toList.isEmpty

/-- Puts a token at the back unless the set has it. -/
def add (tags : TagSet) (token : Text) : TagSet :=
  if h : token ∈ tags.toList then
    tags
  else
    ⟨tags.toList ++ [token], by
      rw [List.nodup_append]
      refine ⟨tags.nodup, by simp, ?_⟩
      rintro a ha b hb rfl
      exact h (by simpa [List.mem_singleton.mp hb] using ha)⟩

/-- Puts a token at the back, also when the set has it elsewhere. -/
def touch (tags : TagSet) (token : Text) : TagSet :=
  ⟨tags.toList.erase token ++ [token], by
    rw [List.nodup_append]
    refine ⟨tags.nodup.erase token, by simp, ?_⟩
    rintro a ha b hb rfl
    rw [List.mem_singleton] at hb
    subst hb
    exact tags.nodup.not_mem_erase ha⟩

/-- Adds each token in turn. -/
def addAll (tags : TagSet) (tokens : List Text) : TagSet :=
  tokens.foldl add tags

/-- The tokens that satisfy a condition, in the order of the set. -/
def filter (keep : Text → Bool) (tags : TagSet) : TagSet :=
  ⟨tags.toList.filter keep, tags.nodup.sublist List.filter_sublist⟩

/-- The tokens of a set with commas between them. -/
def listing (tags : TagSet) : Text :=
  Text.join [','] tags.toList

theorem mem_def {tags : TagSet} {token : Text} : token ∈ tags ↔ token ∈ tags.toList :=
  Iff.rfl

@[simp] theorem toList_empty : (∅ : TagSet).toList = [] :=
  rfl

@[simp] theorem not_mem_empty (token : Text) : token ∉ (∅ : TagSet) := by
  simp [mem_def]

theorem toList_add (tags : TagSet) (token : Text) :
    (tags.add token).toList =
      if token ∈ tags then tags.toList else tags.toList ++ [token] := by
  simp only [add, mem_def]
  split <;> rfl

@[simp] theorem toList_touch (tags : TagSet) (token : Text) :
    (tags.touch token).toList = tags.toList.erase token ++ [token] :=
  rfl

@[simp] theorem mem_add {tags : TagSet} {token other : Text} :
    other ∈ tags.add token ↔ other ∈ tags ∨ other = token := by
  rw [mem_def, toList_add]
  split
  · rename_i h
    constructor
    · exact Or.inl
    · rintro (h' | rfl)
      · exact h'
      · exact h
  · simp [mem_def]

@[simp] theorem mem_touch {tags : TagSet} {token other : Text} :
    other ∈ tags.touch token ↔ other ∈ tags ∨ other = token := by
  rw [mem_def, toList_touch, List.mem_append, List.mem_singleton, mem_def]
  by_cases h : other = token
  · simp [h]
  · simp [h, List.mem_erase_of_ne h]

@[simp] theorem mem_addAll {tags : TagSet} {tokens : List Text} {token : Text} :
    token ∈ tags.addAll tokens ↔ token ∈ tags ∨ token ∈ tokens := by
  induction tokens generalizing tags with
  | nil => simp [addAll]
  | cons first rest ih =>
      have hstep : tags.addAll (first :: rest) = (tags.add first).addAll rest := rfl
      rw [hstep, ih, mem_add, List.mem_cons, or_assoc]

@[simp] theorem mem_filter {tags : TagSet} {keep : Text → Bool} {token : Text} :
    token ∈ tags.filter keep ↔ token ∈ tags ∧ keep token = true := by
  simp [mem_def, filter]

theorem ext {a b : TagSet} (h : a.toList = b.toList) : a = b := by
  cases a
  cases b
  simpa using h

theorem filter_congr {tags : TagSet} {keep keep' : Text → Bool}
    (h : ∀ token ∈ tags, keep token = keep' token) : tags.filter keep = tags.filter keep' :=
  ext (List.filter_congr h)

theorem isEmpty_iff {tags : TagSet} : tags.isEmpty = true ↔ ∀ token, token ∉ tags := by
  rw [isEmpty, List.isEmpty_iff, List.eq_nil_iff_forall_not_mem]
  rfl

end TagSet
end CommandTemplate
