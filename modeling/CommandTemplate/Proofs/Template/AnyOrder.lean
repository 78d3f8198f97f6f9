import CommandTemplate.Proofs.Tag.Discovery
import CommandTemplate.Proofs.Template.Soundness

/-!
# Paths in any order

Resolving looks for a token as a part of the text, wherever it stands, while scanning and
substituting go from tag to tag.  In a text none of whose tags has a second `<` both find the same
places, and taking the brackets away there leaves all other tags as they are.  The paths of a text
can therefore be resolved in any order.
-/

namespace CommandTemplate

open Text

namespace Text

variable {text name : Text}

/-- The replacement of one tag by its name, which leaves all other tags alone. -/
def ownName? (name token : Text) : Option Text :=
  if token = tagToken name then some name else none

theorem mem_tags_iff {token : Text} : token ∈ text.tags ↔ token ∈ text.tokens := by
  rw [TagSet.mem_def, TagSet.toList_tags, List.mem_eraseDups]

theorem HasSimpleTags.isPlainName (h : text.HasSimpleTags) (hname : tagToken name ∈ text.tokens) :
    IsPlainName name := by
  obtain ⟨other, hother, heq⟩ := h.exists_name hname
  rwa [tagToken_injective heq]

theorem HasSimpleTags.expansion?_eq (h : text.HasSimpleTags) {token : Text}
    (htoken : token ∈ text.tokens) : expansion? [name] token = ownName? name token := by
  obtain ⟨other, -, rfl⟩ := h.exists_name htoken
  rw [expansion?, tagName_tagToken, ownName?]
  by_cases hother : other = name
  · simp [hother]
  · rw [if_neg (by simpa using hother), if_neg fun heq => hother (tagToken_injective heq)]

theorem HasSimpleTags.expand_singleton (h : text.HasSimpleTags) (name : Text) :
    text.expand [name] = text.substitute (ownName? name) :=
  substitute_congr fun _ htoken => h.expansion?_eq htoken

/-- Without the brackets of one tag, the other tags of a text are those that it had. -/
theorem HasSimpleTags.tags_expand_singleton (h : text.HasSimpleTags) (name : Text) :
    (text.expand [name]).tags = text.tags.filter (· ≠ tagToken name) := by
  have hleft : ∀ token ∈ text.tokens,
      (expansion? [name] token).isNone = decide (token ≠ tagToken name) := by
    intro token htoken
    rw [h.expansion?_eq htoken, ownName?]
    by_cases heq : token = tagToken name
    · simp [heq]
    · simp [heq]
  apply TagSet.ext
  calc
    (text.expand [name]).tags.toList = (text.expand [name]).tokens.eraseDups :=
      TagSet.toList_tags _
    _ = (text.tokens.filter (· ≠ tagToken name)).eraseDups := by
      rw [Text.expand, tokens_substitute (h.opensNothing [name]), List.filter_congr hleft]
    _ = (text.tags.filter (· ≠ tagToken name)).toList := by
      rw [eraseDups_filter, ← TagSet.toList_tags]
      rfl

end Text

namespace Template

/-- The paths whose tags are replaced in the text of a template when they are resolved. -/
def pathsOfText (template : Template) (paths : List Text) : List Text :=
  paths.filter fun path => !template.cached && tagToken path ∈ template.goal

/-- Resolving a path replaces its tag in the text, if the text is the template's own and the tag is
in the goal. -/
theorem resolve_base_of_plain {template : Template} (h : template.base.HasSimpleTags) {path : Text}
    (hpath : IsPlainName path) :
    (template.resolve path).base = template.base.expand (template.pathsOfText [path]) := by
  by_cases hsame : template.cached = true ∨ tagToken path ∉ template.goal
  · rw [resolve_base_of_not_mem hsame]
    rcases hsame with hcached | hgoal
    · simp [pathsOfText, hcached]
    · simp [pathsOfText, hgoal]
  · rw [not_or, Bool.not_eq_true, not_not] at hsame
    simpa [resolve, pathsOfText, hsame.1, hsame.2] using replaceAll_tagToken h hpath

/-- Paths that are resolved one after another are replaced as if at once. -/
theorem run_resolve_base {template : Template} (h : template.base.HasSimpleTags)
    {paths : List Text} (hpaths : ∀ path ∈ paths, IsPlainName path) :
    (template.run (paths.map .resolve)).base =
      template.base.expand (template.pathsOfText paths) := by
  induction paths generalizing template with
  | nil => exact (expand_nil _).symm
  | cons path paths ih =>
      obtain ⟨hpath, hrest⟩ := List.forall_mem_cons.mp hpaths
      have hstep := resolve_base_of_plain h hpath
      have hsimple : (template.resolve path).base.HasSimpleTags := by
        rw [hstep]
        exact h.expand _
      have hsame : (template.resolve path).pathsOfText paths = template.pathsOfText paths := by
        rw [pathsOfText, resolve_cached, resolve_goal, pathsOfText]
      calc
        (template.run ((path :: paths).map .resolve)).base =
            ((template.resolve path).run (paths.map .resolve)).base := rfl
        _ = (template.base.expand (template.pathsOfText [path])).expand
              (template.pathsOfText paths) := by rw [ih hsimple hrest, hstep, hsame]
        _ = template.base.expand (template.pathsOfText ([path] ++ paths)) := by
          rw [expand_expand h, pathsOfText, pathsOfText, ← List.filter_append, pathsOfText]

/-- In a text with simple tags, replacing a token wherever it occurs is substituting one tag, and all
other tags stay as they are.  Paths of such a text that are resolved in turn are replaced as if at
once, so that their order does not matter. -/
theorem resolve_in_any_order {text : Text} (h : text.HasSimpleTags) :
    (∀ name, tagToken name ∈ text.tags →
      text.replaceAll (tagToken name) name = text.substitute (ownName? name) ∧
        (text.replaceAll (tagToken name) name).tags = text.tags.filter (· ≠ tagToken name)) ∧
      ∀ (template : Template) (paths others : List Text), template.base = text →
        (∀ path ∈ paths, tagToken path ∈ text.tags) →
          (template.run (paths.map .resolve)).base = text.expand (template.pathsOfText paths) ∧
            (paths.Perm others → (template.run (others.map .resolve)).base =
              (template.run (paths.map .resolve)).base) := by
  constructor
  · intro name hname
    have hreplaced := replaceAll_tagToken h (h.isPlainName (mem_tags_iff.mp hname))
    rw [hreplaced]
    exact ⟨h.expand_singleton name, h.tags_expand_singleton name⟩
  · rintro template paths others rfl hpaths
    have hplain : ∀ path ∈ paths, IsPlainName path := fun path hpath =>
      h.isPlainName (mem_tags_iff.mp (hpaths path hpath))
    refine ⟨run_resolve_base h hplain, fun hperm => ?_⟩
    have hothers : ∀ path ∈ others, IsPlainName path := fun path hpath =>
      hplain path (hperm.mem_iff.mpr hpath)
    rw [run_resolve_base h hothers, run_resolve_base h hplain]
    apply expand_congr
    intro token _
    simp only [pathsOfText, List.mem_filter, hperm.mem_iff]

/-- The two paths of a text with a lone `<` in it, resolved from the front and from the back. -/
theorem resolve_in_any_order_lone :
    let text : Text := "[<A>, '<B' < \n<B>><A>]".toList
    let template := start text 0 false text
    text.HasSimpleTags ∧ tagToken ['B'] ∈ text.tags ∧
      (text.replaceAll (tagToken ['B']) ['B']).tags = text.tags.filter (· ≠ tagToken ['B']) ∧
        (template.run ([['A'], ['B']].map .resolve)).base =
          (template.run ([['B'], ['A']].map .resolve)).base := by
  intro text template
  have hsimple : text.HasSimpleTags := by decide +kernel
  have htag : tagToken ['B'] ∈ text.tags := by decide +kernel
  have hpaths : ∀ path ∈ [['B'], ['A']], tagToken path ∈ text.tags := by decide +kernel
  obtain ⟨hreplaced, horder⟩ := resolve_in_any_order hsimple
  exact ⟨hsimple, htag, (hreplaced ['B'] htag).2,
    (horder template [['B'], ['A']] [['A'], ['B']] rfl hpaths).2 (List.Perm.swap _ _ _)⟩

end Template
end CommandTemplate
