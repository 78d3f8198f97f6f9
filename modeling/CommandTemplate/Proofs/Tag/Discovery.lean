import CommandTemplate.Proofs.Distinct
import CommandTemplate.Tag.Scan

/-!
# Sets in the order of discovery

A set to which tokens are only added lists them in the order in which they were found first.  A set
in which tokens are touched lists them in the order in which they were touched last.
-/

namespace CommandTemplate
namespace TagSet

theorem toList_addAll (tags : TagSet) (tokens : List Text) :
    (tags.addAll tokens).toList = (tags.toList ++ tokens).eraseDups := by
  induction tokens using List.reverseRecOn with
  | nil =>
      rw [List.append_nil, eraseDups_of_nodup tags.nodup]
      rfl
  | append_singleton tokens token ih =>
      have hstep : tags.addAll (tokens ++ [token]) = (tags.addAll tokens).add token :=
        List.foldl_append
      have hmem : token ∈ tags.addAll tokens ↔ token ∈ tags.toList ++ tokens := by
        rw [mem_addAll, mem_def, List.mem_append]
      rw [hstep, toList_add, ← List.append_assoc, eraseDups_append_singleton, ih]
      simp only [hmem]

theorem addAll_append (tags : TagSet) (tokens others : List Text) :
    tags.addAll (tokens ++ others) = (tags.addAll tokens).addAll others :=
  List.foldl_append

theorem toList_scan (tags : TagSet) (text : Text) :
    (tags.scan text).toList = (tags.toList ++ text.tokens).eraseDups :=
  toList_addAll tags text.tokens

/-- The tags of a text are its tokens, each at its first place. -/
theorem toList_tags (text : Text) : text.tags.toList = text.tokens.eraseDups :=
  toList_scan ∅ text

/-- Texts that are scanned in turn are scanned as one. -/
theorem foldl_scan_eq_addAll (texts : List Text) (tags : TagSet) :
    texts.foldl scan tags = tags.addAll (texts.flatMap Text.tokens) := by
  induction texts generalizing tags with
  | nil => rfl
  | cons text texts ih => rw [List.foldl_cons, ih, List.flatMap_cons, addAll_append, scan]

/-- A token that is touched behind others becomes the last of the distinct ones. -/
theorem toList_touch_of_eq_dedup {tags : TagSet} {touched : List Text}
    (h : tags.toList = touched.dedup) (token : Text) :
    (tags.touch token).toList = (touched ++ [token]).dedup := by
  have hothers : tags.toList.erase token = touched.dedup.filter (· ≠ token) := by
    rw [tags.nodup.erase_eq_filter, h]
    exact List.filter_congr fun other _ => by rw [bne, beq_eq_decide, decide_not]
  rw [toList_touch, hothers, dedup_append_singleton]

/-- Tokens that are touched in turn are listed in the order in which they were touched last. -/
theorem toList_foldl_touch (tokens : List Text) :
    (tokens.foldl touch ∅).toList = tokens.dedup := by
  induction tokens using List.reverseRecOn with
  | nil => rfl
  | append_singleton tokens token ih =>
      rw [List.foldl_append]
      exact toList_touch_of_eq_dedup ih token

end TagSet
end CommandTemplate
