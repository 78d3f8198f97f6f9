import CommandTemplate.Proofs.Tag.Joins
import CommandTemplate.Proofs.Template.Creation
import CommandTemplate.Proofs.Template.Fragments
import CommandTemplate.Proofs.Template.Run

/-!
# The shape of a template

All tags that a template keeps are tags of its goal, the text of a template with stages is an array
and every stage is a document.  The brackets are looked at only once, when a stage is appended.
They stay, because a token begins and ends with angle brackets of its own, so that replacing it
never touches the first or the last character of an array or a document, whatever the path is.  The
text can therefore always be cut behind its first byte and before its last one.
-/

namespace CommandTemplate

open Text

namespace Text

/-- Cutting a text at a byte offset gives two texts: the offset is in range, and no character has
bytes on both sides of it. -/
def CutsAt (text : Text) (offset : Nat) (front back : Text) : Prop :=
  offset ≤ text.bytes.length ∧ text.bytes.take offset = front.bytes ∧
    text.bytes.drop offset = back.bytes

theorem bytes_append (front back : Text) : bytes (front ++ back) = front.bytes ++ back.bytes :=
  List.flatMap_append

theorem cutsAt_append (front back : Text) :
    CutsAt (front ++ back) front.bytes.length front back := by
  rw [CutsAt, bytes_append]
  refine ⟨?_, List.take_left, List.drop_left⟩
  rw [List.length_append]
  exact Nat.le_add_right _ _

end Text

namespace Template

/-- The sets of a template belong to its goal, the text of a template with stages is in square
brackets, and each stage is in braces. -/
structure IsWellFormed (template : Template) : Prop where
  goal_of_stage : ∀ token ∈ template.stageTags, token ∈ template.goal
  goal_of_replaced : ∀ token ∈ template.replaced, token ∈ template.goal
  goal_of_value : ∀ token ∈ template.values.keys, token ∈ template.goal
  array : template.stages ≠ [] →
    isEnclosed '[' ']' template.base = true ∧ 2 ≤ template.base.length
  document : ∀ stage ∈ template.stages, isEnclosed '{' '}' stage = true ∧ 2 ≤ stage.length

/-! ## Brackets -/

section Brackets

variable {opening closing : Char} {text : Text}

theorem two_le_length_of_isEnclosed (hne : opening ≠ closing)
    (h : isEnclosed opening closing text = true) : 2 ≤ text.length := by
  obtain ⟨inner, rfl⟩ := (isEnclosed_iff hne).mp h
  simp

theorem isEnclosed_replaceAll (hne : opening ≠ closing) (hopening : opening ≠ '<')
    (hclosing : closing ≠ '>') (h : isEnclosed opening closing text = true) (name new : Text) :
    isEnclosed opening closing (text.replaceAll (tagToken name) new) = true := by
  obtain ⟨inner, rfl⟩ := (isEnclosed_iff hne).mp h
  rw [replaceAll_enclosed hopening hclosing]
  exact (isEnclosed_iff hne).mpr ⟨_, rfl⟩

end Brackets

theorem isEnclosed_after_base {template : Template}
    (h : isEnclosed '[' ']' template.base = true) (call : TemplateCall) :
    isEnclosed '[' ']' (template.after call).base = true := by
  rcases after_base_cases call template with hsame | ⟨path, -, hreplaced⟩
  · rwa [hsame]
  · rw [hreplaced]
    exact isEnclosed_replaceAll (by decide) (by decide) (by decide) h path path

theorem isEnclosed_run_base {template : Template}
    (h : isEnclosed '[' ']' template.base = true) (calls : List TemplateCall) :
    isEnclosed '[' ']' (template.run calls).base = true := by
  induction calls generalizing template with
  | nil => exact h
  | cons call calls ih => exact ih (isEnclosed_after_base h call)

/-- A stage after a call was there before, perhaps with a tag that is replaced now, or it is the
stage that the call appends. -/
theorem after_stages_cases {call : TemplateCall} {template : Template} {stage : Text}
    (h : stage ∈ (template.after call).stages) :
    (∃ before ∈ template.stages, stage = before ∨
        ∃ path, stage = before.replaceAll (tagToken path) path) ∨
      template.stageOf? call = some stage := by
  cases call with
  | resolve path =>
      have hstages : (template.resolve path).stages = template.stages ∨
          (template.resolve path).stages =
            replaceInStages (tagToken path) path template.stages := by
        simp only [resolve]
        split <;> split <;> simp
      rw [after_resolve] at h
      left
      rcases hstages with hsame | hreplaced
      · rw [hsame] at h
        exact ⟨stage, h, Or.inl rfl⟩
      · rw [hreplaced] at h
        obtain ⟨before, hbefore, rfl⟩ := List.mem_map.mp h
        exact ⟨before, hbefore, Or.inr ⟨path, rfl⟩⟩
  | assign name value =>
      rw [after_assign, assign_stages] at h
      exact Or.inl ⟨stage, h, Or.inl rfl⟩
  | appendStage other =>
      rw [after_appendStage, appended_eq] at h
      split at h
      · rename_i haccepts
        rcases List.mem_append.mp h with hold | hnew
        · exact Or.inl ⟨stage, hold, Or.inl rfl⟩
        · obtain rfl := List.mem_singleton.mp hnew
          exact Or.inr (by rw [stageOf?, if_pos haccepts])
      · exact Or.inl ⟨stage, h, Or.inl rfl⟩
  | render => exact Or.inl ⟨stage, h, Or.inl rfl⟩

theorem accepts_of_stageOf? {call : TemplateCall} {template : Template} {stage : Text}
    (h : template.stageOf? call = some stage) :
    isEnclosed '[' ']' template.base = true ∧ isEnclosed '{' '}' stage = true := by
  obtain ⟨before, rfl, rfl⟩ := trim_of_stageOf? h
  rw [stageOf?] at h
  split at h
  · rename_i haccepts
    rwa [accepts, Bool.and_eq_true] at haccepts
  · simp at h

/-! ## The shape along a run -/

theorem mem_goal_after {template : Template} {token : Text} (h : token ∈ template.goal)
    (call : TemplateCall) : token ∈ (template.after call).goal := by
  rw [after_goal, mem_foldl_scan]
  exact Or.inl h

namespace IsWellFormed

variable {template : Template}

theorem after_stageTags_subset (h : template.IsWellFormed) (call : TemplateCall) :
    ∀ token ∈ (template.after call).stageTags, token ∈ (template.after call).goal := by
  intro token htoken
  rw [after_stageTags, mem_foldl_scan] at htoken
  rw [after_goal, mem_foldl_scan]
  exact htoken.imp_left (h.goal_of_stage token)

theorem after_replaced_subset (h : template.IsWellFormed) (call : TemplateCall) :
    ∀ token ∈ (template.after call).replaced, token ∈ (template.after call).goal := by
  intro token htoken
  apply mem_goal_after
  cases call with
  | resolve path =>
      rcases mem_replaced_resolve.mp htoken with hold | ⟨rfl, hmem⟩
      · exact h.goal_of_replaced token hold
      · split at hmem
        · exact h.goal_of_stage _ hmem
        · exact hmem
  | assign name value =>
      rw [after_assign, assign_replaced] at htoken
      exact h.goal_of_replaced token htoken
  | appendStage stage =>
      rw [after_appendStage, appended_replaced] at htoken
      exact h.goal_of_replaced token htoken
  | render =>
      rcases mem_replaced_rendered.mp htoken with hold | hvalue
      · exact h.goal_of_replaced token hold
      · exact h.goal_of_value token (RecencyMap.mem_keys_iff.mpr hvalue)

theorem after_values_subset (h : template.IsWellFormed) (call : TemplateCall) :
    ∀ token ∈ (template.after call).values.keys, token ∈ (template.after call).goal := by
  intro token htoken
  apply mem_goal_after
  cases call with
  | resolve path =>
      rw [after_resolve, resolve_values] at htoken
      exact h.goal_of_value token htoken
  | assign name value =>
      by_cases hgoal : tagToken name ∈ template.goal
      · rw [after_assign, RecencyMap.mem_keys_iff, get?_values_assign hgoal] at htoken
        split at htoken
        · rename_i heq
          rwa [heq]
        · exact h.goal_of_value token (RecencyMap.mem_keys_iff.mpr htoken)
      · have hsame : (template.assign name value).values = template.values := by
          simp [assign, hgoal]
        rw [after_assign, hsame] at htoken
        exact h.goal_of_value token htoken
  | appendStage stage =>
      rw [after_appendStage, appended_values] at htoken
      exact h.goal_of_value token htoken
  | render => exact h.goal_of_value token htoken

theorem after_array (h : template.IsWellFormed) (call : TemplateCall)
    (hstages : (template.after call).stages ≠ []) :
    isEnclosed '[' ']' (template.after call).base = true := by
  apply isEnclosed_after_base
  obtain ⟨stage, hstage⟩ := List.exists_mem_of_ne_nil _ hstages
  rcases after_stages_cases hstage with ⟨before, hbefore, -⟩ | hnew
  · exact (h.array (List.ne_nil_of_mem hbefore)).1
  · exact (accepts_of_stageOf? hnew).1

theorem after_document (h : template.IsWellFormed) (call : TemplateCall) :
    ∀ stage ∈ (template.after call).stages, isEnclosed '{' '}' stage = true := by
  intro stage hstage
  rcases after_stages_cases hstage with ⟨before, hbefore, rfl | ⟨path, rfl⟩⟩ | hnew
  · exact (h.document stage hbefore).1
  · exact isEnclosed_replaceAll (by decide) (by decide) (by decide) (h.document before hbefore).1
      path path
  · exact (accepts_of_stageOf? hnew).2

/-- A call keeps the shape of a template. -/
theorem after (h : template.IsWellFormed) (call : TemplateCall) :
    (template.after call).IsWellFormed where
  goal_of_stage := h.after_stageTags_subset call
  goal_of_replaced := h.after_replaced_subset call
  goal_of_value := h.after_values_subset call
  array := by
    intro hstages
    have harray := h.after_array call hstages
    exact ⟨harray, two_le_length_of_isEnclosed (by decide) harray⟩
  document := by
    intro stage hstage
    have hdocument := h.after_document call stage hstage
    exact ⟨hdocument, two_le_length_of_isEnclosed (by decide) hdocument⟩

theorem run (h : template.IsWellFormed) (calls : List TemplateCall) :
    (template.run calls).IsWellFormed := by
  induction calls generalizing template with
  | nil => exact h
  | cons call calls ih => exact ih (h.after call)

end IsWellFormed

theorem isWellFormed_start (source base : Text) (key : UInt64) (cached : Bool) :
    (start source key cached base).IsWellFormed where
  goal_of_stage := by simp [start]
  goal_of_replaced := by simp [start]
  goal_of_value := by simp [start, RecencyMap.keys]
  array := by simp [start]
  document := by simp [start]

theorem isWellFormed_of_create {sourceKey : SourceKey} {source : Text} {cache after : Cache}
    {made : Template} (h : create sourceKey source cache = (.ok made, after)) :
    made.IsWellFormed := by
  rcases create_cases h with ⟨expanded, -, rfl⟩ | ⟨-, -, rfl⟩
  · exact isWellFormed_start source expanded _ true
  · exact isWellFormed_start source source.trim _ false

theorem isEnclosed_compose {template : Template} (hne : template.stages ≠ [])
    (h : isEnclosed '[' ']' template.base = true) :
    isEnclosed '[' ']' template.compose = true := by
  obtain ⟨inner, hbase⟩ := exists_bracketed_of_isEnclosed h
  rw [compose_eq, joinFragments, if_neg hne, hbase, dropLast_bracketed,
    isEnclosed_iff (by decide)]
  exact ⟨_, rfl⟩

/-- An array can be cut before its last byte, and what is left of it behind its first byte. -/
theorem cutsAt_of_isEnclosed {text : Text} (h : isEnclosed '[' ']' text = true) :
    CutsAt text (text.bytes.length - 1) text.dropLast [']'] ∧
      CutsAt text.dropLast 1 ['['] (text.dropLast.drop 1) := by
  obtain ⟨inner, rfl⟩ := exists_bracketed_of_isEnclosed h
  have hlength : (bracketed inner).bytes.length = (bytes ('[' :: inner)).length + 1 := by
    have happend : bracketed inner = '[' :: inner ++ [']'] := rfl
    rw [happend, bytes_append, List.length_append]
    rfl
  rw [hlength, Nat.add_sub_cancel, dropLast_bracketed]
  exact ⟨cutsAt_append ('[' :: inner) [']'], cutsAt_append ['['] inner⟩

/-- Whatever the source, the cache and the requests are, a template keeps its shape.  Once it has
stages, its text can be cut before the last byte, and what is left behind the first one, and the text
with the stages is an array again. -/
theorem isWellFormed_performAll {sourceKey : SourceKey} {source : Text} {cache after : Cache}
    {made : Template} (hmade : create sourceKey source cache = (.ok made, after))
    (requests : List TemplateRequest) :
    let last := (made.performAll requests after).2.1
    last.IsWellFormed ∧
      (last.stages ≠ [] →
        CutsAt last.base (last.base.bytes.length - 1) last.base.dropLast [']'] ∧
          CutsAt last.base.dropLast 1 ['['] (last.base.dropLast.drop 1) ∧
            isEnclosed '[' ']' last.compose = true) := by
  intro last
  have hrun : last = made.run (requests.flatMap TemplateRequest.calls) :=
    performAll_template requests made after
  have hlast : last.IsWellFormed := by
    rw [hrun]
    exact (isWellFormed_of_create hmade).run _
  refine ⟨hlast, ?_⟩
  intro hstages
  have harray := (hlast.array hstages).1
  obtain ⟨hlastByte, hfirstByte⟩ := cutsAt_of_isEnclosed harray
  exact ⟨hlastByte, hfirstByte, isEnclosed_compose hstages harray⟩

/-- Paths that are brackets or nothing leave the text in brackets and the stage in braces. -/
theorem isWellFormed_brackets :
    let source : Text := "[<>é<a]>]".toList
    let made := start source 0 false source
    let requests : List TemplateRequest :=
      [.appendStage " \x7b<\x7d>\x7d ".toList, .resolve [], .resolve "a]".toList, .resolve ['}'],
        .resolve ['<'], .renderText]
    let last := (made.performAll requests .unbounded).2.1
    create (fun _ => 0) source .unbounded = (.ok made, .unbounded) ∧
      last.base = "[éa]]".toList ∧ last.stages = ["\x7b\x7d\x7d".toList] ∧ last.IsWellFormed ∧
        CutsAt last.base 5 "[éa]".toList [']'] ∧ isEnclosed '[' ']' last.compose = true := by
  intro source made requests last
  have hmade : create (fun _ => 0) source .unbounded = (.ok made, .unbounded) := by
    decide +kernel
  have hbase : last.base = "[éa]]".toList := by decide +kernel
  have hstages : last.stages = ["\x7b\x7d\x7d".toList] := by decide +kernel
  obtain ⟨hshape, hcuts⟩ := isWellFormed_performAll hmade requests
  obtain ⟨hlastByte, -, harray⟩ := hcuts (by decide +kernel)
  refine ⟨hmade, hbase, hstages, hshape, ?_, harray⟩
  have hcut : CutsAt last.base (last.base.bytes.length - 1) last.base.dropLast [']'] := hlastByte
  rwa [hbase] at hcut ⊢

end Template
end CommandTemplate
