import CommandTemplate.Compile.Basic
import CommandTemplate.Proofs.Template.Run

/-!
# Appending stages before other calls

Stages are mostly appended before anything else is done.  A stage is then taken as soon as the text
is an array and the stage is in braces, whatever was appended before it, and all stages together
extend the goal and the tags of the stages.
-/

namespace CommandTemplate

open Text

namespace TemplateCall

def isAppend : TemplateCall → Bool
  | .appendStage _ => true
  | _ => false

def stage? : TemplateCall → Option Text
  | .appendStage stage =>
    if Template.isEnclosed '{' '}' stage.trim then some stage.trim else none
  | _ => none

def stagesOn (base : Text) (calls : List TemplateCall) : List Text :=
  if Template.isEnclosed '[' ']' base then calls.filterMap stage? else []

/-- No call appends a stage after a call that does something else. -/
def AppendsFirst (calls : List TemplateCall) : Prop :=
  calls.Pairwise fun earlier later => later.isAppend = true → earlier.isAppend = true

instance (calls : List TemplateCall) : Decidable (AppendsFirst calls) :=
  inferInstanceAs (Decidable (calls.Pairwise _))

theorem AppendsFirst.exists_append {calls : List TemplateCall} (h : AppendsFirst calls) :
    ∃ front rest, calls = front ++ rest ∧ (∀ call ∈ front, call.isAppend = true) ∧
      ∀ stage, .appendStage stage ∉ rest := by
  induction calls with
  | nil => exact ⟨[], [], rfl, by simp, by simp⟩
  | cons call calls ih =>
      obtain ⟨hcall, hcalls⟩ := List.pairwise_cons.mp h
      cases happend : call.isAppend with
      | true =>
          obtain ⟨front, rest, rfl, hfront, hrest⟩ := ih hcalls
          exact ⟨call :: front, rest, rfl, List.forall_mem_cons.mpr ⟨happend, hfront⟩, hrest⟩
      | false =>
          refine ⟨[], call :: calls, rfl, by simp, ?_⟩
          intro stage hstage
          rcases List.mem_cons.mp hstage with rfl | hstage
          · simp [isAppend] at happend
          · have hearlier := hcall _ hstage rfl
            rw [happend] at hearlier
            simp at hearlier

theorem filterMap_stage?_eq_nil {calls : List TemplateCall}
    (h : ∀ stage, .appendStage stage ∉ calls) : calls.filterMap stage? = [] := by
  rw [List.filterMap_eq_nil_iff]
  intro call hcall
  cases call with
  | appendStage stage => exact absurd hcall (h stage)
  | resolve path => rfl
  | assign name value => rfl
  | render => rfl

theorem paths_eq_nil_of_isAppend {calls : List TemplateCall}
    (h : ∀ call ∈ calls, call.isAppend = true) : paths calls = [] := by
  rw [paths, List.filterMap_eq_nil_iff]
  intro call hcall
  have happend := h call hcall
  cases call <;> simp_all [isAppend, path?]

theorem names_eq_nil_of_isAppend {calls : List TemplateCall}
    (h : ∀ call ∈ calls, call.isAppend = true) : names calls = [] := by
  rw [names, List.filterMap_eq_nil_iff]
  intro call hcall
  have happend := h call hcall
  cases call <;> simp_all [isAppend, name?]

end TemplateCall

namespace Template

open TemplateCall

theorem accepts_eq (stage : Text) (template : Template) :
    template.accepts stage = (isEnclosed '[' ']' template.base && isEnclosed '{' '}' stage.trim) :=
  rfl

theorem run_of_isAppend {calls : List TemplateCall}
    (h : ∀ call ∈ calls, call.isAppend = true) (template : Template) :
    template.run calls = { template with
      stages := template.stages ++ stagesOn template.base calls
      goal := (stagesOn template.base calls).foldl TagSet.scan template.goal
      stageTags := (stagesOn template.base calls).foldl TagSet.scan template.stageTags } := by
  induction calls generalizing template with
  | nil => simp [stagesOn]
  | cons call calls ih =>
      rw [List.forall_mem_cons] at h
      cases call with
      | appendStage stage =>
          rw [run_cons, ih h.2, after_appendStage, appended_eq, accepts_eq]
          cases harray : isEnclosed '[' ']' template.base with
          | false => simp [stagesOn, harray]
          | true =>
              cases hstage : isEnclosed '{' '}' stage.trim with
              | false => simp [stagesOn, harray, stage?, hstage]
              | true => simp [stagesOn, harray, stage?, hstage]
      | resolve path => simp [isAppend] at h
      | assign name value => simp [isAppend] at h
      | render => simp [isAppend] at h

/-! ## Stages that are all appended -/

theorem isOk_appendStage (stage : Text) (template : Template) :
    (template.appendStage stage).isOk = template.accepts stage := by
  rw [appendStage, accepts]
  cases hbase : isEnclosed '[' ']' template.base with
  | false => simp [Except.isOk, Except.toBool]
  | true =>
      cases hstage : isEnclosed '{' '}' stage.trim with
      | false => simp [Except.isOk, Except.toBool]
      | true => simp [Except.isOk, Except.toBool]

theorem appendStage_eq_ok {stage : Text} {template changed : Template}
    (h : template.appendStage stage = .ok changed) :
    template.accepts stage = true ∧ changed = template.appended stage := by
  constructor
  · rw [← isOk_appendStage, h]
    rfl
  · rw [appended, h]

theorem appendStages_eq_ok {stages : List Text} {made staged : Template}
    (h : made.appendStages stages = .ok staged) :
    staged = made.run (stages.map .appendStage) ∧
      ∀ stage ∈ stages, made.accepts stage = true := by
  induction stages generalizing made with
  | nil =>
      rw [appendStages] at h
      exact ⟨(Except.ok.inj h).symm, by simp⟩
  | cons stage stages ih =>
      rw [appendStages] at h
      split at h
      · rename_i changed hchanged
        obtain ⟨haccepts, rfl⟩ := appendStage_eq_ok hchanged
        obtain ⟨hrun, hstages⟩ := ih h
        refine ⟨hrun, List.forall_mem_cons.mpr ⟨haccepts, ?_⟩⟩
        intro other hother
        have hother := hstages other hother
        rwa [accepts_eq, appended_base, ← accepts_eq] at hother
      · simp at h

theorem stagesOn_map_appendStage {stages : List Text} {template : Template}
    (h : ∀ stage ∈ stages, template.accepts stage = true) :
    stagesOn template.base (stages.map .appendStage) = stages.map trim := by
  induction stages with
  | nil => simp [stagesOn]
  | cons stage stages ih =>
      rw [List.forall_mem_cons, accepts_eq, Bool.and_eq_true] at h
      have hrest := ih h.2
      rw [stagesOn, if_pos h.1.1] at hrest ⊢
      rw [List.map_cons, List.filterMap_cons, stage?, if_pos h.1.2, hrest]
      rfl

end Template
end CommandTemplate
