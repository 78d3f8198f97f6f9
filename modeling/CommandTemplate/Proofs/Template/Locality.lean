import CommandTemplate.Proofs.Template.Outcome
import CommandTemplate.Proofs.Template.Shape

/-!
# Values in each fragment

The tags of a template are found in its text and in each stage, while values are put in after these
are joined.  Both see the same tags as long as the fragments stand apart, and then a render answers
the fragments with their own values.  A fragment that leaves a tag open swallows the tags of the
stages behind it, up to where one of them is closed.
-/

namespace CommandTemplate

open Text

namespace Template

theorem standApart_iff_tokens_compose {template : Template} (hshape : template.IsWellFormed)
    (hstages : template.stages ≠ []) :
    StandApart (template.base :: template.stages) ↔
      template.compose.tokens = template.base.tokens ++ template.stages.flatMap tokens := by
  obtain ⟨inner, hbase⟩ := exists_bracketed_of_isEnclosed (hshape.array hstages).1
  rw [compose_eq, hbase]
  exact standApart_iff_tokens_joinFragments hstages _

theorem filled_of_standApart {template : Template} (hshape : template.IsWellFormed)
    (happart : StandApart (template.base :: template.stages)) :
    template.filled =
      joinFragments (isBlankText (template.base.dropLast.drop 1))
        (template.base.substitute template.values.get?)
        (template.stages.map (substitute template.values.get?)) := by
  rw [filled, compose_eq]
  apply substitute_joinFragments _ happart
  exact fun hstages => exists_bracketed_of_isEnclosed (hshape.array hstages).1

/-- Whatever was requested, a template with stages renders to its fragments, each with its own values,
if the fragments stand apart; and this they do when the joined text has the tags that were found in
the fragments. -/
theorem renderText_eq_joinFragments {sourceKey : SourceKey} {source : Text}
    {cache after current : Cache} {made last : Template} {requests : List TemplateRequest}
    {text : Text} (hmade : create sourceKey source cache = (.ok made, after))
    (hlast : (made.performAll requests after).2.1 = last) (hstages : last.stages ≠ [])
    (hrender : (last.renderText current).1 = .ok text) :
    (StandApart (last.base :: last.stages) →
        text = joinFragments (isBlankText (last.base.dropLast.drop 1))
          (last.base.substitute last.values.get?)
          (last.stages.map (substitute last.values.get?))) ∧
      (StandApart (last.base :: last.stages) ↔
        last.compose.tokens = last.base.tokens ++ last.stages.flatMap tokens) := by
  have hshape : last.IsWellFormed := by
    rw [← hlast, performAll_template]
    exact (isWellFormed_of_create hmade).run _
  obtain ⟨-, -, rfl⟩ := renderText_eq_ok_iff.mp hrender
  exact ⟨filled_of_standApart hshape, standApart_iff_tokens_compose hshape hstages⟩

/-- The `<` of the text begins no tag with the stage, whose first line has no `>`. -/
theorem renderText_lineBreak :
    let source : Text := "[<a>,<]".toList
    let made := start source 0 false source
    let requests : List TemplateRequest :=
      [.appendStage "\x7b\n<n>\x7d".toList, .assign ['a'] ['1'], .assign ['n'] ['2']]
    let last := (made.performAll requests .unbounded).2.1
    create (fun _ => 0) source .unbounded = (.ok made, .unbounded) ∧
      last.base.LeavesOpen ∧ StandApart (last.base :: last.stages) ∧
        (last.renderText .unbounded).1 = .ok "[1,<,\x7b\n2\x7d]".toList := by
  intro source made requests last
  have hmade : create (fun _ => 0) source .unbounded = (.ok made, .unbounded) := by
    decide +kernel
  have happart : StandApart (last.base :: last.stages) := by decide +kernel
  have hrender : (last.renderText .unbounded).1 = .ok last.filled := by
    rw [renderText_eq, (by decide +kernel : last.countValues.obstacle? = none)]
  obtain ⟨hfragments, -⟩ := renderText_eq_joinFragments hmade rfl (by decide +kernel) hrender
  refine ⟨hmade, by decide +kernel, happart, ?_⟩
  rw [hrender, hfragments happart]
  decide +kernel

/-- Without the line break the stage closes the tag, which has the tag of the stage in it. -/
example :
    let source : Text := "[<a>,<]".toList
    let requests : List TemplateRequest :=
      [.appendStage "{<n>}".toList, .assign ['a'] ['1'], .assign ['n'] ['2']]
    let last := ((start source 0 false source).performAll requests .unbounded).2.1
    ¬StandApart (last.base :: last.stages) ∧
      (last.renderText .unbounded).1 = .ok "[1,<,{<n>}]".toList := by
  decide +kernel

end Template
end CommandTemplate
