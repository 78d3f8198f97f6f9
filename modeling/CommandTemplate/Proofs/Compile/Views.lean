import Mathlib
import CommandTemplate.Proofs.Compile.Repetition
import CommandTemplate.Proofs.Document.RoundTrip

/-!
# The views of a compiled template

The views other than the plain text list the documents of the text.  They are there when the text is
and can be read, and what they show can be read again.
-/

namespace CommandTemplate

open Template

variable {sourceKey : SourceKey} {source : Text} {request : CompileRequest} {cache : Cache}

/-- A view of a compiled template shows its text. -/
theorem compile_view_eq (view : OutputView) :
    (compile sourceKey source request view cache).1 =
      (compile sourceKey source request .text cache).1.bind fun text =>
        (view.show text).mapError .template := by
  rw [compile, compile]
  rcases create sourceKey source cache with ⟨made, after⟩
  cases made with
  | error error => rfl
  | ok made =>
      dsimp only
      cases made.appendStages request.stages with
      | error error => rfl
      | ok template =>
          dsimp only
          rw [renderView_eq, renderView_eq]
          cases ((template.fill request).renderText after).1 with
          | error error => rfl
          | ok text => rfl

theorem OutputView.show_stages_eq_ok_iff {text output : Text} :
    OutputView.stages.show text = .ok output ↔
      ∃ documents, readDocuments text = .ok documents ∧
        output = (Document.arrayOf documents).indented := by
  rw [OutputView.show]
  cases readDocuments text with
  | error error => simp [Except.map]
  | ok documents => simp [Except.map, eq_comm]

/-- The views of a compiled template agree.  The stages are shown exactly when there is a text that
can be read as documents, the filters are shown as the stages are, and where the documents have no
floating-point numbers and are not too deep, what is shown is read as the same documents. -/
theorem compile_views_agree (sourceKey : SourceKey) (source : Text) (request : CompileRequest)
    (cache : Cache) :
    let answer := fun view => (compile sourceKey source request view cache).1
    (∀ output, answer .stages = .ok output ↔ ∃ text documents, answer .text = .ok text ∧
      readDocuments text = .ok documents ∧ output = (Document.arrayOf documents).indented) ∧
    answer .filters = answer .stages ∧
    ∀ text documents, answer .text = .ok text → readDocuments text = .ok documents →
      (Document.arrayOf documents).hasOnlyIntegers = true →
        (Document.arrayOf documents).depth ≤ 127 →
          ∃ output, answer .stages = .ok output ∧ readDocuments output = .ok documents := by
  intro answer
  have hstages : answer .stages = (answer .text).bind fun text =>
      (OutputView.stages.show text).mapError .template := compile_view_eq .stages
  have hfilters : answer .filters = (answer .text).bind fun text =>
      (OutputView.filters.show text).mapError .template := compile_view_eq .filters
  have houtput : ∀ output, answer .stages = .ok output ↔ ∃ text documents,
      answer .text = .ok text ∧ readDocuments text = .ok documents ∧
        output = (Document.arrayOf documents).indented := by
    intro output
    rw [hstages]
    cases answer .text with
    | error error => simp [Except.bind]
    | ok text =>
        have hshown : ((OutputView.stages.show text).mapError CompileError.template = .ok output) ↔
            OutputView.stages.show text = .ok output :=
          mapError_template_eq_ok_iff
        simp only [Except.bind, hshown, OutputView.show_stages_eq_ok_iff, Except.ok.injEq]
        simp
  refine ⟨houtput, hfilters.trans hstages.symm, ?_⟩
  intro text documents htext hread hintegers hdepth
  exact ⟨_, (houtput _).mpr ⟨text, documents, htext, hread, rfl⟩,
    readDocuments_indented hread hintegers hdepth⟩

set_option maxRecDepth 20000 in
/-- A text that only the relaxed reader accepts is shown in the syntax of the strict one. -/
theorem compile_views_shell :
    let source : Text := "[{b:<v>,a:[0x1F],},]".toList
    let request : CompileRequest := ⟨[], [], [], [], [(['v'], ['2'])]⟩
    let documents : List Document := [[(['b'], .int 2), (['a'], .array [.int 31])]]
    (Strict.readText "[{b:2,a:[0x1F],},]".toList).isOk = false ∧
      ∃ output, (compile (fun _ => 0) source request .stages .unbounded).1 = .ok output ∧
        readDocuments output = .ok documents := by
  intro source request documents
  have htext : (compile (fun _ => 0) source request .text .unbounded).1 =
      .ok "[{b:2,a:[0x1F],},]".toList := by
    decide +kernel
  have hread : readDocuments "[{b:2,a:[0x1F],},]".toList = .ok documents := by cbv
  refine ⟨by decide +kernel, ?_⟩
  exact (compile_views_agree (fun _ => 0) source request .unbounded).2.2 _ documents htext hread
    rfl (by decide)

end CommandTemplate
