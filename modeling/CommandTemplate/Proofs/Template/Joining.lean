import Mathlib
import CommandTemplate.Proofs.Document.Concatenation
import CommandTemplate.Proofs.Tag.Joins
import CommandTemplate.Proofs.Template.Appending
import CommandTemplate.Proofs.Template.Fragments
import CommandTemplate.Proofs.Template.Outcome
import CommandTemplate.Proofs.Template.Redaction
import CommandTemplate.Proofs.Template.Shape

/-!
# Stages as documents

A stage without tags that is appended to a template takes no part in the requests that follow.
Rendering puts it behind the documents of the text, and it is read as one more document there.
-/

namespace CommandTemplate

open Text TemplateCall

namespace Template

/-! ## Requests of a template with stages that have no tags -/

section Requests

variable {template : Template} {stages : List Text} {call : TemplateCall}
  {calls : List TemplateCall}

theorem foldl_scan_eq_self (h : ∀ stage ∈ stages, stage.tokens = []) (tags : TagSet) :
    stages.foldl TagSet.scan tags = tags := by
  induction stages with
  | nil => rfl
  | cons stage stages ih =>
      rw [List.forall_mem_cons] at h
      have hscan : tags.scan stage = tags := by
        rw [TagSet.scan, h.1]
        rfl
      rw [List.foldl_cons, hscan, ih h.2]

theorem eq_of_appendStages {staged : Template} (h : template.appendStages stages = .ok staged)
    (hnone : template.stages = []) (hfree : ∀ stage ∈ stages, stage.tokens = []) :
    staged = { template with stages := stages.map trim } := by
  obtain ⟨rfl, haccepts⟩ := appendStages_eq_ok h
  have happend : ∀ call ∈ stages.map TemplateCall.appendStage, call.isAppend = true := by
    simp [isAppend]
  have htrim : ∀ stage ∈ stages.map trim, stage.tokens = [] := by
    simpa using hfree
  rw [run_of_isAppend happend, stagesOn_map_appendStage haccepts, foldl_scan_eq_self htrim,
    foldl_scan_eq_self htrim, hnone, List.nil_append]

/-- The tokens that a template looks for are names in brackets. -/
def HasTagNames (template : Template) : Prop :=
  ∀ token, token ∈ template.goal ∨ token ∈ template.stageTags →
    ∃ name, IsTagName name ∧ token = tagToken name

theorem hasTagNames_run_start (source base : Text) (key : UInt64) (cached : Bool)
    (calls : List TemplateCall) : ((start source key cached base).run calls).HasTagNames := by
  rintro token (h | h)
  · rcases mem_goal_run.mp h with hbase | ⟨entry, -, hstage⟩
    · exact exists_name_of_mem_tokens (mem_goalTags.mp hbase).2
    · exact exists_name_of_mem_tokens hstage
  · rcases mem_stageTags_run.mp h with hnone | ⟨entry, -, hstage⟩
    · simp [start] at hnone
    · exact exists_name_of_mem_tokens hstage

theorem HasTagNames.after (h : template.HasTagNames) (hcall : ∀ stage, call ≠ .appendStage stage) :
    (template.after call).HasTagNames := by
  intro token htoken
  rw [after_goal, after_stageTags, stageOf?_eq_none hcall] at htoken
  exact h token htoken

theorem HasTagNames.replaceInStages_eq (h : template.HasTagNames)
    (hfree : ∀ stage ∈ stages, stage.tokens = []) {path : Text}
    (hpath : tagToken path ∈ template.goal ∨ tagToken path ∈ template.stageTags) :
    replaceInStages (tagToken path) path stages = stages := by
  obtain ⟨name, hname, heq⟩ := h _ hpath
  obtain rfl := tagToken_injective heq
  rw [replaceInStages, List.map_congr_left fun stage hstage =>
    replaceAll_eq_self hname (hfree stage hstage) path, List.map_id']

/-- A request does the same to a template with stages that have no tags as to the template without
them. -/
theorem HasTagNames.after_withStages (h : template.HasTagNames)
    (hfree : ∀ stage ∈ stages, stage.tokens = []) (hcall : ∀ stage, call ≠ .appendStage stage)
    (hrender : call ≠ .render) :
    ({ template with stages := stages } : Template).after call =
      { template.after call with stages := stages } := by
  cases call with
  | resolve path =>
      simp only [after_resolve, resolve]
      cases hcached : template.cached with
      | true =>
          by_cases hmem : tagToken path ∈ template.stageTags
          · simp [hmem, h.replaceInStages_eq hfree (Or.inr hmem)]
          · simp [hcached, hmem]
      | false =>
          by_cases hmem : tagToken path ∈ template.goal
          · simp [hmem, h.replaceInStages_eq hfree (Or.inl hmem)]
          · simp [hmem]
  | assign name value =>
      simp only [after_assign, assign]
      split <;> rfl
  | appendStage stage => exact absurd rfl (hcall stage)
  | render => exact absurd rfl hrender

theorem HasTagNames.run_withStages (h : template.HasTagNames)
    (hfree : ∀ stage ∈ stages, stage.tokens = []) (hcalls : ∀ stage, .appendStage stage ∉ calls)
    (hrender : .render ∉ calls) :
    ({ template with stages := stages } : Template).run calls =
      { template.run calls with stages := stages } := by
  induction calls generalizing template with
  | nil => rfl
  | cons call calls ih =>
      obtain ⟨hcall, hrest⟩ := ne_appendStage_of_not_mem_cons hcalls
      rw [List.mem_cons, not_or] at hrender
      rw [run_cons, run_cons, h.after_withStages hfree hcall (Ne.symm hrender.1),
        ih (h.after hcall) hrest hrender.2]

end Requests

/-! ## The text with stages -/

theorem renderDocuments_eq_ok_iff {template : Template} {cache : Cache}
    {documents : List Document} :
    (template.renderDocuments cache).1 = .ok documents ↔
      template.MissesNothing ∧ (∀ token ∈ template.goal, template.Covers token) ∧
        readDocuments template.filled = .ok documents := by
  rw [renderDocuments_eq]
  constructor
  · intro h
    cases htext : (template.renderText cache).1 with
    | error error => simp [htext, Except.bind] at h
    | ok text =>
        obtain ⟨hmissing, hcovers, rfl⟩ := renderText_eq_ok_iff.mp htext
        refine ⟨hmissing, hcovers, ?_⟩
        cases hread : readDocuments template.filled with
        | error error => simp [htext, hread, Except.bind] at h
        | ok found => simpa [htext, hread, Except.bind] using h
  · rintro ⟨hmissing, hcovers, hread⟩
    have htext : (template.renderText cache).1 = .ok template.filled :=
      renderText_eq_ok_iff.mpr ⟨hmissing, hcovers, rfl⟩
    simp [htext, hread, Except.bind]

/-- Stages come before the last bracket, behind a comma unless there is nothing before them. -/
theorem compose_of_bracketed {template : Template} {inner : Text}
    (h : template.base = bracketed inner) (hne : template.stages ≠ []) :
    template.compose = '[' :: inner ++
      ((if isBlankText inner then [] else [',']) ++ (join [','] template.stages ++ [']'])) := by
  rw [compose_eq, joinFragments, if_neg hne, h, dropLast_bracketed, List.drop_one, List.tail_cons]
  simp only [List.append_assoc]

/-- No tag that has a value occurs more often in the text with stages than in the text. -/
def KeepsTags (template : Template) : Prop :=
  ∀ token ∈ template.compose.tokens, (template.values.get? token).isSome = true →
    template.compose.tokens.count token = template.base.tokens.count token

instance (template : Template) : Decidable template.KeepsTags :=
  inferInstanceAs (Decidable (∀ token ∈ template.compose.tokens, _))

theorem KeepsTags.filled_eq {template : Template} {inner : Text} (h : template.KeepsTags)
    (hbase : template.base = bracketed inner) (hne : template.stages ≠ []) :
    template.filled = bracketed (substitute template.values.get? inner ++
      ((if isBlankText inner then [] else [',']) ++ join [','] template.stages)) := by
  have hcompose := compose_of_bracketed hbase hne
  rw [filled, hcompose, substitute_append_of_count, substitute_cons_of_ne (by decide), bracketed]
  · simp
  · intro token htoken hvalue
    rw [← hcompose] at htoken ⊢
    rw [h token htoken hvalue, hbase, tokens_bracketed]

theorem filled_of_bracketed {template : Template} {inner : Text}
    (hbase : template.base = bracketed inner) (hnone : template.stages = []) :
    template.filled = bracketed (substitute template.values.get? inner) := by
  rw [filled, compose, if_pos hnone, hbase, substitute_bracketed]

theorem substitute_of_isBlankText {text : Text} (h : isBlankText text = true)
    (replacement? : Text → Option Text) : substitute replacement? text = text := by
  rw [isBlankText, List.all_eq_true] at h
  exact substitute_eq_self_of_not_mem fun hmem => (isBlank_ne (h '<' hmem)).1 rfl

/-- A template whose stages take no part in the requests renders to the documents that it renders to
without stages, followed by those of the stages. -/
theorem renderDocuments_withStages {plain : Template} {stages : List Text}
    {documents added : List Document} {cache other : Cache}
    (harray : stages ≠ [] → ∃ inner, plain.base = bracketed inner) (hnone : plain.stages = [])
    (hbraces : ∀ stage ∈ stages, isEnclosed '{' '}' stage = true)
    (hkeeps : ({ plain with stages := stages } : Template).KeepsTags)
    (hdocuments : (plain.renderDocuments cache).1 = .ok documents)
    (hadded : List.Forall₂ (fun stage document => readDocuments (bracketed stage) = .ok [document])
      stages added)
    (hblank : documents = [] → isBlankText (plain.base.dropLast.drop 1) = true)
    (hread : ReadStrictly plain.filled stages ∨
      ReadRelaxedly plain.filled stages documents added) :
    (({ plain with stages := stages } : Template).renderDocuments other).1 =
      .ok (documents ++ added) := by
  by_cases hne : stages = []
  · subst hne
    cases hadded
    have hsame : ({ plain with stages := [] } : Template) = plain := by rw [← hnone]
    rw [hsame, List.append_nil, renderDocuments_eq_ok_iff]
    exact renderDocuments_eq_ok_iff.mp hdocuments
  · obtain ⟨inner, hbase⟩ := harray hne
    obtain ⟨hmissing, hcovers, hdocuments⟩ := renderDocuments_eq_ok_iff.mp hdocuments
    rw [filled_of_bracketed hbase hnone] at hdocuments hread
    rw [hbase, dropLast_bracketed, List.drop_one, List.tail_cons] at hblank
    have hcomma : (if isBlankText inner = true then [] else [',']) =
        if documents = [] then [] else [','] := by
      cases hinner : isBlankText inner with
      | true =>
          have hempty : documents = [] := by
            rw [substitute_of_isBlankText hinner] at hdocuments hread
            refine eq_nil_of_isBlankText hinner ?_ hdocuments
            exact hread.imp (fun hstrict => hstrict.1) (fun hrelaxed => hrelaxed.spells)
          rw [hempty]
          rfl
      | false =>
          have hsome : documents ≠ [] := by
            intro hempty
            rw [hblank hempty] at hinner
            simp at hinner
          rw [if_neg hsome]
          rfl
    have hends : ∀ stage ∈ stages, stage.head? = some '{' ∧ stage.getLast? = some '}' := by
      intro stage hstage
      simpa [isEnclosed] using hbraces stage hstage
    rw [renderDocuments_eq_ok_iff]
    refine ⟨hmissing, hcovers, ?_⟩
    rw [hkeeps.filled_eq hbase hne]
    rcases hread with hstrict | hrelaxed
    · exact hstrict.readDocuments_eq hdocuments hadded (fun stage hstage => (hends stage hstage).1)
        hne hcomma
    · exact hrelaxed.readDocuments_eq hdocuments hadded hends hne hcomma

/-- Appending stages joins documents: if one of the two readers reads the text and every stage, a
template with stages that have no tags renders to the documents that it renders to without them,
followed by the documents of the stages. -/
theorem renderDocuments_appendStages {sourceKey : SourceKey} {source : Text}
    {cache after middle plainCache joinedCache : Cache} {made template staged plain joined : Template}
    {earlier requests : List TemplateRequest} {stages : List Text} {documents added : List Document}
    (hmade : create sourceKey source cache = (.ok made, after))
    (hearlier : ∀ stage, .appendStage stage ∉ earlier)
    (htemplate : (made.performAll earlier after).2 = (template, middle))
    (hstaged : template.appendStages stages = .ok staged)
    (hfree : ∀ stage ∈ stages, stage.tokens = [])
    (hrequests : ∀ stage, .appendStage stage ∉ requests)
    (hrender : .render ∉ requests.flatMap TemplateRequest.calls)
    (hplain : (template.performAll requests middle).2 = (plain, plainCache))
    (hjoined : (staged.performAll requests middle).2 = (joined, joinedCache))
    (hdocuments : (plain.renderDocuments plainCache).1 = .ok documents)
    (hadded : List.Forall₂
      (fun stage document => readDocuments (bracketed stage.trim) = .ok [document]) stages added)
    (hkeeps : joined.KeepsTags)
    (hblank : documents = [] → isBlankText (plain.base.dropLast.drop 1) = true)
    (hread : ReadStrictly plain.filled (stages.map trim) ∨
      ReadRelaxedly plain.filled (stages.map trim) documents added) :
    (joined.renderDocuments joinedCache).1 = .ok (documents ++ added) := by
  have hnoAppend : ∀ {some : List TemplateRequest}, (∀ stage, .appendStage stage ∉ some) →
      ∀ stage, .appendStage stage ∉ some.flatMap TemplateRequest.calls :=
    fun h stage hstage => h stage (mem_of_appendStage_mem_calls hstage)
  obtain rfl : template = made.run (earlier.flatMap TemplateRequest.calls) := by
    rw [← performAll_template, htemplate]
  obtain rfl : plain = (made.run (earlier.flatMap TemplateRequest.calls)).run
      (requests.flatMap TemplateRequest.calls) := by
    rw [← performAll_template, hplain]
  obtain rfl : joined = staged.run (requests.flatMap TemplateRequest.calls) := by
    rw [← performAll_template, hjoined]
  obtain ⟨base, cached, rfl⟩ : ∃ base cached, made = start source (sourceKey source) cached base := by
    rcases create_cases hmade with ⟨expanded, -, rfl⟩ | ⟨-, -, rfl⟩
    · exact ⟨expanded, true, rfl⟩
    · exact ⟨source.trim, false, rfl⟩
  have hnames := hasTagNames_run_start source base (sourceKey source) cached
    (earlier.flatMap TemplateRequest.calls)
  have hnone : ((start source (sourceKey source) cached base).run
      (earlier.flatMap TemplateRequest.calls)).stages = [] :=
    stages_run_eq_nil (hnoAppend hearlier) rfl
  have haccepts := (appendStages_eq_ok hstaged).2
  generalize (start source (sourceKey source) cached base).run
    (earlier.flatMap TemplateRequest.calls) = template at *
  have htrim : ∀ stage ∈ stages.map trim, stage.tokens = [] := by
    simpa using hfree
  rw [eq_of_appendStages hstaged hnone hfree,
    hnames.run_withStages htrim (hnoAppend hrequests) hrender] at hkeeps ⊢
  refine renderDocuments_withStages ?_ (stages_run_eq_nil (hnoAppend hrequests) hnone) ?_ hkeeps
    hdocuments (List.forall₂_map_left_iff.mpr hadded) hblank hread
  · intro hne
    obtain ⟨stage, hstage⟩ := List.exists_mem_of_ne_nil _ (mt List.map_eq_nil_iff.mpr hne)
    have haccepted := haccepts stage hstage
    rw [accepts_eq, Bool.and_eq_true] at haccepted
    exact exists_bracketed_of_isEnclosed (isEnclosed_run_base haccepted.1 _)
  · intro stage hstage
    obtain ⟨before, hbefore, rfl⟩ := List.mem_map.mp hstage
    have haccepted := haccepts before hbefore
    rw [accepts_eq, Bool.and_eq_true] at haccepted
    exact haccepted.2

set_option maxRecDepth 20000 in
/-- A stage behind an array that only the relaxed reader reads. -/
theorem renderDocuments_appendStages_match :
    let source : Text := "[{$match:{<f>:<v>}}]".toList
    let stages : List Text := [" {$limit:2} ".toList]
    let requests : List TemplateRequest := [.resolve ['f'], .assign ['v'] ['1']]
    let made := start source 0 false source
    let staged := made.appended " {$limit:2} ".toList
    let joined := (staged.performAll requests .unbounded).2
    create (fun _ => 0) source .unbounded = (.ok made, .unbounded) ∧
      made.appendStages stages = .ok staged ∧
      (joined.1.renderDocuments joined.2).1 =
        .ok [[("$match".toList, .object [(['f'], .int 1)])], [("$limit".toList, .int 2)]] := by
  intro source stages requests made staged joined
  have hmade : create (fun _ => 0) source .unbounded = (.ok made, .unbounded) := by
    decide +kernel
  have hstaged : made.appendStages stages = .ok staged := by decide +kernel
  let plain := (made.performAll requests .unbounded).2
  let documents : List Document := [[("$match".toList, .object [(['f'], .int 1)])]]
  let added : List Document := [[("$limit".toList, .int 2)]]
  have hfilled : plain.1.filled = "[{$match:{f:1}}]".toList := by decide +kernel
  have htext : (plain.1.renderText plain.2).1 = .ok "[{$match:{f:1}}]".toList := by
    decide +kernel
  have hread : readDocuments "[{$match:{f:1}}]".toList = .ok documents := by cbv
  have hdocuments : (plain.1.renderDocuments plain.2).1 = .ok documents := by
    rw [renderDocuments_eq, htext]
    simp only [Except.bind, hread, mapError_ok]
  have hstage : readDocuments (bracketed (trim " {$limit:2} ".toList)) =
      .ok [[("$limit".toList, .int 2)]] := by
    cbv
  have hspells : ReadRelaxedly plain.1.filled (stages.map trim) documents added := by
    rw [hfilled]
    exact ⟨by cbv, .cons (by cbv) .nil, fun _ => by decide +kernel⟩
  have hkeeps : joined.1.KeepsTags := by decide +kernel
  have hfree : ∀ stage ∈ stages, stage.tokens = [] := by decide +kernel
  have hrender : .render ∉ requests.flatMap TemplateRequest.calls := by decide +kernel
  have hearlier : (made.performAll [] .unbounded).2 = (made, .unbounded) := rfl
  have hplain : (made.performAll requests .unbounded).2 = (plain.1, plain.2) := rfl
  have hjoined : (staged.performAll requests .unbounded).2 = (joined.1, joined.2) := rfl
  have hnever : documents ≠ [] := by simp [documents]
  refine ⟨hmade, hstaged, ?_⟩
  exact renderDocuments_appendStages hmade (by simp) hearlier hstaged hfree (by simp [requests])
    hrender hplain hjoined hdocuments (.cons hstage .nil) hkeeps (fun h => absurd h hnever)
    (Or.inr hspells)

def compactDocuments {ε : Type} (answer : Except ε (List Document)) : Option (List Text) :=
  answer.toOption.map fun documents => documents.map fun document => (Value.object document).compact

/-- What a template with one value renders to, what each stage is read as, and what the template
renders to with the stages. -/
def joinedAnswers (source name value : String) (stages : List String) :
    Option (List Text) × List (Option (List Text)) × Option (List Text) :=
  let render (requests : List TemplateRequest) :=
    let made := start source.toList 0 false source.toList
    let result := (made.performAll requests .unbounded).2
    compactDocuments (result.1.renderDocuments result.2).1
  let requests := [.assign name.toList value.toList]
  (render requests, stages.map fun stage => compactDocuments (readDocuments (bracketed stage.toList)),
    render ((stages.map fun stage => .appendStage stage.toList) ++ requests))

/-- Where the hypotheses fail, the documents of stages do not follow those of the text: the text
renders to nothing or ends with a comma, a comment hides the last bracket of the text or the last
brace of a stage, no reader reads both the text and the stage or the one that does reads another
number, a blank before a stage changes how it is read, and a tag with a value reaches from the text
into the stage. -/
theorem stages_not_joined :
    joinedAnswers "[<A>]" "A" "" ["{}"] = (some [], [some ["{}".toList]], none) ∧
      joinedAnswers "[<A>,]" "A" "{}" ["{}"] = (some ["{}".toList], [some ["{}".toList]], none) ∧
      joinedAnswers "[<A>] // ]" "A" "{}" ["{}"] =
        (some ["{}".toList], [some ["{}".toList]], some ["{}".toList]) ∧
      joinedAnswers "[<A>]" "A" "{}" ["{}] // {}", "{}"] =
        (some ["{}".toList], [some ["{}".toList], some ["{}".toList]],
          some ["{}".toList, "{}".toList]) ∧
      joinedAnswers "[<A>]" "A" "\x7b\"a\":18446744073709551615\x7d" ["{b:1}"] =
        (some ["\x7b\"a\":18446744073709551615\x7d".toList], [some ["\x7b\"b\":1\x7d".toList]],
          none) ∧
      joinedAnswers "[<A>]" "A" "\x7b\"a\":-0\x7d" ["{b:1}"] =
        (some ["\x7b\"a\":-0.0\x7d".toList], [some ["\x7b\"b\":1\x7d".toList]],
          some ["\x7b\"a\":0\x7d".toList, "\x7b\"b\":1\x7d".toList]) ∧
      joinedAnswers "[<A>]" "A" "{}" ["\u00a0\x7b\"b\":-0\x7d"] =
        (some ["{}".toList], [some ["\x7b\"b\":0\x7d".toList]],
          some ["{}".toList, "\x7b\"b\":-0.0\x7d".toList]) ∧
      joinedAnswers "[\x7ba:<'\x7d,\x7bb:'>,c:'<'\x7d]" "'\x7d,\x7bb:'" "1" ["\x7bb:'>'\x7d"] =
        (some ["\x7b\"a\":1,\"c\":\"<\"\x7d".toList], [some ["\x7b\"b\":\">\"\x7d".toList]],
          some ["\x7b\"a\":1,\"c\":\"1\"\x7d".toList]) := by
  refine ⟨?_, ?_, ?_, ?_, ?_, ?_, ?_, ?_⟩ <;> decide +kernel

end Template
end CommandTemplate
