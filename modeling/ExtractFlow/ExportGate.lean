import ExtractFlow.ResultFlow

/-!
# The export gate

With `export.require_review_cleared` on, the gate looks at the review status and
at the list `fields_requiring_review`, not at the flags of the fields.  The list
is a copy of the flags that every writer of a result makes afresh — the worker at
the end of an extraction, a review before it commits — so in every state the two
agree, whatever payloads the reviews had.

## Main definitions

* `FlagsListed` — each stored result lists exactly the fields it flags.

## Main results

* `flagsListed_of_run` — in every reachable state they do.
* `export_gate_sound` — so an export with the gate on finds nothing flagged.
-/

namespace ExtractFlow

open Transition

/-- Each stored result lists exactly the fields it flags, extracted ones first. -/
def FlagsListed (db : Database) : Prop :=
  ∀ id row, db.extractionResults.get id = some row →
    row.resultJson.fieldsRequiringReview =
      (row.resultJson.extractedFields.filter ExtractionFieldResult.requiresReview).map
          ExtractionFieldResult.fieldName ++
        (row.resultJson.calculatedFields.filter CalculatedFieldResult.requiresReview).map
          CalculatedFieldResult.fieldName

/-- A step keeps the lists right: the rows it writes come from an extraction or a
review, and both list what they flag. -/
theorem flagsListed_step {cfg : FlowConfig} {s t : FlowState} {act : FlowAct}
    (hs : FlagsListed s.db) (hstep : flowStep cfg s act = some t) : FlagsListed t.db := by
  intro id row hrow
  rcases (flowMove_of_step hstep).results hrow with
    hrow | ⟨w, documentPath, documentId, template, override, text, hexecute⟩ |
      ⟨resultId, loaded, payload, now, rows, hout⟩
  · exact hs id row hrow
  · exact executeExtraction_flags hexecute
  · exact reviewOutcome_flags hout

/-- **In every reachable state the lists are right**: each stored summary lists just the fields that
it flags. -/
theorem flagsListed_of_run {cfg : FlowConfig} {s t : FlowState} {acts : List FlowAct}
    (hstart : FlagsListed s.db) (hrun : Run (flowStep cfg) (fun _ _ => True) s acts t) :
    FlagsListed t.db :=
  Run.invariant (I := fun s => FlagsListed s.db)
    (fun _ _ _ hs _ hstep => flagsListed_step hs hstep) hrun hstart

/-- **The export gate is sound.**  In every reachable state each stored result
lists the names of its flagged fields, and a step from there creates a record for
a tenant with the gate on only of a result that was reviewed and has no flagged
field. -/
theorem export_gate_sound {cfg : FlowConfig} {s t : FlowState} {acts : List FlowAct}
    (hstart : FlagsListed s.db) (hrun : Run (flowStep cfg) (fun _ _ => True) s acts t) :
    FlagsListed t.db ∧
      ∀ act u k record, flowStep cfg t act = some u → u.db.exports.get k = some record →
        t.db.exports.get k = none →
        t.db.getTenantBoolSetting record.tenantId "export.require_review_cleared" = true →
        ∃ row, t.db.extractionResults.get record.resultId = some row ∧
          row.reviewStatus ≠ .pending ∧
          (∀ f ∈ row.resultJson.extractedFields, f.requiresReview = false) ∧
          ∀ c ∈ row.resultJson.calculatedFields, c.requiresReview = false := by
  have hlisted := flagsListed_of_run hstart hrun
  refine ⟨hlisted, ?_⟩
  intro act u k record hstep hrecord hnew hon
  rcases (flowMove_of_step hstep).exports hrecord with hold | ⟨row, hrow, htenant, hgate⟩
  · rw [hnew] at hold
    cases hold
  · rw [htenant] at hon
    rcases assertExportAllowed_iff.mp hgate with hoff | ⟨hstatus, hempty⟩
    · rw [hon] at hoff
      cases hoff
    · refine ⟨row, hrow, hstatus, flaggedNames_eq_nil_iff.mp ?_⟩
      exact (hlisted _ row hrow).symm.trans hempty

/-! ### A run to an export -/

/-- A worker and an API with the gate on. -/
def gatedConfig : FlowConfig where
  world := silentWorld
  deployment := {}
  backend := .local
  lib :=
    { jsonBytes := fun _ => [], csvBytes := fun _ => [], workbookBytes := fun _ _ => []
      jsonText := fun _ => "", sha256 := fun _ => "" }

/-- The result of a job whose provider did not answer for its one field. -/
def flaggedResult : ExtractionResult where
  jobId := 1
  resultJson := { emptySummary with
    extractedFields :=
      [{ fieldName := "vendor", label := "Vendor", dataType := .text,
         validationStatus := .valid, requiresReview := true }]
    fieldsRequiringReview := ["vendor"] }

/-- A completed job with that result, for a tenant with the gate on. -/
def gatedState : FlowState where
  db := { oneJobDb { queuedJob with status := .completed } with
    extractionResults := .ofRows [(1, flaggedResult)]
    settings := .ofRows [(1, { key := "tenant:default:export.require_review_cleared",
                               value := .bool true })] }

theorem gatedState_flagsListed : FlagsListed gatedState.db := by
  intro id row hrow
  have hmem : (id, row) ∈ gatedState.db.extractionResults.rows := Table.mem_of_get hrow
  obtain ⟨-, rfl⟩ := Prod.mk.inj (List.mem_singleton.mp hmem)
  rfl

/-- A bulk approval clears the result, and after it the gate lets the export pass. -/
theorem export_gate_sound_after_approval :
    ∃ t u, Run (flowStep gatedConfig) (fun _ _ => True) gatedState
        [.review 1 { reviewer := "ann" } .epoch] t ∧
      flowStep gatedConfig t (.exportResult 1 .csv none .epoch) = some u ∧
      (u.db.exports.get 1).isSome = true ∧
      ∃ row, t.db.extractionResults.get 1 = some row ∧ row.reviewStatus ≠ .pending ∧
        (∀ f ∈ row.resultJson.extractedFields, f.requiresReview = false) ∧
        ∀ c ∈ row.resultJson.calculatedFields, c.requiresReview = false := by
  have hsteps : ∃ t u record, reviewStored gatedConfig gatedState 1 { reviewer := "ann" } .epoch =
        some t ∧ t.clock = .epoch ∧
      exportStored gatedConfig t 1 .csv none .epoch = some u ∧
      u.db.exports.get 1 = some record ∧ t.db.exports.get 1 = none ∧ record.resultId = 1 ∧
      t.db.getTenantBoolSetting record.tenantId "export.require_review_cleared" = true :=
    ⟨_, _, _, rfl, rfl, rfl, rfl, rfl, rfl, rfl⟩
  obtain ⟨t, u, record, hreview, hclock, hexport, hrecord, hnew, hid, hon⟩ := hsteps
  have hstep : flowStep gatedConfig t (.exportResult 1 .csv none .epoch) = some u :=
    (flowStep_exportResult (hclock ▸ UtcTime.le_refl _)).trans hexport
  have hrun : Run (flowStep gatedConfig) (fun _ _ => True) gatedState
      [.review 1 { reviewer := "ann" } .epoch] t :=
    .cons ((flowStep_review (UtcTime.le_refl _)).trans hreview) trivial (.nil t)
  obtain ⟨row, hrow, hrest⟩ :=
    (export_gate_sound gatedState_flagsListed hrun).2 _ u 1 record hstep hrecord hnew hon
  exact ⟨t, u, hrun, hstep, by rw [hrecord]; rfl, row, hid ▸ hrow, hrest⟩

end ExtractFlow
