import ExtractFlow.DependencySort
import ExtractFlow.Exports

/-!
# Bulk approval

A review without edits and without a threshold approves every flagged field,
extracted and calculated.  The recalculation that follows replaces the
calculated fields, so the approval of those is undone: a calculated field that
its definition marks for review, or whose formula still fails, comes back
flagged.

None of the calculated fields is lost on the way.  The recalculation validates
the template first, so the names of its calculated fields are distinct, and the
loop leaves one result for each; storing the summary keeps them.

## Main results

* `approve_all_outcome` — what a bulk approval leaves flagged, and the gate's verdict.
* `approve_all_keeps_division_by_zero` — a failing formula survives the approval.
-/

namespace ExtractFlow

/-! ### The approval -/

theorem approvals_eq_approveAll {payload : ReviewEditPayload} (hedits : payload.edits = [])
    (hmin : payload.approveHighConfidenceMin = none) (s : ExtractionValidationSummary) :
    approvals payload s = approveAll s := by
  simp [approvals, hedits, hmin]

theorem approveAll_unflagged {s : ExtractionValidationSummary} :
    ∀ f ∈ (approveAll s).extractedFields, f.requiresReview = false := by
  intro f hf
  obtain ⟨g, -, rfl⟩ := List.mem_map.mp hf
  split
  · rfl
  · next hg => simpa using hg

/-- Storing fields leaves each the image of one that was there. -/
theorem exists_of_forall₂ {α : Type} {R : α → α → Prop} {xs ys : List α}
    (h : List.Forall₂ R xs ys) {y : α} (hy : y ∈ ys) : ∃ x ∈ xs, R x y := by
  induction h with
  | nil => exact absurd hy List.not_mem_nil
  | @cons x z xs ys hxz _ ih =>
    rcases List.mem_cons.mp hy with rfl | hy
    · exact ⟨x, List.mem_cons_self .., hxz⟩
    · obtain ⟨x', hx', hR⟩ := ih hy
      exact ⟨x', List.mem_cons_of_mem _ hx', hR⟩

/-! ### The recalculation -/

/-- A calculated field of a review: flagged when its definition asks for review
or its evaluation left errors, and reviewed otherwise. -/
def CalculatedFieldResult.Settled (definitions : List CalculatedFieldDefinition)
    (c : CalculatedFieldResult) : Prop :=
  ∃ d ∈ definitions, c.fieldName = d.name ∧
    c.requiresReview = (d.requiresReview || !c.validationErrors.isEmpty) ∧
    (c.requiresReview = false → c.validationStatus = .reviewed)

theorem recalculate_settled {rt : Runtime} {version : TemplateVersion}
    {s s' : ExtractionValidationSummary} (h : recalculate rt (some version) s = .ok s') :
    ∀ c ∈ s'.calculatedFields, c.Settled version.definition.calculatedFields := by
  unfold recalculate at h
  obtain ⟨_, -, h⟩ := Failing.bind_ok.mp h
  obtain ⟨calculated, hcalculated, h⟩ := Failing.bind_ok.mp h
  obtain rfl := Except.ok.inj h
  intro c hc
  obtain ⟨c₀, hc₀, rfl⟩ := List.mem_map.mp hc
  obtain ⟨d, hd, hname, hflag⟩ := evaluateCalculatedFields_spec hcalculated c₀ hc₀
  refine ⟨d, hd, ?_⟩
  split
  · next hreview => exact ⟨hname, hflag, fun hno => by simp [hreview] at hno⟩
  · exact ⟨hname, hflag, fun _ => rfl⟩

/-- **The recalculation leaves one result for each calculated field** of the version. -/
theorem recalculate_perm {rt : Runtime} {version : TemplateVersion}
    {s s' : ExtractionValidationSummary} (h : recalculate rt (some version) s = .ok s') :
    (s'.calculatedFields.map CalculatedFieldResult.fieldName).Perm
      (version.definition.calculatedFields.map CalculatedFieldDefinition.name) := by
  unfold recalculate at h
  obtain ⟨_, hvalid, h⟩ := Failing.bind_ok.mp h
  obtain ⟨calculated, hcalculated, h⟩ := Failing.bind_ok.mp h
  obtain rfl := Except.ok.inj h
  -- the template is validated again before its formulas are evaluated
  have hnodup : (version.definition.calculatedFields.map CalculatedFieldDefinition.name).Nodup :=
    (List.nodup_append.mp (validateTemplate_nodup hvalid)).2.1
  have hnames : (markReviewed calculated).map CalculatedFieldResult.fieldName =
      calculated.map CalculatedFieldResult.fieldName := by
    simp only [markReviewed, List.map_map]
    refine List.map_congr_left fun c _ => ?_
    simp only [Function.comp_apply]
    split <;> rfl
  rw [hnames]
  exact evaluateCalculatedFields_perm hnodup hcalculated

/-- Storing a settled field settles it. -/
theorem CalculatedFieldResult.Settled.modelDump {definitions : List CalculatedFieldDefinition}
    {c c' : CalculatedFieldResult} (h : c.Settled definitions) (hdump : c.modelDump = .ok c') :
    c'.Settled definitions := by
  obtain ⟨hname, hreview, hstatus, herrors⟩ := calculated_modelDump_spec hdump
  unfold CalculatedFieldResult.Settled
  rw [hname, hreview, hstatus, herrors]
  exact h

/-! ### The outcome -/

/-- The summary a bulk approval stores. -/
theorem approve_all_summary {rt : Runtime} {db : Database} {resultId : ℕ}
    {result : ExtractionResult} {payload : ReviewEditPayload} {now : UtcTime}
    {version : TemplateVersion} {summary : ExtractionValidationSummary} {rows : List ReviewEdit}
    (hversion : db.templateVersionOf result = some version)
    (hedits : payload.edits = []) (hmin : payload.approveHighConfidenceMin = none)
    (hrecalculate : payload.recalculate = true)
    (h : reviewOutcome rt db resultId result payload now = .ok (summary, rows)) :
    (∀ f ∈ summary.extractedFields, f.requiresReview = false) ∧
      (summary.calculatedFields.map CalculatedFieldResult.fieldName).Perm
        (version.definition.calculatedFields.map CalculatedFieldDefinition.name) ∧
      ∀ c ∈ summary.calculatedFields, c.Settled version.definition.calculatedFields := by
  obtain ⟨fields, recalculated, hloop, hrec, hfields, hdump⟩ := reviewOutcome_spec h
  obtain ⟨hextracted, hcalculated, -⟩ := modelDump_fields hdump
  rw [recalculateIfAsked, if_pos hrecalculate, hversion] at hrec
  refine ⟨?_, ?_, ?_⟩
  · intro f hf
    obtain ⟨g, hg, hgf⟩ := exists_of_forall₂ hextracted hf
    rw [(extracted_modelDump_spec hgf).2.2.1]
    -- without edits the fields are the approved ones
    rw [hedits, applyEdits] at hloop
    obtain ⟨rfl, -⟩ := Prod.mk.inj (Except.ok.inj hloop)
    rw [approvals_eq_approveAll hedits hmin] at hfields
    exact approveAll_unflagged g (hfields ▸ hg)
  · have hperm := recalculate_perm hrec
    rw [calculatedNames_modelDump hdump]
    exact hperm
  · intro c hc
    obtain ⟨c₀, hc₀, hdumped⟩ := exists_of_forall₂ hcalculated hc
    exact (recalculate_settled hrec c₀ hc₀).modelDump hdumped

/-- With no extracted field flagged, the flagged names are those of calculated
fields. -/
theorem flaggedNames_of_unflagged {s : ExtractionValidationSummary}
    (h : ∀ f ∈ s.extractedFields, f.requiresReview = false) :
    s.flaggedNames = (s.calculatedFields.filter CalculatedFieldResult.requiresReview).map
      CalculatedFieldResult.fieldName := by
  have hnone : s.extractedFields.filter ExtractionFieldResult.requiresReview = [] := by
    simpa [List.filter_eq_nil_iff] using h
  rw [ExtractionValidationSummary.flaggedNames, hnone, List.map_nil, List.nil_append]

/-- **What a bulk approval leaves.**  No extracted field is flagged; every calculated
field of the template still has one result, which is flagged exactly when its
definition asks for review or its new evaluation left errors, and is reviewed
otherwise; the stored list names the flagged ones; and the gate, where it is on,
passes exactly when there are none. -/
theorem approve_all_outcome {rt : Runtime} {db db' : Database} {resultId : ℕ}
    {result : ExtractionResult} {payload : ReviewEditPayload} {now : UtcTime}
    {version : TemplateVersion} (hstored : db.extractionResults.get resultId = some result)
    (hversion : db.templateVersionOf result = some version)
    (hedits : payload.edits = []) (hmin : payload.approveHighConfidenceMin = none)
    (hrecalculate : payload.recalculate = true)
    (h : applyReviewEdits rt db resultId result payload now = .ok db') :
    ∃ row, db'.extractionResults.get resultId = some row ∧
      (∀ f ∈ row.resultJson.extractedFields, f.requiresReview = false) ∧
      (row.resultJson.calculatedFields.map CalculatedFieldResult.fieldName).Perm
        (version.definition.calculatedFields.map CalculatedFieldDefinition.name) ∧
      (∀ c ∈ row.resultJson.calculatedFields,
        ∃ d ∈ version.definition.calculatedFields, c.fieldName = d.name ∧
          c.requiresReview = (d.requiresReview || !c.validationErrors.isEmpty) ∧
          (c.requiresReview = false → c.validationStatus = .reviewed)) ∧
      row.resultJson.fieldsRequiringReview =
        (row.resultJson.calculatedFields.filter CalculatedFieldResult.requiresReview).map
          CalculatedFieldResult.fieldName ∧
      (assertExportAllowed db' row = .ok () ↔
        db'.getTenantBoolSetting row.tenantId "export.require_review_cleared" = false ∨
          ∀ c ∈ row.resultJson.calculatedFields, c.requiresReview = false) := by
  unfold applyReviewEdits at h
  obtain ⟨⟨summary, rows⟩, hout, h⟩ := Failing.bind_ok.mp h
  obtain rfl := Except.ok.inj h
  obtain ⟨hextracted, hperm, hcalculated⟩ :=
    approve_all_summary hversion hedits hmin hrecalculate hout
  -- the extracted fields are approved, so the list has calculated ones only
  have hlist : summary.fieldsRequiringReview =
      (summary.calculatedFields.filter CalculatedFieldResult.requiresReview).map
        CalculatedFieldResult.fieldName :=
    (reviewOutcome_flags hout).trans (flaggedNames_of_unflagged hextracted)
  refine ⟨{ result with resultJson := summary, reviewStatus := .reviewed }, ?_, hextracted,
    hperm, hcalculated, hlist, ?_⟩
  · simp [Database.commitReview, hstored]
  · rw [assertExportAllowed_iff, hlist]
    simp [List.filter_eq_nil_iff]

/-! ### A formula that divides by zero -/

/-- A library whose formulas refer to `total_amount` and divide by zero. -/
def divisionRuntime : Runtime :=
  { plainRuntime with
    engine :=
      { validateFormula := fun _ _ => .ok ()
        evaluate := fun _ _ => .error .zeroDivisionError
        collectFormulaReferences := fun _ names => .ok (names.filter (· == "total_amount")) } }

/-- The calculated field of the demonstration. -/
def amountWithBuffer : CalculatedFieldDefinition where
  name := "amount_with_buffer"
  label := "Amount With Buffer"
  outputType := .number
  formula := "1 / coalesce(total_amount.amount, 0)"
  dependsOn := ["total_amount"]
  validation := { allowNull := false }

/-- The stored result of the demonstration. -/
def clearedResult : ExtractionResult where
  jobId := 1
  resultJson := { emptySummary with
    extractedFields :=
      [{ fieldName := "total_amount", label := "Total Amount", dataType := .currency,
         normalizedValue := .dict [("amount", .int 0)] }]
    calculatedFields :=
      [{ fieldName := "amount_with_buffer", label := "Amount With Buffer",
         outputType := .number, formula := amountWithBuffer.formula,
         dependsOn := ["total_amount"], calculatedValue := .int 1,
         validationStatus := .valid }] }

/-- A completed job with that result: nothing is flagged, since the calculated
field was evaluated before the total became zero. -/
def clearedDb : Database :=
  { oneJobDb { queuedJob with status := .completed } with
    templateVersions := .ofRows
      [(1, { templateId := 1, version := "1.0.0",
             definition :=
               { templateName := "Invoice", documentType := "invoice"
                 extractedFields :=
                   [{ name := "total_amount", label := "Total Amount", type := .currency }]
                 calculatedFields := [amountWithBuffer] } })]
    extractionResults := .ofRows [(1, clearedResult)] }

/-- The bulk approval of the demonstration. -/
def approveAllReview : ReviewEditPayload where
  reviewer := "qa-user"

/-- The bulk approval of the demonstration returns, and flags the calculated field. -/
theorem approveAllReview_flags :
    ∃ db', applyReviewEdits divisionRuntime clearedDb 1 clearedResult approveAllReview .epoch =
        .ok db' ∧
      (db'.extractionResults.get 1).map (fun row => row.resultJson.fieldsRequiringReview) =
        some ["amount_with_buffer"] :=
  ⟨_, rfl, rfl⟩

/-- The outcome theorem on that request: the calculated field keeps its result, and the
result is flagged. -/
theorem approve_all_of_failing_formula :
    ∃ db' row, applyReviewEdits divisionRuntime clearedDb 1 clearedResult approveAllReview .epoch =
        .ok db' ∧ db'.extractionResults.get 1 = some row ∧
      (∀ f ∈ row.resultJson.extractedFields, f.requiresReview = false) ∧
      (row.resultJson.calculatedFields.map CalculatedFieldResult.fieldName).Perm
        ["amount_with_buffer"] ∧
      ∃ c ∈ row.resultJson.calculatedFields, c.fieldName = "amount_with_buffer" ∧
        c.requiresReview = true ∧ c.validationErrors ≠ [] := by
  obtain ⟨db', h, hflags⟩ := approveAllReview_flags
  obtain ⟨row, hrow, hextracted, hperm, hcalculated, hlist, -⟩ :=
    approve_all_outcome rfl rfl rfl rfl rfl h
  obtain ⟨row', hrow', hnames⟩ := Option.map_eq_some_iff.mp hflags
  obtain rfl := Option.some.inj (hrow.symm.trans hrow')
  -- the list of the row names the flagged calculated fields
  have hmem : "amount_with_buffer" ∈ (row.resultJson.calculatedFields.filter
      CalculatedFieldResult.requiresReview).map CalculatedFieldResult.fieldName := by
    rw [← hlist, hnames]
    exact List.mem_singleton_self _
  obtain ⟨c, hc, hname⟩ := List.mem_map.mp hmem
  obtain ⟨hc, hflag⟩ := List.mem_filter.mp hc
  refine ⟨db', row, h, hrow, hextracted, hperm, c, hc, hname, hflag, fun hnone => ?_⟩
  -- the definition does not ask for review, so the flag is that of an error
  obtain ⟨d, hd, -, hreview, -⟩ := hcalculated c hc
  obtain rfl := List.mem_singleton.mp hd
  rw [hreview, hnone] at hflag
  cases hflag

/-- **A failing formula survives the bulk approval**: the recalculation flags its
field again, and the list is not empty. -/
theorem approve_all_keeps_division_by_zero :
    ¬ ∀ (rt : Runtime) (db db' : Database) (resultId : ℕ) (result row : ExtractionResult)
        (payload : ReviewEditPayload) (now : UtcTime) (version : TemplateVersion),
      db.extractionResults.get resultId = some result →
      db.templateVersionOf result = some version →
      payload.edits = [] → payload.approveHighConfidenceMin = none → payload.recalculate = true →
      applyReviewEdits rt db resultId result payload now = .ok db' →
      db'.extractionResults.get resultId = some row →
      row.resultJson.fieldsRequiringReview = [] ∧
        (∀ f ∈ row.resultJson.extractedFields, f.requiresReview = false) ∧
        ∀ c ∈ row.resultJson.calculatedFields, c.requiresReview = false := by
  intro hclaim
  obtain ⟨db', h, hlist⟩ := approveAllReview_flags
  obtain ⟨row, hrow, hrowlist⟩ := Option.map_eq_some_iff.mp hlist
  have hempty := (hclaim _ _ _ _ _ _ _ _ _ rfl rfl rfl rfl rfl h hrow).1
  simp [hrowlist] at hempty

end ExtractFlow
