import ExtractFlow.EvalHarness
import ExtractFlow.ProviderCalls
import ExtractFlow.TenantChain

/-!
# The stored results

A result is written whole, by the worker that completes its job and by every
review, and what a review writes it computed from the row it loaded.  Whatever
the interleaving, the stored summary stays a summary of the template version of
its job: it has the fields of that version, it lists exactly the fields it flags,
and a field it does not flag was found valid or was reviewed.

A review rewrites the calculated fields from the template version it finds
through the job, so the invariant links a result to its job and its version, and
holds what workers and reviews are about to write to the same standard.

## Main definitions

* `ExtractionFieldResult.Vetted` — not flagged only if valid or reviewed.
* `FitsTemplate` — what a template version asks of a stored summary.
* `ResultsFit` — the results, the edits and the completed jobs of a database.
* `ExtractionsReturn` — the summaries workers get are those of `execute_extraction`.

## Main results

* `executeExtractionOn_fits`, `reviewOutcome_fits` — the two writers of a summary.
* `fitInv_step` — every step of the system keeps the invariant.
* `stored_results_of_run` — the stored results in every reachable state.
-/

namespace ExtractFlow

open Transition Table

/-! ### Summaries that fit a template -/

/-- A field that is not flagged was found valid or was reviewed. -/
def ExtractionFieldResult.Vetted (f : ExtractionFieldResult) : Prop :=
  f.requiresReview = false → f.validationStatus = .valid ∨ f.validationStatus = .reviewed

/-- The same of a calculated field: unless it is flagged, it was found valid or was reviewed. -/
def CalculatedFieldResult.Vetted (c : CalculatedFieldResult) : Prop :=
  c.requiresReview = false → c.validationStatus = .valid ∨ c.validationStatus = .reviewed

/-- **A stored summary of a document fits a template**: it names both, it has a result for every
field and for nothing else, its list of flagged fields is the flagged ones, and what it does not
flag was found valid or was reviewed. -/
structure FitsTemplate (definition : ExtractionTemplate) (documentId : ℕ)
    (s : ExtractionValidationSummary) : Prop where
  document : s.documentId = toString documentId
  template : s.documentType = definition.documentType ∧
    s.templateName = definition.templateName ∧ s.templateVersion = definition.templateVersion
  extracted : s.extractedFields.map ExtractionFieldResult.fieldName =
    definition.extractedFields.map ExtractionFieldDefinition.name
  calculated : (s.calculatedFields.map CalculatedFieldResult.fieldName).Perm
    (definition.calculatedFields.map CalculatedFieldDefinition.name)
  nodup : definition.fieldNames.Nodup
  flags : s.fieldsRequiringReview = s.flaggedNames
  vetted : (∀ f ∈ s.extractedFields, f.Vetted) ∧ ∀ c ∈ s.calculatedFields, c.Vetted
  stored : s.Stored

/-- A field that is flagged is vetted. -/
theorem vetted_of_flagged {f : ExtractionFieldResult} (h : f.requiresReview = true) :
    f.Vetted := by
  intro hnot
  rw [h] at hnot
  cases hnot

/-! ### What an extraction stores -/

section Extraction

/-- The validation of a field vets it. -/
theorem validateExtractedField_vetted {lib : FieldLibrary} {num : PyNumeric}
    {field : ExtractionFieldDefinition} {result result' : ExtractionFieldResult}
    (h : validateExtractedField lib num field result = .ok result') : result'.Vetted := by
  obtain ⟨-, hstatus, hflag⟩ := validateExtractedField_spec h
  intro hnot
  have herrors : result'.validationErrors = [] := by
    by_contra hne
    rw [hflag (Or.inr hne)] at hnot
    cases hnot
  rw [hstatus, herrors]
  exact Or.inl rfl

/-- The checks that follow only flag. -/
theorem reconcileField_vetted {lib : FieldLibrary} {num : PyNumeric} {rule : ConfidenceRule}
    {providerResults : List ExtractionFieldResult} {definition : ExtractionFieldDefinition}
    {result : ExtractionFieldResult}
    (h : reconcileField lib num rule providerResults definition = .ok result) :
    result.Vetted := by
  unfold reconcileField at h
  obtain ⟨validated, hvalidated, h⟩ := Failing.bind_ok.mp h
  obtain rfl := Except.ok.inj h
  have hvetted := validateExtractedField_vetted hvalidated
  have hcitation : (requireCitation definition validated).Vetted := by
    unfold requireCitation
    split
    · exact vetted_of_flagged rfl
    · exact hvetted
  unfold flagLowConfidence
  split
  · exact vetted_of_flagged rfl
  · exact hcitation

theorem reconcileExtractedFields_vetted {lib : FieldLibrary} {num : PyNumeric}
    {rule : ConfidenceRule} {definitions : List ExtractionFieldDefinition}
    {providerResults reconciled : List ExtractionFieldResult} {notes : List String}
    (h : reconcileExtractedFields lib num rule definitions providerResults =
      .ok (reconciled, notes)) : ∀ f ∈ reconciled, f.Vetted := by
  unfold reconcileExtractedFields at h
  obtain ⟨fields, hfields, h⟩ := Failing.bind_ok.mp h
  obtain ⟨rfl, -⟩ := Prod.mk.inj (Except.ok.inj h)
  intro f hf
  obtain ⟨definition, -, hturn⟩ := Keyed.exists_of_mem_right (Failing.mapM_forall₂ hfields) hf
  exact reconcileField_vetted hturn

/-- The turn of a calculated field vets it. -/
theorem evaluateCalculatedField_vetted {engine : FormulaEngine} {num : PyNumeric}
    {available : List String} {context : List (String × PyVal)}
    {definition : CalculatedFieldDefinition} {result : CalculatedFieldResult}
    (h : evaluateCalculatedField engine num available context definition = .ok result) :
    result.Vetted := by
  unfold evaluateCalculatedField at h
  obtain ⟨⟨raw, findings⟩, -, h⟩ := Failing.bind_ok.mp h
  obtain ⟨⟨value, displayValue⟩, -, h⟩ := Failing.bind_ok.mp h
  obtain ⟨dependsOn, -, h⟩ := Failing.bind_ok.mp h
  obtain ⟨hflag, hstatus, -⟩ := validateCalculatedField_spec h
  intro hnot
  rw [hflag] at hnot
  have herrors : result.validationErrors.isEmpty = true := by
    simpa using (Bool.or_eq_false_iff.mp hnot).2
  rw [hstatus, herrors]
  exact Or.inl rfl

theorem evaluateCalculatedFields_vetted {engine : FormulaEngine} {num : PyNumeric}
    {definitions : List CalculatedFieldDefinition} {fields : List ExtractionFieldResult}
    {results : List CalculatedFieldResult}
    (h : evaluateCalculatedFields engine num definitions fields = .ok results) :
    ∀ c ∈ results, c.Vetted := by
  unfold evaluateCalculatedFields at h
  obtain ⟨ordered, -, h⟩ := Failing.bind_ok.mp h
  obtain ⟨⟨results', context⟩, hloop, h⟩ := Failing.bind_ok.mp h
  obtain rfl := Except.ok.inj h
  refine Failing.foldlM_invariant (I := fun st : List CalculatedFieldResult × _ =>
    ∀ c ∈ st.1, c.Vetted) ?_ hloop (by simp)
  intro definition _ st st' hst hturn
  obtain ⟨result, hresult, hturn⟩ := Failing.bind_ok.mp hturn
  obtain rfl := Except.ok.inj hturn
  intro c hc
  rcases List.mem_append.mp hc with hc | hc
  · exact hst c hc
  · obtain rfl := List.mem_singleton.mp hc
    exact evaluateCalculatedField_vetted hresult

/-! ### Storing a summary -/

/-- What fits before it is stored fits when it is stored: the dump keeps names, flags
and statuses. -/
theorem fitsTemplate_of_modelDump {definition : ExtractionTemplate} {documentId : ℕ}
    {s s' : ExtractionValidationSummary} (h : s.modelDump = .ok s')
    (hdocument : s.documentId = toString documentId)
    (htemplate : s.documentType = definition.documentType ∧
      s.templateName = definition.templateName ∧ s.templateVersion = definition.templateVersion)
    (hextracted : s.extractedFields.map ExtractionFieldResult.fieldName =
      definition.extractedFields.map ExtractionFieldDefinition.name)
    (hcalculated : (s.calculatedFields.map CalculatedFieldResult.fieldName).Perm
      (definition.calculatedFields.map CalculatedFieldDefinition.name))
    (hnodup : definition.fieldNames.Nodup) (hflags : s.fieldsRequiringReview = s.flaggedNames)
    (hfields : ∀ f ∈ s.extractedFields, f.Vetted) (hresults : ∀ c ∈ s.calculatedFields, c.Vetted) :
    FitsTemplate definition documentId s' := by
  obtain ⟨hdumped, hdumped', hnames⟩ := modelDump_fields h
  have hrest : s'.documentId = s.documentId ∧ s'.documentType = s.documentType ∧
      s'.templateName = s.templateName ∧ s'.templateVersion = s.templateVersion := by
    unfold ExtractionValidationSummary.modelDump at h
    obtain ⟨extracted, -, h⟩ := Failing.bind_ok.mp h
    obtain ⟨calculated, -, h⟩ := Failing.bind_ok.mp h
    obtain rfl := Except.ok.inj h
    exact ⟨rfl, rfl, rfl, rfl⟩
  refine ⟨hrest.1.trans hdocument, ?_, ?_, ?_, hnodup, ?_, ⟨?_, ?_⟩, stored_of_modelDump h⟩
  · rw [hrest.2.1, hrest.2.2.1, hrest.2.2.2]
    exact htemplate
  · rw [map_fieldName_of_modelDump hdumped, hextracted]
  · rw [calculatedNames_modelDump h]
    exact hcalculated
  · rw [hnames, modelDump_flaggedNames h, hflags]
  -- A stored result is the dump of one that was valid, reviewed or flagged.
  · intro f' hf' hnot
    obtain ⟨f, hf, hdump⟩ := exists_of_forall₂ hdumped hf'
    obtain ⟨-, -, hflag, hstatus⟩ := extracted_modelDump_spec hdump
    rw [hstatus]
    exact hfields f hf (hflag ▸ hnot)
  · intro c' hc' hnot
    obtain ⟨c, hc, hdump⟩ := exists_of_forall₂ hdumped' hc'
    obtain ⟨-, hflag, hstatus, -⟩ := calculated_modelDump_spec hdump
    rw [hstatus]
    exact hresults c hc (hflag ▸ hnot)

/-- **An extraction returns a summary that fits its template**, whatever is replied to it. -/
theorem executeExtractionOn_fits {w : ExtractionWorld} {chat : ChatWorld}
    {deployment : DeploymentSettings} {documentPath : String} {documentId : ℕ}
    {definition : ExtractionTemplate} {override : Option LLMProviderSettings}
    {parsedText : Option String} {summary : ExtractionValidationSummary}
    (h : (executeExtractionOn w chat deployment documentPath documentId definition override
      parsedText).1 = .ok summary) : FitsTemplate definition documentId summary := by
  unfold executeExtractionOn at h
  cases hprepared : prepareExtraction w deployment documentPath definition override parsedText with
  | error err =>
    rw [hprepared] at h
    cases h
  | ok prepared =>
    rw [hprepared] at h
    obtain ⟨results, -, h⟩ := Failing.bind_ok.mp h
    unfold finishExtraction at h
    obtain ⟨⟨extracted, notes⟩, hreconciled, h⟩ := Failing.bind_ok.mp h
    obtain ⟨calculated, hcalculated, hdump⟩ := Failing.bind_ok.mp h
    have hnodup : definition.fieldNames.Nodup :=
      validateTemplate_nodup (prepareExtraction_checks hprepared).1
    refine fitsTemplate_of_modelDump hdump rfl ⟨rfl, rfl, rfl⟩ ?_ ?_ hnodup rfl ?_ ?_
    · exact reconcileExtractedFields_names hreconciled
    · exact evaluateCalculatedFields_perm (List.nodup_append.mp hnodup).2.1 hcalculated
    · exact reconcileExtractedFields_vetted hreconciled
    · exact evaluateCalculatedFields_vetted hcalculated

end Extraction

/-! ### What a review stores -/

section Review

variable {payload : ReviewEditPayload} {s : ExtractionValidationSummary}

/-- An approval keeps the names of the extracted fields. -/
theorem approvals_names (payload : ReviewEditPayload) (s : ExtractionValidationSummary) :
    (approvals payload s).extractedFields.map ExtractionFieldResult.fieldName =
      s.extractedFields.map ExtractionFieldResult.fieldName := by
  unfold approvals
  split
  · simp only [approveHighConfidence, List.map_map]
    refine List.map_congr_left fun f _ => ?_
    simp only [Function.comp_apply]
    split
    · rfl
    · split <;> rfl
  · split
    · simp only [approveAll, List.map_map]
      refine List.map_congr_left fun f _ => ?_
      simp only [Function.comp_apply]
      split <;> rfl
    · rfl

theorem approvals_calculatedNames : (approvals payload s).calculatedFields.map
    CalculatedFieldResult.fieldName = s.calculatedFields.map CalculatedFieldResult.fieldName := by
  unfold approvals
  split
  · rfl
  · split
    · simp only [approveAll, List.map_map]
      refine List.map_congr_left fun c _ => ?_
      simp only [Function.comp_apply]
      split <;> rfl
    · rfl

theorem vetted_approve (f : ExtractionFieldResult) : f.approve.Vetted := fun _ => Or.inr rfl

/-- What an approval leaves is vetted if it was, or approved. -/
theorem approvals_vetted (h : ∀ f ∈ s.extractedFields, f.Vetted) :
    ∀ f ∈ (approvals payload s).extractedFields, f.Vetted := by
  intro f hf
  unfold approvals at hf
  split at hf
  · obtain ⟨g, hg, rfl⟩ := List.mem_map.mp hf
    split
    · exact h g hg
    · split
      · exact vetted_approve g
      · exact h g hg
  · split at hf
    · obtain ⟨g, hg, rfl⟩ := List.mem_map.mp hf
      split
      · exact vetted_approve g
      · exact h g hg
    · exact h f hf

theorem approvals_calculatedVetted (h : ∀ c ∈ s.calculatedFields, c.Vetted) :
    ∀ c ∈ (approvals payload s).calculatedFields, c.Vetted := by
  intro c hc
  unfold approvals at hc
  split at hc
  · exact h c hc
  · split at hc
    · obtain ⟨g, hg, rfl⟩ := List.mem_map.mp hc
      split
      · exact fun _ => Or.inr rfl
      · exact h g hg
    · exact h c hc

/-- The rest of a summary stays as it is. -/
theorem approvals_rest (payload : ReviewEditPayload) (s : ExtractionValidationSummary) :
    (approvals payload s).documentId = s.documentId ∧
    (approvals payload s).documentType = s.documentType ∧
    (approvals payload s).templateName = s.templateName ∧
    (approvals payload s).templateVersion = s.templateVersion := by
  unfold approvals
  split
  · exact ⟨rfl, rfl, rfl, rfl⟩
  · split <;> exact ⟨rfl, rfl, rfl, rfl⟩

/-- A field that was set is one there was, or what it was set to. -/
theorem mem_setField {u : ExtractionFieldResult → ExtractionFieldResult} {name : String} :
    ∀ {fields : List ExtractionFieldResult} {f : ExtractionFieldResult},
      f ∈ setField fields name u → f ∈ fields ∨ ∃ g, f = u g := by
  intro fields
  induction fields with
  | nil => exact fun hf => Or.inl hf
  | cons g fields ih =>
    intro f hf
    rw [setField] at hf
    split at hf
    · rcases List.mem_cons.mp hf with rfl | hf
      · exact Or.inl List.mem_cons_self
      · exact (ih hf).imp_left (List.mem_cons_of_mem g)
    · split at hf
      · rcases List.mem_cons.mp hf with rfl | hf
        · exact Or.inr ⟨g, rfl⟩
        · exact Or.inl (List.mem_cons_of_mem g hf)
      · exact Or.inl hf

/-- The edits keep the names and vet what they write. -/
theorem applyEdits_vetted {tenant reviewer : String} {resultId : ℕ} {edits : List ReviewFieldEdit} :
    ∀ {fields fields' : List ExtractionFieldResult} {rows : List ReviewEdit},
      applyEdits tenant resultId reviewer edits fields = .ok (fields', rows) →
      fields'.map ExtractionFieldResult.fieldName = fields.map ExtractionFieldResult.fieldName ∧
        ((∀ f ∈ fields, f.Vetted) → ∀ f ∈ fields', f.Vetted) := by
  induction edits with
  | nil =>
    intro fields fields' rows h
    obtain ⟨rfl, -⟩ := Prod.mk.inj (Except.ok.inj h)
    exact ⟨rfl, id⟩
  | cons edit edits ih =>
    intro fields fields' rows h
    obtain ⟨target, rows', -, hrest, -⟩ := applyEdits_cons h
    obtain ⟨hnames, hvetted⟩ := ih hrest
    refine ⟨hnames.trans (map_fieldName_setField (fieldName_apply edit)), fun hfields => ?_⟩
    refine hvetted fun f hf => ?_
    rcases mem_setField hf with hf | ⟨g, rfl⟩
    · exact hfields f hf
    · exact fun _ => Or.inr rfl

/-- Every edit is one of a field there is. -/
theorem applyEdits_named {tenant reviewer : String} {resultId : ℕ} {edits : List ReviewFieldEdit}
    {fields fields' : List ExtractionFieldResult} {rows : List ReviewEdit}
    (h : applyEdits tenant resultId reviewer edits fields = .ok (fields', rows)) :
    ∀ row ∈ rows, row.fieldName ∈ fields.map ExtractionFieldResult.fieldName := by
  intro row hrow
  obtain ⟨value, hvalue⟩ := Option.isSome_iff_exists.mp (applyEdits_rows h row hrow).2
  obtain ⟨f, hf, -⟩ := Option.map_eq_some_iff.mp hvalue
  exact List.mem_map.mpr ⟨f, fieldIndex_mem hf, fieldName_of_fieldIndex hf⟩

/-- A recalculation changes the calculated fields, if anything. -/
theorem recalculateIfAsked_cases {rt : Runtime} {version : Option TemplateVersion}
    {s' : ExtractionValidationSummary} (h : recalculateIfAsked rt payload version s = .ok s') :
    s' = s ∨ ∃ v calculated, version = some v ∧
      evaluateCalculatedFields rt.engine rt.num v.definition.calculatedFields s.extractedFields =
        .ok calculated ∧
      s' = { s with calculatedFields := markReviewed calculated } := by
  unfold recalculateIfAsked at h
  split at h
  · unfold recalculate at h
    split at h
    · exact Or.inl (Except.ok.inj h).symm
    · next v =>
      obtain ⟨⟨⟩, -, h⟩ := Failing.bind_ok.mp h
      obtain ⟨calculated, hcalculated, h⟩ := Failing.bind_ok.mp h
      exact Or.inr ⟨v, calculated, rfl, hcalculated, (Except.ok.inj h).symm⟩
  · exact Or.inl (Except.ok.inj h).symm

theorem markReviewed_names (fields : List CalculatedFieldResult) :
    (markReviewed fields).map CalculatedFieldResult.fieldName =
      fields.map CalculatedFieldResult.fieldName := by
  simp only [markReviewed, List.map_map]
  refine List.map_congr_left fun c _ => ?_
  simp only [Function.comp_apply]
  split <;> rfl

theorem markReviewed_vetted (fields : List CalculatedFieldResult) :
    ∀ c ∈ markReviewed fields, c.Vetted := by
  intro c hc
  obtain ⟨g, -, rfl⟩ := List.mem_map.mp hc
  split
  · next hflag =>
    intro hnot
    rw [hflag] at hnot
    cases hnot
  · exact fun _ => Or.inr rfl

/-- **A review of a summary that fits leaves one that fits**, and edits fields of the template. -/
theorem reviewOutcome_fits {rt : Runtime} {db : Database} {resultId : ℕ}
    {result : ExtractionResult} {now : UtcTime} {summary : ExtractionValidationSummary}
    {rows : List ReviewEdit} {definition : ExtractionTemplate} {documentId : ℕ}
    (hfits : FitsTemplate definition documentId result.resultJson)
    (hversion : ∀ v, db.templateVersionOf result = some v → v.definition = definition)
    (h : reviewOutcome rt db resultId result payload now = .ok (summary, rows)) :
    FitsTemplate definition documentId summary ∧
      ∀ row ∈ rows, row.fieldName ∈ definition.extractedFields.map
        ExtractionFieldDefinition.name := by
  obtain ⟨fields, recalculated, hedits, hrecalculated, hfields, hdump⟩ := reviewOutcome_spec h
  obtain ⟨hnames, hkeeps⟩ := applyEdits_vetted hedits
  have happroved := approvals_names payload result.resultJson
  have hextracted : fields.map ExtractionFieldResult.fieldName =
      definition.extractedFields.map ExtractionFieldDefinition.name := by
    rw [hnames, happroved, hfits.extracted]
  have hvetted := hkeeps (approvals_vetted hfits.vetted.1)
  obtain ⟨hdocument, htype, htemplate, hversionText⟩ :=
    approvals_rest payload result.resultJson
  refine ⟨?_, fun row hrow => ?_⟩
  · refine fitsTemplate_of_modelDump hdump ?_ ?_ ?_ ?_ hfits.nodup rfl ?_ ?_
    · rcases recalculateIfAsked_cases hrecalculated with rfl | ⟨v, calculated, -, -, rfl⟩ <;>
        exact hdocument.trans hfits.document
    · rcases recalculateIfAsked_cases hrecalculated with rfl | ⟨v, calculated, -, -, rfl⟩ <;>
        exact ⟨htype.trans hfits.template.1, htemplate.trans hfits.template.2.1,
          hversionText.trans hfits.template.2.2⟩
    · show recalculated.extractedFields.map _ = _
      rw [hfields, hextracted]
    · show (recalculated.calculatedFields.map _).Perm _
      -- Either the calculated fields are those that were stored, or they were evaluated again from
      -- the version of the result, which has the definition the summary fits.
      rcases recalculateIfAsked_cases hrecalculated with rfl | ⟨v, calculated, hv, hcalculated, rfl⟩
      · show ((approvals payload result.resultJson).calculatedFields.map _).Perm _
        rw [approvals_calculatedNames]
        exact hfits.calculated
      · show ((markReviewed calculated).map _).Perm _
        rw [markReviewed_names]
        rw [hversion v hv] at hcalculated
        exact evaluateCalculatedFields_perm (List.nodup_append.mp hfits.nodup).2.1 hcalculated
    · show ∀ f ∈ recalculated.extractedFields, f.Vetted
      rw [hfields]
      exact hvetted
    · show ∀ c ∈ recalculated.calculatedFields, c.Vetted
      rcases recalculateIfAsked_cases hrecalculated with rfl | ⟨v, calculated, -, -, rfl⟩
      · exact approvals_calculatedVetted hfits.vetted.2
      · exact markReviewed_vetted calculated
  · have hrow := applyEdits_named hedits row hrow
    rwa [happroved, hfits.extracted] at hrow

end Review

/-! ### The results of a database -/

/-- The summary fits the template version of the job. -/
def FitsJob (db : Database) (job : ℕ) (s : ExtractionValidationSummary) : Prop :=
  ∃ row version, db.extractionJobs.get job = some row ∧
    db.templateVersions.get row.templateVersionId = some version ∧
    FitsTemplate version.definition row.documentId s

/-- The edit is one of a field of the template version its result was made with. -/
def EditFits (db : Database) (e : ReviewEdit) : Prop :=
  ∃ result row version, db.extractionResults.get e.resultId = some result ∧
    db.extractionJobs.get result.jobId = some row ∧
    db.templateVersions.get row.templateVersionId = some version ∧
    e.fieldName ∈ version.definition.extractedFields.map ExtractionFieldDefinition.name

/-- **The results, the edits and the completed jobs of a database**: a completed job has a
result, and no job has two. -/
structure ResultsFit (db : Database) : Prop where
  results : ∀ id row, db.extractionResults.get id = some row → FitsJob db row.jobId row.resultJson
  edits : ∀ id e, db.reviewEdits.get id = some e → EditFits db e
  completed : ∀ j row, db.extractionJobs.get j = some row → row.status = .completed →
    db.resultsOf j ≠ []
  single : ∀ j, (db.resultsOf j).length ≤ 1

/-- The rows a result is judged by stay: its job, with the document and the version it is
about, and the definition of the version. -/
structure KeepsLinks (db db' : Database) : Prop where
  jobs : Keeps (fun j : ExtractionJob => (j.documentId, j.templateVersionId)) db.extractionJobs
    db'.extractionJobs
  versions : Keeps TemplateVersion.definition db.templateVersions db'.templateVersions
  results : Keeps ExtractionResult.jobId db.extractionResults db'.extractionResults

section Links

variable {db db' db'' : Database}

theorem KeepsLinks.refl (db : Database) : KeepsLinks db db := ⟨.refl _ _, .refl _ _, .refl _ _⟩

theorem KeepsLinks.trans (h : KeepsLinks db db') (h' : KeepsLinks db' db'') :
    KeepsLinks db db'' :=
  ⟨h.jobs.trans h'.jobs, h.versions.trans h'.versions, h.results.trans h'.results⟩

theorem FitsJob.keeps {job : ℕ} {s : ExtractionValidationSummary} (h : FitsJob db job s)
    (hkeeps : KeepsLinks db db') : FitsJob db' job s := by
  obtain ⟨row, version, hrow, hversion, hfits⟩ := h
  obtain ⟨row', hrow', heq⟩ := hkeeps.jobs job row hrow
  obtain ⟨hdocument, hlink⟩ := Prod.mk.inj heq
  obtain ⟨version', hversion', hdefinition⟩ := hkeeps.versions _ version hversion
  refine ⟨row', version', hrow', hlink ▸ hversion', ?_⟩
  rw [hdefinition, hdocument]
  exact hfits

theorem EditFits.keeps {e : ReviewEdit} (h : EditFits db e) (hkeeps : KeepsLinks db db') :
    EditFits db' e := by
  obtain ⟨result, row, version, hresult, hrow, hversion, hname⟩ := h
  obtain ⟨result', hresult', hjob⟩ := hkeeps.results _ result hresult
  obtain ⟨row', hrow', heq⟩ := hkeeps.jobs _ row hrow
  obtain ⟨-, hlink⟩ := Prod.mk.inj heq
  obtain ⟨version', hversion', hdefinition⟩ := hkeeps.versions _ version hversion
  exact ⟨result', row', version', hresult', hjob ▸ hrow', hlink ▸ hversion', hdefinition ▸ hname⟩

end Links

/-! ### Writes that leave the results alone -/

/-- A write that touches no result and no edit, and completes only jobs with a result. -/
structure PlainWrite (db db' : Database) : Prop where
  links : KeepsLinks db db'
  results : db'.extractionResults = db.extractionResults
  edits : db'.reviewEdits = db.reviewEdits
  completed : ∀ j row, db'.extractionJobs.get j = some row → row.status = .completed →
    (∃ row', db.extractionJobs.get j = some row' ∧ row'.status = .completed) ∨ db.resultsOf j ≠ []

section Plain

variable {db db' db'' : Database}

/-- A write to other tables. -/
theorem plainWrite_of_eq (hjobs : db'.extractionJobs = db.extractionJobs)
    (hversions : db'.templateVersions = db.templateVersions)
    (hresults : db'.extractionResults = db.extractionResults)
    (hedits : db'.reviewEdits = db.reviewEdits) : PlainWrite db db' := by
  refine ⟨⟨?_, ?_, ?_⟩, hresults, hedits, fun j row hrow hstatus => Or.inl ⟨row, ?_, hstatus⟩⟩
  · rw [hjobs]
    exact .refl _ _
  · rw [hversions]
    exact .refl _ _
  · rw [hresults]
    exact .refl _ _
  · rwa [← hjobs]

theorem PlainWrite.refl (db : Database) : PlainWrite db db := plainWrite_of_eq rfl rfl rfl rfl

theorem PlainWrite.trans (h : PlainWrite db db') (h' : PlainWrite db' db'') :
    PlainWrite db db'' := by
  refine ⟨h.links.trans h'.links, h'.results.trans h.results, h'.edits.trans h.edits, ?_⟩
  intro j row hrow hstatus
  rcases h'.completed j row hrow hstatus with ⟨row', hrow', hstatus'⟩ | hresult
  · exact h.completed j row' hrow' hstatus'
  · refine Or.inr ?_
    unfold Database.resultsOf at hresult ⊢
    rwa [h.results] at hresult

/-- **A plain write keeps the results as they should be.** -/
theorem ResultsFit.plain (hfit : ResultsFit db) (h : PlainWrite db db') : ResultsFit db' := by
  have hresultsOf : ∀ j, db'.resultsOf j = db.resultsOf j := by
    intro j
    unfold Database.resultsOf
    rw [h.results]
  refine ⟨fun id row hrow => ?_, fun id e he => ?_, fun j row hrow hstatus => ?_, fun j => ?_⟩
  · rw [h.results] at hrow
    exact (hfit.results id row hrow).keeps h.links
  · rw [h.edits] at he
    exact (hfit.edits id e he).keeps h.links
  · rw [hresultsOf]
    rcases h.completed j row hrow hstatus with ⟨row', hrow', hstatus'⟩ | hresult
    · exact hfit.completed j row' hrow' hstatus'
    · exact hresult
  · rw [hresultsOf]
    exact hfit.single j

/-- A job rewritten without its foreign keys, and completed only if it has a result. -/
theorem plainWrite_updateJob {job : ℕ} {g : ExtractionJob → ExtractionJob}
    (hg : ∀ j, (g j).documentId = j.documentId ∧ (g j).templateVersionId = j.templateVersionId)
    (hstatus : ∀ j, db.extractionJobs.get job = some j → (g j).status = .completed →
      j.status = .completed ∨ db.resultsOf job ≠ []) :
    PlainWrite db { db with extractionJobs := db.extractionJobs.update job g } where
  links :=
    { KeepsLinks.refl db with jobs := keeps_update fun j _ => Prod.ext (hg j).1 (hg j).2 }
  results := rfl
  edits := rfl
  completed := by
    intro j row hrow hcompleted
    by_cases hj : j = job
    · subst hj
      rw [get_update_self] at hrow
      obtain ⟨row', hrow', rfl⟩ := Option.map_eq_some_iff.mp hrow
      exact (hstatus row' hrow' hcompleted).imp_left fun h => ⟨row', hrow', h⟩
    · rw [get_update_ne _ _ hj] at hrow
      exact Or.inl ⟨row, hrow, hcompleted⟩

/-- A new job is not completed. -/
theorem plainWrite_insertJob {row : ExtractionJob} (hrow : row.status ≠ .completed) :
    PlainWrite db { db with extractionJobs := db.extractionJobs.insert row } where
  links := { KeepsLinks.refl db with jobs := keeps_insert _ _ row }
  results := rfl
  edits := rfl
  completed := by
    intro j row' hrow' hcompleted
    by_cases hj : j = db.extractionJobs.nextId
    · subst hj
      rw [get_insert_self] at hrow'
      obtain rfl := Option.some.inj hrow'
      exact absurd hcompleted hrow
    · rw [get_insert_ne _ _ hj] at hrow'
      exact Or.inl ⟨row', hrow', hcompleted⟩

theorem plainWrite_insertVersion (version : TemplateVersion) :
    PlainWrite db { db with templateVersions := db.templateVersions.insert version } where
  links := { KeepsLinks.refl db with versions := keeps_insert _ _ version }
  results := rfl
  edits := rfl
  completed := fun _ row hrow hcompleted => Or.inl ⟨row, hrow, hcompleted⟩

/-- The flush of a job that is not completed by it, or has a result. -/
theorem commitJob_plain {job : ℕ} {loaded new : ExtractionJob}
    (h : new.status = loaded.status ∨ new.status ≠ .completed ∨ db.resultsOf job ≠ []) :
    PlainWrite db (db.commitJob job loaded new) := by
  refine plainWrite_updateJob (fun _ => ⟨rfl, rfl⟩) fun j _ hcompleted => ?_
  rw [flush_status] at hcompleted
  rcases h with h | h | h
  · rw [h, writeBack_same] at hcompleted
    exact Or.inl hcompleted
  · rcases writeBack_eq_or loaded.status new.status j.status with heq | heq
    · exact Or.inl (heq ▸ hcompleted)
    · exact absurd (heq ▸ hcompleted) h
  · exact Or.inr h

end Plain

/-! ### The two writes of a result -/

section Writes

variable {db : Database} {job : ℕ}

/-- What is in a table after several inserts was there or is one of them. -/
theorem get_insertAll {ρ : Type} {rs : List ρ} : ∀ {t : Table ρ} {id : ℕ} {r : ρ},
    (rs.foldl Table.insert t).get id = some r → t.get id = some r ∨ r ∈ rs := by
  induction rs with
  | nil => exact fun h => Or.inl h
  | cons r rs ih =>
    intro t id r' h
    rcases ih h with h | h
    · by_cases hid : id = t.nextId
      · subst hid
        rw [get_insert_self] at h
        exact Or.inr (Option.some.inj h ▸ List.mem_cons_self)
      · rw [get_insert_ne _ _ hid] at h
        exact Or.inl h
    · exact Or.inr (List.mem_cons_of_mem r h)

/-- A worker saves the result of a job: the links stay, and the job has a result. -/
theorem saveResult_fit (hfit : ResultsFit db) (stored : ExtractionJob)
    {summary : ExtractionValidationSummary} (hsummary : FitsJob db job summary) :
    let db' := (db.saveResult job stored.tenantId summary).1
    ResultsFit db' ∧ KeepsLinks db db' ∧ db'.resultsOf job ≠ [] := by
  intro db'
  have hother : db'.extractionJobs = db.extractionJobs ∧
      db'.templateVersions = db.templateVersions ∧ db'.reviewEdits = db.reviewEdits := by
    unfold db' Database.saveResult
    split <;> exact ⟨rfl, rfl, rfl⟩
  obtain ⟨hjobs, hversions, hedits⟩ := hother
  -- a row that is rewritten is one of the job, and keeps it
  have hresults : Keeps ExtractionResult.jobId db.extractionResults db'.extractionResults ∧
      ∀ id row, db'.extractionResults.get id = some row →
        db.extractionResults.get id = some row ∨ row.jobId = job ∧ row.resultJson = summary := by
    unfold db' Database.saveResult
    split
    · refine ⟨keeps_insert _ _ _, fun id row hrow => ?_⟩
      by_cases hid : id = db.extractionResults.nextId
      · subst hid
        rw [get_insert_self] at hrow
        obtain rfl := Option.some.inj hrow
        exact Or.inr ⟨rfl, rfl⟩
      · rw [get_insert_ne _ _ hid] at hrow
        exact Or.inl hrow
    · next id' r rest hrows =>
      have hmem : (id', r) ∈ db.resultsOf job := hrows ▸ List.mem_cons_self
      obtain ⟨hr, hjob⟩ := mem_select.mp hmem
      refine ⟨keeps_update fun _ _ => rfl, fun id row hrow => ?_⟩
      by_cases hid : id = id'
      · subst hid
        rw [get_update_self, get_of_mem hr] at hrow
        obtain rfl := Option.some.inj hrow
        exact Or.inr ⟨beq_iff_eq.mp hjob, rfl⟩
      · rw [get_update_ne _ _ hid] at hrow
        exact Or.inl hrow
  have hlinks : KeepsLinks db db' := by
    refine ⟨?_, ?_, hresults.1⟩
    · rw [hjobs]
      exact .refl _ _
    · rw [hversions]
      exact .refl _ _
  obtain ⟨id, r, hone, -⟩ := saveResult_resultsOf db (hfit.single job) stored.tenantId summary
  have hothers : ∀ j, j ≠ job → db'.resultsOf j = db.resultsOf j :=
    fun j hj => saveResult_resultsOf_ne db hj stored.tenantId summary
  have hself : db'.resultsOf job ≠ [] := by
    show (db.saveResult job stored.tenantId summary).1.resultsOf job ≠ []
    rw [hone]
    exact List.cons_ne_nil _ _
  refine ⟨⟨fun id row hrow => ?_, fun id e he => ?_, fun j row hrow hstatus => ?_, fun j => ?_⟩,
    hlinks, hself⟩
  · rcases hresults.2 id row hrow with hrow | ⟨hjob, hsummary'⟩
    · exact (hfit.results id row hrow).keeps hlinks
    · rw [hjob, hsummary']
      exact hsummary.keeps hlinks
  · rw [hedits] at he
    exact (hfit.edits id e he).keeps hlinks
  · by_cases hj : j = job
    · rw [hj]
      exact hself
    · rw [hothers j hj]
      rw [hjobs] at hrow
      exact hfit.completed j row hrow hstatus
  · by_cases hj : j = job
    · rw [hj]
      show ((db.saveResult job stored.tenantId summary).1.resultsOf job).length ≤ 1
      simp [hone]
    · rw [hothers j hj]
      exact hfit.single j

/-- **The commit that completes a job.** -/
theorem commitCompletion_fit (hfit : ResultsFit db) (stored loaded : ExtractionJob)
    {summary : ExtractionValidationSummary} (hsummary : FitsJob db job summary) :
    ResultsFit (db.commitCompletion job stored loaded summary) ∧
      KeepsLinks db (db.commitCompletion job stored loaded summary) := by
  obtain ⟨hfit', hlinks, hresult⟩ := saveResult_fit hfit stored hsummary
  have hplain : PlainWrite (db.saveResult job stored.tenantId summary).1
      (db.commitCompletion job stored loaded summary) := by
    have hcommit : PlainWrite (db.saveResult job stored.tenantId summary).1
        ((db.saveResult job stored.tenantId summary).1.commitJob job loaded loaded.succeed) :=
      commitJob_plain (Or.inr (Or.inr hresult))
    exact hcommit.trans (plainWrite_of_eq rfl rfl rfl rfl)
  exact ⟨hfit'.plain hplain, hlinks.trans hplain.links⟩

/-- **The commit of a review**, of a summary that fits the job of its result. -/
theorem commitReview_fit (hfit : ResultsFit db) {resultId : ℕ} {loaded row : ExtractionResult}
    {payload : ReviewEditPayload} {summary : ExtractionValidationSummary} {rows : List ReviewEdit}
    (hrow : db.extractionResults.get resultId = some row) (hsummary : FitsJob db row.jobId summary)
    (hrows : ∀ e ∈ rows, EditFits db e) :
    ResultsFit (db.commitReview resultId loaded payload summary rows) ∧
      KeepsLinks db (db.commitReview resultId loaded payload summary rows) := by
  let g := fun r : ExtractionResult => { r with resultJson := summary, reviewStatus := .reviewed }
  have hlinks : KeepsLinks db (db.commitReview resultId loaded payload summary rows) :=
    ⟨.refl _ _, .refl _ _, keeps_update fun _ _ => rfl⟩
  have hresultsOf : ∀ j, (db.commitReview resultId loaded payload summary rows).resultsOf j =
      updateRows (db.resultsOf j) resultId g := fun j => select_update fun _ => rfl
  refine ⟨⟨fun id row' hrow' => ?_, fun id e he => ?_, fun j job' hjob hstatus => ?_, fun j => ?_⟩,
    hlinks⟩
  -- The reviewed row has the new summary, and every other row is as it was.
  · by_cases hid : id = resultId
    · subst hid
      have hrow' : (db.extractionResults.update id g).get id = some row' := hrow'
      rw [get_update_self, hrow] at hrow'
      obtain rfl := Option.some.inj hrow'
      exact hsummary.keeps hlinks
    · have hrow' : (db.extractionResults.update resultId g).get id = some row' := hrow'
      rw [get_update_ne _ _ hid] at hrow'
      exact (hfit.results id row' hrow').keeps hlinks
  · rcases get_insertAll he with he | he
    · exact (hfit.edits id e he).keeps hlinks
    · exact (hrows e he).keeps hlinks
  · rw [hresultsOf]
    have hresult := hfit.completed j job' hjob hstatus
    intro hnil
    apply hresult
    simpa [updateRows] using hnil
  · rw [hresultsOf]
    simpa [updateRows] using hfit.single j

end Writes

/-! ### The workers -/

/-- The summary a worker is about to store. -/
def Pc.summary : Pc → Option ExtractionValidationSummary
  | .checkExtracted result | .complete _ result => some result
  | _ => none

section Workers

variable {db db' : Database} {job : ℕ}

theorem failWith_not_completed (loaded : ExtractionJob) (msg : String) :
    (loaded.failWith msg).status ≠ .completed := by
  intro h
  cases h

/-- **A step of `process_once`** keeps the results as they should be, and what it is about to
store afterwards is what it was about to store, or what the extraction has just returned. -/
theorem ProcessMove.fit {stored : ExtractionJob} {pc : Pc} {act : WorkerAct} {pc' : Option Pc}
    (hmove : ProcessMove job db stored pc act db' pc') (hfit : ResultsFit db)
    (hpc : ∀ summary, pc.summary = some summary → FitsJob db job summary)
    (hextracted : ∀ loaded summary, pc = .extract loaded [] → act = .extracted summary →
      FitsJob db job summary) :
    ResultsFit db' ∧ KeepsLinks db db' ∧
      ∀ p summary, pc' = some p → p.summary = some summary → FitsJob db' job summary := by
  have hplain : ∀ {db'' : Database} {p' : Option Pc}, PlainWrite db db'' →
      (∀ p, p' = some p → p.summary = none) → ResultsFit db'' ∧ KeepsLinks db db'' ∧
        ∀ p summary, p' = some p → p.summary = some summary → FitsJob db'' job summary := by
    intro db'' p' h hp'
    refine ⟨hfit.plain h, h.links, fun p summary hp hsummary => ?_⟩
    rw [hp' p hp] at hsummary
    cases hsummary
  have hsame : ∀ {p' : Option Pc},
      (∀ p summary, p' = some p → p.summary = some summary → FitsJob db job summary) →
        ResultsFit db ∧ KeepsLinks db db ∧
          ∀ p summary, p' = some p → p.summary = some summary → FitsJob db job summary :=
    fun h => ⟨hfit, .refl db, h⟩
  have hquiet : ∀ {p' : Pc}, p'.summary = none → ∀ p, some p' = some p → p.summary = none := by
    intro p' hp' p hp
    rwa [← Option.some.inj hp]
  -- Only the completion writes a result, and only the end of the extraction brings a new one.
  cases hmove
  case missing loaded =>
    refine hplain (commitJob_plain (Or.inr (Or.inl ?_))) (hquiet rfl)
    exact failWith_not_completed loaded missingMessage
  case start loaded document =>
    refine hplain ((commitJob_plain (Or.inl ?_)).trans (plainWrite_of_eq rfl rfl rfl rfl))
      (hquiet rfl)
    rfl
  case storeText path => exact hplain (plainWrite_of_eq rfl rfl rfl rfl) (hquiet rfl)
  case report loaded stage stages => exact hplain (commitJob_plain (Or.inl rfl)) (hquiet rfl)
  case complete loaded result =>
    obtain ⟨hfit', hlinks⟩ := commitCompletion_fit hfit stored loaded
      (hpc result rfl)
    refine ⟨hfit', hlinks, fun p summary hp hsummary => ?_⟩
    obtain rfl := Option.some.inj hp
    cases hsummary
  case fail committed loaded msg =>
    have hcommit : PlainWrite db (db.commitJob job loaded (loaded.failWith msg)) :=
      commitJob_plain (Or.inr (Or.inl (failWith_not_completed loaded msg)))
    exact hplain (hcommit.trans (plainWrite_of_eq rfl rfl rfl rfl)) (hquiet rfl)
  case finalize handled committed =>
    exact hplain (plainWrite_of_eq rfl rfl rfl rfl) (hquiet rfl)
  case extracted loaded result =>
    refine hsame fun p summary hp hsummary => ?_
    obtain rfl := Option.some.inj hp
    obtain rfl := Option.some.inj hsummary
    exact hextracted loaded result rfl rfl
  case extractedLive result hlive =>
    refine hsame fun p summary hp hsummary => ?_
    obtain rfl := Option.some.inj hp
    obtain rfl := Option.some.inj hsummary
    exact hpc result rfl
  all_goals
    refine hsame fun p summary hp hsummary => ?_
    cases hp <;> cases hsummary

end Workers

/-! ### The system -/

/-- What the extraction of a worker returns, `execute_extraction` returned for the job. -/
def ExtractionsReturn (s : TenantState) : TenantAct → Prop
  | .worker w (.extracted summary) => ∀ j loaded row version,
      s.queue.workers w = .busy j (.extract loaded []) → s.db.extractionJobs.get j = some row →
      s.db.templateVersions.get row.templateVersionId = some version →
      ∃ world chat deployment documentPath text, (executeExtractionOn world chat deployment
        documentPath row.documentId version.definition row.providerOverride (some text)).1 =
          .ok summary
  | _ => True

/-- The summary a review loaded is one of the job of its result. -/
def ReviewFits (db : Database) (q : ReviewRequest) : Prop :=
  ∃ row, db.extractionResults.get q.resultId = some row ∧ row.jobId = q.loaded.jobId ∧
    FitsJob db q.loaded.jobId q.loaded.resultJson

/-- **The invariant**: the results as they should be, and what workers and reviews hold to the
same standard. -/
structure FitInv (s : TenantState) : Prop where
  tenants : TenantInv s
  fits : ResultsFit s.db
  workers : ∀ w j pc summary, s.queue.workers w = .busy j pc → pc.summary = some summary →
    FitsJob s.db j summary
  reviews : ∀ r tenant q, s.calls r = some (tenant, .review q) → ReviewFits s.db q

section Steps

variable {cfg : TenantConfig} {s t : TenantState}

theorem ReviewFits.keeps {db db' : Database} {q : ReviewRequest} (h : ReviewFits db q)
    (hkeeps : KeepsLinks db db') : ReviewFits db' q := by
  obtain ⟨row, hrow, hjob, hfits⟩ := h
  obtain ⟨row', hrow', heq⟩ := hkeeps.results _ row hrow
  exact ⟨row', hrow', heq.trans hjob, hfits.keeps hkeeps⟩

/-- What a worker in the middle of a job does. -/
theorem busyStep_spec {q q' : QueueState} {w j : ℕ} {pc : Pc} {act : WorkerAct}
    (hw : q.workers w = .busy j pc) (h : workerStep q w act = some q') :
    ∃ stored db' pc', q.db.extractionJobs.get j = some stored ∧
      ProcessMove j q.db stored pc act db' pc' ∧
      q' = { q with db := db' }.setWorker w (pc'.elim .idle (.busy j)) := by
  unfold workerStep at h
  rw [hw] at h
  simp only at h
  split at h
  · cases h
  · obtain ⟨⟨db', pc'⟩, hprocess, rfl⟩ := Option.map_eq_some_iff.mp h
    obtain ⟨stored, hget, hmove⟩ := processMove_of_step hprocess
    exact ⟨stored, db', pc', hget, hmove, rfl⟩

/-- **The steps of the workers.** -/
theorem fitInv_worker (hs : FitInv s) {w : ℕ} {act : WorkerAct} {queue : QueueState}
    (hok : ExtractionsReturn s (.worker w act)) (hstep : workerStep s.queue w act = some queue)
    (htenants : TenantInv { s with queue := queue }) : FitInv { s with queue := queue } := by
  -- a worker that takes a step leaves the others where they are
  have hmoved : ∀ {db' : Database} {ph : Phase} (writer : Option ℕ), ResultsFit db' →
      KeepsLinks s.db db' →
      (∀ j pc summary, ph = .busy j pc → pc.summary = some summary → FitsJob db' j summary) →
      queue = { s.queue with db := db', writer := writer }.setWorker w ph →
      FitInv { s with queue := queue } := by
    rintro db' ph writer hfit hkeeps hph rfl
    refine ⟨htenants, hfit, fun w' j pc summary hw' hsummary => ?_, fun r tenant q hcall => ?_⟩
    · by_cases hw : w' = w
      · rw [hw] at hw'
        have hself : ph = .busy j pc :=
          (setWorker_self { s.queue with db := db', writer := writer } w ph).symm.trans hw'
        exact hph j pc summary hself hsummary
      · have hne : s.queue.workers w' = .busy j pc :=
          (setWorker_ne { s.queue with db := db', writer := writer } w ph hw).symm.trans hw'
        exact (hs.workers w' j pc summary hne hsummary).keeps hkeeps
    · exact (hs.reviews r tenant q hcall).keeps hkeeps
  by_cases hbusy : ∃ j pc, s.queue.workers w = .busy j pc
  · obtain ⟨j, pc, hw⟩ := hbusy
    obtain ⟨stored, db', pc', hget, hmove, hqueue⟩ := busyStep_spec hw hstep
    have hextracted : ∀ loaded summary, pc = .extract loaded [] → act = .extracted summary →
        FitsJob s.db j summary := by
      rintro loaded summary rfl rfl
      obtain ⟨version, hversion, -⟩ := hs.tenants.chain.jobVersions j stored hget
      obtain ⟨world, chat, deployment, documentPath, text, hreturn⟩ :=
        hok j loaded stored version hw hget hversion
      exact ⟨stored, version, hget, hversion, executeExtractionOn_fits hreturn⟩
    obtain ⟨hfit, hkeeps, hpc'⟩ := hmove.fit hs.fits
      (fun summary hsummary => hs.workers w j pc summary hw hsummary) hextracted
    refine hmoved s.queue.writer hfit hkeeps (fun j' p summary hph hsummary => ?_) hqueue
    cases pc' with
    | none => cases hph
    | some p' =>
      obtain ⟨rfl, rfl⟩ := Phase.busy.inj hph
      exact hpc' p' summary rfl hsummary
  · cases workerMove_of_step hstep with
    | look ph _ hph =>
      refine hmoved s.queue.writer hs.fits (.refl s.db) (fun j pc summary hbusy' _ => ?_)
        rfl
      rw [hbusy'] at hph
      cases hph
    | lock tries j _ _ _ =>
      refine hmoved (some w) hs.fits (.refl s.db) (fun j' pc summary hph _ => ?_) rfl
      cases hph
    | claim j _ =>
      have hplain : PlainWrite s.db
          { s.db with extractionJobs := s.db.extractionJobs.update j (·.claim w) } :=
        plainWrite_updateJob (fun _ => ⟨rfl, rfl⟩) fun row _ hcompleted => by
          have hcompleted : JobStatus.running = .completed := hcompleted
          cases hcompleted
      refine hmoved none (hs.fits.plain hplain) hplain.links
        (fun j' pc summary hph hsummary => ?_) rfl
      obtain ⟨rfl, rfl⟩ := Phase.busy.inj hph
      cases hsummary
    | process j pc act stored db' pc' hw _ _ _ => exact absurd ⟨j, pc, hw⟩ hbusy

/-- The commit of a retry or of a cancellation. -/
theorem commitRequest_plain (db : Database) (q : Request) (actor : String) :
    PlainWrite db (db.commitRequest actor q) := by
  cases q with
  | retry job loaded document checked =>
    have hcommit : PlainWrite db (db.commitJob job loaded (retryFailedJob loaded)) := by
      refine commitJob_plain (Or.inr (Or.inl fun h => ?_))
      cases h
    exact hcommit.trans (plainWrite_of_eq rfl rfl rfl rfl)
  | cancel job loaded document checked =>
    have hcommit : PlainWrite db (db.commitJob job loaded (cancelJob loaded)) := by
      refine commitJob_plain (Or.inr (Or.inl fun h => ?_))
      cases h
    exact hcommit.trans (plainWrite_of_eq rfl rfl rfl rfl)

theorem createJob_plain (db : Database) (tenant actor : String) (document version : ℕ)
    (override : Option LLMProviderSettings) (createdAt : ℕ) :
    PlainWrite db (db.createJob tenant actor document version override createdAt) := by
  have hinsert : PlainWrite db
      { db with
        extractionJobs := db.extractionJobs.insert
          { tenantId := tenant, documentId := document, templateVersionId := version,
            providerOverride := override, progressStage := some .queued, progressPct := 0,
            createdAt := createdAt } } := by
    refine plainWrite_insertJob fun h => ?_
    cases h
  exact hinsert.trans (plainWrite_of_eq rfl rfl rfl rfl)

theorem createTemplate_plain (db : Database) (name description documentType : String)
    (definition : ExtractionTemplate) (tenant : String) (createdAt : ℕ) :
    PlainWrite db
      (db.createTemplate name description documentType definition tenant createdAt) := by
  have htemplate : PlainWrite db
      { db with
        templates := db.templates.insert
          { tenantId := tenant, name := name, description := description,
            documentType := documentType } } := plainWrite_of_eq rfl rfl rfl rfl
  exact htemplate.trans (plainWrite_insertVersion _)

theorem setSuggestionDismissed_plain {db db' : Database} {versionId id : ℕ}
    {version : TemplateVersion} {key : String} {dismissed : Bool}
    (h : db.setSuggestionDismissed versionId version key dismissed = some (db', id)) :
    PlainWrite db db' := by
  unfold Database.setSuggestionDismissed at h
  split at h
  · obtain ⟨rfl, -⟩ := Prod.mk.inj (Option.some.inj h)
    exact plainWrite_of_eq rfl rfl rfl rfl
  · split at h
    · obtain ⟨rfl, -⟩ := Prod.mk.inj (Option.some.inj h)
      exact plainWrite_of_eq rfl rfl rfl rfl
    · cases h

/-- A review finds the template version of the job of its result, if any. -/
theorem definition_of_templateVersionOf {db : Database} {result : ExtractionResult}
    {row : ExtractionJob} {version v : TemplateVersion}
    (hrow : db.extractionJobs.get result.jobId = some row)
    (hversion : db.templateVersions.get row.templateVersionId = some version)
    (h : db.templateVersionOf result = some v) : v.definition = version.definition := by
  unfold Database.templateVersionOf at h
  rw [hrow] at h
  simp only at h
  split at h
  · obtain ⟨hv, -⟩ := Option.filter_eq_some_iff.mp h
    rw [Option.some.inj (hv.symm.trans hversion)]
  · cases h

/-- **The commit of a request** keeps the results as they should be. -/
theorem commitCall_fit {db db' : Database} {files files' : ExportFiles} {now : UtcTime}
    {createdAt : ℕ} {call : Call} {rows : List TenantRow} (hfit : ResultsFit db)
    (hreview : ∀ q, call = .review q → ReviewFits db q)
    (h : db.commitCall cfg files now createdAt call = some (db', files', rows)) :
    ResultsFit db' ∧ KeepsLinks db db' := by
  have hplain : ∀ {db'' : Database}, PlainWrite db db'' → ResultsFit db'' ∧ KeepsLinks db db'' :=
    fun hplain => ⟨hfit.plain hplain, hplain.links⟩
  cases call with
  | createTemplateVersion templateId template definition =>
    obtain ⟨rfl, -⟩ := Prod.mk.inj (Option.some.inj h)
    exact hplain (plainWrite_insertVersion _)
  | review q =>
    simp only [Database.commitCall] at h
    split at h
    · next db₁ hcommit =>
      obtain ⟨⟨summary, edits⟩, hout, hcommit⟩ := Failing.bind_ok.mp hcommit
      obtain rfl := Except.ok.inj hcommit
      obtain ⟨rfl, -⟩ := Prod.mk.inj (Option.some.inj h)
      -- The row may have been rewritten since it was read, but the version of its job is still the
      -- one the review was computed from.
      obtain ⟨row, hrow, hjob, job, version, hget, hversion, hloaded⟩ := hreview q rfl
      obtain ⟨hsummary, hnamed⟩ := reviewOutcome_fits hloaded
        (fun v hv => definition_of_templateVersionOf hget hversion hv) hout
      obtain ⟨fields, recalculated, hedits, -⟩ := reviewOutcome_spec hout
      refine commitReview_fit hfit hrow ?_ fun e he => ?_
      · rw [hjob]
        exact ⟨job, version, hget, hversion, hsummary⟩
      · -- the row of an edit is about the result of the review
        have hresult := (applyEdits_rows hedits e he).1
        exact ⟨row, job, version, hresult ▸ hrow, hjob ▸ hget, hversion, hnamed e he⟩
    · cases h
  | exportResult resultId loaded format =>
    simp only [Database.commitCall] at h
    split at h
    · next db₁ files₁ hexport =>
      obtain ⟨-, bytes, -, rfl⟩ := exportResult_spec hexport
      obtain ⟨rfl, -⟩ := Prod.mk.inj (Option.some.inj h)
      exact hplain (plainWrite_of_eq rfl rfl rfl rfl)
    · cases h
  | dismissSuggestion versionId version key dismissed =>
    obtain ⟨⟨db₁, id⟩, hset, heq⟩ := Option.map_eq_some_iff.mp h
    obtain ⟨rfl, -⟩ := Prod.mk.inj heq
    exact hplain (setSuggestionDismissed_plain hset)

/-- What a review loads it finds in the table. -/
theorem reviewFits_of_readCall {db : Database} {tenant : String} {operation : Operation}
    {q : ReviewRequest} (hfit : ResultsFit db)
    (h : db.readCall tenant operation = some (.review q)) : ReviewFits db q := by
  cases operation with
  | createTemplateVersion templateId definition =>
    obtain ⟨template, -, heq⟩ := Option.map_eq_some_iff.mp h
    cases heq
  | review resultId payload =>
    simp only [Database.readCall] at h
    split at h
    · obtain ⟨loaded, hfind, heq⟩ := Option.map_eq_some_iff.mp h
      obtain rfl := Call.review.inj heq
      obtain ⟨hget, -⟩ := owned_of_findOwned hfind
      exact ⟨loaded, hget, rfl, hfit.results resultId loaded hget⟩
    · cases h
  | exportResult resultId format =>
    obtain ⟨loaded, -, heq⟩ := Option.map_eq_some_iff.mp h
    cases heq
  | dismissSuggestion versionId key dismissed =>
    obtain ⟨version, -, heq⟩ := Option.map_eq_some_iff.mp h
    cases heq

/-- What workers and requests hold survives a write that keeps the links. -/
theorem FitInv.setDb (hs : FitInv s) {db' : Database} (hfit : ResultsFit db')
    (hkeeps : KeepsLinks s.db db') (htenants : TenantInv (s.setDb db')) : FitInv (s.setDb db') :=
  ⟨htenants, hfit, fun w j pc summary hw hsummary => (hs.workers w j pc summary hw hsummary).keeps
    hkeeps, fun r tenant q hcall => (hs.reviews r tenant q hcall).keeps hkeeps⟩

/-- **Every step keeps the invariant**, if the summaries the extraction returns fit their jobs. -/
theorem fitInv_step (hs : FitInv s) {act : TenantAct} {rows : List TenantRow}
    (hok : ExtractionsReturn s act) (h : respond cfg s act = some (t, rows)) : FitInv t := by
  have htenants : TenantInv t := (tenantInv_step hs.tenants h).1
  -- an ended or a new call is the only change of the calls
  have hended : ∀ {r r' : ℕ} {tenant : String} {q : ReviewRequest},
      Function.update s.calls r none r' = some (tenant, .review q) →
        s.calls r' = some (tenant, .review q) := by
    intro r r' tenant q hcall
    by_cases hr : r' = r
    · rw [hr, Function.update_self] at hcall
      cases hcall
    · rwa [Function.update_of_ne hr] at hcall
  cases act with
  | worker w act =>
    obtain ⟨queue, hstep, heq⟩ := Option.map_eq_some_iff.mp h
    obtain ⟨rfl, -⟩ := Prod.mk.inj heq
    exact fitInv_worker hs hok hstep htenants
  | jobs act =>
    obtain ⟨queue, hstep, heq⟩ := Option.map_eq_some_iff.mp h
    obtain ⟨rfl, -⟩ := Prod.mk.inj heq
    have hworkers : queue.workers = s.queue.workers := by
      cases apiMove_of_step hstep <;> rfl
    have hplain : PlainWrite s.db queue.db := by
      cases apiMove_of_step hstep with
      | create tenant actor document version override createdAt _ =>
        exact createJob_plain s.db tenant actor document version override createdAt
      | readRetry _ _ _ _ _ _ _ => exact .refl s.db
      | readCancel _ _ _ _ _ _ _ => exact .refl s.db
      | commit r actor q _ _ => exact commitRequest_plain s.db q actor
      | abandon r => exact .refl s.db
    refine ⟨htenants, hs.fits.plain hplain, fun w j pc summary hw hsummary => ?_, ?_⟩
    · have hw : queue.workers w = .busy j pc := hw
      rw [hworkers] at hw
      exact (hs.workers w j pc summary hw hsummary).keeps hplain.links
    · exact fun r tenant q hcall => (hs.reviews r tenant q hcall).keeps hplain.links
  | createTemplate tenant name description documentType definition createdAt =>
    simp only [respond] at h
    split at h
    · obtain ⟨rfl, -⟩ := Prod.mk.inj (Option.some.inj h)
      have hplain := createTemplate_plain s.db name description documentType definition tenant
        createdAt
      exact hs.setDb (hs.fits.plain hplain) hplain.links htenants
    · cases h
  | upload tenant actor filename contentType reference =>
    simp only [respond] at h
    split at h
    · cases h
    · obtain ⟨rfl, -⟩ := Prod.mk.inj (Option.some.inj h)
      have hplain : PlainWrite s.db
          (s.db.uploadDocument tenant actor filename contentType reference) :=
        plainWrite_of_eq rfl rfl rfl rfl
      exact hs.setDb (hs.fits.plain hplain) hplain.links htenants
  | start r tenant operation =>
    simp only [respond] at h
    split at h
    · next call _ hcall =>
      obtain ⟨rfl, -⟩ := Prod.mk.inj (Option.some.inj h)
      refine ⟨htenants, hs.fits, hs.workers, fun r' tenant' q hcall' => ?_⟩
      dsimp only at hcall'
      by_cases hr : r' = r
      · rw [hr, Function.update_self] at hcall'
        obtain ⟨rfl, rfl⟩ := Prod.mk.inj (Option.some.inj hcall')
        exact reviewFits_of_readCall hs.fits hcall
      · rw [Function.update_of_ne hr] at hcall'
        exact hs.reviews r' tenant' q hcall'
    · cases h
  | finish r now createdAt =>
    obtain ⟨⟨tenant, call⟩, hcall, h⟩ := Option.bind_eq_some_iff.mp h
    obtain ⟨⟨db', files', rows'⟩, hcommit, heq⟩ := Option.map_eq_some_iff.mp h
    obtain ⟨rfl, -⟩ := Prod.mk.inj heq
    obtain ⟨hfit, hkeeps⟩ := commitCall_fit hs.fits (fun q hq => hs.reviews r tenant q (hq ▸ hcall))
      hcommit
    refine ⟨htenants, hfit, fun w j pc summary hw hsummary => ?_, fun r' tenant' q hcall' => ?_⟩
    · exact (hs.workers w j pc summary hw hsummary).keeps hkeeps
    · exact (hs.reviews r' tenant' q (hended hcall')).keeps hkeeps
  | abandon r =>
    obtain ⟨rfl, -⟩ := Prod.mk.inj (Option.some.inj h)
    exact ⟨htenants, hs.fits, hs.workers,
      fun r' tenant' q hcall' => hs.reviews r' tenant' q (hended hcall')⟩
  | ask tenant query =>
    obtain ⟨rfl, -⟩ := Prod.mk.inj (Option.some.inj h)
    exact hs

end Steps

/-! ### Every run -/

theorem fitInv_empty : FitInv {} := by
  refine ⟨tenantInv_empty, ⟨?_, ?_, ?_, fun _ => Nat.zero_le _⟩, ?_, ?_⟩
  · intro id row h
    cases h
  · intro id e h
    cases h
  · intro j row h
    cases h
  · intro w j pc summary h
    cases h
  · intro r tenant q h
    cases h

/-- **The stored results** on every interleaving of workers and requests, when what workers
store was returned by an extraction for their job: each fits the template version of its job,
each edit is one of a field of that version, and each completed job has exactly one result. -/
theorem stored_results_of_run (cfg : TenantConfig) {acts : List TenantAct} {s : TenantState}
    (h : Run (tenantStep cfg) ExtractionsReturn {} acts s) :
    (∀ id row, s.db.extractionResults.get id = some row →
      FitsJob s.db row.jobId row.resultJson) ∧
    (∀ id e, s.db.reviewEdits.get id = some e → EditFits s.db e) ∧
    ∀ j row, s.db.extractionJobs.get j = some row → row.status = .completed →
      ∃ id result, s.db.resultsOf j = [(id, result)] := by
  have hs : FitInv s := by
    refine h.invariant (fun u act v hu hok hstep => ?_) fitInv_empty
    obtain ⟨⟨v', rows⟩, hrespond, rfl⟩ := Option.map_eq_some_iff.mp hstep
    exact fitInv_step hu hok hrespond
  refine ⟨hs.fits.results, hs.fits.edits, fun j row hrow hstatus => ?_⟩
  have hsome := hs.fits.completed j row hrow hstatus
  have hsingle := hs.fits.single j
  obtain ⟨p, hp⟩ := List.length_eq_one_iff.mp
    (Nat.le_antisymm hsingle (List.length_pos_iff.mpr hsome))
  exact ⟨p.1, p.2, hp⟩

/-! ### A job from its upload to its result -/

/-- The action is the return of an extraction. -/
def TenantAct.extracts : TenantAct → Bool
  | .worker _ (.extracted _) => true
  | _ => false

theorem extractionsReturn_of_not_extracts {act : TenantAct} (h : act.extracts = false)
    (s : TenantState) : ExtractionsReturn s act := by
  unfold ExtractionsReturn
  split
  · cases h
  · trivial

/-- The actions up to the extraction: a worker that reports four stages. -/
def upToExtraction : List TenantAct :=
  [.createTemplate "default" "Invoice" "" "invoice" vendorTemplate 0,
    .upload "default" "ann" "a.txt" "text/plain" "uploads/a.txt",
    .jobs (.createJob "default" "ann" 1 1 none 2), .worker 0 .next, .worker 0 (.select (some 1))] ++
  List.replicate 7 (.worker 0 .next) ++
  [.worker 0 (.parsed "texts/a.txt"), .worker 0 .next, .worker 0 .next] ++
  List.replicate 8 (.worker 0 .next)

/-- The vendor is not found. -/
def vendorMissing : ExtractionValidationSummary :=
  { emptySummary with
    extractedFields :=
      [{ fieldName := "vendor", label := "Vendor", dataType := .text, confidenceScore := .fin 0,
         validationStatus := .invalid, validationErrors := ["Citation evidence is required."],
         extractionNotes := "Provider response did not include this schema field.",
         requiresReview := true }]
    fieldsRequiringReview := ["vendor"] }

/-- The extraction returns, and the worker completes the job. -/
def fromExtraction : List TenantAct :=
  [.worker 0 (.extracted vendorMissing), .worker 0 .next, .worker 0 .next]

/-- A reviewer enters the vendor. -/
def reviewOfVendor : List TenantAct :=
  [.start 7 "default" (.review 1 vendorReview), .finish 7 .epoch 3]

/-- The completed job has one result, which fits its template, and the edit is of its field. -/
theorem stored_results_of_run_invoice :
    ∃ s, exec (tenantStep localConfig) {} (upToExtraction ++ (fromExtraction ++ reviewOfVendor)) =
        some s ∧
      (∃ id result, s.db.resultsOf 1 = [(id, result)] ∧
        FitsJob s.db result.jobId result.resultJson) ∧
      ∃ id e, s.db.reviewEdits.get id = some e ∧ e.newValue = .str "Acme Corp" ∧ EditFits s.db e := by
  have hsteps : ∃ s t, exec (tenantStep localConfig) {} upToExtraction = some s ∧
      exec (tenantStep localConfig) s (fromExtraction ++ reviewOfVendor) = some t ∧
      s.queue.workers 0 = .busy 1 (.extract none []) ∧
      (∃ row, s.db.extractionJobs.get 1 = some row ∧ row.documentId = 1 ∧
        row.templateVersionId = 1 ∧ row.providerOverride = none) ∧
      (∃ version, s.db.templateVersions.get 1 = some version ∧
        version.definition = vendorTemplate) ∧
      (∃ row, t.db.extractionJobs.get 1 = some row ∧ row.status = .completed) ∧
      ∃ e, t.db.reviewEdits.get 1 = some e ∧ e.newValue = .str "Acme Corp" :=
    ⟨_, _, rfl, rfl, rfl, ⟨_, rfl, rfl, rfl, rfl⟩, ⟨_, rfl, rfl⟩, ⟨_, rfl, rfl⟩, _, rfl, rfl⟩
  obtain ⟨s, t, hfirst, hsecond, hworker, ⟨row, hrow, hdocument, hlink, hoverride⟩,
    ⟨version, hversion, hdefinition⟩, ⟨completed, hcompleted, hstatus⟩, e, he, hvalue⟩ := hsteps
  obtain ⟨u, hextracted, hlast⟩ := Option.bind_eq_some_iff.mp hsecond
  -- the summary is the one the extraction of this job returns
  have hok : ExtractionsReturn s (.worker 0 (.extracted vendorMissing)) := by
    intro j loaded row' version' hw hrow' hversion'
    obtain ⟨rfl, -⟩ := Phase.busy.inj (hworker.symm.trans hw)
    obtain rfl := Option.some.inj (hrow.symm.trans hrow')
    rw [hlink] at hversion'
    obtain rfl := Option.some.inj (hversion.symm.trans hversion')
    refine ⟨silentWorld, flakyChat, {}, "a.txt", "Total", ?_⟩
    rw [hdocument, hoverride, hdefinition]
    rfl
  have hquiet : ∀ acts : List TenantAct, acts.all (fun act => !act.extracts) = true →
      ∀ act ∈ acts, ∀ s, ExtractionsReturn s act := by
    intro acts hacts act hact
    exact extractionsReturn_of_not_extracts (by simpa using List.all_eq_true.mp hacts act hact)
  have hrun : Run (tenantStep localConfig) ExtractionsReturn {}
      (upToExtraction ++ (fromExtraction ++ reviewOfVendor)) t :=
    (run_of_exec_of_forall upToExtraction _ _ (hquiet _ rfl) hfirst).append
      (.cons hextracted hok (run_of_exec_of_forall _ _ _ (hquiet _ rfl) hlast))
  obtain ⟨hresults, hedits, hone⟩ := stored_results_of_run localConfig hrun
  obtain ⟨id, result, hresult⟩ := hone 1 completed hcompleted hstatus
  have hmem : (id, result) ∈ t.db.resultsOf 1 := hresult ▸ List.mem_singleton_self _
  have hget : t.db.extractionResults.get id = some result := get_of_mem (mem_select.mp hmem).1
  exact ⟨t, hrun.exec_eq, ⟨id, result, hresult, hresults id result hget⟩, 1, e, he, hvalue,
    hedits 1 e he⟩

end ExtractFlow
