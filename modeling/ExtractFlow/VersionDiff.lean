import ExtractFlow.CalculationLocality
import ExtractFlow.Reconcile

/-!
# Template version diffs

`diff_template_definitions` (`shared/extraction_core/template_diff.py`) compares
two definitions by the names of their fields and by some of the attributes of the
fields both have, with Python's `!=`.

The pipeline reads more attributes than the diff: validation rules, policies, the
output currency, review flags and the confidence threshold.  Two versions that
the diff does not tell apart give the same results when these agree as well.

## Main definitions

* `describeFieldChange`, `describeCalculatedChange`, `diffTemplateDefinitions` — the diff.
* `runTemplate` — reconciliation and calculation under a template.
* `SameOutcome` — the same values, statuses and flags, field by field.
* `IgnoredAlike` — the attributes that the diff ignores and the pipeline reads agree.

## Main results

* `sameListed_of_reportsNothing` — what an empty diff says of the fields.
* `reconcileField_alike`, `HasResult.alike` — one field under both versions.
* `empty_diff_same_outcome` — both runs, when the ignored attributes agree.
* `empty_diff_hides_null_rule` — a null rule the diff ignores changes a status.
-/

namespace ExtractFlow

/-! ### The diff -/

structure TemplateFieldChange where
  name : String
  change : String
  details : List String
  deriving Repr

structure TemplateVersionDiff where
  beforeVersion : String
  afterVersion : String
  extractedAdded : List String
  extractedRemoved : List String
  extractedChanged : List TemplateFieldChange
  calculatedAdded : List String
  calculatedRemoved : List String
  calculatedChanged : List TemplateFieldChange
  langextractChanged : Bool
  deriving Repr

/-- The diff reports nothing. -/
def TemplateVersionDiff.reportsNothing (d : TemplateVersionDiff) : Bool :=
  d.extractedAdded.isEmpty && d.extractedRemoved.isEmpty && d.extractedChanged.isEmpty &&
    d.calculatedAdded.isEmpty && d.calculatedRemoved.isEmpty && d.calculatedChanged.isEmpty &&
    !d.langextractChanged

/-- `str(b)`. -/
def pyBool (b : Bool) : String := if b then "True" else "False"

/-- `TemplateFieldChange`, when there are details. -/
def fieldChange (name : String) (details : List String) : Option TemplateFieldChange :=
  if details.isEmpty then none else some { name := name, change := "modified", details := details }

/-- `before.field_schema != after.field_schema`. -/
def schemasDiffer (py : Python) : Option PyVal → Option PyVal → Bool
  | some a, some b => !py.eq a b
  | none, none => false
  | _, _ => true

/-- `describe_field_change`: one line of detail for each attribute that changed, in the order in
which the code compares them. -/
def describeFieldChange (py : Python) (name : String)
    (before after : ExtractionFieldDefinition) : Option TemplateFieldChange :=
  fieldChange name <|
    (if before.label ≠ after.label then
      [s!"label: {pyRepr before.label} -> {pyRepr after.label}"] else []) ++
    (if before.type ≠ after.type then
      [s!"type: {before.type.value} -> {after.type.value}"] else []) ++
    (if before.required ≠ after.required then
      [s!"required: {pyBool before.required} -> {pyBool after.required}"] else []) ++
    (if before.citationRequired ≠ after.citationRequired then
      [s!"citation_required: {pyBool before.citationRequired} -> {pyBool after.citationRequired}"]
      else []) ++
    (if before.allowedValues ≠ after.allowedValues then ["allowed_values updated"] else []) ++
    if schemasDiffer py before.fieldSchema after.fieldSchema then ["field_schema updated"] else []

/-- `describe_calculated_change`: the formula, the declared dependencies and the output type, and
nothing of the field's rules. -/
def describeCalculatedChange (name : String) (before after : CalculatedFieldDefinition) :
    Option TemplateFieldChange :=
  fieldChange name <|
    (if before.formula ≠ after.formula then
      [s!"formula: {pyRepr before.formula} -> {pyRepr after.formula}"] else []) ++
    (if before.dependsOn ≠ after.dependsOn then
      [s!"depends_on: {pyReprList before.dependsOn} -> {pyReprList after.dependsOn}"] else []) ++
    if before.outputType ≠ after.outputType then
      [s!"output_type: {before.outputType.value} -> {after.outputType.value}"] else []

/-- `sorted(set(a) - set(b))`. -/
def namesWithout (a b : List String) : List String := sortedNames (a.filter (· ∉ b))

/-- The changes of the fields both versions have, by name; of several fields of one name
the last counts. -/
def changedFields {α : Type} (name : α → String) (describe : String → α → α →
    Option TemplateFieldChange) (before after : List α) : List TemplateFieldChange :=
  (sortedNames ((before.map name).filter (· ∈ after.map name))).filterMap fun n =>
    match before.reverse.find? (fun f => name f == n),
        after.reverse.find? (fun f => name f == n) with
    | some b, some a => describe n b a
    | _, _ => none

/-- The lists have the same length and equal elements. -/
def equalLists {α : Type} (equal : α → α → Bool) (as bs : List α) : Bool :=
  as.length == bs.length && (as.zip bs).all fun p => equal p.1 p.2

/-- `before.langextract_config != after.langextract_config`. -/
def configsDiffer (py : Python) : Option LangExtractConfig → Option LangExtractConfig → Bool
  | some a, some b =>
      !(a.promptDescription == b.promptDescription &&
        equalLists (fun x y : LangExtractExample => x.text == y.text &&
          equalLists (fun e f : LangExtractExampleExtraction =>
            e.extractionClass == f.extractionClass && e.extractionText == f.extractionText &&
              py.eq (.dict e.attributes) (.dict f.attributes)) x.extractions y.extractions)
          a.examples b.examples)
  | none, none => false
  | _, _ => true

/-- The diff of two templates. -/
def diffTemplates (py : Python) (before after : ExtractionTemplate) : TemplateVersionDiff :=
  let extracted := ExtractionFieldDefinition.name
  let calculated := CalculatedFieldDefinition.name
  { beforeVersion := before.templateVersion
    afterVersion := after.templateVersion
    extractedAdded :=
      namesWithout (after.extractedFields.map extracted) (before.extractedFields.map extracted)
    extractedRemoved :=
      namesWithout (before.extractedFields.map extracted) (after.extractedFields.map extracted)
    extractedChanged := changedFields extracted (describeFieldChange py) before.extractedFields
      after.extractedFields
    calculatedAdded :=
      namesWithout (after.calculatedFields.map calculated) (before.calculatedFields.map calculated)
    calculatedRemoved :=
      namesWithout (before.calculatedFields.map calculated) (after.calculatedFields.map calculated)
    calculatedChanged := changedFields calculated describeCalculatedChange before.calculatedFields
      after.calculatedFields
    langextractChanged := configsDiffer py before.langextractConfig after.langextractConfig }

/-- `diff_template_definitions`: both definitions are validated first, so the diff of a template
that is not accepted raises. -/
def diffTemplateDefinitions (py : Python) (sets : SetOrder) (checkSchema : PyVal → Option String)
    (before after : ExtractionTemplate) : Except PyErr TemplateVersionDiff := do
  validateTemplate (py.engine sets) checkSchema before
  validateTemplate (py.engine sets) checkSchema after
  return diffTemplates py before after

/-! ### What an empty diff says -/

/-- Two lists of fields with the same names, `same` at every name. -/
structure SameListed {α : Type} (name : α → String) (same : α → α → Prop) (before after : List α) :
    Prop where
  names : ∀ n, n ∈ before.map name ↔ n ∈ after.map name
  fields : ∀ b ∈ before, ∀ a ∈ after, name a = name b → same b a

theorem namesWithout_eq_nil {a b : List String} (h : namesWithout a b = []) :
    ∀ n ∈ a, n ∈ b := by
  intro n hn
  by_contra hno
  have hmem : n ∈ namesWithout a b :=
    mem_sortedNames.mpr (List.mem_filter.mpr ⟨hn, by simpa using hno⟩)
  rw [h] at hmem
  cases hmem

theorem changedFields_eq_nil {α : Type} {name : α → String}
    {describe : String → α → α → Option TemplateFieldChange} {before after : List α}
    (hbefore : (before.map name).Nodup) (hafter : (after.map name).Nodup)
    (h : changedFields name describe before after = []) :
    ∀ b ∈ before, ∀ a ∈ after, name a = name b → describe (name b) b a = none := by
  intro b hb a ha hname
  have hmem : name b ∈ sortedNames ((before.map name).filter (· ∈ after.map name)) := by
    refine mem_sortedNames.mpr (List.mem_filter.mpr ⟨List.mem_map_of_mem hb, ?_⟩)
    rw [decide_eq_true_eq, ← hname]
    exact List.mem_map_of_mem ha
  have hnone := List.filterMap_eq_nil_iff.mp h (name b) hmem
  have hfind : (after.reverse.find? fun f => name f == name b) = some a := by
    rw [← hname]
    exact Keyed.find?_reverse_eq hafter ha
  rw [Keyed.find?_reverse_eq hbefore hb, hfind] at hnone
  exact hnone

/-- What the diff compares of an extracted field is the same in both versions. -/
structure FieldCompared (py : Python) (b a : ExtractionFieldDefinition) : Prop where
  label : b.label = a.label
  type : b.type = a.type
  required : b.required = a.required
  citationRequired : b.citationRequired = a.citationRequired
  allowedValues : b.allowedValues = a.allowedValues
  schemas : schemasDiffer py b.fieldSchema a.fieldSchema = false

theorem fieldChange_eq_none {name : String} {details : List String}
    (h : fieldChange name details = none) : details = [] := by
  unfold fieldChange at h
  split at h
  · next hempty => exact List.isEmpty_iff.mp hempty
  · cases h

theorem ite_singleton_eq_nil {c : Prop} [Decidable c] {s : String}
    (h : (if c then [s] else []) = []) : ¬ c := by
  intro hc
  rw [if_pos hc] at h
  cases h

theorem fieldCompared_of_describe {py : Python} {name : String} {b a : ExtractionFieldDefinition}
    (h : describeFieldChange py name b a = none) : FieldCompared py b a := by
  have hdetails := fieldChange_eq_none h
  simp only [List.append_eq_nil_iff] at hdetails
  obtain ⟨⟨⟨⟨⟨hlabel, htype⟩, hrequired⟩, hcitation⟩, hallowed⟩, hschemas⟩ := hdetails
  refine ⟨?_, ?_, ?_, ?_, ?_, ?_⟩
  · exact not_not.mp (ite_singleton_eq_nil hlabel)
  · exact not_not.mp (ite_singleton_eq_nil htype)
  · exact not_not.mp (ite_singleton_eq_nil hrequired)
  · exact not_not.mp (ite_singleton_eq_nil hcitation)
  · exact not_not.mp (ite_singleton_eq_nil hallowed)
  · exact Bool.eq_false_iff.mpr (ite_singleton_eq_nil hschemas)

/-- What the diff compares of a calculated field is the same in both versions. -/
structure CalculatedCompared (b a : CalculatedFieldDefinition) : Prop where
  formula : b.formula = a.formula
  dependsOn : b.dependsOn = a.dependsOn
  outputType : b.outputType = a.outputType

theorem calculatedCompared_of_describe {name : String} {b a : CalculatedFieldDefinition}
    (h : describeCalculatedChange name b a = none) : CalculatedCompared b a := by
  have hdetails := fieldChange_eq_none h
  simp only [List.append_eq_nil_iff] at hdetails
  obtain ⟨⟨hformula, hdepends⟩, houtput⟩ := hdetails
  refine ⟨?_, ?_, ?_⟩
  · exact not_not.mp (ite_singleton_eq_nil hformula)
  · exact not_not.mp (ite_singleton_eq_nil hdepends)
  · exact not_not.mp (ite_singleton_eq_nil houtput)

/-- **What an empty diff says of the fields**: the same names, and at each name the
attributes it compares. -/
theorem sameListed_of_reportsNothing {py : Python} {before after : ExtractionTemplate}
    (hbefore : Accepted py before) (hafter : Accepted py after)
    (h : (diffTemplates py before after).reportsNothing = true) :
    SameListed ExtractionFieldDefinition.name (FieldCompared py) before.extractedFields
        after.extractedFields ∧
      SameListed CalculatedFieldDefinition.name CalculatedCompared before.calculatedFields
        after.calculatedFields := by
  unfold TemplateVersionDiff.reportsNothing at h
  simp only [Bool.and_eq_true, List.isEmpty_iff] at h
  obtain ⟨⟨⟨⟨⟨⟨hadded, hremoved⟩, hchanged⟩, hadded'⟩, hremoved'⟩, hchanged'⟩, -⟩ := h
  have hnodup := List.nodup_append.mp hbefore.nodup
  have hnodup' := List.nodup_append.mp hafter.nodup
  refine ⟨⟨fun n => ⟨namesWithout_eq_nil hremoved n, namesWithout_eq_nil hadded n⟩, ?_⟩,
    ⟨fun n => ⟨namesWithout_eq_nil hremoved' n, namesWithout_eq_nil hadded' n⟩, ?_⟩⟩
  · intro b hb a ha hname
    exact fieldCompared_of_describe
      (changedFields_eq_nil hnodup.1 hnodup'.1 hchanged b hb a ha hname)
  · intro b hb a ha hname
    exact calculatedCompared_of_describe
      (changedFields_eq_nil hnodup.2.1 hnodup'.2.1 hchanged' b hb a ha hname)

/-! ### What the diff ignores -/

/-- The currency of an amount. -/
def outputCurrency (d : CalculatedFieldDefinition) : String :=
  let declared := (d.format.bind FormatRule.currency).getD ""
  if declared = "" then "USD" else declared

/-- What the pipeline reads of an extracted field beyond what the diff compares: the null
rule, unless the field is required, and the checks of the pattern, of the length and of the
schema.  Schemas that are equal to Python, as `1` and `True` are, may differ to the schema
library. -/
structure FieldIgnoredAlike (lib : FieldLibrary) (num : PyNumeric)
    (b a : ExtractionFieldDefinition) : Prop where
  allowNull : b.required = false → b.validation.allowNull = a.validation.allowNull
  pattern : ∀ v, checkPattern lib num a.validation v = checkPattern lib num b.validation v
  maxLength : ∀ v, checkMaxLength num a.validation v = checkMaxLength num b.validation v
  schema : ∀ v, checkFieldSchema lib a v = checkFieldSchema lib b v

/-- What the pipeline reads of a calculated field and the diff ignores is the same in both versions:
its rules, its error handling, its review flag and, of an amount, its currency. -/
structure CalculatedIgnoredAlike (b a : CalculatedFieldDefinition) : Prop where
  currency : b.outputType = .currency → outputCurrency b = outputCurrency a
  allowNull : b.validation.allowNull = a.validation.allowNull
  min : b.validation.min = a.validation.min
  max : b.validation.max = a.validation.max
  onDivideByZero : b.errorHandling.onDivideByZero = a.errorHandling.onDivideByZero
  onMissingInput : b.errorHandling.onMissingInput = a.errorHandling.onMissingInput
  requiresReview : b.requiresReview = a.requiresReview

/-- The attributes that the pipeline reads and the diff ignores agree, of the template and of every
two fields of one name. -/
structure IgnoredAlike (lib : FieldLibrary) (num : PyNumeric) (before after : ExtractionTemplate) :
    Prop where
  review : before.reviewRequiredOnLowConfidence = after.reviewRequiredOnLowConfidence
  threshold : before.reviewRequiredOnLowConfidence = true →
    before.minimumConfidenceThreshold = after.minimumConfidenceThreshold
  extracted : ∀ b ∈ before.extractedFields, ∀ a ∈ after.extractedFields, a.name = b.name →
    FieldIgnoredAlike lib num b a
  calculated : ∀ b ∈ before.calculatedFields, ∀ a ∈ after.calculatedFields, a.name = b.name →
    CalculatedIgnoredAlike b a

/-! ### One extracted field under both versions -/

/-- A result but for the texts of its errors. -/
def ExtractionFieldResult.withoutErrors (r : ExtractionFieldResult) : ExtractionFieldResult :=
  { r with validationErrors := [] }

theorem withoutErrors_eq {r r' : ExtractionFieldResult} (h : r'.withoutErrors = r.withoutErrors) :
    ∃ errors, r' = { r with validationErrors := errors } := by
  refine ⟨r'.validationErrors, ?_⟩
  unfold ExtractionFieldResult.withoutErrors at h
  simp only [ExtractionFieldResult.mk.injEq] at h
  obtain ⟨h₁, h₂, h₃, h₄, h₅, h₆, h₇, h₈, h₉, h₁₀, h₁₁, h₁₂, -, h₁₃, h₁₄⟩ := h
  cases r'
  simp_all

section Extracted

variable {py : Python} {lib : FieldLibrary} {num : PyNumeric} {b a : ExtractionFieldDefinition}

theorem isEmpty_append {α : Type} (xs ys : List α) :
    (xs ++ ys).isEmpty = (xs.isEmpty && ys.isEmpty) := by
  cases xs <;> rfl

/-- A missing value of a required field is an error whatever the null rule says. -/
theorem missingErrors_alike (hcompared : FieldCompared py b a) (h : FieldIgnoredAlike lib num b a)
    (v : PyVal) : (missingErrors a v).isEmpty = (missingErrors b v).isEmpty := by
  unfold missingErrors
  rw [← hcompared.required]
  cases hrequired : b.required with
  | false => rw [h.allowNull hrequired]
  | true => cases v.isNone <;> simp

theorem validateExtractedField_alike (hcompared : FieldCompared py b a)
    (h : FieldIgnoredAlike lib num b a) (r : ExtractionFieldResult) :
    (validateExtractedField lib num a r).map ExtractionFieldResult.withoutErrors =
      (validateExtractedField lib num b r).map ExtractionFieldResult.withoutErrors := by
  have hallowed : checkAllowedValues lib a r = checkAllowedValues lib b r := by
    unfold checkAllowedValues
    rw [hcompared.allowedValues]
  unfold validateExtractedField
  simp only [hallowed, h.schema, h.pattern, h.maxLength]
  cases checkFieldSchema lib b (checkAllowedValues lib b r).1.normalizedValue with
  | error e => rfl
  | ok schema =>
    rw [Failing.bind_of_ok rfl, Failing.bind_of_ok rfl]
    cases checkPattern lib num b.validation (checkAllowedValues lib b r).1.extractedValue with
    | error e => rfl
    | ok pattern =>
      rw [Failing.bind_of_ok rfl, Failing.bind_of_ok rfl]
      -- the errors are empty under both definitions or under neither
      have hempty : ∀ more : List String,
          (missingErrors a r.normalizedValue ++ more).isEmpty =
            (missingErrors b r.normalizedValue ++ more).isEmpty := by
        intro more
        rw [isEmpty_append, isEmpty_append, missingErrors_alike hcompared h]
      simp only [pure, Except.pure, Except.map, ExtractionFieldResult.withoutErrors,
        List.append_assoc, hempty]

/-- A step that does not read the texts of the errors. -/
def Blind (f : ExtractionFieldResult → ExtractionFieldResult) : Prop :=
  ∀ r r', r'.withoutErrors = r.withoutErrors → (f r').withoutErrors = (f r).withoutErrors

theorem requireCitation_blind (d : ExtractionFieldDefinition) : Blind (requireCitation d) := by
  intro r r' h
  obtain ⟨errors, rfl⟩ := withoutErrors_eq h
  unfold requireCitation
  cases d.citationRequired && r.sourceText == "" <;> rfl

theorem flagLowConfidence_blind (rule : ConfidenceRule) : Blind (flagLowConfidence lib rule) := by
  intro r r' h
  obtain ⟨errors, rfl⟩ := withoutErrors_eq h
  unfold flagLowConfidence
  cases rule.reviewRequiredOnLowConfidence && !r.normalizedValue.isNone &&
    r.confidenceScore.lt rule.minimumConfidenceThreshold <;> rfl

/-- Without the review rule the threshold is not read. -/
theorem flagLowConfidence_alike {before after : ExtractionTemplate}
    (h : IgnoredAlike lib num before after) :
    flagLowConfidence lib after.confidenceRule = flagLowConfidence lib before.confidenceRule := by
  unfold ExtractionTemplate.confidenceRule
  rw [← h.review]
  cases hreview : before.reviewRequiredOnLowConfidence with
  | true => rw [h.threshold hreview]
  | false =>
    funext r
    simp [flagLowConfidence]

/-- **The turn of an extracted field is the same under both versions**, but for the texts of
the errors. -/
theorem reconcileField_alike {before after : ExtractionTemplate}
    (halike : IgnoredAlike lib num before after) (hname : a.name = b.name)
    (hcompared : FieldCompared py b a) (h : FieldIgnoredAlike lib num b a)
    (providerResults : List ExtractionFieldResult) :
    (reconcileField lib num after.confidenceRule providerResults a).map
        ExtractionFieldResult.withoutErrors =
      (reconcileField lib num before.confidenceRule providerResults b).map
        ExtractionFieldResult.withoutErrors := by
  -- selection and citation read compared attributes only
  have hselect : ∀ candidates, selectCandidate a candidates = selectCandidate b candidates := by
    intro candidates
    unfold selectCandidate buildMissingFieldResult
    rw [hname, hcompared.label, hcompared.type]
  have hcitation : requireCitation a = requireCitation b := by
    funext r
    unfold requireCitation
    rw [hcompared.citationRequired]
  unfold reconcileField
  simp only [hname, hselect, hcitation, flagLowConfidence_alike halike]
  generalize selectCandidate b _ = candidate
  have hvalidate := validateExtractedField_alike hcompared h candidate
  cases hb : validateExtractedField lib num b candidate with
  | error e =>
    cases ha : validateExtractedField lib num a candidate with
    | error e' =>
      rw [ha, hb] at hvalidate
      exact hvalidate
    | ok r' =>
      rw [ha, hb] at hvalidate
      cases hvalidate
  | ok r =>
    cases ha : validateExtractedField lib num a candidate with
    | error e' =>
      rw [ha, hb] at hvalidate
      cases hvalidate
    | ok r' =>
      rw [ha, hb] at hvalidate
      rw [Failing.bind_of_ok rfl, Failing.bind_of_ok rfl]
      refine congrArg Except.ok ?_
      refine flagLowConfidence_blind _ _ _ ?_
      exact requireCitation_blind _ _ _ (Except.ok.inj hvalidate)

end Extracted

/-! ### One calculated field under both versions -/

section Calculated

variable {num : PyNumeric} {b a : CalculatedFieldDefinition}

theorem validateCalculatedField_alike (h : CalculatedIgnoredAlike b a) (r : CalculatedFieldResult)
    (label : String) :
    validateCalculatedField { r with label := label } a.validation =
      (validateCalculatedField r b.validation).map fun r' => { r' with label := label } := by
  unfold validateCalculatedField
  rw [← h.min, ← h.max, ← h.allowNull]
  dsimp only
  cases boundErrors (boundCandidate r.calculatedValue) b.validation.min PyVal.ltFloat
      "Calculated value is below minimum." with
  | error e => rfl
  | ok low =>
    cases boundErrors (boundCandidate r.calculatedValue) b.validation.max PyVal.gtFloat
        "Calculated value is above maximum." with
    | error e => rfl
    | ok high => rfl

theorem normalizeCalculatedOutput_alike (hcompared : CalculatedCompared b a)
    (h : CalculatedIgnoredAlike b a) (v : PyVal) :
    normalizeCalculatedOutput num a v = normalizeCalculatedOutput num b v := by
  have hunfold : ∀ d : CalculatedFieldDefinition, normalizeCalculatedOutput num d v =
      if d.outputType == .currency && v.isNumber then
        (num.roundCents v).map fun amount =>
          (.dict [("amount", .float amount), ("currency", .str (outputCurrency d))],
            outputCurrency d ++ " " ++ num.formatAmount amount)
      else if v.isNone then .ok (v, "")
      else (num.display v).map fun text => (v, text) := by
    intro d
    rfl
  rw [hunfold, hunfold, hcompared.outputType]
  by_cases hcurrency : a.outputType = .currency
  · rw [h.currency (hcompared.outputType.trans hcurrency)]
  · have hno : (a.outputType == .currency && v.isNumber) = false := by
      simp [hcurrency]
    rw [hno]
    rfl

/-- **The turn of a calculated field is the same under both versions**, but for its label. -/
theorem evaluateCalculatedField_alike (hname : a.name = b.name) (hcompared : CalculatedCompared b a)
    (h : CalculatedIgnoredAlike b a) (engine : FormulaEngine) (available : List String)
    (context : Context) :
    evaluateCalculatedField engine num available context a =
      (evaluateCalculatedField engine num available context b).map
        fun r => { r with label := a.label } := by
  have hmissing : missingInput a = missingInput b := by
    unfold missingInput
    rw [h.onMissingInput]
  -- the formula, its policies and its dependencies are read alike
  have hformula : evaluateFormula engine a available context =
      evaluateFormula engine b available context := by
    unfold evaluateFormula
    rw [hcompared.formula, h.onDivideByZero, hmissing]
  have hdepends : resultDependencies engine a available = resultDependencies engine b available := by
    unfold resultDependencies
    rw [hcompared.formula, hcompared.dependsOn]
  unfold evaluateCalculatedField
  rw [hformula, hdepends, hname, ← hcompared.outputType, ← hcompared.formula, ← h.requiresReview]
  cases evaluateFormula engine b available context with
  | error e => rfl
  | ok outcome =>
    obtain ⟨raw, findings⟩ := outcome
    rw [Failing.bind_of_ok rfl, Failing.bind_of_ok rfl]
    dsimp only
    rw [normalizeCalculatedOutput_alike hcompared h]
    cases normalizeCalculatedOutput num b raw with
    | error e => rfl
    | ok normalized =>
      obtain ⟨value, displayValue⟩ := normalized
      rw [Failing.bind_of_ok rfl, Failing.bind_of_ok rfl]
      cases resultDependencies engine b available with
      | error e => rfl
      | ok dependsOn =>
        exact validateCalculatedField_alike h
          { fieldName := b.name, label := b.label, outputType := b.outputType
            formula := b.formula, dependsOn := dependsOn, calculatedValue := value
            displayValue := displayValue, validationErrors := findings.errors
            calculationNotes := buildCalculationNotes findings.notes
            requiresReview := !findings.errors.isEmpty || b.requiresReview } a.label

end Calculated

/-! ### The results of a field -/

section Results

variable {py : Python} {num : PyNumeric} {fields fields' : List CalculatedFieldDefinition}

theorem SameListed.exists_before {α : Type} {name : α → String} {same : α → α → Prop}
    {before after : List α} (h : SameListed name same before after) {a : α} (ha : a ∈ after) :
    ∃ b ∈ before, name a = name b ∧ same b a := by
  obtain ⟨b, hb, hname⟩ := List.mem_map.mp ((h.names (name a)).mpr (List.mem_map_of_mem ha))
  exact ⟨b, hb, hname.symm, h.fields b hb a ha hname.symm⟩

/-- **A field has the same result under both versions**, but for its label.  By induction on
the fields it refers to: each of them has its own counterpart. -/
theorem HasResult.alike {available available' : List String} {base base' : Context}
    (hlisted : SameListed CalculatedFieldDefinition.name CalculatedCompared fields fields')
    (halike : ∀ b ∈ fields, ∀ a ∈ fields', a.name = b.name → CalculatedIgnoredAlike b a)
    (hbase : ∀ id, PyVal.dictGet base' id = PyVal.dictGet base id)
    (havailable : ∀ id, id ∈ available' ↔ id ∈ available)
    {b : CalculatedFieldDefinition} {r : CalculatedFieldResult}
    (h : HasResult py num available base fields b r) :
    ∀ a ∈ fields', a.name = b.name →
      HasResult py num available' base' fields' a { r with label := a.label } := by
  induction h with
  | turn b r res context sets hb _ hvaluation hturn ih =>
    intro a ha hname
    have hcompared := hlisted.fields b hb a ha hname
    have hformula : a.formula = b.formula := hcompared.formula.symm
    -- the counterpart of each field of the second version
    have hchoice : ∀ a', ∃ b', a' ∈ fields' → b' ∈ fields ∧ a'.name = b'.name := by
      intro a'
      by_cases ha' : a' ∈ fields'
      · obtain ⟨b', hb', hname', -⟩ := hlisted.exists_before ha'
        exact ⟨b', fun _ => ⟨hb', hname'⟩⟩
      · exact ⟨default, fun hmem => absurd hmem ha'⟩
    choose counterpart hcounterpart using hchoice
    refine .turn a _ (fun a' => { res (counterpart a') with label := a'.label }) context sets ha
      ?_ ?_ ?_
    · intro a' ha' hid
      obtain ⟨hb', hname'⟩ := hcounterpart a' ha'
      rw [hformula, hname'] at hid
      exact ih _ hb' hid a' ha' hname'
    · refine ⟨?_, ?_⟩
      · intro a' ha' hid
        obtain ⟨hb', hname'⟩ := hcounterpart a' ha'
        rw [hformula, hname'] at hid
        rw [hname', hvaluation.calculated _ hb' hid]
      · intro id hid hno
        rw [hformula] at hid
        rw [hbase, hvaluation.extracted id hid fun hmem => hno ((hlisted.names id).mp hmem)]
    · have havailable : evaluateCalculatedField (py.engine sets) num available' context a =
          evaluateCalculatedField (py.engine sets) num available context a :=
        turn_congr (fun id _ => havailable id) fun _ _ => rfl
      rw [havailable, evaluateCalculatedField_alike hname hcompared (halike b hb a ha hname), hturn]
      rfl

end Results

/-! ### Runs under a template -/

/-- `reconcile_extracted_fields` with the thresholds of the template, then
`evaluate_calculated_fields`: what a version makes of the results of a provider. -/
def runTemplate (lib : FieldLibrary) (num : PyNumeric) (engine : FormulaEngine)
    (t : ExtractionTemplate) (providerResults : List ExtractionFieldResult) :
    Except PyErr (List ExtractionFieldResult × List CalculatedFieldResult) := do
  let (reconciled, _) ← reconcileExtractedFields lib num t.confidenceRule t.extractedFields
    providerResults
  let calculated ← evaluateCalculatedFields engine num t.calculatedFields reconciled
  return (reconciled, calculated)

/-- What a run decides of a field: its values, its status and its flag. -/
structure FieldOutcome where
  values : List PyVal
  validationStatus : ValidationStatus
  requiresReview : Bool

def ExtractionFieldResult.outcome (r : ExtractionFieldResult) : FieldOutcome :=
  ⟨[r.extractedValue, r.normalizedValue], r.validationStatus, r.requiresReview⟩

def CalculatedFieldResult.outcome (r : CalculatedFieldResult) : FieldOutcome :=
  ⟨[r.calculatedValue], r.validationStatus, r.requiresReview⟩

/-- The extracted result of a name. -/
def extractedResultOf (results : List ExtractionFieldResult) (name : String) :
    Option ExtractionFieldResult :=
  results.find? fun r => r.fieldName == name

/-- Both runs raise, or both return the same outcome for every extracted and for every
calculated field. -/
def SameOutcome : Except PyErr (List ExtractionFieldResult × List CalculatedFieldResult) →
    Except PyErr (List ExtractionFieldResult × List CalculatedFieldResult) → Prop
  | .ok (extracted, calculated), .ok (extracted', calculated') => ∀ name,
      (extractedResultOf extracted name).map ExtractionFieldResult.outcome =
        (extractedResultOf extracted' name).map ExtractionFieldResult.outcome ∧
      (resultOf calculated name).map CalculatedFieldResult.outcome =
        (resultOf calculated' name).map CalculatedFieldResult.outcome
  | .error _, .error _ => True
  | _, _ => False

/-! ### The extracted results by name -/

theorem extractedValue_eq {extracted : List ExtractionFieldResult}
    (hnodup : (extracted.map ExtractionFieldResult.fieldName).Nodup) (id : String) :
    extractedValue extracted id =
      (extractedResultOf extracted id).map ExtractionFieldResult.normalizedValue := by
  have hfold : ∀ context : Context,
      PyVal.dictGet (extracted.foldl (fun context field =>
          PyVal.dictSet context field.fieldName field.normalizedValue) context) id =
        ((extractedResultOf extracted id).map ExtractionFieldResult.normalizedValue).or
          (PyVal.dictGet context id) := by
    induction extracted with
    | nil => exact fun _ => rfl
    | cons r rest ih =>
      obtain ⟨hnot, hrest⟩ := List.nodup_cons.mp hnodup
      intro context
      rw [List.foldl_cons, ih hrest]
      unfold extractedResultOf
      by_cases heq : r.fieldName = id
      · subst heq
        -- the names are distinct: no later field overwrites the value
        rw [Keyed.find?_eq_none_iff.mpr hnot, List.find?_cons_of_pos (by simp),
          PyVal.dictGet_dictSet_self]
        rfl
      · rw [List.find?_cons_of_neg (by simpa using heq),
          PyVal.dictGet_dictSet_ne _ _ (Ne.symm heq)]
  rw [extractedValue, extractedContext, hfold]
  exact Option.or_none

section Reconciled

variable {py : Python} {lib : FieldLibrary} {num : PyNumeric} {before after : ExtractionTemplate}
  {providerResults extracted extracted' : List ExtractionFieldResult} {notes notes' : List String}

/-- The same results name by name, but for the texts of the errors. -/
def ExtractedAlike (extracted extracted' : List ExtractionFieldResult) : Prop :=
  ∀ name, (extractedResultOf extracted' name).map ExtractionFieldResult.withoutErrors =
    (extractedResultOf extracted name).map ExtractionFieldResult.withoutErrors

/-- The result of a field is found by its name. -/
theorem extractedResultOf_of_reconcile {rule : ConfidenceRule}
    {definitions : List ExtractionFieldDefinition}
    (hnodup : (definitions.map ExtractionFieldDefinition.name).Nodup)
    (h : reconcileExtractedFields lib num rule definitions providerResults = .ok (extracted, notes))
    {d : ExtractionFieldDefinition} (hd : d ∈ definitions) :
    ∃ r, extractedResultOf extracted d.name = some r ∧
      reconcileField lib num rule providerResults d = .ok r := by
  obtain ⟨results, hresults, h⟩ := Failing.bind_ok.mp h
  obtain ⟨rfl, -⟩ := Prod.mk.inj (Except.ok.inj h)
  exact Keyed.find?_of_forall₂ (fun _ _ hr => reconcileField_name hr) hnodup
    (Failing.mapM_forall₂ hresults) hd

theorem extractedResultOf_eq_none {rule : ConfidenceRule}
    {definitions : List ExtractionFieldDefinition}
    (h : reconcileExtractedFields lib num rule definitions providerResults = .ok (extracted, notes))
    {name : String} (hname : name ∉ definitions.map ExtractionFieldDefinition.name) :
    extractedResultOf extracted name = none := by
  refine Keyed.find?_eq_none_iff.mpr ?_
  rwa [reconcileExtractedFields_names h]

/-- **The results of reconciliation are the same name by name**, but for the texts of the
errors. -/
theorem reconciled_alike (hbefore : Accepted py before) (hafter : Accepted py after)
    (hlisted : SameListed ExtractionFieldDefinition.name (FieldCompared py) before.extractedFields
      after.extractedFields)
    (halike : IgnoredAlike lib num before after)
    (h : reconcileExtractedFields lib num before.confidenceRule before.extractedFields
      providerResults = .ok (extracted, notes))
    (h' : reconcileExtractedFields lib num after.confidenceRule after.extractedFields
      providerResults = .ok (extracted', notes')) : ExtractedAlike extracted extracted' := by
  intro name
  by_cases hname : name ∈ before.extractedFields.map ExtractionFieldDefinition.name
  · obtain ⟨b, hb, rfl⟩ := List.mem_map.mp hname
    obtain ⟨a, ha, hab⟩ := List.mem_map.mp ((hlisted.names b.name).mp hname)
    obtain ⟨r, hfind, hr⟩ := extractedResultOf_of_reconcile hbefore.extracted_nodup h hb
    obtain ⟨r', hfind', hr'⟩ := extractedResultOf_of_reconcile hafter.extracted_nodup h' ha
    have hturn := reconcileField_alike halike hab (hlisted.fields b hb a ha hab)
      (halike.extracted b hb a ha hab) providerResults
    rw [hr, hr'] at hturn
    rw [hab] at hfind'
    rw [hfind, hfind', Option.map_some, Option.map_some, Except.ok.inj hturn]
  · have hname' := (hlisted.names name).not.mp hname
    rw [extractedResultOf_eq_none h hname, extractedResultOf_eq_none h' hname']

/-- Reconciliation returns under both versions or under neither, since its turns agree field by
field. -/
theorem reconcile_returns_iff
    (hlisted : SameListed ExtractionFieldDefinition.name (FieldCompared py) before.extractedFields
      after.extractedFields)
    (halike : IgnoredAlike lib num before after) (providerResults : List ExtractionFieldResult) :
    (∃ out, reconcileExtractedFields lib num before.confidenceRule before.extractedFields
        providerResults = .ok out) ↔
      ∃ out, reconcileExtractedFields lib num after.confidenceRule after.extractedFields
        providerResults = .ok out := by
  -- a field has one definition in either version, and these agree
  have hturn : ∀ b ∈ before.extractedFields, ∀ a ∈ after.extractedFields, a.name = b.name →
      (reconcileField lib num after.confidenceRule providerResults a).map
          ExtractionFieldResult.withoutErrors =
        (reconcileField lib num before.confidenceRule providerResults b).map
          ExtractionFieldResult.withoutErrors := by
    intro b hb a ha hab
    exact reconcileField_alike halike hab (hlisted.fields b hb a ha hab)
      (halike.extracted b hb a ha hab) providerResults
  have hreturns : ∀ (rule : ConfidenceRule) (definitions : List ExtractionFieldDefinition),
      (∃ out, reconcileExtractedFields lib num rule definitions providerResults = .ok out) ↔
        ∃ results, definitions.mapM (reconcileField lib num rule providerResults) =
          .ok results := by
    intro rule definitions
    constructor
    · rintro ⟨out, h⟩
      obtain ⟨results, hresults, -⟩ := Failing.bind_ok.mp h
      exact ⟨results, hresults⟩
    · rintro ⟨results, hresults⟩
      exact ⟨_, Failing.bind_ok.mpr ⟨results, hresults, rfl⟩⟩
  rw [hreturns, hreturns]
  constructor
  · rintro ⟨results, h⟩
    refine Failing.mapM_returns_of_alike ExtractionFieldResult.withoutErrors ?_ h
    intro a ha
    obtain ⟨b, hb, hab, -⟩ := hlisted.exists_before ha
    exact ⟨b, hb, hturn b hb a ha hab⟩
  · rintro ⟨results, h⟩
    refine Failing.mapM_returns_of_alike ExtractionFieldResult.withoutErrors ?_ h
    intro b hb
    obtain ⟨a, ha, hab⟩ := List.mem_map.mp ((hlisted.names b.name).mp (List.mem_map_of_mem hb))
    exact ⟨a, ha, (hturn b hb a ha hab).symm⟩

end Reconciled

/-! ### The calculated results by name -/

section Calculations

variable {py : Python} {sets : SetOrder} {num : PyNumeric} {before after : ExtractionTemplate}
  {extracted extracted' : List ExtractionFieldResult} {results : List CalculatedFieldResult}

/-- What the calculations of two versions read alike: the same fields, in whatever order, with what
the diff compares and what it ignores. -/
structure CalculatedAlike (before after : ExtractionTemplate) : Prop where
  listed : SameListed CalculatedFieldDefinition.name CalculatedCompared before.calculatedFields
    after.calculatedFields
  ignored : ∀ b ∈ before.calculatedFields, ∀ a ∈ after.calculatedFields, a.name = b.name →
    CalculatedIgnoredAlike b a

theorem CalculatedAlike.symm (h : CalculatedAlike before after) : CalculatedAlike after before := by
  refine ⟨⟨fun n => (h.listed.names n).symm, ?_⟩, ?_⟩
  · intro a ha b hb hname
    obtain ⟨hformula, hdepends, houtput⟩ := h.listed.fields b hb a ha hname.symm
    exact ⟨hformula.symm, hdepends.symm, houtput.symm⟩
  · intro a ha b hb hname
    have hcompared := h.listed.fields b hb a ha hname.symm
    have hignored := h.ignored b hb a ha hname.symm
    exact ⟨fun hc => (hignored.currency (hcompared.outputType.trans hc)).symm,
      hignored.allowNull.symm, hignored.min.symm, hignored.max.symm,
      hignored.onDivideByZero.symm, hignored.onMissingInput.symm, hignored.requiresReview.symm⟩

/-- **The calculations return the same outcome name by name.** -/
theorem calculated_alike (sets' : SetOrder) (hbefore : Accepted py before) (hafter : Accepted py after)
    (h : CalculatedAlike before after)
    (hvalues : ∀ id, extractedValue extracted' id = extractedValue extracted id)
    (hrun : evaluateCalculatedFields (py.engine sets) num before.calculatedFields extracted =
      .ok results) :
    ∃ results', evaluateCalculatedFields (py.engine sets') num after.calculatedFields extracted' =
        .ok results' ∧
      ∀ name, (resultOf results name).map CalculatedFieldResult.outcome =
        (resultOf results' name).map CalculatedFieldResult.outcome := by
  obtain ⟨ordered, horder, hresults⟩ :=
    evaluateCalculatedFields_hasResult hbefore (List.Perm.refl _) hrun
  have havailable : ∀ id, id ∈ availableNames after.calculatedFields extracted' ↔
      id ∈ availableNames before.calculatedFields extracted := by
    intro id
    rw [mem_availableNames, mem_availableNames, hvalues, h.listed.names]
  -- each result of the one run is a result under the other version, but for its label
  have hall : ∀ a ∈ after.calculatedFields, ∀ b ∈ before.calculatedFields, a.name = b.name →
      ∃ r, resultOf results b.name = some r ∧
        ResultIn py num after.calculatedFields extracted' a { r with label := a.label } := by
    intro a ha b hb hname
    obtain ⟨r, hfind, hr⟩ :=
      resultOf_of_forall₂ horder.ordered_nodup hresults (horder.perm.mem_iff.mpr hb)
    exact ⟨r, hfind, hr.alike h.listed h.ignored hvalues havailable a ha hname⟩
  have hreturns : ∀ a ∈ after.calculatedFields,
      ∃ r, ResultIn py num after.calculatedFields extracted' a r := by
    intro a ha
    obtain ⟨b, hb, hname, -⟩ := h.listed.exists_before ha
    obtain ⟨r, -, hr⟩ := hall a ha b hb hname
    exact ⟨_, hr⟩
  obtain ⟨results', hrun'⟩ :=
    evaluateCalculatedFields_returns sets' hafter (List.Perm.refl _) hreturns
  obtain ⟨ordered', horder', hresults'⟩ :=
    evaluateCalculatedFields_hasResult hafter (List.Perm.refl _) hrun'
  refine ⟨results', hrun', fun name => ?_⟩
  by_cases hname : name ∈ before.calculatedFields.map CalculatedFieldDefinition.name
  · obtain ⟨b, hb, rfl⟩ := List.mem_map.mp hname
    obtain ⟨a, ha, hab⟩ := List.mem_map.mp ((h.listed.names b.name).mp hname)
    obtain ⟨r, hfind, hr⟩ := hall a ha b hb hab
    obtain ⟨r', hfind', hr'⟩ :=
      resultOf_of_forall₂ horder'.ordered_nodup hresults' (horder'.perm.mem_iff.mpr ha)
    rw [hab] at hfind'
    rw [hfind, hfind', hr'.unique hr]
    rfl
  · have hname' := (h.listed.names name).not.mp hname
    rw [resultOf_eq_none horder hresults hname, resultOf_eq_none horder' hresults' hname']

end Calculations

/-! ### The claim of an empty diff -/

theorem ExtractedAlike.values {extracted extracted' : List ExtractionFieldResult}
    (h : ExtractedAlike extracted extracted')
    (hnodup : (extracted.map ExtractionFieldResult.fieldName).Nodup)
    (hnodup' : (extracted'.map ExtractionFieldResult.fieldName).Nodup) :
    ∀ id, extractedValue extracted' id = extractedValue extracted id := by
  intro id
  have hvalue := congrArg (Option.map ExtractionFieldResult.normalizedValue) (h id)
  rw [Option.map_map, Option.map_map] at hvalue
  rw [extractedValue_eq hnodup, extractedValue_eq hnodup']
  exact hvalue

theorem ExtractedAlike.outcomes {extracted extracted' : List ExtractionFieldResult}
    (h : ExtractedAlike extracted extracted') (name : String) :
    (extractedResultOf extracted name).map ExtractionFieldResult.outcome =
      (extractedResultOf extracted' name).map ExtractionFieldResult.outcome := by
  have houtcome := congrArg (Option.map ExtractionFieldResult.outcome) (h name)
  rw [Option.map_map, Option.map_map] at houtcome
  exact houtcome.symm

/-- **When the diff reports nothing and the attributes it ignores agree, both versions give
the same outcome** for every list of provider results: the same values, statuses and flags,
name by name, or an exception under both. -/
theorem empty_diff_same_outcome (py : Python) (sets₀ sets sets' : SetOrder) (lib : FieldLibrary)
    (num : PyNumeric) (checkSchema : PyVal → Option String) (before after : ExtractionTemplate)
    (d : TemplateVersionDiff)
    (hdiff : diffTemplateDefinitions py sets₀ checkSchema before after = .ok d)
    (hempty : d.reportsNothing = true) (halike : IgnoredAlike lib num before after)
    (providerResults : List ExtractionFieldResult) :
    SameOutcome (runTemplate lib num (py.engine sets) before providerResults)
      (runTemplate lib num (py.engine sets') after providerResults) := by
  obtain ⟨⟨⟩, hvalid, hdiff⟩ := Failing.bind_ok.mp hdiff
  obtain ⟨⟨⟩, hvalid', hdiff⟩ := Failing.bind_ok.mp hdiff
  obtain rfl := Except.ok.inj hdiff
  have hbefore := accepted_of_validateTemplate hvalid
  have hafter := accepted_of_validateTemplate hvalid'
  obtain ⟨hextracted, hcalculated⟩ := sameListed_of_reportsNothing hbefore hafter hempty
  have hlisted : CalculatedAlike before after := ⟨hcalculated, halike.calculated⟩
  have hreturns := reconcile_returns_iff hextracted halike providerResults
  unfold runTemplate
  cases h : reconcileExtractedFields lib num before.confidenceRule before.extractedFields
      providerResults with
  | error e =>
    cases h' : reconcileExtractedFields lib num after.confidenceRule after.extractedFields
        providerResults with
    | error e' => trivial
    | ok out' =>
      obtain ⟨out, hout⟩ := hreturns.mpr ⟨out', h'⟩
      rw [h] at hout
      cases hout
  | ok out =>
    obtain ⟨⟨extracted', notes'⟩, h'⟩ := hreturns.mp ⟨out, h⟩
    obtain ⟨extracted, notes⟩ := out
    have hresults := reconciled_alike hbefore hafter hextracted halike h h'
    have hnodup : (extracted.map ExtractionFieldResult.fieldName).Nodup := by
      rw [reconcileExtractedFields_names h]
      exact hbefore.extracted_nodup
    have hnodup' : (extracted'.map ExtractionFieldResult.fieldName).Nodup := by
      rw [reconcileExtractedFields_names h']
      exact hafter.extracted_nodup
    -- the same values go into the calculations of both versions
    have hvalues := hresults.values hnodup hnodup'
    rw [h', Failing.bind_of_ok rfl, Failing.bind_of_ok rfl]
    dsimp only
    cases hrun : evaluateCalculatedFields (py.engine sets) num before.calculatedFields
        extracted with
    | ok results =>
      obtain ⟨results', hrun', houtcomes⟩ :=
        calculated_alike sets' hbefore hafter hlisted hvalues hrun
      rw [hrun']
      exact fun name => ⟨hresults.outcomes name, houtcomes name⟩
    | error e =>
      cases hrun' : evaluateCalculatedFields (py.engine sets') num after.calculatedFields
          extracted' with
      | error e' => trivial
      | ok results' =>
        obtain ⟨results, hresults, -⟩ := calculated_alike sets hafter hbefore
          hlisted.symm (fun id => (hvalues id).symm) hrun'
        rw [hrun] at hresults
        cases hresults

/-- The items under another label of the total. -/
def relabelledTemplate : ExtractionTemplate :=
  { itemsTemplate "items" with
    templateVersion := "1.0.1"
    calculatedFields :=
      [{ name := "total", label := "Sum", outputType := .number, formula := "items"
         dependsOn := ["items"] }] }

/-- Two versions that differ in the label of the total: the diff is empty, and the outcomes are the
same. -/
theorem empty_diff_same_outcome_items :
    ∃ d, diffTemplateDefinitions (plainPython [nameFormula]) insertionOrder (fun _ => none)
        (itemsTemplate "items") relabelledTemplate = .ok d ∧ d.reportsNothing = true ∧
      SameOutcome
        (runTemplate plainFieldLibrary plainRuntime.num
          ((plainPython [nameFormula]).engine insertionOrder) (itemsTemplate "items")
          (itemsResults [.int 1]))
        (runTemplate plainFieldLibrary plainRuntime.num
          ((plainPython [nameFormula]).engine insertionOrder) relabelledTemplate
          (itemsResults [.int 1])) := by
  refine ⟨_, rfl, rfl, ?_⟩
  refine empty_diff_same_outcome (plainPython [nameFormula]) insertionOrder insertionOrder
    insertionOrder plainFieldLibrary plainRuntime.num (fun _ => none) (itemsTemplate "items")
    relabelledTemplate _ rfl rfl ⟨rfl, fun _ => rfl, ?_, ?_⟩ (itemsResults [.int 1])
  · intro b hb a ha _
    rw [List.mem_singleton.mp hb, List.mem_singleton.mp ha]
    exact ⟨fun _ => rfl, fun _ => rfl, fun _ => rfl, fun _ => rfl⟩
  · intro b hb a ha _
    rw [List.mem_singleton.mp hb, List.mem_singleton.mp ha]
    exact ⟨fun _ => rfl, rfl, rfl, rfl, rfl, rfl, rfl⟩

/-! ### A null rule -/

/-- A list of items whose citation is optional, with a null rule. -/
def nullRuleTemplate (allowNull : Bool) : ExtractionTemplate where
  templateName := "Invoice"
  documentType := "invoice"
  extractedFields :=
    [{ name := "items", label := "Items", type := .list, citationRequired := false
       validation := { allowNull := allowNull } }]

/-- Two versions that differ in their null rule: the diff reports nothing. -/
theorem nullRule_reportsNothing : ∃ d,
    diffTemplateDefinitions (plainPython []) insertionOrder (fun _ => none) (nullRuleTemplate true)
      (nullRuleTemplate false) = .ok d ∧ d.reportsNothing = true :=
  ⟨_, rfl, rfl⟩

/-- **The diff hides a null rule**: a field the provider does not return is valid under the
one version and invalid under the other. -/
theorem empty_diff_hides_null_rule :
    ¬ ∀ (before after : ExtractionTemplate) (d : TemplateVersionDiff),
      diffTemplateDefinitions (plainPython []) insertionOrder (fun _ => none) before after =
        .ok d →
      d.reportsNothing = true → ∀ providerResults, SameOutcome
        (runTemplate plainFieldLibrary plainRuntime.num ((plainPython []).engine insertionOrder)
          before providerResults)
        (runTemplate plainFieldLibrary plainRuntime.num ((plainPython []).engine insertionOrder)
          after providerResults) := by
  intro hclaim
  obtain ⟨d, hdiff, hempty⟩ := nullRule_reportsNothing
  obtain ⟨hitems, -⟩ := hclaim _ _ d hdiff hempty [] "items"
  have hstatus := congrArg (Option.map FieldOutcome.validationStatus) hitems
  revert hstatus
  decide

end ExtractFlow
