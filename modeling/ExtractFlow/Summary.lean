import ExtractFlow.Lib.Failing
import ExtractFlow.Lib.Keyed
import ExtractFlow.Models

/-!
# Summaries and their flags

A summary lists the names of the fields it asks review for beside the flags of
the fields themselves.  Storing it turns its values into their JSON forms and
keeps names, flags and states.

## Main definitions

* `ExtractionValidationSummary.flaggedNames` — the names the flags stand for.

## Main results

* `modelDump_fields` — storing a summary stores its fields one by one.
* `modelDump_flaggedNames` — storing a summary keeps its flags.
-/

namespace ExtractFlow

/-- The names a summary should ask review for: flagged extracted fields, then
flagged calculated ones. -/
def ExtractionValidationSummary.flaggedNames (s : ExtractionValidationSummary) : List String :=
  (s.extractedFields.filter ExtractionFieldResult.requiresReview).map
      ExtractionFieldResult.fieldName ++
    (s.calculatedFields.filter CalculatedFieldResult.requiresReview).map
      CalculatedFieldResult.fieldName

/-- No name is flagged when no field is. -/
theorem flaggedNames_eq_nil_iff {s : ExtractionValidationSummary} :
    s.flaggedNames = [] ↔ (∀ f ∈ s.extractedFields, f.requiresReview = false) ∧
      ∀ c ∈ s.calculatedFields, c.requiresReview = false := by
  simp [ExtractionValidationSummary.flaggedNames, List.filter_eq_nil_iff]

/-- Storing an extracted field changes its values only. -/
theorem extracted_modelDump_spec {f f' : ExtractionFieldResult} (h : f.modelDump = .ok f') :
    f.normalizedValue.dump = .ok f'.normalizedValue ∧ f'.fieldName = f.fieldName ∧
      f'.requiresReview = f.requiresReview ∧ f'.validationStatus = f.validationStatus := by
  unfold ExtractionFieldResult.modelDump at h
  obtain ⟨extracted, -, h⟩ := Failing.bind_ok.mp h
  obtain ⟨normalized, hnormalized, h⟩ := Failing.bind_ok.mp h
  obtain rfl := Except.ok.inj h
  exact ⟨hnormalized, rfl, rfl, rfl⟩

/-- Storing a calculated field changes its value only. -/
theorem calculated_modelDump_spec {c c' : CalculatedFieldResult} (h : c.modelDump = .ok c') :
    c'.fieldName = c.fieldName ∧ c'.requiresReview = c.requiresReview ∧
      c'.validationStatus = c.validationStatus ∧ c'.validationErrors = c.validationErrors := by
  unfold CalculatedFieldResult.modelDump at h
  obtain ⟨value, -, h⟩ := Failing.bind_ok.mp h
  obtain rfl := Except.ok.inj h
  exact ⟨rfl, rfl, rfl, rfl⟩

/-- The names selected by a flag agree when the elements do. -/
theorem flagged_forall₂ {α : Type} (flag : α → Bool) (name : α → String) {R : α → α → Prop}
    (hR : ∀ x y, R x y → flag y = flag x ∧ name y = name x) {xs ys : List α}
    (h : List.Forall₂ R xs ys) : (ys.filter flag).map name = (xs.filter flag).map name := by
  induction h with
  | nil => rfl
  | @cons x y xs ys hxy _ ih =>
    obtain ⟨hflag, hname⟩ := hR x y hxy
    rw [List.filter_cons, List.filter_cons, hflag]
    split
    · rw [List.map_cons, List.map_cons, hname, ih]
    · exact ih

/-- Storing a summary stores its fields one by one, and leaves the list of names alone. -/
theorem modelDump_fields {s s' : ExtractionValidationSummary} (h : s.modelDump = .ok s') :
    List.Forall₂ (fun f f' => ExtractionFieldResult.modelDump f = .ok f') s.extractedFields
        s'.extractedFields ∧
      List.Forall₂ (fun c c' => CalculatedFieldResult.modelDump c = .ok c') s.calculatedFields
        s'.calculatedFields ∧
      s'.fieldsRequiringReview = s.fieldsRequiringReview := by
  unfold ExtractionValidationSummary.modelDump at h
  obtain ⟨extracted, hextracted, h⟩ := Failing.bind_ok.mp h
  obtain ⟨calculated, hcalculated, h⟩ := Failing.bind_ok.mp h
  obtain rfl := Except.ok.inj h
  exact ⟨Failing.mapM_forall₂ hextracted, Failing.mapM_forall₂ hcalculated, rfl⟩

/-- Storing a summary keeps the names of its calculated fields. -/
theorem calculatedNames_modelDump {s s' : ExtractionValidationSummary}
    (h : s.modelDump = .ok s') : s'.calculatedFields.map CalculatedFieldResult.fieldName =
      s.calculatedFields.map CalculatedFieldResult.fieldName := by
  have hkept : ∀ c c' : CalculatedFieldResult, c.modelDump = .ok c' →
      c'.fieldName = c.fieldName := fun _ _ hc => (calculated_modelDump_spec hc).1
  exact Keyed.map_eq_of_forall₂ hkept (modelDump_fields h).2.1

/-- Storing fields keeps their names. -/
theorem map_fieldName_of_modelDump {fields fields' : List ExtractionFieldResult}
    (h : List.Forall₂ (fun f f' => ExtractionFieldResult.modelDump f = .ok f') fields fields') :
    fields'.map ExtractionFieldResult.fieldName = fields.map ExtractionFieldResult.fieldName := by
  induction h with
  | nil => rfl
  | cons hf _ ih => rw [List.map_cons, List.map_cons, (extracted_modelDump_spec hf).2.1, ih]

/-- **Storing a summary keeps its flags**: the same fields ask for review after it as before. -/
theorem modelDump_flaggedNames {s s' : ExtractionValidationSummary} (h : s.modelDump = .ok s') :
    s'.flaggedNames = s.flaggedNames := by
  obtain ⟨hextracted, hcalculated, -⟩ := modelDump_fields h
  have hextracted := flagged_forall₂ ExtractionFieldResult.requiresReview
    ExtractionFieldResult.fieldName (fun f f' hf =>
      ⟨(extracted_modelDump_spec hf).2.2.1, (extracted_modelDump_spec hf).2.1⟩) hextracted
  have hcalculated := flagged_forall₂ CalculatedFieldResult.requiresReview
    CalculatedFieldResult.fieldName (fun c c' hc =>
      ⟨(calculated_modelDump_spec hc).2.1, (calculated_modelDump_spec hc).1⟩) hcalculated
  simp only [ExtractionValidationSummary.flaggedNames, hextracted, hcalculated]

end ExtractFlow
