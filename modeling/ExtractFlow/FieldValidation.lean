import ExtractFlow.Lib.LowerCase
import ExtractFlow.Calculations
import ExtractFlow.TemplateContract

/-!
# Validation of one extracted field

`validate_extracted_field` (`shared/extraction_core/field_validation.py`): the
rules of a field definition, checked in order.  A value outside the allowed ones
is first canonicalized to an allowed one, by comparing the letters and digits or
by a guarded fuzzy match, and the result is then flagged.

The JSON Schema validator, the regular expressions, the fuzzy matcher and the
character classes come from libraries (`FieldLibrary`).

## Main definitions

* `canonicalizeAllowedScalar`, `canonicalizeAllowedValue`.
* `validateFieldSchema`, `validateExtractedField`.

## Main results

* `validateExtractedField_spec` — the outcome's errors, status and flag agree.
-/

namespace ExtractFlow

/-- An error of the JSON Schema validator: the path as `str` prints its parts,
and the message. -/
structure SchemaError where
  path : List String
  message : String

/-- What the validation of fields takes from libraries, as functions of their inputs. -/
structure FieldLibrary where
  /-- `sorted(validator.iter_errors(value), key=path)` for a schema and a value. -/
  schemaErrors : PyVal → PyVal → Except PyErr (List SchemaError)
  /-- `re.match(pattern, text)` found a match. -/
  regexMatch : String → String → Except PyErr Bool
  /-- `process.extractOne` with the scorer and the cutoff of the source. -/
  extractOne : String → List String → Option String
  isAlnum : Char → Bool
  lowerCase : LowerCase
  /-- `f"{x:.2f}"`. -/
  formatScore : PyFloat → String

/-- A library that finds every schema and every pattern satisfied. -/
def plainFieldLibrary : FieldLibrary where
  schemaErrors := fun _ _ => .ok []
  regexMatch := fun _ _ => .ok true
  extractOne := fun _ _ => none
  isAlnum := Char.isAlphanum
  lowerCase := LowerCase.asciiOnly
  formatScore := fun _ => ""

/-! ### Allowed values -/

/-- `normalize_allowed_value_key`: each letter is lowered on its own. -/
def normalizeAllowedValueKey (lib : FieldLibrary) (value : String) : List Char :=
  (value.toList.filter lib.isAlnum).flatMap fun c => lib.lowerCase.lowerAt [] c []

/-- `canonicalize_allowed_scalar`: the allowed value that a text stands for and the note about it; a
text that is allowed, or stands for none, stays without a note. -/
def canonicalizeAllowedScalar (lib : FieldLibrary) (candidate : PyVal)
    (allowedValues : List String) : PyVal × Option String :=
  match candidate with
  | .str s =>
      if s ∈ allowedValues then (.str s, none)
      else
        match allowedValues.find? fun a =>
            normalizeAllowedValueKey lib a == normalizeAllowedValueKey lib s with
        | some a =>
            (.str a, some <| s!"Canonicalized allowed value from '{s}' to '{a}' " ++
              "using normalized comparison.")
        | none =>
            match lib.extractOne s allowedValues with
            | some a =>
                (.str a, some <| s!"Canonicalized allowed value from '{s}' to '{a}' " ++
                  "using guarded fuzzy matching.")
            | none => (.str s, none)
  | v => (v, none)

/-- `canonicalize_allowed_value`: a text by itself, and a list item by item with the notes
in one. -/
def canonicalizeAllowedValue (lib : FieldLibrary) (candidate : PyVal)
    (allowedValues : List String) : PyVal × Option String :=
  if allowedValues.isEmpty then (candidate, none)
  else
    match candidate with
    | .str s => canonicalizeAllowedScalar lib (.str s) allowedValues
    | .list items =>
        let normalized := items.map fun item => canonicalizeAllowedScalar lib item allowedValues
        let notes := normalized.filterMap Prod.snd
        (.list (normalized.map Prod.fst),
          if notes.isEmpty then none else some (" ".intercalate notes))
    | v => (v, none)

/-- `append_note` and `append_validation_note`. -/
def appendNote (current note : String) : String :=
  if current = "" then note else pyStrip s!"{current} {note}"

/-- The candidate of a value: its `value` entry when it is a dictionary. -/
def allowedCandidate : PyVal → PyVal
  | .dict items => (PyVal.dictGet items "value").getD .none
  | v => v

/-- `set_normalized_candidate`. -/
def setNormalizedCandidate (result : ExtractionFieldResult) (candidate : PyVal) :
    ExtractionFieldResult :=
  match result.normalizedValue with
  | .dict items =>
      if (PyVal.dictGet items "value").isSome then
        { result with normalizedValue := .dict (PyVal.dictSet items "value" candidate) }
      else { result with normalizedValue := candidate }
  | _ => { result with normalizedValue := candidate }

/-- `candidate in allowed_values`. -/
def PyVal.isAllowed (candidate : PyVal) (allowedValues : List String) : Bool :=
  match candidate with
  | .str s => s ∈ allowedValues
  | _ => false

/-- The check of the allowed values: the result, canonicalized and flagged when
a note says so, and the errors. -/
def checkAllowedValues (lib : FieldLibrary) (field : ExtractionFieldDefinition)
    (result : ExtractionFieldResult) : ExtractionFieldResult × List String :=
  if field.allowedValues.isEmpty || result.normalizedValue.isNone then (result, [])
  else
    let (candidate, note) := canonicalizeAllowedValue lib
      (allowedCandidate result.normalizedValue) field.allowedValues
    let result := match note with
      | some note =>
          let result := setNormalizedCandidate result candidate
          { result with
            extractionNotes := appendNote result.extractionNotes note
            requiresReview := true }
      | none => result
    (result, if candidate.isAllowed field.allowedValues then []
      else ["Value is outside allowed values."])

/-! ### Schema, pattern and length -/

/-- `iter_schema_validation_candidates`. -/
def iterSchemaValidationCandidates (value : PyVal) : List PyVal :=
  match value with
  | .dict items =>
      match PyVal.dictGet items "value" with
      | some raw => if raw.isNone then [value] else [value, raw]
      | none => [value]
  | _ => [value]

/-- Some candidate has no errors. -/
def anySchemaCandidate (lib : FieldLibrary) (schema : PyVal) :
    List PyVal → Except PyErr Bool
  | [] => .ok false
  | candidate :: rest =>
      match lib.schemaErrors schema candidate with
      | .ok [] => .ok true
      | .ok _ => anySchemaCandidate lib schema rest
      | .error e => .error e

/-- The text of a schema error. -/
def SchemaError.text (e : SchemaError) : String :=
  let location := ".".intercalate e.path
  if location = "" then "Value does not satisfy schema: " ++ e.message
  else s!"Value does not satisfy schema at '{location}': " ++ e.message

/-- `validate_field_schema`: the errors it adds, which is none if any form of the value satisfies
the schema, and otherwise the first. -/
def validateFieldSchema (lib : FieldLibrary) (schema value : PyVal) :
    Except PyErr (List String) :=
  match anySchemaCandidate lib schema (iterSchemaValidationCandidates value) with
  | .ok true => .ok []
  | .ok false =>
      match lib.schemaErrors schema value with
      | .ok (e :: _) => .ok [e.text]
      | .ok [] => .error (.other "IndexError")
      | .error e => .error e
  | .error e => .error e

/-- The schema check, for fields that declare one. -/
def checkFieldSchema (lib : FieldLibrary) (field : ExtractionFieldDefinition) (value : PyVal) :
    Except PyErr (List String) :=
  match field.fieldSchema with
  | some schema =>
      if schema.truthy && !value.isNone then validateFieldSchema lib schema value else .ok []
  | none => .ok []

/-- The pattern check. -/
def checkPattern (lib : FieldLibrary) (num : PyNumeric) (rule : ValidationRule)
    (extracted : PyVal) : Except PyErr (List String) :=
  match rule.regex with
  | some pattern =>
      if pattern = "" || extracted.isNone then .ok []
      else (lib.regexMatch pattern (num.str extracted)).map fun found =>
        if found then [] else ["Value does not match required pattern."]
  | none => .ok []

/-- The length check. -/
def checkMaxLength (num : PyNumeric) (rule : ValidationRule) (extracted : PyVal) : List String :=
  match rule.maxLength with
  | some bound =>
      if bound = 0 || extracted.isNone then []
      else if bound < (num.str extracted).length then ["Value exceeds maximum length."]
      else []
  | none => []

/-! ### All rules -/

/-- The errors of a missing value. -/
def missingErrors (field : ExtractionFieldDefinition) (value : PyVal) : List String :=
  (if field.required && value.isNone then ["Required field is missing."] else []) ++
    if value.isNone && !field.validation.allowNull then ["Null is not allowed."] else []

/-- `validate_extracted_field`: the checks in turn. The value is replaced by the allowed one it
stands for before the schema is checked; the pattern and the length look at the value as it was
read. -/
def validateExtractedField (lib : FieldLibrary) (num : PyNumeric)
    (field : ExtractionFieldDefinition) (result : ExtractionFieldResult) :
    Except PyErr ExtractionFieldResult := do
  let missing := missingErrors field result.normalizedValue
  let (result, outside) := checkAllowedValues lib field result
  let schema ← checkFieldSchema lib field result.normalizedValue
  let pattern ← checkPattern lib num field.validation result.extractedValue
  let errors := missing ++ outside ++ schema ++ pattern ++
    checkMaxLength num field.validation result.extractedValue
  return { result with
    validationErrors := errors
    validationStatus := if errors.isEmpty then .valid else .invalid
    requiresReview := result.requiresReview || !errors.isEmpty }

/-! ### Names and flags -/

theorem setNormalizedCandidate_fieldName (result : ExtractionFieldResult) (candidate : PyVal) :
    (setNormalizedCandidate result candidate).fieldName = result.fieldName := by
  unfold setNormalizedCandidate
  split
  · split <;> rfl
  · rfl

/-- The check of the allowed values keeps the name, and only adds the flag. -/
theorem checkAllowedValues_spec (lib : FieldLibrary) (field : ExtractionFieldDefinition)
    (result : ExtractionFieldResult) :
    (checkAllowedValues lib field result).1.fieldName = result.fieldName ∧
      (result.requiresReview = true →
        (checkAllowedValues lib field result).1.requiresReview = true) := by
  unfold checkAllowedValues
  split
  · exact ⟨rfl, id⟩
  · dsimp only
    split
    · exact ⟨setNormalizedCandidate_fieldName .., fun _ => rfl⟩
    · exact ⟨rfl, id⟩

/-- **The outcome of a validation**: the name is kept, the status says whether
there are errors, and a field with errors, or flagged before, is flagged. -/
theorem validateExtractedField_spec {lib : FieldLibrary} {num : PyNumeric}
    {field : ExtractionFieldDefinition} {result result' : ExtractionFieldResult}
    (h : validateExtractedField lib num field result = .ok result') :
    result'.fieldName = result.fieldName ∧
      result'.validationStatus = (if result'.validationErrors.isEmpty then .valid else .invalid) ∧
      (result.requiresReview = true ∨ result'.validationErrors ≠ [] →
        result'.requiresReview = true) := by
  obtain ⟨hname, hflag⟩ := checkAllowedValues_spec lib field result
  unfold validateExtractedField at h
  generalize checkAllowedValues lib field result = checked at h hname hflag
  obtain ⟨schema, -, h⟩ := Failing.bind_ok.mp h
  obtain ⟨pattern, -, h⟩ := Failing.bind_ok.mp h
  obtain rfl := Except.ok.inj h
  refine ⟨hname, rfl, ?_⟩
  rintro (hreview | herrors)
  · rw [hflag hreview, Bool.true_or]
  · rw [Bool.or_eq_true, Bool.not_eq_true', List.isEmpty_eq_false_iff]
    exact Or.inr herrors

end ExtractFlow
