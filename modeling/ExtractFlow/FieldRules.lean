import ExtractFlow.FieldValidation

/-!
# Which rules a valid field satisfies

A field definition declares its rules in two places, on the field and in its
`validation`.  `validate_extracted_field` checks the required flag, one of the two
null flags, the field's own allowed values, the schema, the pattern and the length.
It reads neither bound, nor the other null flag, nor the allowed values of
`validation`, and takes a length of 0 for no bound.

A missing value breaks no rule about values.

## Main definitions

* `PyVal.numbers`, `AllowedIn` — what the rules are about.
* `RulesHold` — every declared rule holds of a result.
* `UncheckedHold` — the rules that nothing checks hold.

## Main results

* `checkAllowedValues_allowed` — a value that passes is allowed as it is stored.
* `valid_rules_iff` — the results that are valid and satisfy every rule.
-/

namespace ExtractFlow

/-! ### The rules -/

/-- The numbers a value is checked as: itself, or what it holds under `value` and `amount`. -/
def PyVal.numbers : PyVal → List PyFloat
  | .dict items => ["value", "amount"].filterMap fun key =>
      (PyVal.dictGet items key).bind PyVal.number?
  | v => v.number?.toList

/-- The number lies between the bounds that are set. -/
def ValidationRule.bounds (rule : ValidationRule) (x : PyFloat) : Prop :=
  (∀ m, rule.min = some m → m.le x = true) ∧ ∀ m, rule.max = some m → x.le m = true

/-- A candidate, or each of its items, is allowed. -/
def CandidateIn (allowedValues : List String) : PyVal → Prop
  | .list items => ∀ item ∈ items, item.isAllowed allowedValues = true
  | candidate => candidate.isAllowed allowedValues = true

/-- The value, or each of its items, is allowed; an object is what it holds under `value`. -/
def AllowedIn (allowedValues : List String) (v : PyVal) : Prop :=
  CandidateIn allowedValues (allowedCandidate v)

/-- Every rule the field declares holds of the result, in whichever of the two places it is
declared. -/
structure RulesHold (lib : FieldLibrary) (num : PyNumeric) (field : ExtractionFieldDefinition)
    (r : ExtractionFieldResult) : Prop where
  notNull : field.required = true ∨ field.validation.allowNull = false ∨ field.allowNull = false →
    r.normalizedValue.isNone = false
  bounds : ∀ x ∈ r.normalizedValue.numbers, field.validation.bounds x
  allowed : r.normalizedValue.isNone = false → field.allowedValues ≠ [] →
    AllowedIn field.allowedValues r.normalizedValue
  ruleAllowed : r.normalizedValue.isNone = false → field.validation.allowedValues ≠ [] →
    AllowedIn field.validation.allowedValues r.normalizedValue
  schema : ∀ schema, field.fieldSchema = some schema → r.normalizedValue.isNone = false →
    ∃ candidate ∈ iterSchemaValidationCandidates r.normalizedValue,
      lib.schemaErrors schema candidate = .ok []
  pattern : ∀ pattern, field.validation.regex = some pattern → r.extractedValue.isNone = false →
    lib.regexMatch pattern (num.str r.extractedValue) = .ok true
  length : ∀ bound, field.validation.maxLength = some bound → r.extractedValue.isNone = false →
    ((num.str r.extractedValue).length : ℤ) ≤ bound

/-- The rules that nothing checks hold, of the result as it comes in. -/
structure UncheckedHold (lib : FieldLibrary) (num : PyNumeric) (field : ExtractionFieldDefinition)
    (r : ExtractionFieldResult) : Prop where
  /-- A null is allowed by the field, too. -/
  notNull : r.normalizedValue.isNone = true → field.allowNull = true
  bounds : ∀ x ∈ r.normalizedValue.numbers, field.validation.bounds x
  /-- What the value is canonicalized to is allowed by the `validation`, too. -/
  ruleAllowed : r.normalizedValue.isNone = false → field.validation.allowedValues ≠ [] →
    CandidateIn field.validation.allowedValues
      (canonicalizeAllowedValue lib (allowedCandidate r.normalizedValue) field.allowedValues).1
  /-- A length of 0 leaves no text. -/
  length : field.validation.maxLength = some 0 → r.extractedValue.isNone = false →
    num.str r.extractedValue = ""

/-! ### Allowed values -/

section Allowed

variable {lib : FieldLibrary} {field : ExtractionFieldDefinition} {r : ExtractionFieldResult}

/-- Canonicalizing makes a text of a text, and leaves what is neither text nor list. -/
theorem canonicalizeAllowedScalar_str (lib : FieldLibrary) (s : String)
    (allowedValues : List String) :
    ∃ t, (canonicalizeAllowedScalar lib (.str s) allowedValues).1 = .str t := by
  unfold canonicalizeAllowedScalar
  dsimp only
  split
  · exact ⟨s, rfl⟩
  · split
    · exact ⟨_, rfl⟩
    · split
      · exact ⟨_, rfl⟩
      · exact ⟨s, rfl⟩

/-- Without a note nothing is canonicalized. -/
theorem canonicalizeAllowedScalar_none {candidate : PyVal} {allowedValues : List String}
    (h : (canonicalizeAllowedScalar lib candidate allowedValues).2 = none) :
    (canonicalizeAllowedScalar lib candidate allowedValues).1 = candidate := by
  unfold canonicalizeAllowedScalar at h ⊢
  cases candidate with
  | str s =>
    dsimp only at h ⊢
    split
    · rfl
    · next hmem =>
      rw [if_neg hmem] at h
      split at h
      · cases h
      · split at h
        · cases h
        · rfl
  | none | bool | int | float | list | tuple | dict | function | view | object => rfl

theorem canonicalizeAllowedValue_none {candidate : PyVal} {allowedValues : List String}
    (h : (canonicalizeAllowedValue lib candidate allowedValues).2 = none) :
    (canonicalizeAllowedValue lib candidate allowedValues).1 = candidate := by
  unfold canonicalizeAllowedValue at h ⊢
  split
  · rfl
  · next hne =>
    rw [if_neg hne] at h
    cases candidate with
    | str s => exact canonicalizeAllowedScalar_none h
    | list items =>
      dsimp only at h ⊢
      split at h
      · next hempty =>
        have hnotes := List.isEmpty_iff.mp hempty
        rw [List.filterMap_eq_nil_iff] at hnotes
        rw [List.map_map]
        refine congrArg _ ((List.map_congr_left fun item hitem => ?_).trans (List.map_id _))
        exact canonicalizeAllowedScalar_none (hnotes _ (List.mem_map_of_mem hitem))
      · cases h
    | none | bool | int | float | tuple | dict | function | view | object => rfl

/-- A text or a list. -/
def PyVal.isTextual : PyVal → Bool
  | .str _ | .list _ => true
  | _ => false

theorem number?_of_isTextual {v : PyVal} (h : v.isTextual = true) : v.number? = none := by
  cases v with
  | str | list => rfl
  | none | bool | int | float | tuple | dict | function | view | object =>
    simp [PyVal.isTextual] at h

theorem isNone_of_isTextual {v : PyVal} (h : v.isTextual = true) : v.isNone = false := by
  cases v <;> first | rfl | cases h

theorem numbers_of_isTextual {v : PyVal} (h : v.isTextual = true) : v.numbers = [] := by
  cases v <;> first | rfl | cases h

/-- Only texts and lists are canonicalized, to texts and lists. -/
theorem canonicalizeAllowedValue_some {candidate : PyVal} {allowedValues : List String}
    {note : String} (h : (canonicalizeAllowedValue lib candidate allowedValues).2 = some note) :
    candidate.isTextual = true ∧
      (canonicalizeAllowedValue lib candidate allowedValues).1.isTextual = true := by
  unfold canonicalizeAllowedValue at h ⊢
  split at h
  · cases h
  · next hne =>
    rw [if_neg hne]
    cases candidate with
    | str s =>
      obtain ⟨t, ht⟩ := canonicalizeAllowedScalar_str lib s allowedValues
      exact ⟨rfl, by dsimp only; rw [ht]; rfl⟩
    | list items => exact ⟨rfl, rfl⟩
    | none | bool | int | float | tuple | dict | function | view | object => cases h

/-- An allowed candidate is a text. -/
theorem isAllowed_iff {v : PyVal} {allowedValues : List String} :
    v.isAllowed allowedValues = true ↔ ∃ s ∈ allowedValues, v = .str s := by
  cases v <;> simp [PyVal.isAllowed]

theorem allowedIn_of_candidate {v : PyVal} {allowedValues : List String}
    (h : (allowedCandidate v).isAllowed allowedValues = true) : AllowedIn allowedValues v := by
  obtain ⟨s, -, hs⟩ := isAllowed_iff.mp h
  unfold AllowedIn
  rw [hs] at h ⊢
  exact h

/-- What is stored for a canonicalized value: the canonical text in the place of the old one, and
nothing else is changed. -/
theorem setNormalizedCandidate_spec {candidate : PyVal}
    (hold : (allowedCandidate r.normalizedValue).isTextual = true)
    (hnew : candidate.isTextual = true) :
    allowedCandidate (setNormalizedCandidate r candidate).normalizedValue = candidate ∧
      (setNormalizedCandidate r candidate).normalizedValue.isNone = false ∧
      (setNormalizedCandidate r candidate).normalizedValue.numbers = r.normalizedValue.numbers ∧
      (setNormalizedCandidate r candidate).extractedValue = r.extractedValue := by
  have hcandidate : allowedCandidate candidate = candidate := by
    cases candidate <;> first | rfl | cases hnew
  unfold setNormalizedCandidate
  split
  · next items hitems =>
    rw [hitems, allowedCandidate] at hold
    cases hget : PyVal.dictGet items "value" with
    | none =>
      rw [hget] at hold
      cases hold
    | some v =>
      rw [hget, Option.getD_some] at hold
      rw [if_pos (show (some v).isSome = true from rfl), hitems]
      -- a record: its value is replaced, and an amount beside it stays
      refine ⟨?_, rfl, ?_, rfl⟩
      · rw [allowedCandidate, PyVal.dictGet_dictSet_self, Option.getD_some]
      · simp only [PyVal.numbers, List.filterMap_cons, List.filterMap_nil,
          PyVal.dictGet_dictSet_self, hget, Option.bind_some, number?_of_isTextual hold,
          number?_of_isTextual hnew,
          PyVal.dictGet_dictSet_ne items candidate (show "amount" ≠ "value" by decide)]
  · next hno =>
    have hold' : r.normalizedValue.isTextual = true := by
      cases hv : r.normalizedValue with
      | dict items => exact absurd hv (hno items)
      | none | bool | int | float | str | list | tuple | function | view | object =>
        rw [hv] at hold
        exact hold
    exact ⟨hcandidate, isNone_of_isTextual hnew,
      (numbers_of_isTextual hnew).trans (numbers_of_isTextual hold').symm, rfl⟩

/-- **A value that passes the check of the allowed values is allowed as it is stored.** -/
theorem checkAllowedValues_allowed :
    (checkAllowedValues lib field r).1.normalizedValue.isNone = r.normalizedValue.isNone ∧
      (checkAllowedValues lib field r).1.normalizedValue.numbers = r.normalizedValue.numbers ∧
      (checkAllowedValues lib field r).1.extractedValue = r.extractedValue ∧
      (r.normalizedValue.isNone = false →
        allowedCandidate (checkAllowedValues lib field r).1.normalizedValue =
          (canonicalizeAllowedValue lib (allowedCandidate r.normalizedValue)
            field.allowedValues).1) ∧
      ((checkAllowedValues lib field r).2 = [] → r.normalizedValue.isNone = false →
        field.allowedValues ≠ [] →
        AllowedIn field.allowedValues (checkAllowedValues lib field r).1.normalizedValue) := by
  unfold checkAllowedValues
  split
  · next hskip =>
    rw [Bool.or_eq_true, List.isEmpty_iff] at hskip
    refine ⟨rfl, rfl, rfl, fun hsome => ?_, fun _ hsome hne => ?_⟩
    · rw [hskip.resolve_right (by simp [hsome])]
      rfl
    · exact absurd hskip (by simp [hne, hsome])
  · next hcheck =>
    have hsome : r.normalizedValue.isNone = false := by
      rw [Bool.or_eq_true, not_or, Bool.not_eq_true, Bool.not_eq_true] at hcheck
      exact hcheck.2
    cases hcanonical : canonicalizeAllowedValue lib (allowedCandidate r.normalizedValue)
      field.allowedValues with
    | mk candidate note =>
      -- no error was added, so the candidate is allowed
      have hpasses : (if candidate.isAllowed field.allowedValues = true then []
          else ["Value is outside allowed values."]) = [] →
          candidate.isAllowed field.allowedValues = true := by
        intro h
        by_contra hno
        rw [if_neg hno] at h
        cases h
      cases note with
      | none =>
        have hsame : candidate = allowedCandidate r.normalizedValue := by
          have h : (canonicalizeAllowedValue lib (allowedCandidate r.normalizedValue)
              field.allowedValues).1 = _ := canonicalizeAllowedValue_none (by rw [hcanonical])
          rwa [hcanonical] at h
        refine ⟨rfl, rfl, rfl, fun _ => hsame.symm, fun hempty _ _ => allowedIn_of_candidate ?_⟩
        rw [← hsame]
        exact hpasses hempty
      | some note =>
        obtain ⟨hold, hnew⟩ := canonicalizeAllowedValue_some (by rw [hcanonical])
        rw [hcanonical] at hnew
        obtain ⟨hcandidate, hnone, hnumbers, hextracted⟩ := setNormalizedCandidate_spec hold hnew
        refine ⟨hnone.trans hsome.symm, hnumbers, hextracted, fun _ => hcandidate,
          fun hempty _ _ => ?_⟩
        refine allowedIn_of_candidate ?_
        dsimp only
        rw [hcandidate]
        exact hpasses hempty

end Allowed

/-! ### The other checks -/

section Checks

variable {lib : FieldLibrary} {num : PyNumeric} {field : ExtractionFieldDefinition}

/-- A candidate without errors is found. -/
theorem anySchemaCandidate_true {schema : PyVal} : ∀ {candidates : List PyVal},
    anySchemaCandidate lib schema candidates = .ok true →
      ∃ candidate ∈ candidates, lib.schemaErrors schema candidate = .ok [] := by
  intro candidates
  induction candidates with
  | nil => intro h; cases h
  | cons candidate rest ih =>
    intro h
    rw [anySchemaCandidate] at h
    split at h
    · next hnone => exact ⟨candidate, List.mem_cons_self .., hnone⟩
    · obtain ⟨found, hmem, hfound⟩ := ih h
      exact ⟨found, List.mem_cons_of_mem _ hmem, hfound⟩
    · cases h

/-- A value that passes the schema check satisfies the schema. -/
theorem checkFieldSchema_nil {value schema : PyVal}
    (hempty : ∀ v, schema.truthy = false → lib.schemaErrors schema v = .ok [])
    (h : checkFieldSchema lib field value = .ok []) (hschema : field.fieldSchema = some schema)
    (hvalue : value.isNone = false) :
    ∃ candidate ∈ iterSchemaValidationCandidates value,
      lib.schemaErrors schema candidate = .ok [] := by
  unfold checkFieldSchema at h
  rw [hschema] at h
  dsimp only at h
  -- a schema that is falsy is not applied; any value satisfies it
  cases htruthy : schema.truthy with
  | false =>
    obtain ⟨candidate, hcandidate⟩ : ∃ candidate, candidate ∈ iterSchemaValidationCandidates value := by
      refine ⟨value, ?_⟩
      unfold iterSchemaValidationCandidates
      split
      · split
        · split <;> exact List.mem_cons_self ..
        · exact List.mem_cons_self ..
      · exact List.mem_cons_self ..
    exact ⟨candidate, hcandidate, hempty candidate htruthy⟩
  | true =>
    rw [htruthy, hvalue, if_pos (by decide)] at h
    unfold validateFieldSchema at h
    split at h
    · next hany => exact anySchemaCandidate_true hany
    · split at h <;> cases h
    · cases h

/-- A text that passes the pattern check matches. -/
theorem checkPattern_nil {rule : ValidationRule} {extracted : PyVal} {pattern : String}
    (hempty : ∀ text, lib.regexMatch "" text = .ok true)
    (h : checkPattern lib num rule extracted = .ok []) (hpattern : rule.regex = some pattern)
    (hextracted : extracted.isNone = false) :
    lib.regexMatch pattern (num.str extracted) = .ok true := by
  unfold checkPattern at h
  rw [hpattern] at h
  dsimp only at h
  by_cases hp : pattern = ""
  · rw [hp]
    exact hempty _
  · rw [if_neg (by simp [hp, hextracted])] at h
    obtain ⟨found, hfound, hnil⟩ := Failing.map_ok.mp h
    rw [hfound]
    cases found with
    | true => rfl
    | false => cases hnil

/-- A text passes the length check when it is not longer, or the bound is 0. -/
theorem checkMaxLength_nil_iff {rule : ValidationRule} {extracted : PyVal} {bound : ℤ}
    (hbound : rule.maxLength = some bound) (hextracted : extracted.isNone = false) :
    checkMaxLength num rule extracted = [] ↔
      bound = 0 ∨ ((num.str extracted).length : ℤ) ≤ bound := by
  unfold checkMaxLength
  rw [hbound]
  dsimp only
  by_cases hzero : bound = 0
  · rw [if_pos (by simp [hzero])]
    exact iff_of_true rfl (Or.inl hzero)
  · rw [if_neg (by simp [hzero, hextracted]), or_iff_right hzero]
    by_cases hlong : bound < (num.str extracted).length
    · rw [if_pos hlong]
      exact iff_of_false (by simp) (by omega)
    · rw [if_neg hlong]
      exact iff_of_true rfl (by omega)

variable {r r' : ExtractionFieldResult}

/-- What a valid result passed. -/
theorem validateExtractedField_valid (h : validateExtractedField lib num field r = .ok r')
    (hvalid : r'.validationStatus = .valid) :
    missingErrors field r.normalizedValue = [] ∧
      (checkAllowedValues lib field r).2 = [] ∧
      checkFieldSchema lib field (checkAllowedValues lib field r).1.normalizedValue = .ok [] ∧
      checkPattern lib num field.validation (checkAllowedValues lib field r).1.extractedValue =
        .ok [] ∧
      checkMaxLength num field.validation (checkAllowedValues lib field r).1.extractedValue = [] ∧
      r'.normalizedValue = (checkAllowedValues lib field r).1.normalizedValue ∧
      r'.extractedValue = (checkAllowedValues lib field r).1.extractedValue := by
  unfold validateExtractedField at h
  generalize checkAllowedValues lib field r = checked at h ⊢
  obtain ⟨schema, hschema, h⟩ := Failing.bind_ok.mp h
  obtain ⟨pattern, hpattern, h⟩ := Failing.bind_ok.mp h
  obtain rfl := Except.ok.inj h
  dsimp only at hvalid
  split at hvalid
  · next hnil =>
    simp only [List.isEmpty_iff, List.append_eq_nil_iff] at hnil
    obtain ⟨⟨⟨⟨hmissing, houtside⟩, hs⟩, hp⟩, hlength⟩ := hnil
    rw [hs] at hschema
    rw [hp] at hpattern
    exact ⟨hmissing, houtside, hschema, hpattern, hlength, rfl, rfl⟩
  · cases hvalid

/-- **A valid field satisfies every rule** exactly when it satisfies those that nothing
checks.  The schema of a field is a dictionary, so the one that is falsy is `{}`, which the code
does not apply and which any value satisfies. -/
theorem valid_rules_iff
    (hschema : ∀ schema v, field.fieldSchema = some schema → schema.truthy = false →
      lib.schemaErrors schema v = .ok [])
    (hregex : ∀ text, lib.regexMatch "" text = .ok true)
    (h : validateExtractedField lib num field r = .ok r') (hvalid : r'.validationStatus = .valid) :
    RulesHold lib num field r' ↔ UncheckedHold lib num field r := by
  obtain ⟨hmissing, houtside, hchecked, hpattern, hlength, hvalue, hextracted⟩ :=
    validateExtractedField_valid h hvalid
  obtain ⟨hnone, hnumbers, hsame, hstored, hallowed⟩ := @checkAllowedValues_allowed lib field r
  rw [hsame] at hpattern hlength hextracted
  rw [← hvalue] at hnone hnumbers hstored hallowed hchecked
  -- a missing value passes only where neither of the two flags that are read forbids it
  have hnull : r.normalizedValue.isNone = true →
      field.required = false ∧ field.validation.allowNull = true := by
    intro hnull
    simpa [missingErrors, hnull] using hmissing
  constructor
  · intro hrules
    refine ⟨fun hnull' => ?_, hnumbers ▸ hrules.bounds, ?_, fun hzero htext => ?_⟩
    · by_contra hno
      have hsome := hrules.notNull (Or.inr (Or.inr (by simpa using hno)))
      rw [hnone, hnull'] at hsome
      cases hsome
    · intro hsome hne
      rw [← hstored hsome]
      exact hrules.ruleAllowed (hnone.trans hsome) hne
    · have hshort := hrules.length 0 hzero (by rwa [hextracted])
      rw [hextracted] at hshort
      exact String.length_eq_zero_iff.mp (by omega)
  · intro hunchecked
    refine ⟨fun hrequired => ?_, hnumbers ▸ hunchecked.bounds, ?_, ?_, ?_, ?_, ?_⟩
    · rw [hnone]
      by_contra hno
      have hnull' : r.normalizedValue.isNone = true := by simpa using hno
      obtain ⟨hnotRequired, hallowNull⟩ := hnull hnull'
      have hfield := hunchecked.notNull hnull'
      simp [hnotRequired, hallowNull, hfield] at hrequired
    · rw [hnone]
      exact hallowed houtside
    · intro hsome hne
      rw [AllowedIn, hstored (hnone.symm.trans hsome)]
      exact hunchecked.ruleAllowed (hnone.symm.trans hsome) hne
    · intro schema hdeclared hsome
      exact checkFieldSchema_nil (fun v => hschema schema v hdeclared) hchecked hdeclared hsome
    · intro pattern hdeclared htext
      rw [hextracted] at htext ⊢
      exact checkPattern_nil hregex hpattern hdeclared htext
    · intro bound hbound htext
      rw [hextracted] at htext ⊢
      rcases (checkMaxLength_nil_iff hbound htext).mp hlength with rfl | hshort
      · rw [hunchecked.length hbound htext]
        rfl
      · exact hshort

end Checks

/-! ### A bound -/

/-- A number of at most 10. -/
def cappedField : ExtractionFieldDefinition where
  name := "quantity"
  label := "Quantity"
  type := .number
  validation := { max := some (.fin 10) }

/-- A quantity as it comes in. -/
def quantityResult (n : ℤ) : ExtractionFieldResult where
  fieldName := "quantity"
  label := "Quantity"
  dataType := .number
  extractedValue := .int n
  normalizedValue := .int n

/-- A valid quantity of 7 satisfies every rule, its unchecked bound included. -/
theorem valid_rules_iff_quantity :
    RulesHold plainFieldLibrary plainRuntime.num cappedField
        { quantityResult 7 with validationStatus := .valid } ↔
      UncheckedHold plainFieldLibrary plainRuntime.num cappedField (quantityResult 7) :=
  valid_rules_iff (fun _ _ _ _ => rfl) (fun _ => rfl) rfl rfl

/-- **A quantity of 50 is valid** although at most 10 is declared: nothing reads the bounds. -/
theorem bound_not_checked :
    ¬ ∀ (field : ExtractionFieldDefinition) (r r' : ExtractionFieldResult),
      validateExtractedField plainFieldLibrary plainRuntime.num field r = .ok r' →
      r'.validationStatus = .valid → RulesHold plainFieldLibrary plainRuntime.num field r' := by
  intro hclaim
  have hrules := hclaim cappedField (quantityResult 50)
    { quantityResult 50 with validationStatus := .valid } rfl rfl
  have hbound := (hrules.bounds (.fin 50) (List.mem_singleton.mpr rfl)).2 (.fin 10) rfl
  exact absurd hbound (by decide)

end ExtractFlow
