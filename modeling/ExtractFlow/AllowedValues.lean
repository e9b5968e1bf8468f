import ExtractFlow.FieldRules

/-!
# Canonicalizing to the allowed values

`canonicalize_allowed_scalar` tries an exact match, then the letters and digits
alone, then a guarded fuzzy match.  A text comes out as it was, without a note, or as
an allowed value, with a note that names both.

So a second validation finds nothing left to do, whatever the shape of the value.
But the check behind it asks whether the whole value is one of the allowed texts,
which no list is; and where several allowed values have the same letters and digits,
the first of them in the list is taken.

## Main definitions

* `FieldLibrary.ExtractsChoice` — what the fuzzy matcher is relied on for.
* `Stage` — how a text is matched.
* `canonicalNote`, `canonicalValue` — what the check of the allowed values stores.

## Main results

* `validation_idempotent` — validating twice is validating once.
* `list_items_checked_iff` — when the check of a list is the check of its items.
* `order_independent_iff` — when the order of the allowed values does not matter.
-/

namespace ExtractFlow

/-- `process.extractOne` returns one of the choices it was given, whatever its scorer says. -/
def FieldLibrary.ExtractsChoice (lib : FieldLibrary) : Prop :=
  ∀ s choices a, lib.extractOne s choices = some a → a ∈ choices

/-! ### One text -/

/-- The note on a text replaced by another. -/
def canonicalizedNote (s a how : String) : String :=
  s!"Canonicalized allowed value from '{s}' to '{a}' " ++ how

/-- The letters and digits of the two are the same. -/
def SameKey (lib : FieldLibrary) (a s : String) : Prop :=
  normalizeAllowedValueKey lib a = normalizeAllowedValueKey lib s

instance (lib : FieldLibrary) (a s : String) : Decidable (SameKey lib a s) :=
  inferInstanceAs (Decidable (_ = _))

/-- How a text is matched, and what comes out: the first of the four stages that applies. -/
inductive Stage (lib : FieldLibrary) (allowedValues : List String) (s : String) :
    PyVal × Option String → Prop
  | exact : s ∈ allowedValues → Stage lib allowedValues s (.str s, none)
  | key (a) : s ∉ allowedValues → allowedValues.find? (fun a => SameKey lib a s) = some a →
      Stage lib allowedValues s (.str a, canonicalizedNote s a "using normalized comparison.")
  | fuzzy (a) : s ∉ allowedValues → (∀ a ∈ allowedValues, ¬SameKey lib a s) →
      lib.extractOne s allowedValues = some a →
      Stage lib allowedValues s (.str a, canonicalizedNote s a "using guarded fuzzy matching.")
  | unknown : s ∉ allowedValues → (∀ a ∈ allowedValues, ¬SameKey lib a s) →
      lib.extractOne s allowedValues = none → Stage lib allowedValues s (.str s, none)

section Texts

variable {lib : FieldLibrary} {allowedValues : List String} {s : String}

theorem canonicalizeAllowedScalar_stage (lib : FieldLibrary) (allowedValues : List String)
    (s : String) :
    Stage lib allowedValues s (canonicalizeAllowedScalar lib (.str s) allowedValues) := by
  have hsame : (fun a => normalizeAllowedValueKey lib a == normalizeAllowedValueKey lib s) =
      fun a => decide (SameKey lib a s) := by
    funext a
    exact Bool.beq_eq_decide_eq _ _
  unfold canonicalizeAllowedScalar
  dsimp only
  rw [hsame]
  split
  · next hmem => exact .exact hmem
  · next hmem =>
    split
    · next a hfind => exact .key a hmem hfind
    · next hfind =>
      have hkeys : ∀ a ∈ allowedValues, ¬SameKey lib a s := by simpa using hfind
      split
      · next a hextract => exact .fuzzy a hmem hkeys hextract
      · next hextract => exact .unknown hmem hkeys hextract

/-- An allowed text is left as it is. -/
theorem canonicalizeAllowedScalar_of_mem (h : s ∈ allowedValues) :
    canonicalizeAllowedScalar lib (.str s) allowedValues = (.str s, none) := by
  unfold canonicalizeAllowedScalar
  exact if_pos h

/-- **What a text becomes**: itself without a note, or an allowed value with a note that
names both. -/
theorem canonicalizeAllowedScalar_cases (hlib : lib.ExtractsChoice) (allowedValues : List String)
    (s : String) :
    canonicalizeAllowedScalar lib (.str s) allowedValues = (.str s, none) ∨
      s ∉ allowedValues ∧ ∃ a ∈ allowedValues, ∃ how,
        canonicalizeAllowedScalar lib (.str s) allowedValues =
          (.str a, some (canonicalizedNote s a how)) := by
  have hstage := canonicalizeAllowedScalar_stage lib allowedValues s
  generalize canonicalizeAllowedScalar lib (.str s) allowedValues = out at hstage ⊢
  cases hstage with
  | exact | unknown => exact Or.inl rfl
  | key a hmem hfind => exact Or.inr ⟨hmem, a, List.mem_of_find?_eq_some hfind, _, rfl⟩
  | fuzzy a hmem hkeys hextract => exact Or.inr ⟨hmem, a, hlib _ _ _ hextract, _, rfl⟩

/-- What is matched is not matched again. -/
theorem canonicalizeAllowedScalar_idem (hlib : lib.ExtractsChoice) (allowedValues : List String)
    (candidate : PyVal) :
    canonicalizeAllowedScalar lib (canonicalizeAllowedScalar lib candidate allowedValues).1
      allowedValues = ((canonicalizeAllowedScalar lib candidate allowedValues).1, none) := by
  cases candidate with
  | str s =>
    rcases canonicalizeAllowedScalar_cases hlib allowedValues s with
      hsame | ⟨-, a, ha, how, hout⟩
    · rw [hsame, hsame]
    · rw [hout, canonicalizeAllowedScalar_of_mem ha]
  | none | bool | int | float | list | tuple | dict | function | view | object => rfl

/-- The text has no match among the allowed values, by any of the three comparisons. -/
structure Unmatched (lib : FieldLibrary) (allowedValues : List String) (s : String) : Prop where
  notAllowed : s ∉ allowedValues
  noKey : ∀ a ∈ allowedValues, ¬SameKey lib a s
  noFuzzy : lib.extractOne s allowedValues = none

/-- What comes out is outside the allowed values when there is no match. -/
theorem isAllowed_canonicalizeAllowedScalar (hlib : lib.ExtractsChoice) :
    (canonicalizeAllowedScalar lib (.str s) allowedValues).1.isAllowed allowedValues = false ↔
      Unmatched lib allowedValues s := by
  have hstage := canonicalizeAllowedScalar_stage lib allowedValues s
  generalize canonicalizeAllowedScalar lib (.str s) allowedValues = out at hstage ⊢
  have hallowed : ∀ a, a ∈ allowedValues → (PyVal.str a).isAllowed allowedValues ≠ false := by
    intro a ha
    simp [PyVal.isAllowed, ha]
  cases hstage with
  | exact hmem => exact iff_of_false (hallowed s hmem) fun h => h.notAllowed hmem
  | key a hmem hfind =>
    have hsame : SameKey lib a s := by simpa using List.find?_some hfind
    have ha := List.mem_of_find?_eq_some hfind
    exact iff_of_false (hallowed a ha) fun h => h.noKey a ha hsame
  | fuzzy a hmem hkeys hextract =>
    refine iff_of_false (hallowed a (hlib _ _ _ hextract)) fun h => ?_
    rw [h.noFuzzy] at hextract
    cases hextract
  | unknown hmem hkeys hextract =>
    exact iff_of_true (by simp [PyVal.isAllowed, hmem]) ⟨hmem, hkeys, hextract⟩

end Texts

/-! ### What is stored -/

/-- The value with its candidate replaced: the `value` entry of a dictionary that has one. -/
def replaceCandidate (v candidate : PyVal) : PyVal :=
  match v with
  | .dict items =>
      if (PyVal.dictGet items "value").isSome then .dict (PyVal.dictSet items "value" candidate)
      else candidate
  | _ => candidate

/-- The note that the check of the allowed values leaves about a value, if it replaces it. -/
def canonicalNote (lib : FieldLibrary) (field : ExtractionFieldDefinition) (v : PyVal) :
    Option String :=
  (canonicalizeAllowedValue lib (allowedCandidate v) field.allowedValues).2

/-- The value as the check of the allowed values leaves it: replaced where there is a note about it,
and as it was otherwise. -/
def canonicalValue (lib : FieldLibrary) (field : ExtractionFieldDefinition) (v : PyVal) : PyVal :=
  if (canonicalNote lib field v).isSome then
    replaceCandidate v (canonicalizeAllowedValue lib (allowedCandidate v) field.allowedValues).1
  else v

section Records

variable {lib : FieldLibrary} {num : PyNumeric} {field : ExtractionFieldDefinition}
  {r r' : ExtractionFieldResult}

theorem setNormalizedCandidate_eq (r : ExtractionFieldResult) (candidate : PyVal) :
    setNormalizedCandidate r candidate =
      { r with normalizedValue := replaceCandidate r.normalizedValue candidate } := by
  unfold setNormalizedCandidate replaceCandidate
  cases r.normalizedValue with
  | dict items =>
    dsimp only
    split <;> rfl
  | none | bool | int | float | str | list | tuple | function | view | object => rfl

/-- Nothing is canonicalized without allowed values, or without a value. -/
theorem canonicalNote_of_skip (lib : FieldLibrary) {v : PyVal}
    (h : (field.allowedValues.isEmpty || v.isNone) = true) :
    canonicalNote lib field v = none := by
  unfold canonicalNote canonicalizeAllowedValue
  split
  · rfl
  · next hne =>
    have hnone : v.isNone = true := by simpa [hne] using h
    cases v <;> first | rfl | cases hnone

/-- **What the check of the allowed values does to a result.** -/
theorem checkAllowedValues_fst (lib : FieldLibrary) (field : ExtractionFieldDefinition)
    (r : ExtractionFieldResult) :
    (checkAllowedValues lib field r).1 =
      { r with
        normalizedValue := canonicalValue lib field r.normalizedValue
        extractionNotes := (canonicalNote lib field r.normalizedValue).elim r.extractionNotes
          (appendNote r.extractionNotes)
        requiresReview :=
          r.requiresReview || (canonicalNote lib field r.normalizedValue).isSome } := by
  by_cases hskip : (field.allowedValues.isEmpty || r.normalizedValue.isNone) = true
  · simp [checkAllowedValues, hskip, canonicalValue, canonicalNote_of_skip lib hskip]
  · unfold checkAllowedValues canonicalValue canonicalNote
    rw [if_neg hskip]
    cases canonicalizeAllowedValue lib (allowedCandidate r.normalizedValue)
      field.allowedValues with
    | mk candidate note =>
      cases note with
      | none => simp
      | some note => simp [setNormalizedCandidate_eq]

/-- The error of the check of the allowed values. -/
theorem checkAllowedValues_snd (lib : FieldLibrary) (field : ExtractionFieldDefinition)
    (r : ExtractionFieldResult) :
    (checkAllowedValues lib field r).2 =
      if field.allowedValues.isEmpty || r.normalizedValue.isNone then []
      else if (canonicalizeAllowedValue lib (allowedCandidate r.normalizedValue)
        field.allowedValues).1.isAllowed field.allowedValues then []
      else ["Value is outside allowed values."] := by
  unfold checkAllowedValues
  split <;> rfl

/-- **What a validation returns**, attribute by attribute, in terms of the value that went in. -/
theorem validateExtractedField_ok_iff :
    validateExtractedField lib num field r = .ok r' ↔
      ∃ schema pattern,
        checkFieldSchema lib field (canonicalValue lib field r.normalizedValue) = .ok schema ∧
        checkPattern lib num field.validation r.extractedValue = .ok pattern ∧
        r' = { r with
          normalizedValue := canonicalValue lib field r.normalizedValue
          extractionNotes := (canonicalNote lib field r.normalizedValue).elim r.extractionNotes
            (appendNote r.extractionNotes)
          validationErrors := missingErrors field r.normalizedValue ++
            (checkAllowedValues lib field r).2 ++ schema ++ pattern ++
            checkMaxLength num field.validation r.extractedValue
          validationStatus := if r'.validationErrors.isEmpty then .valid else .invalid
          requiresReview := r.requiresReview ||
            (canonicalNote lib field r.normalizedValue).isSome ||
            !r'.validationErrors.isEmpty } := by
  unfold validateExtractedField
  have hfst := checkAllowedValues_fst lib field r
  generalize checkAllowedValues lib field r = checked at hfst ⊢
  obtain ⟨result, outside⟩ := checked
  dsimp only at hfst ⊢
  subst hfst
  simp only [Failing.bind_ok]
  constructor
  -- Of the two checks that may raise, each returned; what follows is a record update.
  · rintro ⟨schema, hschema, pattern, hpattern, h⟩
    obtain rfl := Except.ok.inj h
    exact ⟨schema, pattern, hschema, hpattern, rfl⟩
  · rintro ⟨schema, pattern, hschema, hpattern, h⟩
    refine ⟨schema, hschema, pattern, hpattern, ?_⟩
    have herrors := congrArg ExtractionFieldResult.validationErrors h
    dsimp only at herrors
    rw [herrors] at h
    rw [h]
    rfl

/-! ### A second pass -/

/-- A value whose candidate is a text or a list, with the candidate replaced by another. -/
theorem allowedCandidate_replaceCandidate {v candidate : PyVal}
    (hold : (allowedCandidate v).isTextual = true) (hnew : candidate.isTextual = true) :
    allowedCandidate (replaceCandidate v candidate) = candidate := by
  have h := (setNormalizedCandidate_spec (r := ⟨"", "", .text, .none, v, .fin 0, "", none, none,
    none, "", .pending, [], "", false⟩) hold hnew).1
  rwa [setNormalizedCandidate_eq] at h

/-- What is canonicalized is not canonicalized again. -/
theorem canonicalizeAllowedValue_idem (hlib : lib.ExtractsChoice) (candidate : PyVal)
    (allowedValues : List String) :
    canonicalizeAllowedValue lib (canonicalizeAllowedValue lib candidate allowedValues).1
      allowedValues = ((canonicalizeAllowedValue lib candidate allowedValues).1, none) := by
  by_cases hempty : allowedValues.isEmpty = true
  · simp [canonicalizeAllowedValue, hempty]
  · cases candidate with
    | str s =>
      obtain ⟨t, ht⟩ := canonicalizeAllowedScalar_str lib s allowedValues
      have hidem := canonicalizeAllowedScalar_idem hlib allowedValues (.str s)
      simp only [canonicalizeAllowedValue, if_neg hempty]
      rw [ht] at hidem ⊢
      exact hidem
    | list items =>
      simp only [canonicalizeAllowedValue, if_neg hempty, List.map_map]
      -- every item of the result is where it stays
      have hitems : ((fun item => canonicalizeAllowedScalar lib item allowedValues) ∘ Prod.fst ∘
          fun item => canonicalizeAllowedScalar lib item allowedValues) =
          fun item => ((canonicalizeAllowedScalar lib item allowedValues).1, none) :=
        funext fun item => canonicalizeAllowedScalar_idem hlib allowedValues item
      rw [hitems]
      have hnotes : (items.map fun item =>
          ((canonicalizeAllowedScalar lib item allowedValues).1, (none : Option String))).filterMap
            Prod.snd = [] := by
        rw [List.filterMap_eq_nil_iff]
        intro out hout
        obtain ⟨item, -, rfl⟩ := List.mem_map.mp hout
        rfl
      rw [hnotes]
      rfl
    | none | bool | int | float | tuple | dict | function | view | object =>
      simp [canonicalizeAllowedValue]

/-- The candidate of what is stored is what the candidate is canonicalized to. -/
theorem allowedCandidate_canonicalValue (v : PyVal) :
    allowedCandidate (canonicalValue lib field v) =
      (canonicalizeAllowedValue lib (allowedCandidate v) field.allowedValues).1 := by
  unfold canonicalValue
  split
  · next hnote =>
    obtain ⟨note, hnote⟩ := Option.isSome_iff_exists.mp hnote
    obtain ⟨hold, hnew⟩ := canonicalizeAllowedValue_some hnote
    exact allowedCandidate_replaceCandidate hold hnew
  · next hnote =>
    exact (canonicalizeAllowedValue_none (by simpa [canonicalNote] using hnote)).symm

/-- A stored value has no note left. -/
theorem canonicalNote_canonicalValue (hlib : lib.ExtractsChoice) (v : PyVal) :
    canonicalNote lib field (canonicalValue lib field v) = none := by
  unfold canonicalNote
  rw [allowedCandidate_canonicalValue, canonicalizeAllowedValue_idem hlib]

theorem canonicalValue_of_note {v : PyVal} (h : canonicalNote lib field v = none) :
    canonicalValue lib field v = v := by
  simp [canonicalValue, h]

/-- A stored value is stored as it is. -/
theorem canonicalValue_idem (hlib : lib.ExtractsChoice) (v : PyVal) :
    canonicalValue lib field (canonicalValue lib field v) = canonicalValue lib field v :=
  canonicalValue_of_note (canonicalNote_canonicalValue hlib v)

theorem isNone_canonicalValue (v : PyVal) : (canonicalValue lib field v).isNone = v.isNone := by
  have h := (@checkAllowedValues_allowed lib field ⟨"", "", .text, .none, v, .fin 0, "", none, none,
    none, "", .pending, [], "", false⟩).1
  rwa [checkAllowedValues_fst] at h

/-- The second check of the allowed values finds what the first found. -/
theorem checkAllowedValues_snd_canonicalValue (hlib : lib.ExtractsChoice)
    (hvalue : r'.normalizedValue = canonicalValue lib field r.normalizedValue) :
    (checkAllowedValues lib field r').2 = (checkAllowedValues lib field r).2 := by
  rw [checkAllowedValues_snd, checkAllowedValues_snd, hvalue, isNone_canonicalValue,
    allowedCandidate_canonicalValue, canonicalizeAllowedValue_idem hlib]

theorem missingErrors_congr {v v' : PyVal} (h : v.isNone = v'.isNone) :
    missingErrors field v = missingErrors field v' := by
  unfold missingErrors
  rw [h]

/-- **Validating a validated result changes nothing.** -/
theorem validateExtractedField_idem (hlib : lib.ExtractsChoice)
    (h : validateExtractedField lib num field r = .ok r') :
    validateExtractedField lib num field r' = .ok r' := by
  obtain ⟨schema, pattern, hschema, hpattern, hresult⟩ := validateExtractedField_ok_iff.mp h
  have hvalue : r'.normalizedValue = canonicalValue lib field r.normalizedValue := by
    rw [hresult]
  have hextracted : r'.extractedValue = r.extractedValue := by rw [hresult]
  have herrors : r'.validationErrors = missingErrors field r.normalizedValue ++
      (checkAllowedValues lib field r).2 ++ schema ++ pattern ++
      checkMaxLength num field.validation r.extractedValue := by
    rw [hresult]
  have hnote : canonicalNote lib field r'.normalizedValue = none := by
    rw [hvalue, canonicalNote_canonicalValue hlib]
  have hsame : canonicalValue lib field r'.normalizedValue = r'.normalizedValue :=
    canonicalValue_of_note hnote
  refine validateExtractedField_ok_iff.mpr ⟨schema, pattern, ?_, ?_, ?_⟩
  · rwa [hsame, hvalue]
  · rwa [hextracted]
  · have hmissing : missingErrors field r'.normalizedValue =
        missingErrors field r.normalizedValue :=
      missingErrors_congr (by rw [hvalue, isNone_canonicalValue])
    rw [hsame, hnote, checkAllowedValues_snd_canonicalValue hlib hvalue, hextracted, hmissing,
      ← herrors]
    -- the flag was raised by the first pass, for a note or for the errors
    have hflag : (r'.requiresReview || !r'.validationErrors.isEmpty) = r'.requiresReview := by
      have hreview : r'.requiresReview = (r.requiresReview ||
          (canonicalNote lib field r.normalizedValue).isSome || !r'.validationErrors.isEmpty) :=
        congrArg ExtractionFieldResult.requiresReview hresult
      rw [hreview, Bool.or_assoc, Bool.or_self]
    have hstatus : r'.validationStatus =
        if r'.validationErrors.isEmpty then .valid else .invalid :=
      congrArg ExtractionFieldResult.validationStatus hresult
    simp only [Option.elim_none, Option.isSome_none, Bool.or_false]
    rw [hflag, ← hstatus, ← hextracted]

/-- Allowed texts have no note. -/
theorem canonicalNote_of_allowedIn {v : PyVal} (h : AllowedIn field.allowedValues v) :
    canonicalNote lib field v = none := by
  unfold canonicalNote canonicalizeAllowedValue
  unfold AllowedIn at h
  split
  · rfl
  · cases hcandidate : allowedCandidate v with
    | str s =>
      rw [hcandidate] at h
      have hmem : s ∈ field.allowedValues := by simpa [CandidateIn, PyVal.isAllowed] using h
      exact congrArg Prod.snd (canonicalizeAllowedScalar_of_mem hmem)
    | list items =>
      rw [hcandidate] at h
      have hnotes : (items.map fun item =>
          canonicalizeAllowedScalar lib item field.allowedValues).filterMap Prod.snd = [] := by
        rw [List.filterMap_eq_nil_iff]
        intro out hout
        obtain ⟨item, hitem, rfl⟩ := List.mem_map.mp hout
        obtain ⟨s, hs, rfl⟩ := isAllowed_iff.mp (h item hitem)
        rw [canonicalizeAllowedScalar_of_mem hs]
      dsimp only
      rw [hnotes]
      rfl
    | none | bool | int | float | tuple | dict | function | view | object => rfl

/-- **Validation is idempotent and canonicalization sound.**  A second pass changes nothing;
an allowed value stays; and a text either stays, without a note, or becomes an allowed value,
with a note that names both, and is flagged. -/
theorem validation_idempotent (hlib : lib.ExtractsChoice) (num : PyNumeric)
    (field : ExtractionFieldDefinition) (r : ExtractionFieldResult) :
    (validateExtractedField lib num field r >>= validateExtractedField lib num field) =
        validateExtractedField lib num field r ∧
      ∀ r', validateExtractedField lib num field r = .ok r' →
        (AllowedIn field.allowedValues r.normalizedValue →
          r'.normalizedValue = r.normalizedValue) ∧
        ∀ s, allowedCandidate r.normalizedValue = .str s →
          r'.normalizedValue = r.normalizedValue ∧ r'.extractionNotes = r.extractionNotes ∨
          ∃ a ∈ field.allowedValues, ∃ how,
            r'.normalizedValue = replaceCandidate r.normalizedValue (.str a) ∧
            r'.extractionNotes = appendNote r.extractionNotes (canonicalizedNote s a how) ∧
            r'.requiresReview = true := by
  constructor
  · cases h : validateExtractedField lib num field r with
    | error e => rfl
    | ok r' => exact (Failing.bind_of_ok rfl).trans (validateExtractedField_idem hlib h)
  · intro r' h
    obtain ⟨schema, pattern, -, -, hresult⟩ := validateExtractedField_ok_iff.mp h
    have hvalue : r'.normalizedValue = canonicalValue lib field r.normalizedValue := by
      rw [hresult]
    have hnotes : r'.extractionNotes = (canonicalNote lib field r.normalizedValue).elim
        r.extractionNotes (appendNote r.extractionNotes) := by
      rw [hresult]
    have hreview : r'.requiresReview = (r.requiresReview ||
        (canonicalNote lib field r.normalizedValue).isSome || !r'.validationErrors.isEmpty) :=
      congrArg ExtractionFieldResult.requiresReview hresult
    -- without a note nothing about the value was changed
    have hstays : canonicalNote lib field r.normalizedValue = none →
        r'.normalizedValue = r.normalizedValue ∧ r'.extractionNotes = r.extractionNotes := by
      intro hnone
      rw [hvalue, hnotes, canonicalValue_of_note hnone, hnone]
      exact ⟨rfl, rfl⟩
    refine ⟨fun hallowed => (hstays (canonicalNote_of_allowedIn hallowed)).1, ?_⟩
    intro s hs
    by_cases hempty : field.allowedValues.isEmpty = true
    · exact Or.inl (hstays (canonicalNote_of_skip lib (by rw [hempty, Bool.true_or])))
    · have hscalar : canonicalizeAllowedValue lib (allowedCandidate r.normalizedValue)
          field.allowedValues = canonicalizeAllowedScalar lib (.str s) field.allowedValues := by
        rw [hs, canonicalizeAllowedValue, if_neg hempty]
      -- the text stays, or an allowed value takes its place with a note
      rcases canonicalizeAllowedScalar_cases hlib field.allowedValues s with
        hsame | ⟨-, a, ha, how, hout⟩
      · refine Or.inl (hstays ?_)
        rw [canonicalNote, hscalar, hsame]
      · have hnote : canonicalNote lib field r.normalizedValue =
            some (canonicalizedNote s a how) := by
          rw [canonicalNote, hscalar, hout]
        refine Or.inr ⟨a, ha, how, ?_, ?_, ?_⟩
        · rw [hvalue, canonicalValue, hnote, Option.isSome_some, if_pos rfl, hscalar, hout]
        · rw [hnotes, hnote]
          rfl
        · rw [hreview, hnote]
          simp

/-- A field of payment terms. -/
def termsField : ExtractionFieldDefinition where
  name := "payment_terms"
  label := "Payment terms"
  type := .category
  allowedValues := ["Net 30", "Net 60"]

/-- Payment terms as they come in. -/
def termsResult (value : PyVal) : ExtractionFieldResult where
  fieldName := "payment_terms"
  label := "Payment terms"
  dataType := .category
  normalizedValue := value

/-- A matcher that finds nothing returns no other text. -/
theorem extractsChoice_plain : plainFieldLibrary.ExtractsChoice := by
  intro s choices a h
  cases h

/-- Terms with a hyphen are replaced in the first validation, and the second finds nothing left to
do. -/
theorem validation_idempotent_terms :
    (validateExtractedField plainFieldLibrary plainRuntime.num termsField
        (termsResult (.str "net-30")) >>=
      validateExtractedField plainFieldLibrary plainRuntime.num termsField) =
    validateExtractedField plainFieldLibrary plainRuntime.num termsField
      (termsResult (.str "net-30")) :=
  (validation_idempotent extractsChoice_plain _ _ _).1

/-! ### Lists -/

/-- The check of a list of texts reports it when an item, canonicalized, is outside. -/
def ItemsChecked (lib : FieldLibrary) (allowedValues items : List String)
    (r' : ExtractionFieldResult) : Prop :=
  "Value is outside allowed values." ∈ r'.validationErrors ↔
    ∃ s ∈ items,
      (canonicalizeAllowedScalar lib (.str s) allowedValues).1.isAllowed allowedValues = false

/-- A list comes out as a list. -/
theorem canonicalizeAllowedValue_list (lib : FieldLibrary) (items : List PyVal)
    (allowedValues : List String) :
    ∃ items', (canonicalizeAllowedValue lib (.list items) allowedValues).1 = .list items' := by
  unfold canonicalizeAllowedValue
  split
  · exact ⟨items, rfl⟩
  · exact ⟨_, rfl⟩

/-- Every list is reported. -/
theorem outside_of_list {items : List PyVal} (hallowed : field.allowedValues ≠ [])
    (hlist : allowedCandidate r.normalizedValue = .list items)
    (h : validateExtractedField lib num field r = .ok r') :
    "Value is outside allowed values." ∈ r'.validationErrors := by
  have hsome : r.normalizedValue.isNone = false := by
    cases hv : r.normalizedValue with
    | none => rw [hv] at hlist; cases hlist
    | bool | int | float | str | list | tuple | dict | function | view | object => rfl
  have houtside : (checkAllowedValues lib field r).2 = ["Value is outside allowed values."] := by
    obtain ⟨items', hitems'⟩ := canonicalizeAllowedValue_list lib items field.allowedValues
    rw [checkAllowedValues_snd, hlist, hitems', if_neg (by simp [hallowed, hsome])]
    rfl
  obtain ⟨schema, pattern, -, -, hresult⟩ := validateExtractedField_ok_iff.mp h
  rw [hresult, houtside]
  simp

/-- **Which lists are checked item by item**: those with an item that has no match.  A list
of allowed values is reported as well. -/
theorem list_items_checked_iff (hlib : lib.ExtractsChoice) (hallowed : field.allowedValues ≠ [])
    {items : List String}
    (hlist : allowedCandidate r.normalizedValue = .list (items.map PyVal.str))
    (h : validateExtractedField lib num field r = .ok r') :
    ItemsChecked lib field.allowedValues items r' ↔
      ∃ s ∈ items, Unmatched lib field.allowedValues s := by
  unfold ItemsChecked
  rw [iff_true_left (outside_of_list hallowed hlist h)]
  refine exists_congr fun s => and_congr_right fun _ => ?_
  exact isAllowed_canonicalizeAllowedScalar hlib

end Records

/-- A list with terms that are not allowed is reported, and they are unmatched. -/
theorem list_items_checked_iff_terms :
    ItemsChecked plainFieldLibrary termsField.allowedValues ["Net 45"]
        { termsResult (.list [.str "Net 45"]) with
          validationErrors := ["Value is outside allowed values."]
          validationStatus := .invalid
          requiresReview := true } ↔
      ∃ s ∈ ["Net 45"], Unmatched plainFieldLibrary termsField.allowedValues s := by
  have h : validateExtractedField plainFieldLibrary plainRuntime.num termsField
      (termsResult (.list [.str "Net 45"])) =
      .ok { termsResult (.list [.str "Net 45"]) with
        validationErrors := ["Value is outside allowed values."]
        validationStatus := .invalid
        requiresReview := true } := rfl
  exact list_items_checked_iff extractsChoice_plain (by decide) rfl h

/-- **A list of allowed values is reported**, although each item is allowed. -/
theorem allowed_list_reported :
    ¬ ∀ (lib : FieldLibrary) (field : ExtractionFieldDefinition) (r r' : ExtractionFieldResult)
      (items : List String), lib.ExtractsChoice → field.allowedValues ≠ [] →
      allowedCandidate r.normalizedValue = .list (items.map PyVal.str) →
      validateExtractedField lib plainRuntime.num field r = .ok r' →
      ItemsChecked lib field.allowedValues items r' := by
  intro hclaim
  have hchecked := hclaim plainFieldLibrary termsField (termsResult (.list [.str "Net 30"]))
    { termsResult (.list [.str "Net 30"]) with
      validationErrors := ["Value is outside allowed values."]
      validationStatus := .invalid
      requiresReview := true } ["Net 30"] extractsChoice_plain (by decide) rfl rfl
  obtain ⟨s, hs, houtside⟩ := hchecked.mp (List.mem_singleton_self _)
  obtain rfl := List.mem_singleton.mp hs
  have hmem : "Net 30" ∈ termsField.allowedValues := List.mem_cons_self ..
  rw [canonicalizeAllowedScalar_of_mem hmem] at houtside
  cases houtside

/-! ### The order of the allowed values -/

section Order

variable {lib : FieldLibrary} {s : String} {allowedValues : List String}

/-- A text with the letters and digits of an allowed value becomes the first of them. -/
theorem canonicalizeAllowedScalar_of_find? {a : String} (hmem : s ∉ allowedValues)
    (hfind : allowedValues.find? (fun a => SameKey lib a s) = some a) :
    (canonicalizeAllowedScalar lib (.str s) allowedValues).1 = .str a := by
  have hstage := canonicalizeAllowedScalar_stage lib allowedValues s
  generalize canonicalizeAllowedScalar lib (.str s) allowedValues = out at hstage ⊢
  have hsame : SameKey lib a s := by simpa using List.find?_some hfind
  cases hstage with
  | exact h => exact absurd h hmem
  | key b _ hfind' => rw [Option.some.inj (hfind'.symm.trans hfind)]
  | fuzzy b _ hkeys _ | unknown _ hkeys _ =>
    exact absurd hsame (hkeys a (List.mem_of_find?_eq_some hfind))

/-- One allowed value first: it is taken. -/
theorem canonicalizeAllowedScalar_cons {a : String} {rest : List String} (hmem : s ∉ a :: rest)
    (hsame : SameKey lib a s) :
    (canonicalizeAllowedScalar lib (.str s) (a :: rest)).1 = .str a :=
  canonicalizeAllowedScalar_of_find? hmem (by rw [List.find?_cons_of_pos (by simpa using hsame)])

/-- **When the order of the allowed values does not matter**: when the text is one of them,
or only one has its letters and digits.  Otherwise the first that has them is taken. -/
theorem order_independent_iff (hkey : ∃ a ∈ allowedValues, SameKey lib a s) :
    ((∀ allowedValues', allowedValues'.Perm allowedValues →
        (canonicalizeAllowedScalar lib (.str s) allowedValues').1 =
          (canonicalizeAllowedScalar lib (.str s) allowedValues).1) ↔
      s ∈ allowedValues ∨ ∀ a ∈ allowedValues, ∀ b ∈ allowedValues,
        SameKey lib a s → SameKey lib b s → a = b) ∧
    (s ∉ allowedValues → ∃ a, allowedValues.find? (fun a => SameKey lib a s) = some a ∧
      (canonicalizeAllowedScalar lib (.str s) allowedValues).1 = .str a) := by
  have hfirst : ∀ allowedValues' : List String, allowedValues'.Perm allowedValues →
      ∃ a, allowedValues'.find? (fun a => SameKey lib a s) = some a := by
    intro allowedValues' hperm
    obtain ⟨a, ha, hsame⟩ := hkey
    exact Option.isSome_iff_exists.mp
      (List.find?_isSome.mpr ⟨a, hperm.mem_iff.mpr ha, by simpa using hsame⟩)
  refine ⟨⟨?_, ?_⟩, ?_⟩
  · intro horder
    by_contra hno
    rw [not_or] at hno
    obtain ⟨hmem, hdistinct⟩ := hno
    -- put either of two values first
    have hswap : ∀ a ∈ allowedValues, SameKey lib a s →
        (canonicalizeAllowedScalar lib (.str s) allowedValues).1 = .str a := by
      intro a ha hsame
      have hperm := (List.perm_cons_erase ha).symm
      rw [← horder _ hperm]
      exact canonicalizeAllowedScalar_cons (fun h => hmem (hperm.mem_iff.mp h)) hsame
    refine hdistinct fun a ha b hb hsame hsame' => ?_
    exact PyVal.str.inj ((hswap a ha hsame).symm.trans (hswap b hb hsame'))
  · rintro (hmem | hunique) allowedValues' hperm
    · rw [canonicalizeAllowedScalar_of_mem hmem,
        canonicalizeAllowedScalar_of_mem (hperm.mem_iff.mpr hmem)]
    · by_cases hmem : s ∈ allowedValues
      · rw [canonicalizeAllowedScalar_of_mem hmem,
          canonicalizeAllowedScalar_of_mem (hperm.mem_iff.mpr hmem)]
      · obtain ⟨a, ha⟩ := hfirst allowedValues' hperm
        obtain ⟨b, hb⟩ := hfirst allowedValues (List.Perm.refl _)
        rw [canonicalizeAllowedScalar_of_find? (fun h => hmem (hperm.mem_iff.mp h)) ha,
          canonicalizeAllowedScalar_of_find? hmem hb]
        refine congrArg PyVal.str (hunique a ?_ b (List.mem_of_find?_eq_some hb) ?_ ?_)
        · exact hperm.mem_iff.mp (List.mem_of_find?_eq_some ha)
        · simpa using List.find?_some ha
        · simpa using List.find?_some hb
  · intro hmem
    obtain ⟨a, ha⟩ := hfirst allowedValues (List.Perm.refl _)
    exact ⟨a, ha, canonicalizeAllowedScalar_of_find? hmem ha⟩

end Order

/-- One allowed value has the letters of `net-30`, so the order of the list does not matter. -/
theorem order_independent_iff_terms :
    ∃ a, termsField.allowedValues.find? (fun a => SameKey plainFieldLibrary a "net-30") = some a ∧
      (canonicalizeAllowedScalar plainFieldLibrary (.str "net-30") termsField.allowedValues).1 =
        .str a :=
  (order_independent_iff ⟨"Net 30", by decide, by decide⟩).2 (by decide)

/-- **Values that differ in punctuation are confused**: `c` becomes the one that is first. -/
theorem order_decides :
    ¬ ∀ (lib : FieldLibrary) (s : String) (allowedValues : List String), allowedValues.Nodup →
      (∃ a ∈ allowedValues, SameKey lib a s) →
      ∀ allowedValues', allowedValues'.Perm allowedValues →
        (canonicalizeAllowedScalar lib (.str s) allowedValues').1 =
          (canonicalizeAllowedScalar lib (.str s) allowedValues).1 := by
  intro hclaim
  have hsame := hclaim plainFieldLibrary "c" ["C++", "C#"] (by decide)
    ⟨"C++", by decide, by decide⟩ ["C#", "C++"] (List.Perm.swap ..)
  rw [canonicalizeAllowedScalar_cons (by decide) (by decide),
    canonicalizeAllowedScalar_cons (by decide) (by decide)] at hsame
  exact absurd (PyVal.str.inj hsame) (by decide)

end ExtractFlow
