import ExtractFlow.CalculationMeaning
import ExtractFlow.DependencySort
import ExtractFlow.DryRun
import ExtractFlow.ReviewComposition

/-!
# The eval harness

`run_eval_case` (`worker/app/services/langextract_eval.py`) runs an extraction on a text and
compares the summary with what a case expects.  It counts the checks that failed, and keeps a
list of mismatches beside the count.

An expected field that is missing from the summary adds a mismatch, but counts as many
failures as the expectation has values: none, if it has none.  And the two kinds of fields are
compared by the same keys, although the value of a calculated field has another name.

## Main definitions

* `EvalLibrary.valuesMatch` — `values_match`, with a tolerance for numbers.
* `EvalLibrary.evalSummary`, `EvalLibrary.runEvalCase` — the comparison, and the run before it.
* `EvalLibrary.Meets` — every check a case makes holds.
* `readOff` — the expectations a summary has of itself.

## Main results

* `passes_iff_meets` — a case passes when every check holds.
* `valuesMatch_self_iff` — which values match themselves.
* `eval_harness_iff` — when the verdict agrees with the mismatches, and when a summary passes
  its own expectations.
-/

namespace ExtractFlow

/-! ### Values -/

/-- What the harness takes from the interpreter: comparisons, case folding, and the texts of values
in its messages. -/
structure EvalLibrary where
  py : Python
  casefold : String → String
  repr : PyVal → String

/-- `abs(x)`. -/
def PyFloat.magnitude : PyFloat → PyFloat
  | .fin q => .fin |q|
  | .inf => .inf
  | .negInf => .inf
  | .nan => .nan

/-- The default `rel_tol`, the double next to 10 to the -9. -/
def relTol : PyFloat := .fin (mkRat 4835703278458517 4835703278458516698824704)

/-- The double next to 0.01. -/
def absTol : PyFloat := .fin (mkRat 5764607523034235 576460752303423488)

/-- `math.isclose(a, b, abs_tol=0.01)`. -/
def FloatArithmetic.isClose (floats : FloatArithmetic) (a b : PyFloat) : Bool :=
  if a.eq b then true
  else
    match a, b with
    | .fin p, .fin q =>
        let difference := (floats.add (.fin q) (.fin (-p))).magnitude
        difference.le (floats.mul relTol (.fin q)).magnitude ||
          difference.le (floats.mul relTol (.fin p)).magnitude || difference.le absTol
    | _, _ => false

/-- `re.sub(r"\s+", " ", s)`, behind white space or not. -/
def collapseSpaces : Bool → List Char → List Char
  | _, [] => []
  | behind, c :: cs =>
      if isPySpace c then
        if behind then collapseSpaces true cs else ' ' :: collapseSpaces true cs
      else c :: collapseSpaces false cs

/-- The first comparison, and then the others. -/
def bothMatch (first rest : Except PyErr Bool) : Except PyErr Bool :=
  first >>= fun ok => if ok then rest else .ok false

namespace EvalLibrary

variable (lib : EvalLibrary)

/-- `normalize_string`. -/
def normalizeString (value : String) : String :=
  let normalized := value.toList.map fun c => if c = '-' ∨ c = '_' then ' ' else c
  lib.casefold (pyStrip (String.ofList (collapseSpaces false normalized)))

/-- `float(v)` of a number. -/
def floatOf : PyVal → Except PyErr PyFloat
  | .int i => (lib.py.floats.ofInt i).elim (.error (.other "OverflowError")) .ok
  | .float x => .ok x
  | _ => .error .typeError

/-- An `int` or a `float`, and no `bool`. -/
def isPlainNumber : PyVal → Bool
  | .int _ => true
  | .float _ => true
  | _ => false

/-- The comparison of an expected number. -/
def numbersMatch (expected actual : PyVal) : Except PyErr Bool :=
  if isPlainNumber actual then do
    let x ← lib.floatOf expected
    let y ← lib.floatOf actual
    return lib.py.floats.isClose x y
  else .ok false

mutual

/-- `values_match`: numbers match within a tolerance, texts up to case and blanks, lists item by
item, and objects on the keys that are expected. -/
def valuesMatch : PyVal → PyVal → Except PyErr Bool
  | .int i, actual => lib.numbersMatch (.int i) actual
  | .float x, actual => lib.numbersMatch (.float x) actual
  | .str s, .str t => .ok (lib.normalizeString s == lib.normalizeString t)
  | .str _, _ => .ok false
  | .list xs, .list ys =>
      if xs.length = ys.length then valuesMatchItems xs ys else .ok false
  | .list _, _ => .ok false
  | .dict items, .dict entries => valuesMatchEntries entries items
  | .dict _, _ => .ok false
  | expected, actual => .ok (lib.py.eq expected actual)

/-- The items of two lists, pair by pair. -/
def valuesMatchItems : List PyVal → List PyVal → Except PyErr Bool
  | x :: xs, y :: ys => bothMatch (valuesMatch x y) (valuesMatchItems xs ys)
  | _, _ => .ok true

/-- The expected entries, each against the entry of its key. -/
def valuesMatchEntries (entries : List (String × PyVal)) :
    List (String × PyVal) → Except PyErr Bool
  | [] => .ok true
  | (key, value) :: items =>
      bothMatch
        (match PyVal.dictGet entries key with
          | some actual => valuesMatch value actual
          | none => .ok false)
        (valuesMatchEntries entries items)

end

end EvalLibrary

/-! ### Cases -/

/-- What a case expects of a field; an attribute that is absent is not checked. -/
structure LangExtractEvalFieldExpectation where
  extractedValue : PyVal := .none
  normalizedValue : PyVal := .none
  requiresReview : Option Bool := none
  deriving Inhabited

/-- What a case expects of the summary: fields, flags and notes. -/
structure EvalExpectations where
  expectedFields : List (String × LangExtractEvalFieldExpectation) := []
  expectedCalculatedFields : List (String × LangExtractEvalFieldExpectation) := []
  expectedReviewFlags : List String := []
  expectedDocumentLevelNoteSubstrings : List String := []

/-- A case. The last field is what `validate_expectations_present` checks: it expects something at
all. -/
structure LangExtractEvalCase where
  name : String
  documentText : String
  templateDefinition : ExtractionTemplate
  providerOverride : Option LLMProviderSettings := none
  sourcePath : Option String := none
  expectations : EvalExpectations
  present : ¬ (expectations.expectedFields = [] ∧ expectations.expectedCalculatedFields = [] ∧
    expectations.expectedReviewFlags = [] ∧
    expectations.expectedDocumentLevelNoteSubstrings = [])

/-- A mismatch, as it is reported. -/
structure LangExtractEvalMismatch where
  category : String
  subject : String
  detail : String
  deriving DecidableEq, Repr

/-- What the harness reports of a case; it has passed when no check failed. -/
structure LangExtractEvalCaseResult where
  name : String
  sourcePath : Option String
  providerSummary : LLMProviderSettings
  passed : Bool
  matchedChecks : ℕ
  failedChecks : ℕ
  mismatches : List LangExtractEvalMismatch

/-- `count_field_expectations`. -/
def countFieldExpectations (expectation : LangExtractEvalFieldExpectation) : ℕ :=
  (if expectation.extractedValue.isNone then 0 else 1) +
    (if expectation.normalizedValue.isNone then 0 else 1) +
    (if expectation.requiresReview.isNone then 0 else 1)

/-! ### The comparison -/

/-- The counts of the checks, and the mismatches beside them, which are counted apart. -/
structure EvalTally where
  matched : ℕ := 0
  failed : ℕ := 0
  mismatches : List LangExtractEvalMismatch := []

/-- One check. -/
def EvalTally.record (t : EvalTally) (ok : Bool) (mismatch : LangExtractEvalMismatch) :
    EvalTally :=
  if ok then { t with matched := t.matched + 1 }
  else { t with failed := t.failed + 1, mismatches := t.mismatches ++ [mismatch] }

/-- Both tallies. -/
def EvalTally.add (t u : EvalTally) : EvalTally where
  matched := t.matched + u.matched
  failed := t.failed + u.failed
  mismatches := t.mismatches ++ u.mismatches

/-- The stored dictionary of an extracted field. -/
def ExtractionFieldResult.record (f : ExtractionFieldResult) : List (String × PyVal) :=
  [("field_name", .str f.fieldName), ("label", .str f.label),
    ("extracted_value", f.extractedValue), ("normalized_value", f.normalizedValue),
    ("requires_review", .bool f.requiresReview)]

/-- The stored dictionary of a calculated field. -/
def CalculatedFieldResult.record (c : CalculatedFieldResult) : List (String × PyVal) :=
  [("field_name", .str c.fieldName), ("label", .str c.label),
    ("calculated_value", c.calculatedValue), ("display_value", .str c.displayValue),
    ("requires_review", .bool c.requiresReview)]

/-- `extracted_fields`: the record of a name, of the last field that has it. -/
def extractedRecord (s : ExtractionValidationSummary) (name : String) :
    Option (List (String × PyVal)) :=
  (s.extractedFields.reverse.find? fun f => f.fieldName == name).map ExtractionFieldResult.record

/-- `calculated_fields`. -/
def calculatedRecord (s : ExtractionValidationSummary) (name : String) :
    Option (List (String × PyVal)) :=
  (s.calculatedFields.reverse.find? fun c => c.fieldName == name).map CalculatedFieldResult.record

namespace EvalLibrary

variable (lib : EvalLibrary)

/-- `actual.get(key)`. -/
def recordGet (actual : List (String × PyVal)) (key : String) : PyVal :=
  (PyVal.dictGet actual key).getD .none

/-- The check of one expected value, if there is one. -/
def checkValue (category name key : String) (expected : PyVal) (actual : List (String × PyVal))
    (t : EvalTally) : Except PyErr EvalTally :=
  if expected.isNone then .ok t
  else do
    let ok ← lib.valuesMatch expected (recordGet actual key)
    return t.record ok
      { category := category, subject := name
        detail := key ++ " mismatch: expected " ++ lib.repr expected ++ ", got " ++
          lib.repr (recordGet actual key) }

/-- The check of the flag, if one is expected. -/
def checkReview (category name : String) (expected : Option Bool)
    (actual : List (String × PyVal)) (t : EvalTally) : EvalTally :=
  match expected with
  | none => t
  | some flag =>
      t.record (lib.py.eq (.bool flag) (recordGet actual "requires_review"))
        { category := category, subject := name
          detail := "requires_review mismatch: expected " ++ lib.repr (.bool flag) ++ ", got " ++
            lib.repr (recordGet actual "requires_review") }

/-- One turn of `compare_expected_fields`. -/
def compareExpectedField (actualFields : String → Option (List (String × PyVal)))
    (category : String) (t : EvalTally) (entry : String × LangExtractEvalFieldExpectation) :
    Except PyErr EvalTally :=
  match actualFields entry.1 with
  | none =>
      .ok { t with
        failed := t.failed + countFieldExpectations entry.2
        mismatches := t.mismatches ++
          [{ category := category, subject := entry.1
             detail := "field missing from extraction output" }] }
  | some actual => do
      let t ← lib.checkValue category entry.1 "extracted_value" entry.2.extractedValue actual t
      let t ← lib.checkValue category entry.1 "normalized_value" entry.2.normalizedValue actual t
      return lib.checkReview category entry.1 entry.2.requiresReview actual t

/-- `compare_expected_fields`. -/
def compareExpectedFields (actualFields : String → Option (List (String × PyVal)))
    (category : String) (expected : List (String × LangExtractEvalFieldExpectation)) :
    Except PyErr EvalTally :=
  expected.foldlM (lib.compareExpectedField actualFields category) {}

/-- The check of the review flags. -/
def checkFlags (expected actual : List String) (t : EvalTally) : EvalTally :=
  t.record (sortedNames expected == sortedNames actual)
    { category := "review_flags", subject := "fields_requiring_review"
      detail := "expected " ++ lib.repr (.list ((sortedNames expected).map .str)) ++ ", got " ++
        lib.repr (.list ((sortedNames actual).map .str)) }

/-- A note of the summary contains the text. -/
def noteFound (notes : List String) (expected : String) : Bool :=
  notes.any fun note =>
    containsChars (lib.normalizeString expected).toList (lib.normalizeString note).toList

/-- The check of one note. -/
def checkNote (notes : List String) (t : EvalTally) (expected : String) : EvalTally :=
  t.record (lib.noteFound notes expected)
    { category := "document_note", subject := expected
      detail := "expected note containing " ++ lib.repr (.str expected) ++ ", got " ++
        lib.repr (.list (notes.map .str)) }

/-- The tally of a case and a summary. -/
def evalTally (expectations : EvalExpectations) (summary : ExtractionValidationSummary) :
    Except PyErr EvalTally := do
  let fields ← lib.compareExpectedFields (extractedRecord summary) "field"
    expectations.expectedFields
  let calculated ← lib.compareExpectedFields (calculatedRecord summary) "calculated_field"
    expectations.expectedCalculatedFields
  let t := lib.checkFlags expectations.expectedReviewFlags summary.fieldsRequiringReview
    (fields.add calculated)
  return expectations.expectedDocumentLevelNoteSubstrings.foldl
    (lib.checkNote summary.documentLevelNotes) t

/-- `run_eval_case` behind `execute_extraction`: the tally of the checks on the summary. -/
def evalSummary (case : LangExtractEvalCase) (summary : ExtractionValidationSummary) :
    Except PyErr LangExtractEvalCaseResult := do
  let t ← lib.evalTally case.expectations summary
  return { name := case.name, sourcePath := case.sourcePath
           providerSummary := summary.llmProvider
           passed := t.failed == 0, matchedChecks := t.matched, failedChecks := t.failed
           mismatches := t.mismatches }

end EvalLibrary

/-! ### The run -/

/-- `LANGEXTRACT_EVAL_BASE_URL` and `LANGEXTRACT_EVAL_MODEL`, which are empty if they are
not set. -/
structure EvalRuntimeOverrides where
  baseUrl : String := ""
  model : String := ""

/-- `apply_eval_runtime_overrides`. -/
def EvalRuntimeOverrides.apply (overrides : EvalRuntimeOverrides) (template : ExtractionTemplate) :
    ExtractionTemplate :=
  { template with
    llmProviderSettings := { template.llmProviderSettings with
      baseUrl := if overrides.baseUrl = "" then template.llmProviderSettings.baseUrl
        else some overrides.baseUrl
      model := if overrides.model = "" then template.llmProviderSettings.model
        else overrides.model } }

/-- The world with the text of a case at the path of its document. -/
def ExtractionWorld.withDocument (w : ExtractionWorld) (documentPath text : String) :
    ExtractionWorld :=
  { w with read := fun reader path => if path = documentPath then .ok text else w.read reader path }

/-- The extraction of a case: the document holds its text, and its template runs under the
overrides. -/
def LangExtractEvalCase.extract (w : ExtractionWorld) (deployment : DeploymentSettings)
    (overrides : EvalRuntimeOverrides) (documentPath : String) (case : LangExtractEvalCase) :
    Except PyErr ExtractionValidationSummary :=
  executeExtraction (w.withDocument documentPath case.documentText) deployment documentPath 1
    (overrides.apply case.templateDefinition) case.providerOverride none

/-- `run_eval_case`: the extraction of the case, and the checks of what came of it. -/
def EvalLibrary.runEvalCase (lib : EvalLibrary) (w : ExtractionWorld)
    (deployment : DeploymentSettings) (overrides : EvalRuntimeOverrides) (documentPath : String)
    (case : LangExtractEvalCase) : Except PyErr LangExtractEvalCaseResult := do
  let summary ← case.extract w deployment overrides documentPath
  lib.evalSummary case summary

/-! ### What a tally shows -/

/-- From one tally to the next: what decides whether the count of failures stays at zero, and
what decides whether the list of mismatches stays empty. -/
def EvalTally.Judged (t t' : EvalTally) (met shown : Prop) : Prop :=
  (t'.failed = 0 ↔ t.failed = 0 ∧ met) ∧ (t'.mismatches = [] ↔ t.mismatches = [] ∧ shown)

/-- A tally with itself. -/
theorem EvalTally.judged_self (t : EvalTally) : t.Judged t True True := by
  simp [EvalTally.Judged]

/-- Two stretches of a tally. -/
theorem EvalTally.Judged.trans {t t' t'' : EvalTally} {met shown met' shown' : Prop}
    (h : t.Judged t' met shown) (h' : t'.Judged t'' met' shown') :
    t.Judged t'' (met ∧ met') (shown ∧ shown') :=
  ⟨by rw [h'.1, h.1, and_assoc], by rw [h'.2, h.2, and_assoc]⟩

/-- The same stretch, with its conditions in other words. -/
theorem EvalTally.Judged.congr {t t' : EvalTally} {met shown met' shown' : Prop}
    (h : t.Judged t' met shown) (hmet : met ↔ met') (hshown : shown ↔ shown') :
    t.Judged t' met' shown' := by
  rwa [hmet, hshown] at h

/-- One check counts where it shows. -/
theorem EvalTally.judged_record (t : EvalTally) (ok : Bool) (mismatch : LangExtractEvalMismatch) :
    t.Judged (t.record ok mismatch) (ok = true) (ok = true) := by
  cases ok with
  | true => simp [EvalTally.Judged, EvalTally.record]
  | false => simp [EvalTally.Judged, EvalTally.record]

/-- Two tallies that were begun apart. -/
theorem EvalTally.judged_add {t u : EvalTally} {met shown met' shown' : Prop}
    (ht : EvalTally.Judged {} t met shown) (hu : EvalTally.Judged {} u met' shown') :
    EvalTally.Judged {} (t.add u) (met ∧ met') (shown ∧ shown') := by
  obtain ⟨htf, htm⟩ := ht
  obtain ⟨huf, hum⟩ := hu
  simp only [true_and] at htf htm huf hum
  refine ⟨?_, ?_⟩
  · rw [← htf, ← huf]
    simp [EvalTally.add]
  · rw [← htm, ← hum]
    simp [EvalTally.add]

namespace EvalLibrary

variable (lib : EvalLibrary)

/-- The check of one value holds. -/
def ValueMet (expected actual : PyVal) : Prop :=
  expected.isNone = true ∨ lib.valuesMatch expected actual = .ok true

/-- The checks of an expected field hold against the record found.  Where none is found, as
many checks fail as the expectation has values. -/
def FieldMet (expectation : LangExtractEvalFieldExpectation) :
    Option (List (String × PyVal)) → Prop
  | none => countFieldExpectations expectation = 0
  | some actual =>
      lib.ValueMet expectation.extractedValue (recordGet actual "extracted_value") ∧
        lib.ValueMet expectation.normalizedValue (recordGet actual "normalized_value") ∧
        ∀ flag, expectation.requiresReview = some flag →
          lib.py.eq (.bool flag) (recordGet actual "requires_review") = true

/-- Every check that a case makes of a summary holds, those of calculated fields included. -/
structure Meets (expectations : EvalExpectations) (summary : ExtractionValidationSummary) :
    Prop where
  fields : ∀ entry ∈ expectations.expectedFields,
    lib.FieldMet entry.2 (extractedRecord summary entry.1)
  calculated : ∀ entry ∈ expectations.expectedCalculatedFields,
    lib.FieldMet entry.2 (calculatedRecord summary entry.1)
  flags : sortedNames expectations.expectedReviewFlags =
    sortedNames summary.fieldsRequiringReview
  notes : ∀ note ∈ expectations.expectedDocumentLevelNoteSubstrings,
    lib.noteFound summary.documentLevelNotes note = true

/-- Every field that a case names is in the summary. -/
def NamesPresent (expectations : EvalExpectations) (summary : ExtractionValidationSummary) :
    Prop :=
  (∀ entry ∈ expectations.expectedFields, (extractedRecord summary entry.1).isSome = true) ∧
    ∀ entry ∈ expectations.expectedCalculatedFields,
      (calculatedRecord summary entry.1).isSome = true

variable {lib}

/-- What the check of a value does. -/
theorem checkValue_judged {category name key : String} {expected : PyVal}
    {actual : List (String × PyVal)} {t t' : EvalTally}
    (h : lib.checkValue category name key expected actual t = .ok t') :
    t.Judged t' (lib.ValueMet expected (recordGet actual key))
      (lib.ValueMet expected (recordGet actual key)) := by
  unfold checkValue at h
  split at h
  · next hnone =>
    obtain rfl := Except.ok.inj h
    have hmet : lib.ValueMet expected (recordGet actual key) := Or.inl hnone
    exact t.judged_self.congr (iff_of_true trivial hmet) (iff_of_true trivial hmet)
  · next hsome =>
    obtain ⟨ok, hok, h⟩ := Failing.bind_ok.mp h
    obtain rfl := Except.ok.inj h
    have hmet : ok = true ↔ lib.ValueMet expected (recordGet actual key) := by
      unfold ValueMet
      rw [hok]
      simp [hsome]
    exact (t.judged_record ok _).congr hmet hmet

/-- A value that is met can be checked. -/
theorem checkValue_returns (category name : String) {key : String} {expected : PyVal}
    {actual : List (String × PyVal)} (t : EvalTally)
    (h : lib.ValueMet expected (recordGet actual key)) :
    ∃ t', lib.checkValue category name key expected actual t = .ok t' := by
  unfold checkValue
  split
  · exact ⟨_, rfl⟩
  · next hsome =>
    rcases h with hnone | hmatch
    · exact absurd hnone hsome
    · exact ⟨_, Failing.bind_of_ok hmatch⟩

/-- What the check of a flag does. -/
theorem checkReview_judged (category name : String) (expected : Option Bool)
    (actual : List (String × PyVal)) (t : EvalTally) :
    t.Judged (lib.checkReview category name expected actual t)
      (∀ flag, expected = some flag →
        lib.py.eq (.bool flag) (recordGet actual "requires_review") = true)
      (∀ flag, expected = some flag →
        lib.py.eq (.bool flag) (recordGet actual "requires_review") = true) := by
  cases expected with
  | none => exact t.judged_self.congr (by simp) (by simp)
  | some flag => exact (t.judged_record _ _).congr (by simp) (by simp)

/-- **What one expected field does to a tally.** -/
theorem compareExpectedField_judged {actualFields : String → Option (List (String × PyVal))}
    {category : String} {t t' : EvalTally} {entry : String × LangExtractEvalFieldExpectation}
    (h : lib.compareExpectedField actualFields category t entry = .ok t') :
    t.Judged t' (lib.FieldMet entry.2 (actualFields entry.1))
      (lib.FieldMet entry.2 (actualFields entry.1) ∧
        (actualFields entry.1).isSome = true) := by
  unfold compareExpectedField at h
  cases hactual : actualFields entry.1 with
  | none =>
    rw [hactual] at h
    obtain rfl := Except.ok.inj h
    simp [EvalTally.Judged, FieldMet]
  | some actual =>
    rw [hactual] at h
    obtain ⟨t₁, h₁, h⟩ := Failing.bind_ok.mp h
    obtain ⟨t₂, h₂, h⟩ := Failing.bind_ok.mp h
    obtain rfl := Except.ok.inj h
    have hjudged := ((checkValue_judged h₁).trans (checkValue_judged h₂)).trans
      (lib.checkReview_judged category entry.1 entry.2.requiresReview actual t₂)
    exact hjudged.congr (by simp [FieldMet, and_assoc]) (by simp [FieldMet, and_assoc])

/-- A field whose checks hold can be compared. -/
theorem compareExpectedField_returns {actualFields : String → Option (List (String × PyVal))}
    (category : String) (t : EvalTally) {entry : String × LangExtractEvalFieldExpectation}
    (h : lib.FieldMet entry.2 (actualFields entry.1)) :
    ∃ t', lib.compareExpectedField actualFields category t entry = .ok t' := by
  unfold compareExpectedField
  cases hactual : actualFields entry.1 with
  | none => exact ⟨_, rfl⟩
  | some actual =>
    rw [hactual] at h
    obtain ⟨t₁, h₁⟩ := checkValue_returns category entry.1 t h.1
    obtain ⟨t₂, h₂⟩ := checkValue_returns category entry.1 t₁ h.2.1
    refine ⟨lib.checkReview category entry.1 entry.2.requiresReview actual t₂, ?_⟩
    show (lib.checkValue category entry.1 "extracted_value" entry.2.extractedValue actual t >>=
      _) = _
    rw [Failing.bind_of_ok h₁, Failing.bind_of_ok h₂]
    rfl

/-- **What the expected fields do to a tally.** -/
theorem compareExpectedFields_judged {actualFields : String → Option (List (String × PyVal))}
    {category : String} {expected : List (String × LangExtractEvalFieldExpectation)}
    {t : EvalTally} (h : lib.compareExpectedFields actualFields category expected = .ok t) :
    EvalTally.Judged {} t (∀ entry ∈ expected, lib.FieldMet entry.2 (actualFields entry.1))
      (∀ entry ∈ expected, lib.FieldMet entry.2 (actualFields entry.1) ∧
        (actualFields entry.1).isSome = true) := by
  refine Failing.foldlM_processed
    (I := fun (seen : List (String × LangExtractEvalFieldExpectation)) (t : EvalTally) =>
      EvalTally.Judged {} t (∀ entry ∈ seen, lib.FieldMet entry.2 (actualFields entry.1))
        (∀ entry ∈ seen, lib.FieldMet entry.2 (actualFields entry.1) ∧
          (actualFields entry.1).isSome = true)) ?_ h ?_
  · intro seen entry after _ u u' hu hturn
    refine (hu.trans (compareExpectedField_judged hturn)).congr ?_ ?_
    · rw [List.forall_mem_append, List.forall_mem_singleton]
    · rw [List.forall_mem_append, List.forall_mem_singleton]
  · exact (EvalTally.judged_self {}).congr (by simp) (by simp)

/-- Fields whose checks hold can be compared. -/
theorem compareExpectedFields_returns {actualFields : String → Option (List (String × PyVal))}
    (category : String) {expected : List (String × LangExtractEvalFieldExpectation)}
    (h : ∀ entry ∈ expected, lib.FieldMet entry.2 (actualFields entry.1)) :
    ∃ t, lib.compareExpectedFields actualFields category expected = .ok t := by
  have hstep : ∀ seen entry after, expected = seen ++ entry :: after → ∀ u : EvalTally, True →
      ∃ u', lib.compareExpectedField actualFields category u entry = .ok u' ∧ True := by
    intro seen entry after hsplit u _
    have hentry : entry ∈ expected := hsplit ▸ List.mem_append_cons_self
    obtain ⟨u', hu'⟩ := compareExpectedField_returns category u (h entry hentry)
    exact ⟨u', hu', trivial⟩
  obtain ⟨t, ht, -⟩ := Failing.foldlM_returns (I := fun _ (_ : EvalTally) => True) hstep
    (b := {}) trivial
  exact ⟨t, ht⟩

/-- What the review flags do to a tally. -/
theorem checkFlags_judged (expected actual : List String) (t : EvalTally) :
    t.Judged (lib.checkFlags expected actual t) (sortedNames expected = sortedNames actual)
      (sortedNames expected = sortedNames actual) :=
  (t.judged_record _ _).congr beq_iff_eq beq_iff_eq

/-- What the notes do to a tally. -/
theorem checkNotes_judged (notes : List String) (t : EvalTally) (expected : List String) :
    t.Judged (expected.foldl (lib.checkNote notes) t)
      (∀ note ∈ expected, lib.noteFound notes note = true)
      (∀ note ∈ expected, lib.noteFound notes note = true) := by
  induction expected generalizing t with
  | nil => exact t.judged_self.congr (by simp) (by simp)
  | cons note expected ih =>
    rw [List.foldl_cons]
    have hjudged : t.Judged (lib.checkNote notes t note) (lib.noteFound notes note = true)
        (lib.noteFound notes note = true) := t.judged_record _ _
    exact (hjudged.trans (ih _)).congr (by simp) (by simp)

/-- **What the comparison counts and shows**: it counts no failure exactly when the summary meets
the expectations, and lists no mismatch exactly when the expected names are there as well. -/
theorem evalTally_judged {expectations : EvalExpectations} {summary : ExtractionValidationSummary}
    {t : EvalTally} (h : lib.evalTally expectations summary = .ok t) :
    EvalTally.Judged {} t (lib.Meets expectations summary)
      (lib.Meets expectations summary ∧ NamesPresent expectations summary) := by
  unfold evalTally at h
  obtain ⟨fields, hfields, h⟩ := Failing.bind_ok.mp h
  obtain ⟨calculated, hcalculated, h⟩ := Failing.bind_ok.mp h
  obtain rfl := Except.ok.inj h
  have hadded := EvalTally.judged_add (compareExpectedFields_judged hfields)
    (compareExpectedFields_judged hcalculated)
  have hflagged := hadded.trans <|
    @checkFlags_judged lib expectations.expectedReviewFlags summary.fieldsRequiringReview _
  -- Extracted and calculated fields, review flags and notes: each part judges its own share.
  refine (hflagged.trans (checkNotes_judged summary.documentLevelNotes _
    expectations.expectedDocumentLevelNoteSubstrings)).congr ?_ ?_
  · constructor
    · rintro ⟨⟨⟨hfields, hcalculated⟩, hflags⟩, hnotes⟩
      exact ⟨hfields, hcalculated, hflags, hnotes⟩
    · rintro ⟨hfields, hcalculated, hflags, hnotes⟩
      exact ⟨⟨⟨hfields, hcalculated⟩, hflags⟩, hnotes⟩
  · constructor
    · rintro ⟨⟨⟨hfields, hcalculated⟩, hflags⟩, hnotes⟩
      exact ⟨⟨fun e he => (hfields e he).1, fun e he => (hcalculated e he).1, hflags, hnotes⟩,
        fun e he => (hfields e he).2, fun e he => (hcalculated e he).2⟩
    · rintro ⟨⟨hfields, hcalculated, hflags, hnotes⟩, hpresent, hpresent'⟩
      exact ⟨⟨⟨fun e he => ⟨hfields e he, hpresent e he⟩,
        fun e he => ⟨hcalculated e he, hpresent' e he⟩⟩, hflags⟩, hnotes⟩

/-- Checks that hold can be made. -/
theorem Meets.evalTally_returns {expectations : EvalExpectations}
    {summary : ExtractionValidationSummary} (h : lib.Meets expectations summary) :
    ∃ t, lib.evalTally expectations summary = .ok t := by
  obtain ⟨fields, hfields⟩ := compareExpectedFields_returns "field" h.fields
  obtain ⟨calculated, hcalculated⟩ := compareExpectedFields_returns "calculated_field" h.calculated
  unfold evalTally
  rw [Failing.bind_of_ok hfields, Failing.bind_of_ok hcalculated]
  exact ⟨_, rfl⟩

/-- **A case passes when every check holds**, and no check raises. -/
theorem passes_iff_meets {case : LangExtractEvalCase} {summary : ExtractionValidationSummary} :
    (∃ result, lib.evalSummary case summary = .ok result ∧ result.passed = true) ↔
      lib.Meets case.expectations summary := by
  unfold evalSummary
  constructor
  · rintro ⟨result, hresult, hpassed⟩
    obtain ⟨t, ht, hresult⟩ := Failing.bind_ok.mp hresult
    obtain rfl := Except.ok.inj hresult
    exact ((evalTally_judged ht).1.mp (beq_iff_eq.mp hpassed)).2
  · intro h
    obtain ⟨t, ht⟩ := h.evalTally_returns
    rw [Failing.bind_of_ok ht]
    exact ⟨_, rfl, beq_iff_eq.mpr ((evalTally_judged ht).1.mpr ⟨rfl, h⟩)⟩

end EvalLibrary

/-! ### Values that match themselves -/

namespace PyVal

mutual

/-- The numbers in a value, at any depth. -/
def numbersIn : PyVal → List PyVal
  | .int i => [.int i]
  | .float x => [.float x]
  | .list xs => numbersInItems xs
  | .dict kvs => numbersInEntries kvs
  | _ => []

def numbersInItems : List PyVal → List PyVal
  | [] => []
  | x :: xs => numbersIn x ++ numbersInItems xs

def numbersInEntries : List (String × PyVal) → List PyVal
  | [] => []
  | (_, x) :: kvs => numbersIn x ++ numbersInEntries kvs

end

mutual

/-- Every dictionary in a value holds each key once, as dictionaries do. -/
def wellKeyed : PyVal → Bool
  | .list xs => wellKeyedItems xs
  | .dict kvs => decide (kvs.map Prod.fst).Nodup && wellKeyedEntries kvs
  | _ => true

def wellKeyedItems : List PyVal → Bool
  | [] => true
  | x :: xs => wellKeyed x && wellKeyedItems xs

def wellKeyedEntries : List (String × PyVal) → Bool
  | [] => true
  | (_, x) :: kvs => wellKeyed x && wellKeyedEntries kvs

end

/-- A dictionary with distinct keys holds its entries. -/
theorem dictGet_of_mem {kvs : List (String × PyVal)} (hnodup : (kvs.map Prod.fst).Nodup)
    {p : String × PyVal} (hp : p ∈ kvs) : dictGet kvs p.1 = some p.2 := by
  unfold dictGet
  rw [Keyed.find?_eq hnodup hp]
  rfl

end PyVal

/-- Two comparisons, one after the other. -/
theorem bothMatch_iff {first rest : Except PyErr Bool} :
    bothMatch first rest = .ok true ↔ first = .ok true ∧ rest = .ok true := by
  unfold bothMatch
  rw [Failing.bind_ok]
  constructor
  · rintro ⟨ok, hok, h⟩
    cases ok with
    | true => exact ⟨hok, h⟩
    | false => cases h
  · rintro ⟨hfirst, hrest⟩
    exact ⟨true, hfirst, hrest⟩

/-- A float is close to itself, unless it is not a number. -/
theorem isClose_self_iff (floats : FloatArithmetic) (x : PyFloat) :
    floats.isClose x x = true ↔ x ≠ .nan := by
  cases x with
  | nan => simp [FloatArithmetic.isClose, PyFloat.eq]
  | fin q => simp [FloatArithmetic.isClose, PyFloat.eq]
  | inf => simp [FloatArithmetic.isClose, PyFloat.eq]
  | negInf => simp [FloatArithmetic.isClose, PyFloat.eq]

namespace EvalLibrary

variable (lib : EvalLibrary)

/-- A number that can be compared: there is a float for it, and it equals itself. -/
def Comparable (n : PyVal) : Prop :=
  ∃ x, lib.floatOf n = .ok x ∧ x ≠ .nan

variable {lib}

/-- Which numbers match themselves. -/
theorem numbersMatch_self_iff {n : PyVal} (h : isPlainNumber n = true) :
    lib.numbersMatch n n = .ok true ↔ lib.Comparable n := by
  unfold numbersMatch Comparable
  rw [if_pos h]
  cases hfloat : lib.floatOf n with
  | error e => simp [bind, Except.bind]
  | ok x =>
    show Except.ok (lib.py.floats.isClose x x) = .ok true ↔ _
    rw [Except.ok.injEq, isClose_self_iff]
    simp

mutual

/-- **A JSON value matches itself when its numbers can be compared**: those that are too large or
not finite match nothing. -/
theorem valuesMatch_self_iff : ∀ {v : PyVal}, v.isJson = true → v.wellKeyed = true →
    (lib.valuesMatch v v = .ok true ↔ ∀ n ∈ v.numbersIn, lib.Comparable n)
  | .none, _, _ => by simp [valuesMatch, PyVal.numbersIn, Python.eq]
  | .bool b, _, _ => by
    simp [valuesMatch, PyVal.numbersIn, Python.eq, PyVal.isForeign, PyVal.number?, PyFloat.eq]
  | .int i, _, _ => by
    rw [valuesMatch, numbersMatch_self_iff rfl, PyVal.numbersIn, List.forall_mem_singleton]
  | .float x, _, _ => by
    rw [valuesMatch, numbersMatch_self_iff rfl, PyVal.numbersIn, List.forall_mem_singleton]
  | .str s, _, _ => by simp [valuesMatch, PyVal.numbersIn]
  | .list xs, hjson, hkeyed => by
    rw [PyVal.isJson] at hjson
    rw [PyVal.wellKeyed] at hkeyed
    rw [valuesMatch, if_pos rfl, PyVal.numbersIn]
    exact valuesMatchItems_self_iff hjson hkeyed
  | .dict kvs, hjson, hkeyed => by
    rw [PyVal.isJson] at hjson
    rw [PyVal.wellKeyed, Bool.and_eq_true, decide_eq_true_iff] at hkeyed
    rw [valuesMatch, PyVal.numbersIn]
    exact valuesMatchEntries_self_iff (fun p hp => PyVal.dictGet_of_mem hkeyed.1 hp) hjson hkeyed.2
  | .tuple _, hjson, _ => by simp [PyVal.isJson] at hjson
  | .function _, hjson, _ => by simp [PyVal.isJson] at hjson
  | .view _ _, hjson, _ => by simp [PyVal.isJson] at hjson
  | .object _, hjson, _ => by simp [PyVal.isJson] at hjson

theorem valuesMatchItems_self_iff : ∀ {xs : List PyVal}, PyVal.isJsonList xs = true →
    PyVal.wellKeyedItems xs = true →
    (lib.valuesMatchItems xs xs = .ok true ↔ ∀ n ∈ PyVal.numbersInItems xs, lib.Comparable n)
  | [], _, _ => by simp [valuesMatchItems, PyVal.numbersInItems]
  | x :: xs, hjson, hkeyed => by
    rw [PyVal.isJsonList, Bool.and_eq_true] at hjson
    rw [PyVal.wellKeyedItems, Bool.and_eq_true] at hkeyed
    rw [valuesMatchItems, bothMatch_iff, valuesMatch_self_iff hjson.1 hkeyed.1,
      valuesMatchItems_self_iff hjson.2 hkeyed.2, PyVal.numbersInItems, List.forall_mem_append]

theorem valuesMatchEntries_self_iff : ∀ {entries items : List (String × PyVal)},
    (∀ p ∈ items, PyVal.dictGet entries p.1 = some p.2) → PyVal.isJsonItems items = true →
    PyVal.wellKeyedEntries items = true →
    (lib.valuesMatchEntries entries items = .ok true ↔
      ∀ n ∈ PyVal.numbersInEntries items, lib.Comparable n)
  | _, [], _, _, _ => by simp [valuesMatchEntries, PyVal.numbersInEntries]
  | entries, (key, value) :: items, hget, hjson, hkeyed => by
    obtain ⟨hvalue, hitems⟩ := List.forall_mem_cons.mp hget
    rw [PyVal.isJsonItems, Bool.and_eq_true] at hjson
    rw [PyVal.wellKeyedEntries, Bool.and_eq_true] at hkeyed
    rw [valuesMatchEntries, hvalue, bothMatch_iff,
      valuesMatchEntries_self_iff hitems hjson.2 hkeyed.2, PyVal.numbersInEntries, List.forall_mem_append, ← valuesMatch_self_iff hjson.1 hkeyed.1]

end

/-- No JSON value but null matches a key that is not there. -/
theorem valuesMatch_none_iff {v : PyVal} (hjson : v.isJson = true) :
    lib.valuesMatch v .none = .ok true ↔ v.isNone = true := by
  cases v with
  | none => simp [valuesMatch, Python.eq, PyVal.isNone]
  | bool b =>
    simp [valuesMatch, Python.eq, PyVal.isNone, PyVal.isForeign, PyVal.number?]
  | int i => simp [valuesMatch, numbersMatch, isPlainNumber, PyVal.isNone]
  | float x => simp [valuesMatch, numbersMatch, isPlainNumber, PyVal.isNone]
  | str s => simp [valuesMatch, PyVal.isNone]
  | list xs => simp [valuesMatch, PyVal.isNone]
  | dict kvs => simp [valuesMatch, PyVal.isNone]
  | tuple _ => simp [PyVal.isJson] at hjson
  | function _ => simp [PyVal.isJson] at hjson
  | view _ _ => simp [PyVal.isJson] at hjson
  | object _ => simp [PyVal.isJson] at hjson

/-- A text contains itself. -/
theorem containsChars_self (cs : List Char) : containsChars cs cs = true := by
  cases cs with
  | nil => rfl
  | cons c cs => simp [containsChars]

/-- A note of the summary is found in it. -/
theorem noteFound_of_mem {notes : List String} {note : String} (h : note ∈ notes) :
    lib.noteFound notes note = true :=
  List.any_eq_true.mpr ⟨note, h, containsChars_self _⟩

end EvalLibrary

/-! ### The summary of a run -/

/-- The calculated fields of a summary are the results of the template's, as they are stored. -/
theorem executeExtraction_calculated {w : ExtractionWorld} {deployment : DeploymentSettings}
    {documentPath : String} {documentId : ℕ} {template : ExtractionTemplate}
    {override : Option LLMProviderSettings} {parsedText : Option String}
    {summary : ExtractionValidationSummary}
    (h : executeExtraction w deployment documentPath documentId template override parsedText =
      .ok summary) :
    ∃ extracted calculated, evaluateCalculatedFields w.rt.engine w.rt.num
        template.calculatedFields extracted = .ok calculated ∧
      List.Forall₂ (fun c c' => CalculatedFieldResult.modelDump c = .ok c') calculated
        summary.calculatedFields ∧ summary.Stored := by
  unfold executeExtraction at h
  obtain ⟨prepared, -, h⟩ := Failing.bind_ok.mp h
  obtain ⟨results, -, h⟩ := Failing.bind_ok.mp h
  obtain ⟨⟨extracted, notes⟩, -, h⟩ := Failing.bind_ok.mp h
  obtain ⟨calculated, hcalculated, hdump⟩ := Failing.bind_ok.mp h
  exact ⟨extracted, calculated, hcalculated, (modelDump_fields hdump).2.1,
    stored_of_modelDump hdump⟩

/-- **The calculated fields of a summary have distinct names.** -/
theorem executeExtraction_calculated_nodup {w : ExtractionWorld} {deployment : DeploymentSettings}
    {documentPath : String} {documentId : ℕ} {template : ExtractionTemplate}
    {override : Option LLMProviderSettings} {parsedText : Option String}
    {summary : ExtractionValidationSummary}
    (h : executeExtraction w deployment documentPath documentId template override parsedText =
      .ok summary) :
    (summary.calculatedFields.map CalculatedFieldResult.fieldName).Nodup := by
  obtain ⟨prepared, _, _, _, _, _, hprepared, -⟩ := executeExtraction_spec h
  have hnodup : (template.calculatedFields.map CalculatedFieldDefinition.name).Nodup :=
    (List.nodup_append.mp (validateTemplate_nodup (prepareExtraction_checks hprepared).1)).2.1
  obtain ⟨extracted, calculated, hcalculated, hdumped, -⟩ := executeExtraction_calculated h
  have hkept : ∀ c c' : CalculatedFieldResult, c.modelDump = .ok c' →
      c'.fieldName = c.fieldName := fun _ _ hc => (calculated_modelDump_spec hc).1
  have hstored : summary.calculatedFields.map CalculatedFieldResult.fieldName =
      calculated.map CalculatedFieldResult.fieldName :=
    Keyed.map_eq_of_forall₂ hkept hdumped
  rw [hstored]
  exact (evaluateCalculatedFields_perm hnodup hcalculated).nodup_iff.mpr hnodup

/-! ### The expectations of a summary of itself -/

/-- The expectations read off a summary.  The value of a calculated field is where the cases
of the repository have it. -/
def readOff (summary : ExtractionValidationSummary) : EvalExpectations where
  expectedFields := summary.extractedFields.map fun f =>
    (f.fieldName,
      { extractedValue := f.extractedValue, normalizedValue := f.normalizedValue
        requiresReview := some f.requiresReview })
  expectedCalculatedFields := summary.calculatedFields.map fun c =>
    (c.fieldName,
      { normalizedValue := c.calculatedValue, requiresReview := some c.requiresReview })
  expectedReviewFlags := summary.fieldsRequiringReview
  expectedDocumentLevelNoteSubstrings := summary.documentLevelNotes

namespace EvalLibrary

variable {lib : EvalLibrary}

/-- A flag equals itself. -/
theorem eq_bool_self (b : Bool) : lib.py.eq (.bool b) (.bool b) = true := by
  simp [Python.eq, PyVal.isForeign, PyVal.number?, PyFloat.eq]

/-- When the check of a value against itself holds. -/
theorem valueMet_self_iff {v : PyVal} (hjson : v.isJson = true) (hkeyed : v.wellKeyed = true) :
    lib.ValueMet v v ↔ ∀ n ∈ v.numbersIn, lib.Comparable n := by
  unfold ValueMet
  rw [valuesMatch_self_iff hjson hkeyed]
  constructor
  · rintro (hnone | hnumbers)
    · cases v with
      | none => simp [PyVal.numbersIn]
      | _ => cases hnone
    · exact hnumbers
  · exact Or.inr

/-- When an extracted field passes what is read off it. -/
theorem fieldMet_extracted_iff {f : ExtractionFieldResult} (hjson : HoldsJson f)
    (hextracted : f.extractedValue.wellKeyed = true)
    (hnormalized : f.normalizedValue.wellKeyed = true) :
    lib.FieldMet { extractedValue := f.extractedValue, normalizedValue := f.normalizedValue
                   requiresReview := some f.requiresReview } (some f.record) ↔
      (∀ n ∈ f.extractedValue.numbersIn, lib.Comparable n) ∧
        ∀ n ∈ f.normalizedValue.numbersIn, lib.Comparable n := by
  have hrecord : recordGet f.record "extracted_value" = f.extractedValue ∧
      recordGet f.record "normalized_value" = f.normalizedValue ∧
      recordGet f.record "requires_review" = .bool f.requiresReview := ⟨rfl, rfl, rfl⟩
  unfold FieldMet
  simp only [hrecord, valueMet_self_iff hjson.extracted hextracted,
    valueMet_self_iff hjson.normalized hnormalized, Option.some.injEq, forall_eq', eq_bool_self,
    and_true]

/-- When a calculated field does: its record has no value under the name asked for. -/
theorem fieldMet_calculated_iff {c : CalculatedFieldResult}
    (hjson : c.calculatedValue.isJson = true) :
    lib.FieldMet { normalizedValue := c.calculatedValue
                   requiresReview := some c.requiresReview } (some c.record) ↔
      c.calculatedValue.isNone = true := by
  have hrecord : recordGet c.record "normalized_value" = .none ∧
      recordGet c.record "requires_review" = .bool c.requiresReview := ⟨rfl, rfl⟩
  have hnone : lib.ValueMet .none (recordGet c.record "extracted_value") := Or.inl rfl
  unfold FieldMet
  simp only [hnone, hrecord, true_and, Option.some.injEq, forall_eq', eq_bool_self, and_true]
  unfold ValueMet
  rw [valuesMatch_none_iff hjson, or_self]

end EvalLibrary

/-! ### Records found by name -/

/-- The record of a field of the summary is found under its name. -/
theorem extractedRecord_of_mem {s : ExtractionValidationSummary}
    (hnodup : (s.extractedFields.map ExtractionFieldResult.fieldName).Nodup)
    {f : ExtractionFieldResult} (hf : f ∈ s.extractedFields) :
    extractedRecord s f.fieldName = some f.record := by
  unfold extractedRecord
  rw [Keyed.find?_reverse_eq hnodup hf]
  rfl

theorem calculatedRecord_of_mem {s : ExtractionValidationSummary}
    (hnodup : (s.calculatedFields.map CalculatedFieldResult.fieldName).Nodup)
    {c : CalculatedFieldResult} (hc : c ∈ s.calculatedFields) :
    calculatedRecord s c.fieldName = some c.record := by
  unfold calculatedRecord
  rw [Keyed.find?_reverse_eq hnodup hc]
  rfl

namespace EvalLibrary

variable {lib : EvalLibrary}

/-- **When a summary meets the expectations read off it.** -/
theorem meets_readOff_iff {s : ExtractionValidationSummary}
    (hextracted : (s.extractedFields.map ExtractionFieldResult.fieldName).Nodup)
    (hcalculated : (s.calculatedFields.map CalculatedFieldResult.fieldName).Nodup)
    (hstored : s.Stored)
    (hkeyed : ∀ f ∈ s.extractedFields, f.extractedValue.wellKeyed = true ∧
      f.normalizedValue.wellKeyed = true) :
    lib.Meets (readOff s) s ↔
      (∀ c ∈ s.calculatedFields, c.calculatedValue.isNone = true) ∧
        ∀ f ∈ s.extractedFields, (∀ n ∈ f.extractedValue.numbersIn, lib.Comparable n) ∧
          ∀ n ∈ f.normalizedValue.numbersIn, lib.Comparable n := by
  constructor
  -- Each expectation finds the record it was read off, since the names are distinct.
  · rintro ⟨hfields, hcalc, -, -⟩
    refine ⟨fun c hc => ?_, fun f hf => ?_⟩
    · have hmet := hcalc _ (List.mem_map_of_mem hc)
      rw [calculatedRecord_of_mem hcalculated hc] at hmet
      exact (fieldMet_calculated_iff (hstored.calculated c hc)).mp hmet
    · have hmet := hfields _ (List.mem_map_of_mem hf)
      rw [extractedRecord_of_mem hextracted hf] at hmet
      exact (fieldMet_extracted_iff (hstored.extracted f hf) (hkeyed f hf).1
        (hkeyed f hf).2).mp hmet
  · rintro ⟨hnulls, hnumbers⟩
    refine ⟨?_, ?_, rfl, fun note hnote => noteFound_of_mem hnote⟩
    · intro entry hentry
      obtain ⟨f, hf, rfl⟩ := List.mem_map.mp hentry
      rw [extractedRecord_of_mem hextracted hf]
      exact (fieldMet_extracted_iff (hstored.extracted f hf) (hkeyed f hf).1 (hkeyed f hf).2).mpr
        (hnumbers f hf)
    · intro entry hentry
      obtain ⟨c, hc, rfl⟩ := List.mem_map.mp hentry
      rw [calculatedRecord_of_mem hcalculated hc]
      exact (fieldMet_calculated_iff (hstored.calculated c hc)).mpr (hnulls c hc)

/-- **When the verdict agrees with the mismatches.** -/
theorem passed_iff_noMismatches_iff {case : LangExtractEvalCase}
    {summary : ExtractionValidationSummary} :
    (∀ result, lib.evalSummary case summary = .ok result →
        (result.passed = true ↔ result.mismatches = [])) ↔
      (lib.Meets case.expectations summary → NamesPresent case.expectations summary) := by
  constructor
  · intro h hmeets
    obtain ⟨t, ht⟩ := hmeets.evalTally_returns
    obtain ⟨hfailed, hmismatches⟩ := evalTally_judged ht
    have hagree := h _ (Failing.bind_of_ok ht)
    have hpassed : t.failed = 0 := hfailed.mpr ⟨rfl, hmeets⟩
    exact (hmismatches.mp (hagree.mp (beq_iff_eq.mpr hpassed))).2.2
  · intro h result hresult
    obtain ⟨t, ht, hresult⟩ := Failing.bind_ok.mp hresult
    obtain rfl := Except.ok.inj hresult
    obtain ⟨hfailed, hmismatches⟩ := evalTally_judged ht
    show (t.failed == 0) = true ↔ t.mismatches = []
    rw [beq_iff_eq, hfailed, hmismatches]
    exact ⟨fun ⟨_, hmeets⟩ => ⟨rfl, hmeets, h hmeets⟩, fun ⟨_, hmeets, _⟩ => ⟨rfl, hmeets⟩⟩

/-- **The verdict and the mismatches, and the summary that is expected of itself.** -/
theorem eval_harness_iff (w : ExtractionWorld) (deployment : DeploymentSettings)
    (overrides : EvalRuntimeOverrides) (documentPath : String) {case : LangExtractEvalCase}
    {summary : ExtractionValidationSummary}
    (hsummary : case.extract w deployment overrides documentPath = .ok summary)
    (hkeyed : ∀ f ∈ summary.extractedFields, f.extractedValue.wellKeyed = true ∧
      f.normalizedValue.wellKeyed = true) :
    ((∀ result, lib.runEvalCase w deployment overrides documentPath case = .ok result →
        (result.passed = true ↔ result.mismatches = [])) ↔
      (lib.Meets case.expectations summary → NamesPresent case.expectations summary)) ∧
    (case.expectations = readOff summary →
      ((∃ result, lib.runEvalCase w deployment overrides documentPath case = .ok result ∧
          result.passed = true) ↔
        (∀ c ∈ summary.calculatedFields, c.calculatedValue.isNone = true) ∧
          ∀ f ∈ summary.extractedFields, (∀ n ∈ f.extractedValue.numbersIn, lib.Comparable n) ∧
            ∀ n ∈ f.normalizedValue.numbersIn, lib.Comparable n)) := by
  have hrun : lib.runEvalCase w deployment overrides documentPath case =
      lib.evalSummary case summary := Failing.bind_of_ok hsummary
  obtain ⟨_, _, _, _, hstored⟩ := executeExtraction_calculated hsummary
  rw [hrun]
  refine ⟨passed_iff_noMismatches_iff, fun hreadOff => ?_⟩
  rw [passes_iff_meets, hreadOff]
  exact meets_readOff_iff (executeExtraction_names hsummary).2
    (executeExtraction_calculated_nodup hsummary) hstored hkeyed

/-- A harness whose interpreter parses one formula. -/
def plainEval : EvalLibrary where
  py := plainPython [("1", .constant (.int 1))]
  casefold := id
  repr := fun _ => ""

/-- What the extraction of the vendor is expected to give. -/
def vendorCase : LangExtractEvalCase where
  name := "vendor"
  documentText := "Vendor: Acme"
  templateDefinition := vendorTemplate
  expectations :=
    { expectedFields := [("vendor",
        { extractedValue := .str "Vendor: Acme"
          normalizedValue := .dict [("value", .str "Vendor: Acme")]
          requiresReview := some true })]
      expectedReviewFlags := ["vendor"] }
  present := fun h => by cases h.1

/-- The case that was read off its own summary passes. -/
theorem eval_harness_vendor :
    ∃ result, plainEval.runEvalCase (silentWorld.withMock asciiMock) {} {} "a.txt" vendorCase =
      .ok result ∧ result.passed = true :=
  ((@eval_harness_iff plainEval (silentWorld.withMock asciiMock) {} {} "a.txt" vendorCase _ rfl
    (by decide)).2 rfl).mpr
    ⟨List.forall_mem_nil _, fun f hf => by
      obtain rfl := List.mem_singleton.mp hf
      exact ⟨List.forall_mem_nil _, List.forall_mem_nil _⟩⟩

/-- The world that parses the formula. -/
def oneWorld : ExtractionWorld :=
  { silentWorld with
    rt := { plainRuntime with engine := plainEval.py.engine insertionOrder } }

/-- A case whose total is one. -/
def oneCase : LangExtractEvalCase where
  name := "total"
  documentText := "Invoice"
  templateDefinition :=
    { invoiceTemplate with
      calculatedFields := [{ name := "total", label := "Total", outputType := .number
                             formula := "1" }] }
  expectations :=
    { expectedCalculatedFields := [("total",
        { normalizedValue := .int 1, requiresReview := some false })] }
  present := fun h => by cases h.2.1

/-- **A computed value does not pass its own expectation**, since the record of a calculated field
has it under another name. -/
theorem computed_value_not_recognised :
    ¬ ∀ (lib : EvalLibrary) (w : ExtractionWorld) (deployment : DeploymentSettings)
        (overrides : EvalRuntimeOverrides) (documentPath : String) (case : LangExtractEvalCase)
        (summary : ExtractionValidationSummary),
      case.extract w deployment overrides documentPath = .ok summary →
      (∀ result, lib.runEvalCase w deployment overrides documentPath case = .ok result →
        (result.passed = true ↔ result.mismatches = [])) ∧
      (case.expectations = readOff summary →
        ∃ result, lib.runEvalCase w deployment overrides documentPath case = .ok result ∧
          result.passed = true) := by
  intro hclaim
  obtain ⟨result, hresult, hpassed⟩ := (hclaim plainEval (oneWorld.withMock asciiMock) {} {} "a.txt"
    oneCase _ rfl).2 rfl
  have hfails : ∃ r, plainEval.runEvalCase (oneWorld.withMock asciiMock) {} {} "a.txt" oneCase =
      .ok r ∧ r.passed = false := ⟨_, rfl, rfl⟩
  obtain ⟨r, hr, hfailed⟩ := hfails
  rw [hr] at hresult
  obtain rfl := Except.ok.inj hresult
  rw [hpassed] at hfailed
  cases hfailed

end EvalLibrary

end ExtractFlow
