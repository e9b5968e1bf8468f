import Mathlib.Data.Prod.Lex
import Mathlib.Order.WithBot
import ExtractFlow.Lib.Selection
import ExtractFlow.AllowedValues
import ExtractFlow.Reconcile

/-!
# The candidate a field gets, and the flag on it

`reconcile_extracted_fields` keeps, of the candidates for a field, the first of those
with the best score, and then lets one rule after another write on it.  What comes out
differs from the candidate only where the rules write, and it is not flagged exactly
when no rule had a reason to.

The score adds the presence of a value to the presence of a citation.  So a candidate
that only cites may win over one that only has a value; which of them wins is decided
by their confidence.

## Main definitions

* `Chosen`, `Explained` — what a field's result comes from.
* `ExplainsEveryField` — reconciliation returns one explained result for each field.
* `ValueWins` — the candidate that is kept has a value.

## Main results

* `explains_every_field_iff` — when reconciliation explains every field.
* `value_kept_iff` — when the value of a candidate is kept.
-/

namespace ExtractFlow

/-! ### The order of the scores -/

/-- A number in the order of the floats, with the infinities at its ends. -/
def PyFloat.extended : PyFloat → WithBot (WithTop ℚ)
  | .fin q => ((q : WithTop ℚ) : WithBot (WithTop ℚ))
  | .inf => ((⊤ : WithTop ℚ) : WithBot (WithTop ℚ))
  | .negInf | .nan => ⊥

theorem PyFloat.lt_iff {x y : PyFloat} (hx : x ≠ .nan) (hy : y ≠ .nan) :
    x.lt y = true ↔ x.extended < y.extended := by
  cases x <;> cases y <;> simp_all [PyFloat.lt, PyFloat.extended, WithBot.bot_lt_coe]
  exact WithBot.coe_lt_coe.mpr (WithTop.coe_lt_top _)

theorem PyFloat.eq_iff {x y : PyFloat} (hx : x ≠ .nan) (hy : y ≠ .nan) :
    x.eq y = true ↔ x.extended = y.extended := by
  cases x <;> cases y <;> simp_all [PyFloat.eq, PyFloat.extended]

/-- A score in the order of the tuples. -/
def ExtractionScore.key (s : ExtractionScore) : ℕ ×ₗ (WithBot (WithTop ℚ) ×ₗ ℕ) :=
  toLex (s.evidence, toLex (s.confidence.extended, s.sourceLength))

/-- Of scores without a not-a-number, `>` is the order of the tuples. -/
theorem ExtractionScore.gt_iff {a b : ExtractionScore} (ha : a.confidence ≠ .nan)
    (hb : b.confidence ≠ .nan) : a.gt b = true ↔ b.key < a.key := by
  unfold ExtractionScore.gt ExtractionScore.key
  rw [Prod.Lex.toLex_lt_toLex, Prod.Lex.toLex_lt_toLex]
  by_cases hevidence : a.evidence = b.evidence
  · rw [if_neg (by simpa using hevidence)]
    have hconfidence := PyFloat.eq_iff ha hb
    cases heq : a.confidence.eq b.confidence with
    | true =>
      have hsame := hconfidence.mp heq
      simp [hevidence, hsame]
    | false =>
      have hne : a.confidence.extended ≠ b.confidence.extended := by
        intro h
        rw [hconfidence.mpr h] at heq
        cases heq
      simp [hevidence, hne.symm, PyFloat.lt_iff hb ha]
  · rw [if_pos hevidence]
    have hne : b.evidence ≠ a.evidence := fun h => hevidence h.symm
    simp [hne]

/-- `max` prefers the first result to the second. -/
def scoresAbove (a b : ExtractionFieldResult) : Bool :=
  (scoreExtractionResult a).gt (scoreExtractionResult b)

theorem scoresAbove_iff {a b : ExtractionFieldResult} (ha : a.confidenceScore ≠ .nan)
    (hb : b.confidenceScore ≠ .nan) :
    scoresAbove a b = true ↔ (scoreExtractionResult b).key < (scoreExtractionResult a).key :=
  ExtractionScore.gt_iff ha hb

theorem bestCandidate_eq (first : ExtractionFieldResult) (rest : List ExtractionFieldResult) :
    bestCandidate first rest = Selection.best scoresAbove first rest := rfl

/-! ### What a field's result comes from -/

/-- The provider's results for a field. -/
def candidatesOf (providerResults : List ExtractionFieldResult)
    (definition : ExtractionFieldDefinition) : List ExtractionFieldResult :=
  providerResults.filter fun r => r.fieldName == definition.name

/-- What a field starts from: a placeholder without candidates, else the first of the
candidates with the best score. -/
inductive Chosen (definition : ExtractionFieldDefinition)
    (candidates : List ExtractionFieldResult) : ExtractionFieldResult → Prop
  | missing : candidates = [] →
      Chosen definition candidates (buildMissingFieldResult definition)
  | best (chosen) : Selection.IsFirstBest scoresAbove candidates chosen →
      Chosen definition candidates chosen

/-- The rules wrote only on the value, the status, the errors, the notes and the flag. -/
def OnlyRulesWrote (chosen result : ExtractionFieldResult) : Prop :=
  result = { chosen with
    normalizedValue := result.normalizedValue
    validationStatus := result.validationStatus
    validationErrors := result.validationErrors
    extractionNotes := result.extractionNotes
    requiresReview := result.requiresReview }

/-- There is no value, or no rule on confidence, or the confidence reaches the threshold. -/
def Confident (rule : ConfidenceRule) (r : ExtractionFieldResult) : Prop :=
  r.normalizedValue.isNone = true ∨ rule.reviewRequiredOnLowConfidence = false ∨
    r.confidenceScore.lt rule.minimumConfidenceThreshold = false

/-- No rule has a reason to flag the field: one candidate, not flagged by the provider, no
error, nothing canonicalized, and enough confidence. -/
structure NothingToReview (lib : FieldLibrary) (rule : ConfidenceRule)
    (definition : ExtractionFieldDefinition) (candidate result : ExtractionFieldResult) :
    Prop where
  notFlagged : candidate.requiresReview = false
  noErrors : result.validationErrors = []
  notCanonicalized : canonicalNote lib definition candidate.normalizedValue = none
  confident : Confident rule candidate

/-- The result of a field is explained by its candidates: which was chosen, what was written on it,
and why it is flagged. -/
structure Explained (lib : FieldLibrary) (rule : ConfidenceRule)
    (candidates : List ExtractionFieldResult) (definition : ExtractionFieldDefinition)
    (result : ExtractionFieldResult) : Prop where
  name : result.fieldName = definition.name
  chosen : ∃ chosen, Chosen definition candidates chosen ∧ OnlyRulesWrote chosen result ∧
    result.normalizedValue = canonicalValue lib definition chosen.normalizedValue
  missing : candidates = [] → result.requiresReview = true
  status : result.validationStatus = .invalid ↔ result.validationErrors ≠ []
  citation : definition.citationRequired = true → result.sourceText = "" →
    "Citation evidence is required." ∈ result.validationErrors
  review : result.requiresReview = false ↔
    ∃ candidate, candidates = [candidate] ∧
      NothingToReview lib rule definition candidate result

/-- Reconciliation returns one explained result for each definition, in order, and a note
for each result of another name. -/
def ExplainsEveryField (lib : FieldLibrary) (num : PyNumeric) (rule : ConfidenceRule)
    (definitions : List ExtractionFieldDefinition)
    (providerResults : List ExtractionFieldResult) : Prop :=
  ∃ reconciled,
    reconcileExtractedFields lib num rule definitions providerResults =
      .ok (reconciled, unexpectedFieldNotes definitions providerResults) ∧
    List.Forall₂ (fun definition result =>
      Explained lib rule (candidatesOf providerResults definition) definition result)
      definitions reconciled

/-- Neither the schema nor the pattern of the field raises on the candidate. -/
def RulesReturn (lib : FieldLibrary) (num : PyNumeric) (definition : ExtractionFieldDefinition)
    (chosen : ExtractionFieldResult) : Prop :=
  (∃ errors, checkFieldSchema lib definition
      (canonicalValue lib definition chosen.normalizedValue) = .ok errors) ∧
    ∃ errors, checkPattern lib num definition.validation chosen.extractedValue = .ok errors

section Reconciliation

variable {lib : FieldLibrary} {num : PyNumeric} {rule : ConfidenceRule}
  {definition : ExtractionFieldDefinition} {candidates providerResults : List ExtractionFieldResult}

theorem OnlyRulesWrote.refl (r : ExtractionFieldResult) : OnlyRulesWrote r r := rfl

theorem OnlyRulesWrote.trans {a b c : ExtractionFieldResult} (hab : OnlyRulesWrote a b)
    (hbc : OnlyRulesWrote b c) : OnlyRulesWrote a c := by
  unfold OnlyRulesWrote at hab hbc ⊢
  rw [hab] at hbc
  exact hbc

/-- The first best of candidates whose confidences are numbers is the one that is kept. -/
theorem isFirstBest_bestCandidate {first : ExtractionFieldResult}
    {rest : List ExtractionFieldResult}
    (hnumber : ∀ r ∈ first :: rest, r.confidenceScore ≠ .nan) :
    Selection.IsFirstBest scoresAbove (first :: rest) (bestCandidate first rest) :=
  Selection.best_isFirstBest fun x hx y hy => scoresAbove_iff (hnumber x hx) (hnumber y hy)

/-- The record a field starts from is the chosen candidate, with a note and a flag when there
were others. -/
theorem selectCandidate_chosen (definition : ExtractionFieldDefinition)
    (hnumber : ∀ r ∈ candidates, r.confidenceScore ≠ .nan) :
    ∃ chosen, Chosen definition candidates chosen ∧
      OnlyRulesWrote chosen (selectCandidate definition candidates) ∧
      (selectCandidate definition candidates).normalizedValue = chosen.normalizedValue ∧
      ((selectCandidate definition candidates).requiresReview = false ↔
        candidates = [chosen] ∧ chosen.requiresReview = false) := by
  cases candidates with
  | nil => exact ⟨_, .missing rfl, rfl, rfl, by simp [selectCandidate, buildMissingFieldResult]⟩
  | cons first rest =>
    have hbest := isFirstBest_bestCandidate hnumber
    cases rest with
    | nil => exact ⟨first, .best _ hbest, rfl, rfl, by simp [selectCandidate]⟩
    | cons next rest =>
      exact ⟨bestCandidate first (next :: rest), .best _ hbest, rfl, rfl, by simp [selectCandidate]⟩

/-- There is one chosen candidate. -/
theorem Chosen.unique (hnumber : ∀ r ∈ candidates, r.confidenceScore ≠ .nan)
    {a b : ExtractionFieldResult} (ha : Chosen definition candidates a)
    (hb : Chosen definition candidates b) : a = b := by
  cases ha with
  | missing hnil =>
    cases hb with
    | missing => rfl
    | best _ hbest =>
      obtain ⟨pre, post, hsplit, -⟩ := hbest
      rw [hnil] at hsplit
      simp at hsplit
  | best _ hbest =>
    cases hb with
    | missing hnil =>
      obtain ⟨pre, post, hsplit, -⟩ := hbest
      rw [hnil] at hsplit
      simp at hsplit
    | best _ hbest' =>
      have hkey : ∀ x ∈ candidates, ∀ y ∈ candidates, scoresAbove x y = true ↔
          (scoreExtractionResult y).key < (scoreExtractionResult x).key :=
        fun x hx y hy => scoresAbove_iff (hnumber x hx) (hnumber y hy)
      exact hbest.unique hkey hbest'

/-! ### The rules, one after another -/

variable {validated result : ExtractionFieldResult}

/-- The citation the field requires is missing. -/
def CitationMissing (definition : ExtractionFieldDefinition) (r : ExtractionFieldResult) : Prop :=
  definition.citationRequired = true ∧ r.sourceText = ""

/-- What the check of the citation writes. -/
theorem requireCitation_spec (definition : ExtractionFieldDefinition)
    (r : ExtractionFieldResult) :
    OnlyRulesWrote r (requireCitation definition r) ∧
      (requireCitation definition r).normalizedValue = r.normalizedValue ∧
      ((requireCitation definition r).validationErrors = [] ↔
        r.validationErrors = [] ∧ ¬CitationMissing definition r) ∧
      (CitationMissing definition r →
        "Citation evidence is required." ∈ (requireCitation definition r).validationErrors) ∧
      ((r.validationStatus = .invalid ↔ r.validationErrors ≠ []) →
        ((requireCitation definition r).validationStatus = .invalid ↔
          (requireCitation definition r).validationErrors ≠ [])) ∧
      ((requireCitation definition r).requiresReview = false ↔
        r.requiresReview = false ∧ ¬CitationMissing definition r) := by
  -- The error is added when a citation is required and there is no source text.
  by_cases hmissing : CitationMissing definition r
  · obtain ⟨hrequired, hsource⟩ := hmissing
    have hcheck : (definition.citationRequired && r.sourceText == "") = true := by
      simp [hrequired, hsource]
    unfold requireCitation
    rw [if_pos hcheck]
    exact ⟨rfl, rfl, by simp [CitationMissing, hrequired, hsource], by simp, by simp,
      by simp [CitationMissing, hrequired, hsource]⟩
  · have hcheck : ¬(definition.citationRequired && r.sourceText == "") = true := by
      simpa [CitationMissing] using hmissing
    unfold requireCitation
    rw [if_neg hcheck]
    exact ⟨rfl, rfl, (and_iff_left hmissing).symm, fun h => absurd h hmissing, id,
      (and_iff_left hmissing).symm⟩

/-- What the check of the confidence writes. -/
theorem flagLowConfidence_spec (lib : FieldLibrary) (rule : ConfidenceRule)
    (r : ExtractionFieldResult) :
    OnlyRulesWrote r (flagLowConfidence lib rule r) ∧
      (flagLowConfidence lib rule r).normalizedValue = r.normalizedValue ∧
      (flagLowConfidence lib rule r).validationErrors = r.validationErrors ∧
      (flagLowConfidence lib rule r).validationStatus = r.validationStatus ∧
      ((flagLowConfidence lib rule r).requiresReview = false ↔
        r.requiresReview = false ∧ Confident rule r) := by
  unfold flagLowConfidence Confident
  split
  · next hlow =>
    rw [Bool.and_eq_true, Bool.and_eq_true, Bool.not_eq_true'] at hlow
    obtain ⟨⟨hrule, hvalue⟩, hbelow⟩ := hlow
    exact ⟨rfl, rfl, rfl, rfl, by simp [hrule, hvalue, hbelow]⟩
  · next hlow =>
    refine ⟨rfl, rfl, rfl, rfl, (and_iff_left ?_).symm⟩
    rw [Bool.and_eq_true, Bool.and_eq_true, Bool.not_eq_true', not_and_or, not_and_or] at hlow
    rcases hlow with (h | h) | h
    · exact Or.inr (Or.inl (by simpa using h))
    · exact Or.inl (by simpa using h)
    · exact Or.inr (Or.inr (by simpa using h))

/-- What the validation writes. -/
theorem validateExtractedField_writes {r : ExtractionFieldResult}
    (h : validateExtractedField lib num definition r = .ok validated) :
    OnlyRulesWrote r validated ∧
      validated.normalizedValue = canonicalValue lib definition r.normalizedValue ∧
      (validated.validationStatus = .invalid ↔ validated.validationErrors ≠ []) ∧
      (validated.requiresReview = false ↔ r.requiresReview = false ∧
        canonicalNote lib definition r.normalizedValue = none ∧
        validated.validationErrors = []) := by
  obtain ⟨schema, pattern, -, -, hresult⟩ := validateExtractedField_ok_iff.mp h
  have hstatus : validated.validationStatus =
      if validated.validationErrors.isEmpty then .valid else .invalid :=
    congrArg ExtractionFieldResult.validationStatus hresult
  have hreview : validated.requiresReview = (r.requiresReview ||
      (canonicalNote lib definition r.normalizedValue).isSome ||
      !validated.validationErrors.isEmpty) :=
    congrArg ExtractionFieldResult.requiresReview hresult
  refine ⟨by rw [hresult]; rfl, by rw [hresult], ?_, ?_⟩
  · rw [hstatus]
    cases validated.validationErrors <;> simp
  · rw [hreview]
    simp [and_assoc]

/-- The turn of a field: the rules run over the chosen candidate one after the other. -/
theorem reconcileField_ok
    (h : reconcileField lib num rule providerResults definition = .ok result) :
    ∃ validated, validateExtractedField lib num definition
        (selectCandidate definition (candidatesOf providerResults definition)) = .ok validated ∧
      flagLowConfidence lib rule (requireCitation definition validated) = result := by
  unfold reconcileField at h
  obtain ⟨validated, hvalidated, h⟩ := Failing.bind_ok.mp h
  exact ⟨validated, hvalidated, Except.ok.inj h⟩

/-- **The result of one field is explained.** -/
theorem explained_of_reconcileField
    (hnumber : ∀ r ∈ candidatesOf providerResults definition, r.confidenceScore ≠ .nan)
    (h : reconcileField lib num rule providerResults definition = .ok result) :
    Explained lib rule (candidatesOf providerResults definition) definition result := by
  have hname := reconcileField_name h
  obtain ⟨chosen, hchosen, hselected, hvalue, hflag⟩ :=
    selectCandidate_chosen definition hnumber
  obtain ⟨validated, hvalidated, rfl⟩ := reconcileField_ok h
  obtain ⟨hwrote, hstored, hstatus, hreview⟩ := validateExtractedField_writes hvalidated
  obtain ⟨hwrote', hstored', herrors', hmissing', hstatus', hreview'⟩ :=
    requireCitation_spec definition validated
  obtain ⟨hwrote'', hstored'', herrors'', hstatus'', hreview''⟩ :=
    flagLowConfidence_spec lib rule (requireCitation definition validated)
  have honly : OnlyRulesWrote chosen
      (flagLowConfidence lib rule (requireCitation definition validated)) :=
    ((hselected.trans hwrote).trans hwrote').trans hwrote''
  have hsource : ∀ {a b : ExtractionFieldResult}, OnlyRulesWrote a b →
      b.sourceText = a.sourceText ∧ b.confidenceScore = a.confidenceScore := by
    intro a b hab
    rw [hab]
    exact ⟨rfl, rfl⟩
  refine ⟨hname, ⟨chosen, hchosen, honly, ?_⟩, ?_, ?_, ?_, ?_⟩
  · rw [hstored'', hstored', hstored, hvalue]
  · intro hnil
    by_contra hno
    obtain ⟨hbefore, -⟩ := hreview''.mp (by simpa using hno)
    have hone := (hflag.mp (hreview.mp (hreview'.mp hbefore).1).1).1
    rw [hnil] at hone
    cases hone
  · rw [hstatus'', herrors'']
    exact hstatus' hstatus
  · intro hrequired hempty
    rw [herrors'']
    refine hmissing' ⟨hrequired, ?_⟩
    rw [← (hsource hwrote').1, ← (hsource hwrote'').1, hempty]
  · rw [hreview'', hreview', hreview, hflag, hvalue]
    -- the confidence rule reads the value and the score the candidate came with
    have hconfident : Confident rule (requireCitation definition validated) ↔
        Confident rule chosen := by
      unfold Confident
      rw [hstored', hstored, isNone_canonicalValue, hvalue, (hsource hwrote').2,
        (hsource hwrote).2, (hsource hselected).2]
    rw [hconfident]
    constructor
    · rintro ⟨⟨⟨⟨hone, hprovider⟩, hnote, hnone⟩, hcited⟩, hconf⟩
      refine ⟨chosen, hone, hprovider, ?_, hnote, hconf⟩
      rw [herrors'', herrors']
      exact ⟨hnone, hcited⟩
    · rintro ⟨candidate, hone, hprovider, hnone, hnote, hconf⟩
      have hsame : chosen = candidate := by
        rw [hone] at hchosen hnumber
        exact hchosen.unique hnumber (.best candidate ⟨[], [], rfl, by simp, by simp⟩)
      obtain rfl := hsame
      rw [herrors'', herrors'] at hnone
      exact ⟨⟨⟨⟨hone, hprovider⟩, hnote, hnone.1⟩, hnone.2⟩, hconf⟩

/-- A validation returns when neither the schema nor the pattern raises. -/
theorem validateExtractedField_returns {r : ExtractionFieldResult} :
    (∃ r', validateExtractedField lib num definition r = .ok r') ↔
      RulesReturn lib num definition r := by
  constructor
  · rintro ⟨r', h⟩
    obtain ⟨schema, pattern, hschema, hpattern, -⟩ := validateExtractedField_ok_iff.mp h
    exact ⟨⟨schema, hschema⟩, ⟨pattern, hpattern⟩⟩
  · rintro ⟨⟨schema, hschema⟩, ⟨pattern, hpattern⟩⟩
    unfold validateExtractedField
    have hfst := checkAllowedValues_fst lib definition r
    generalize checkAllowedValues lib definition r = checked at hfst ⊢
    obtain ⟨stored, outside⟩ := checked
    dsimp only at hfst ⊢
    subst hfst
    refine ⟨_, (Failing.bind_of_ok hschema).trans ((Failing.bind_of_ok hpattern).trans rfl)⟩

/-- No rule raises on a placeholder. -/
theorem rulesReturn_missing :
    RulesReturn lib num definition (buildMissingFieldResult definition) := by
  constructor
  · refine ⟨[], ?_⟩
    have hnone : (canonicalValue lib definition
        (buildMissingFieldResult definition).normalizedValue).isNone = true := by
      rw [isNone_canonicalValue]
      rfl
    unfold checkFieldSchema
    cases definition.fieldSchema with
    | none => rfl
    | some schema => simp [hnone]
  · refine ⟨[], ?_⟩
    unfold checkPattern
    cases definition.validation.regex with
    | none => rfl
    | some pattern => simp [buildMissingFieldResult, PyVal.isNone]

/-- The turn of a field returns when no rule raises on what it starts from. -/
theorem reconcileField_returns
    (hnumber : ∀ r ∈ candidatesOf providerResults definition, r.confidenceScore ≠ .nan) :
    (∃ result, reconcileField lib num rule providerResults definition = .ok result) ↔
      ∀ chosen, Selection.IsFirstBest scoresAbove (candidatesOf providerResults definition) chosen →
        RulesReturn lib num definition chosen := by
  obtain ⟨chosen, hchosen, hselected, hvalue, -⟩ :=
    selectCandidate_chosen definition hnumber
  -- the turn raises where the validation does, and nowhere else
  have hturn : (∃ result, reconcileField lib num rule providerResults definition = .ok result) ↔
      RulesReturn lib num definition
        (selectCandidate definition (candidatesOf providerResults definition)) := by
    rw [← validateExtractedField_returns]
    constructor
    · rintro ⟨result, h⟩
      obtain ⟨validated, hvalidated, -⟩ := Failing.bind_ok.mp h
      exact ⟨validated, hvalidated⟩
    · rintro ⟨validated, hvalidated⟩
      exact ⟨_, (Failing.bind_of_ok hvalidated).trans rfl⟩
  -- the rules look at the values, which are those of the chosen candidate
  have hsame : RulesReturn lib num definition
      (selectCandidate definition (candidatesOf providerResults definition)) ↔
      RulesReturn lib num definition chosen := by
    have hextracted : (selectCandidate definition
        (candidatesOf providerResults definition)).extractedValue = chosen.extractedValue := by
      rw [hselected]
    unfold RulesReturn
    rw [hvalue, hextracted]
  rw [hturn, hsame]
  constructor
  · intro h other hother
    rwa [hchosen.unique hnumber (.best other hother)] at h
  · intro h
    cases hchosen with
    | missing => exact rulesReturn_missing
    | best _ hbest => exact h chosen hbest

/-- **When reconciliation explains every field**: when no pattern and no schema raises on the
candidate its field gets. -/
theorem explains_every_field_iff (lib : FieldLibrary) (num : PyNumeric) (rule : ConfidenceRule)
    {definitions : List ExtractionFieldDefinition} {providerResults : List ExtractionFieldResult}
    (_hnames : (definitions.map ExtractionFieldDefinition.name).Nodup)
    (hnumber : ∀ r ∈ providerResults, r.confidenceScore ≠ .nan) :
    ExplainsEveryField lib num rule definitions providerResults ↔
      ∀ definition ∈ definitions, ∀ chosen,
        Selection.IsFirstBest scoresAbove (candidatesOf providerResults definition) chosen →
        RulesReturn lib num definition chosen := by
  have hcandidates : ∀ definition : ExtractionFieldDefinition,
      ∀ r ∈ candidatesOf providerResults definition, r.confidenceScore ≠ .nan :=
    fun definition r hr => hnumber r (List.mem_of_mem_filter hr)
  have hturns : (∃ reconciled,
      definitions.mapM (reconcileField lib num rule providerResults) = .ok reconciled) ↔
      ∀ definition ∈ definitions, ∀ chosen,
        Selection.IsFirstBest scoresAbove (candidatesOf providerResults definition) chosen →
        RulesReturn lib num definition chosen := by
    rw [Failing.mapM_returns_iff]
    exact forall₂_congr fun definition _ => reconcileField_returns (hcandidates definition)
  -- What is left is the shape of the summary, which needs no further condition.
  rw [← hturns]
  constructor
  · rintro ⟨reconciled, h, -⟩
    obtain ⟨fields, hfields, -⟩ := Failing.bind_ok.mp h
    exact ⟨fields, hfields⟩
  · rintro ⟨reconciled, h⟩
    refine ⟨reconciled, (Failing.bind_of_ok h).trans rfl, ?_⟩
    exact (Failing.mapM_forall₂ h).imp fun definition result hturn =>
      explained_of_reconcileField (hcandidates definition) hturn

end Reconciliation

/-- A number that the provider does not return. -/
def countField : ExtractionFieldDefinition where
  name := "count"
  label := "Count"
  type := .number
  required := true

/-- Terms that come in twice, and a result of no field. -/
def termsTwice : List ExtractionFieldResult :=
  [{ termsResult (.str "Net 60") with confidenceScore := .fin 0 },
   { termsResult (.str "Net 30") with confidenceScore := .fin 1 },
   { termsResult (.str "urgent") with fieldName := "memo" }]

/-- The field with two candidates and the one with none are explained. -/
theorem explains_every_field_iff_terms :
    ExplainsEveryField plainFieldLibrary plainRuntime.num ⟨true, .fin 0⟩ [termsField, countField]
      termsTwice := by
  refine (explains_every_field_iff _ _ _ (by decide) ?_).mpr ?_
  · intro r hr
    simp only [termsTwice, List.mem_cons, List.not_mem_nil, or_false] at hr
    rcases hr with rfl | rfl | rfl
    · exact PyFloat.noConfusion
    · exact PyFloat.noConfusion
    · exact PyFloat.noConfusion
  · intro definition hdefinition chosen _
    simp only [List.mem_cons, List.not_mem_nil, or_false] at hdefinition
    rcases hdefinition with rfl | rfl
    · exact ⟨⟨[], rfl⟩, ⟨[], rfl⟩⟩
    · exact ⟨⟨[], rfl⟩, ⟨[], rfl⟩⟩

/-- A field whose pattern is no regular expression. -/
def patternField : ExtractionFieldDefinition where
  name := "payment_terms"
  label := "Payment terms"
  type := .text
  validation := { regex := some "(" }

/-- `re` does not compile an open bracket. -/
def strictLibrary : FieldLibrary :=
  { plainFieldLibrary with
    regexMatch := fun pattern _ => if pattern = "(" then .error (.other "re.error") else .ok true }

/-- **A pattern that is no regular expression ends the reconciliation**: no field has a
result. -/
theorem broken_pattern_raises :
    ¬ ∀ (lib : FieldLibrary) (num : PyNumeric) (rule : ConfidenceRule)
      (definitions : List ExtractionFieldDefinition)
      (providerResults : List ExtractionFieldResult),
      (definitions.map ExtractionFieldDefinition.name).Nodup →
      (∀ r ∈ providerResults, r.confidenceScore ≠ .nan) →
      ExplainsEveryField lib num rule definitions providerResults := by
  intro hclaim
  obtain ⟨reconciled, h, -⟩ := hclaim strictLibrary plainRuntime.num ⟨true, .fin 0⟩ [patternField]
    [{ termsResult (.str "Net 30") with extractedValue := .str "Net 30" }] (by decide) (by
      intro r hr
      obtain rfl := List.mem_singleton.mp hr
      exact nofun)
  obtain ⟨fields, hfields, -⟩ := Failing.bind_ok.mp h
  obtain ⟨result, hresult⟩ := Failing.exists_of_mapM_ok hfields _ (List.mem_cons_self ..)
  cases hresult

/-! ### The value of a candidate -/

/-- The result has a value. -/
def HasValue (r : ExtractionFieldResult) : Prop := r.normalizedValue.isNone = false

/-- The candidates with either a value or a citation. -/
def halfEvidenced (candidates : List ExtractionFieldResult) : List ExtractionFieldResult :=
  candidates.filter fun r => (scoreExtractionResult r).evidence == 1

/-- Of candidates with either a value or a citation, one with a value is kept: its confidence
is above that of every candidate that only cites.  A not-a-number at the head stays. -/
def HalfWins : List ExtractionFieldResult → Prop
  | [] => True
  | first :: rest =>
      if first.confidenceScore = .nan then HasValue first
      else ∃ c ∈ first :: rest, HasValue c ∧ ∀ d ∈ first :: rest, ¬HasValue d →
        d.confidenceScore = .nan ∨ d.confidenceScore.lt c.confidenceScore = true

/-- If there is a value at all, one with a citation is there, or one of enough confidence. -/
def ValueWins (candidates : List ExtractionFieldResult) : Prop :=
  (∀ c ∈ candidates, ¬HasValue c) ∨ (∃ c ∈ candidates, HasValue c ∧ c.sourceText ≠ "") ∨
    HalfWins (halfEvidenced candidates)

/-- If a candidate has a value, the result has one. -/
def ValueKept (candidates : List ExtractionFieldResult) (result : ExtractionFieldResult) : Prop :=
  (∃ c ∈ candidates, HasValue c) → HasValue result

section Values

variable {a b first : ExtractionFieldResult} {rest : List ExtractionFieldResult}

theorem evidence_le_two (r : ExtractionFieldResult) : (scoreExtractionResult r).evidence ≤ 2 := by
  unfold scoreExtractionResult
  dsimp only
  split <;> split <;> omega

theorem evidence_eq_two : (scoreExtractionResult a).evidence = 2 ↔
    HasValue a ∧ a.sourceText ≠ "" := by
  unfold scoreExtractionResult HasValue
  cases a.normalizedValue.isNone <;> by_cases h : a.sourceText = "" <;> simp [h]

theorem evidence_pos (h : HasValue a) : 1 ≤ (scoreExtractionResult a).evidence := by
  unfold HasValue at h
  simp [scoreExtractionResult, h]

/-- With either a value or a citation, having a value is having no citation. -/
theorem hasValue_iff (h : (scoreExtractionResult a).evidence = 1) :
    HasValue a ↔ a.sourceText = "" := by
  unfold scoreExtractionResult at h
  unfold HasValue
  cases hnone : a.normalizedValue.isNone <;> by_cases hsource : a.sourceText = "" <;>
    simp_all

theorem scoresAbove_of_evidence_lt
    (h : (scoreExtractionResult b).evidence < (scoreExtractionResult a).evidence) :
    scoresAbove a b = true ∧ scoresAbove b a = false := by
  unfold scoresAbove ExtractionScore.gt
  rw [if_pos (by omega), if_pos (by omega)]
  simp [h, le_of_lt h]

/-- At the same evidence the confidences decide, and the lengths where they agree. -/
theorem scoresAbove_of_evidence_eq
    (h : (scoreExtractionResult a).evidence = (scoreExtractionResult b).evidence) :
    scoresAbove a b = if !a.confidenceScore.eq b.confidenceScore then
      b.confidenceScore.lt a.confidenceScore
    else decide (b.sourceText.length < a.sourceText.length) := by
  unfold scoresAbove ExtractionScore.gt
  rw [if_neg (by omega)]
  rfl

/-- A not-a-number is above nothing of the same evidence, and nothing is above it. -/
theorem scoresAbove_nan
    (h : (scoreExtractionResult a).evidence = (scoreExtractionResult b).evidence)
    (hnan : a.confidenceScore = .nan ∨ b.confidenceScore = .nan) : scoresAbove a b = false := by
  rw [scoresAbove_of_evidence_eq h]
  rcases hnan with hnan | hnan
  · rw [hnan]
    cases b.confidenceScore <;> rfl
  · rw [hnan]
    cases a.confidenceScore <;> rfl

/-- Behind a number at the head, what is no number can be left out: the best is a number,
and no number is above it. -/
theorem best_number_half (hhalf : ∀ r ∈ first :: rest, (scoreExtractionResult r).evidence = 1)
    (hnan : first.confidenceScore ≠ .nan) :
    bestCandidate first rest ∈ first :: rest ∧
      (bestCandidate first rest).confidenceScore ≠ .nan ∧
      ∀ d ∈ first :: rest, d.confidenceScore ≠ .nan →
        scoresAbove d (bestCandidate first rest) = false := by
  have hfirst : first ∈ first :: rest := List.mem_cons_self ..
  let number := fun r : ExtractionFieldResult =>
    r.confidenceScore != .nan && (scoreExtractionResult r).evidence == 1
  have hnumber : ∀ r ∈ first :: rest, number r = true ↔ r.confidenceScore ≠ .nan := by
    intro r hr
    simp [number, hhalf r hr]
  -- a score that is no number is above none, and none is above it
  have hfilter : bestCandidate first rest =
      Selection.best scoresAbove first (rest.filter number) := by
    refine Selection.best_filter_rest ((hnumber first hfirst).mpr hnan) fun x hx hno y hy => ?_
    have hx := List.mem_cons_of_mem first hx
    have hxnan : x.confidenceScore = .nan := by
      by_contra h
      rw [(hnumber x hx).mpr h] at hno
      cases hno
    have hy : y.confidenceScore ≠ .nan ∧ (scoreExtractionResult y).evidence = 1 := by
      simpa [number] using hy
    exact scoresAbove_nan ((hhalf x hx).trans hy.2.symm) (Or.inl hxnan)
  have hkept : ∀ r, r ∈ first :: rest.filter number ↔
      r ∈ first :: rest ∧ r.confidenceScore ≠ .nan := by
    intro r
    rw [List.mem_cons, List.mem_filter, List.mem_cons]
    constructor
    · rintro (rfl | ⟨hr, hn⟩)
      · exact ⟨Or.inl rfl, hnan⟩
      · exact ⟨Or.inr hr, (hnumber r (List.mem_cons_of_mem _ hr)).mp hn⟩
    · rintro ⟨rfl | hr, hn⟩
      · exact Or.inl rfl
      · exact Or.inr ⟨hr, (hnumber r (List.mem_cons_of_mem _ hr)).mpr hn⟩
  have hkey : ∀ x ∈ first :: rest.filter number, ∀ y ∈ first :: rest.filter number,
      scoresAbove x y = true ↔ (scoreExtractionResult y).key < (scoreExtractionResult x).key :=
    fun x hx y hy => scoresAbove_iff ((hkept x).mp hx).2 ((hkept y).mp hy).2
  -- among numbers the comparison is an order, and the best is a greatest
  have hbest := (Selection.best_isFirstBest hkey).not_above hkey
  have hmem : Selection.best scoresAbove first (rest.filter number) ∈
      first :: rest.filter number := Selection.best_mem
  rw [hkept] at hmem
  rw [hfilter]
  exact ⟨hmem.1, hmem.2, fun d hd hdnumber => hbest d ((hkept d).mpr ⟨hd, hdnumber⟩)⟩

/-- A candidate with a citation is below one with a value that it is not above: were their
confidences equal, the length of its citation would put it above. -/
theorem lt_of_not_above_half {best d : ExtractionFieldResult}
    (hbest : (scoreExtractionResult best).evidence = 1)
    (hd : (scoreExtractionResult d).evidence = 1) (hvalue : HasValue best)
    (hnovalue : ¬ HasValue d) (hbestnumber : best.confidenceScore ≠ .nan)
    (hdnumber : d.confidenceScore ≠ .nan) (hnotabove : scoresAbove d best = false) :
    d.confidenceScore.lt best.confidenceScore = true := by
  rw [scoresAbove_of_evidence_eq (hd.trans hbest.symm)] at hnotabove
  have hdsource : d.sourceText ≠ "" := fun h => hnovalue ((hasValue_iff hd).mpr h)
  have hlength : best.sourceText.length < d.sourceText.length := by
    rw [(hasValue_iff hbest).mp hvalue]
    exact Nat.pos_of_ne_zero fun h => hdsource (String.length_eq_zero_iff.mp h)
  cases heq : d.confidenceScore.eq best.confidenceScore with
  | true =>
    rw [heq, if_neg (by decide)] at hnotabove
    exact absurd hlength (by simpa using hnotabove)
  | false =>
    rw [heq, if_pos (by decide)] at hnotabove
    rw [PyFloat.lt_iff hdnumber hbestnumber]
    refine lt_of_le_of_ne (not_lt.mp fun h => ?_) fun h => ?_
    · rw [(PyFloat.lt_iff hbestnumber hdnumber).mpr h] at hnotabove
      cases hnotabove
    · rw [(PyFloat.eq_iff hdnumber hbestnumber).mpr h] at heq
      cases heq

/-- Of candidates with either a value or a citation, the best has a value exactly when one
with a value has the confidence for it. -/
theorem hasValue_best_half
    (hhalf : ∀ r ∈ first :: rest, (scoreExtractionResult r).evidence = 1) :
    HasValue (bestCandidate first rest) ↔ HalfWins (first :: rest) := by
  have hsame : ∀ x ∈ first :: rest, ∀ y ∈ first :: rest,
      (scoreExtractionResult x).evidence = (scoreExtractionResult y).evidence :=
    fun x hx y hy => (hhalf x hx).trans (hhalf y hy).symm
  have hfirst : first ∈ first :: rest := List.mem_cons_self ..
  unfold HalfWins
  dsimp only
  by_cases hnan : first.confidenceScore = .nan
  · rw [if_pos hnan, bestCandidate_eq, Selection.best_of_forall fun x hx =>
      scoresAbove_nan (hsame x (List.mem_cons_of_mem _ hx) first hfirst) (Or.inr hnan)]
  · rw [if_neg hnan]
    obtain ⟨hbestmem, hbestnumber, hbest⟩ := best_number_half hhalf hnan
    generalize bestCandidate first rest = best at hbestmem hbestnumber hbest ⊢
    constructor
    · intro hvalue
      refine ⟨best, hbestmem, hvalue, fun d hd hnovalue => ?_⟩
      by_cases hdnan : d.confidenceScore = .nan
      · exact Or.inl hdnan
      · exact Or.inr (lt_of_not_above_half (hhalf best hbestmem) (hhalf d hd) hvalue hnovalue
          hbestnumber hdnan (hbest d hd hdnan))
    -- a best without a value would lie below a candidate with one
    · rintro ⟨c, hc, hvalue, habove⟩
      by_contra hnovalue
      have hlt := (habove best hbestmem hnovalue).resolve_left hbestnumber
      have hcnumber : c.confidenceScore ≠ .nan := by
        intro h
        rw [h] at hlt
        cases hconf : best.confidenceScore <;> rw [hconf] at hlt <;> cases hlt
      have hnotabove := hbest c hc hcnumber
      have hne : c.confidenceScore.eq best.confidenceScore = false := by
        rw [← Bool.not_eq_true, PyFloat.eq_iff hcnumber hbestnumber]
        exact ne_of_gt ((PyFloat.lt_iff hbestnumber hcnumber).mp hlt)
      rw [scoresAbove_of_evidence_eq (hsame c hc best hbestmem), hne, if_pos (by decide), hlt]
        at hnotabove
      cases hnotabove

/-- The best candidate has a value, if any has, exactly when a value wins. -/
theorem hasValue_bestCandidate (first : ExtractionFieldResult)
    (rest : List ExtractionFieldResult) :
    ((∃ c ∈ first :: rest, HasValue c) → HasValue (bestCandidate first rest)) ↔
      ValueWins (first :: rest) := by
  have hmax : ∀ c ∈ first :: rest, (scoreExtractionResult c).evidence ≤
      (scoreExtractionResult (bestCandidate first rest)).evidence := by
    refine Selection.le_best (fun x y h => (scoresAbove_of_evidence_lt h).1) fun x y h => ?_
    by_contra hno
    rw [(scoresAbove_of_evidence_lt (by omega)).2] at h
    cases h
  by_cases hany : ∃ c ∈ first :: rest, HasValue c
  · by_cases hboth : ∃ c ∈ first :: rest, HasValue c ∧ c.sourceText ≠ ""
    · refine iff_of_true (fun _ => ?_) (Or.inr (Or.inl hboth))
      -- a candidate with both has the greatest evidence
      obtain ⟨c, hc, hfull⟩ := hboth
      have htwo := hmax c hc
      have hle := evidence_le_two (bestCandidate first rest)
      rw [evidence_eq_two.mpr hfull] at htwo
      exact (evidence_eq_two.mp (by omega)).1
    · have hle : ∀ c ∈ first :: rest, (scoreExtractionResult c).evidence ≤ 1 := by
        intro c hc
        have htwo := evidence_le_two c
        have hno : (scoreExtractionResult c).evidence ≠ 2 :=
          fun h => hboth ⟨c, hc, evidence_eq_two.mp h⟩
        omega
      have hwins : ValueWins (first :: rest) ↔ HalfWins (halfEvidenced (first :: rest)) := by
        have hnotall : ¬∀ c ∈ first :: rest, ¬HasValue c := by
          obtain ⟨c, hc, hvalue⟩ := hany
          exact fun hall => hall c hc hvalue
        unfold ValueWins
        rw [or_iff_right hnotall, or_iff_right hboth]
      rw [hwins, forall_prop_of_true hany]
      obtain ⟨c, hc, hvalue⟩ := hany
      have hchalf : c ∈ halfEvidenced (first :: rest) := by
        refine List.mem_filter.mpr ⟨hc, ?_⟩
        have hpos := evidence_pos hvalue
        have hone := hle c hc
        exact beq_iff_eq.mpr (by omega)
      cases hhalf : halfEvidenced (first :: rest) with
      | nil =>
        rw [hhalf] at hchalf
        cases hchalf
      | cons kept others =>
        -- candidates with neither lose to every other, and can be left out
        have hbest : bestCandidate first rest = bestCandidate kept others := by
          refine Selection.best_filter hhalf fun x hx hno y hy => ?_
          have hxle := hle x hx
          have hxne : (scoreExtractionResult x).evidence ≠ 1 := by simpa using hno
          have hyone : (scoreExtractionResult y).evidence = 1 := by simpa using hy
          obtain ⟨habove, hbelow⟩ := scoresAbove_of_evidence_lt (a := y) (b := x) (by omega)
          exact ⟨hbelow, habove⟩
        rw [hbest]
        refine hasValue_best_half fun r hr => ?_
        rw [← hhalf] at hr
        simpa using (List.mem_filter.mp hr).2
  · refine iff_of_true (fun h => absurd h hany) (Or.inl ?_)
    simpa using hany

end Values

section Kept

variable {lib : FieldLibrary} {num : PyNumeric} {rule : ConfidenceRule}
  {definition : ExtractionFieldDefinition} {candidates providerResults : List ExtractionFieldResult}
  {result : ExtractionFieldResult}

theorem hasValue_selectCandidate (definition : ExtractionFieldDefinition) :
    ValueKept candidates (selectCandidate definition candidates) ↔ ValueWins candidates := by
  cases candidates with
  | nil => exact iff_of_true (fun h => by simp at h) (Or.inl (by simp))
  | cons first rest =>
    cases rest with
    | nil => exact hasValue_bestCandidate first []
    | cons next rest => exact hasValue_bestCandidate first (next :: rest)

/-- The rules keep whether there is a value. -/
theorem hasValue_reconcileField
    (h : reconcileField lib num rule providerResults definition = .ok result) :
    HasValue result ↔
      HasValue (selectCandidate definition (candidatesOf providerResults definition)) := by
  obtain ⟨validated, hvalidated, rfl⟩ := reconcileField_ok h
  unfold HasValue
  rw [(flagLowConfidence_spec lib rule _).2.1, (requireCitation_spec definition validated).2.1,
    (validateExtractedField_writes hvalidated).2.1, isNone_canonicalValue]

end Kept

/-- Terms that are cited but not read, with a confidence. -/
def citingResult (confidence : ℚ) : ExtractionFieldResult :=
  { termsResult .none with confidenceScore := .fin confidence, sourceText := "Terms" }

/-- Terms that are read but not cited, with a confidence. -/
def uncitedResult (confidence : ℚ) : ExtractionFieldResult :=
  { termsResult (.str "Net 30") with confidenceScore := .fin confidence }

end ExtractFlow
