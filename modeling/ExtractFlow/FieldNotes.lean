import ExtractFlow.Reconcile

/-!
# The notes of a result

Validation and reconciliation write notes about what they did and never read the
notes that are there.  So two results that differ in their notes alone keep
differing in them alone, and by the same texts: what is added to the one is added
to the other.

Notes are joined by a space and stripped.  The strip never bites: every note
begins with a letter and every added text ends with a full stop.

## Main definitions

* `StartsPlain`, `EndsPlain` — a text without a space at its start, at its end.
* `AddsNotes f` — the computation `f` does the same whatever the notes, and adds a
  text to them.
* `finishField` — what reconciliation does with the candidate of a field.

## Main results

* `appendNote_eq` — a note is appended as it is.
* `finishField_addsNotes` — reconciliation only adds to the notes.
* `HoldsJson.finishField` — it keeps JSON values JSON values.
-/

namespace ExtractFlow

/-! ### Joining notes -/

/-- The text begins with a letter that is no space, so a strip leaves its beginning alone. -/
def StartsPlain (s : String) : Prop := ∃ c cs, s.toList = c :: cs ∧ isPySpace c = false

/-- The text ends with a letter that is no space, so a strip leaves its end alone. -/
def EndsPlain (s : String) : Prop := ∃ cs c, s.toList = cs ++ [c] ∧ isPySpace c = false

theorem StartsPlain.append {s : String} (h : StartsPlain s) (t : String) : StartsPlain (s ++ t) := by
  obtain ⟨c, cs, hs, hc⟩ := h
  exact ⟨c, cs ++ t.toList, by rw [String.toList_append, hs, List.cons_append], hc⟩

theorem EndsPlain.append {t : String} (h : EndsPlain t) (s : String) : EndsPlain (s ++ t) := by
  obtain ⟨cs, c, ht, hc⟩ := h
  exact ⟨s.toList ++ cs, c, by rw [String.toList_append, ht, List.append_assoc], hc⟩

theorem StartsPlain.ne_empty {s : String} (h : StartsPlain s) : s ≠ "" := by
  rintro rfl
  obtain ⟨c, cs, hs, -⟩ := h
  cases hs

/-- A text that begins and ends with letters is its own strip. -/
theorem pyStrip_eq_self {s : String} (hstart : StartsPlain s) (hend : EndsPlain s) :
    pyStrip s = s := by
  obtain ⟨c, cs, hs, hc⟩ := hstart
  obtain ⟨ds, d, ht, hd⟩ := hend
  have hstrip : stripChars s.toList = s.toList := by
    unfold stripChars
    rw [hs, List.dropWhile_cons_of_neg (by simp [hc]), ← hs, ht, List.reverse_append,
      List.reverse_singleton, List.singleton_append, List.dropWhile_cons_of_neg (by simp [hd]),
      List.reverse_cons, List.reverse_reverse]
  rw [pyStrip, hstrip, String.ofList_toList]

/-- **A note is appended as it is**, behind a blank: neither end of the whole has a space
to strip. -/
theorem appendNote_eq {current note : String} (hcurrent : StartsPlain current)
    (hnote : EndsPlain note) : appendNote current note = current ++ (" " ++ note) := by
  rw [appendNote, if_neg hcurrent.ne_empty]
  have hjoin : (s!"{current} {note}" : String) = current ++ (" " ++ note) := by
    rw [← String.append_assoc]
    rfl
  rw [hjoin]
  exact pyStrip_eq_self (hcurrent.append _) ((hnote.append _).append _)

/-- Joined texts end as the last of them does. -/
theorem endsPlain_intercalate {sep : String} {texts : List String} (hne : texts ≠ [])
    (hall : ∀ t ∈ texts, EndsPlain t) : EndsPlain (sep.intercalate texts) := by
  obtain ⟨init, last, rfl⟩ : ∃ init last, texts = init ++ [last] :=
    ⟨texts.dropLast, texts.getLast hne, (List.dropLast_append_getLast hne).symm⟩
  have hlast : EndsPlain last := hall last (by simp)
  by_cases hinit : init = []
  · rw [hinit, List.nil_append, String.intercalate_singleton]
    exact hlast
  · rw [String.intercalate_append_of_ne_nil hinit (List.cons_ne_nil _ _),
      String.intercalate_singleton]
    exact hlast.append _

/-! ### Computations that only add notes -/

/-- The result under other notes. -/
def ExtractionFieldResult.withNotes (r : ExtractionFieldResult) (notes : String) :
    ExtractionFieldResult := { r with extractionNotes := notes }

@[simp] theorem withNotes_notes (r : ExtractionFieldResult) (notes : String) :
    (r.withNotes notes).extractionNotes = notes := rfl

/-- `f` does the same whatever the notes of the result, and adds one text to them. -/
def AddsNotes (r : ExtractionFieldResult)
    (f : ExtractionFieldResult → Except PyErr ExtractionFieldResult) : Prop :=
  ∃ added : String, ∀ notes, StartsPlain notes →
    f (r.withNotes notes) = (f r).map fun v => v.withNotes (notes ++ added)

/-- A computation that leaves the notes. -/
theorem addsNotes_of_leaves {r : ExtractionFieldResult}
    {f : ExtractionFieldResult → Except PyErr ExtractionFieldResult}
    (h : ∀ notes, f (r.withNotes notes) = (f r).map fun v => v.withNotes notes) :
    AddsNotes r f := by
  refine ⟨"", fun notes _ => ?_⟩
  rw [h, String.append_empty]

/-- One computation after another. -/
theorem AddsNotes.bind {r : ExtractionFieldResult}
    {f g : ExtractionFieldResult → Except PyErr ExtractionFieldResult} (hf : AddsNotes r f)
    (hg : ∀ v, f r = .ok v → AddsNotes v g) : AddsNotes r fun r => f r >>= g := by
  obtain ⟨added, hf⟩ := hf
  cases hv : f r with
  | error e =>
    refine ⟨"", fun notes hnotes => ?_⟩
    have hraise : f (r.withNotes notes) = .error e := by rw [hf notes hnotes, hv]; rfl
    show f (r.withNotes notes) >>= g = (f r >>= g).map _
    rw [Failing.bind_of_error hv, Failing.bind_of_error hraise]
    rfl
  | ok v =>
    obtain ⟨more, hg⟩ := hg v hv
    refine ⟨added ++ more, fun notes hnotes => ?_⟩
    have hreturn : f (r.withNotes notes) = .ok (v.withNotes (notes ++ added)) := by
      rw [hf notes hnotes, hv]
      rfl
    show f (r.withNotes notes) >>= g = (f r >>= g).map _
    have hrest := hg (notes ++ added) (hnotes.append _)
    rw [String.append_assoc] at hrest
    rw [Failing.bind_of_ok hv, Failing.bind_of_ok hreturn]
    exact hrest

/-! ### Validation -/

/-- The notes about a canonicalization end with a full stop. -/
theorem endsPlain_canonicalizeAllowedScalar {lib : FieldLibrary} {candidate : PyVal}
    {allowedValues : List String} {note : String}
    (h : (canonicalizeAllowedScalar lib candidate allowedValues).2 = some note) :
    EndsPlain note := by
  have hcompared : EndsPlain "using normalized comparison." :=
    ⟨"using normalized comparison".toList, '.', rfl, rfl⟩
  have hmatched : EndsPlain "using guarded fuzzy matching." :=
    ⟨"using guarded fuzzy matching".toList, '.', rfl, rfl⟩
  unfold canonicalizeAllowedScalar at h
  split at h
  · split at h
    · cases h
    · split at h
      · obtain rfl := Option.some.inj h
        exact hcompared.append _
      · split at h
        · obtain rfl := Option.some.inj h
          exact hmatched.append _
        · cases h
  · cases h

theorem endsPlain_canonicalizeAllowedValue {lib : FieldLibrary} {candidate : PyVal}
    {allowedValues : List String} {note : String}
    (h : (canonicalizeAllowedValue lib candidate allowedValues).2 = some note) :
    EndsPlain note := by
  unfold canonicalizeAllowedValue at h
  split at h
  · cases h
  · split at h
    · exact endsPlain_canonicalizeAllowedScalar h
    · dsimp only at h
      split at h
      · cases h
      · next hne =>
        obtain rfl := Option.some.inj h
        refine endsPlain_intercalate (by simpa using hne) ?_
        intro t ht
        obtain ⟨p, hp, hpt⟩ := List.mem_filterMap.mp ht
        obtain ⟨item, -, rfl⟩ := List.mem_map.mp hp
        exact endsPlain_canonicalizeAllowedScalar hpt
    · cases h

theorem setNormalizedCandidate_withNotes (r : ExtractionFieldResult) (candidate : PyVal)
    (notes : String) : setNormalizedCandidate (r.withNotes notes) candidate =
      (setNormalizedCandidate r candidate).withNotes notes := by
  simp only [setNormalizedCandidate, ExtractionFieldResult.withNotes]
  split
  · split <;> rfl
  · rfl

/-- The check of the allowed values adds the note on the canonicalization. -/
theorem checkAllowedValues_withNotes (lib : FieldLibrary) (field : ExtractionFieldDefinition)
    (r : ExtractionFieldResult) : ∃ added : String, ∀ notes, StartsPlain notes →
      checkAllowedValues lib field (r.withNotes notes) =
        ((checkAllowedValues lib field r).1.withNotes (notes ++ added),
          (checkAllowedValues lib field r).2) := by
  have hvalue : ∀ notes, (r.withNotes notes).normalizedValue = r.normalizedValue := fun _ => rfl
  unfold checkAllowedValues
  simp only [hvalue]
  split
  · exact ⟨"", fun notes _ => by rw [String.append_empty]⟩
  · cases hnote : (canonicalizeAllowedValue lib (allowedCandidate r.normalizedValue)
      field.allowedValues).2 with
    | none => exact ⟨"", fun notes _ => by simp only [String.append_empty]⟩
    | some note =>
      refine ⟨" " ++ note, fun notes hnotes => ?_⟩
      have happend := appendNote_eq hnotes (endsPlain_canonicalizeAllowedValue hnote)
      simp only [setNormalizedCandidate_withNotes, withNotes_notes, happend]
      rfl

theorem validateExtractedField_addsNotes (lib : FieldLibrary) (num : PyNumeric)
    (field : ExtractionFieldDefinition) (r : ExtractionFieldResult) :
    AddsNotes r (validateExtractedField lib num field) := by
  obtain ⟨added, hcheck⟩ := checkAllowedValues_withNotes lib field r
  refine ⟨added, fun notes hnotes => ?_⟩
  have hvalue : (r.withNotes notes).normalizedValue = r.normalizedValue := rfl
  unfold validateExtractedField
  rw [hcheck notes hnotes, hvalue]
  dsimp only [ExtractionFieldResult.withNotes]
  cases checkFieldSchema lib field (checkAllowedValues lib field r).1.normalizedValue with
  | error e => rfl
  | ok schema =>
    rw [Failing.bind_of_ok rfl, Failing.bind_of_ok rfl]
    cases checkPattern lib num field.validation
      (checkAllowedValues lib field r).1.extractedValue with
    | error e => rfl
    | ok pattern => rfl

/-! ### Reconciliation -/

/-- What reconciliation does with the candidate of a field once it is selected. -/
def finishField (lib : FieldLibrary) (num : PyNumeric) (rule : ConfidenceRule)
    (definition : ExtractionFieldDefinition) (r : ExtractionFieldResult) :
    Except PyErr ExtractionFieldResult := do
  let result ← validateExtractedField lib num definition r
  return flagLowConfidence lib rule (requireCitation definition result)

theorem reconcileField_eq (lib : FieldLibrary) (num : PyNumeric) (rule : ConfidenceRule)
    (providerResults : List ExtractionFieldResult) (definition : ExtractionFieldDefinition) :
    reconcileField lib num rule providerResults definition =
      finishField lib num rule definition (selectCandidate definition
        (providerResults.filter fun r => r.fieldName == definition.name)) := rfl

theorem requireCitation_withNotes (definition : ExtractionFieldDefinition)
    (r : ExtractionFieldResult) (notes : String) :
    requireCitation definition (r.withNotes notes) =
      (requireCitation definition r).withNotes notes := by
  -- neither the test nor the branches look at the notes
  have htext : (r.withNotes notes).sourceText = r.sourceText := rfl
  unfold requireCitation
  rw [htext]
  split <;> rfl

/-- The check of the confidence adds the note on a low one. -/
theorem flagLowConfidence_addsNotes (lib : FieldLibrary) (rule : ConfidenceRule)
    (r : ExtractionFieldResult) : AddsNotes r fun r => .ok (flagLowConfidence lib rule r) := by
  have hthreshold : EndsPlain " review threshold." := ⟨" review threshold".toList, '.', rfl, rfl⟩
  have hvalue : ∀ notes, (r.withNotes notes).normalizedValue = r.normalizedValue := fun _ => rfl
  have hscore : ∀ notes, (r.withNotes notes).confidenceScore = r.confidenceScore := fun _ => rfl
  unfold flagLowConfidence AddsNotes
  simp only [hvalue, hscore, withNotes_notes]
  split
  · have hnote : ∃ note, EndsPlain note ∧ note =
        (let score := lib.formatScore r.confidenceScore
         let threshold := lib.formatScore rule.minimumConfidenceThreshold
         s!"Confidence {score} is below the {threshold} review threshold.") :=
      ⟨_, hthreshold.append _, rfl⟩
    obtain ⟨note, hend, hnote⟩ := hnote
    refine ⟨" " ++ note, fun notes hnotes => ?_⟩
    rw [← appendNote_eq hnotes hend, hnote]
    rfl
  · exact ⟨"", fun notes _ => by rw [String.append_empty]; rfl⟩

/-- **Reconciliation only adds to the notes** of a candidate, and adds the same whatever
they were. -/
theorem finishField_addsNotes (lib : FieldLibrary) (num : PyNumeric) (rule : ConfidenceRule)
    (definition : ExtractionFieldDefinition) (r : ExtractionFieldResult) :
    AddsNotes r (finishField lib num rule definition) := by
  refine (validateExtractedField_addsNotes lib num definition r).bind
    (g := fun v => .ok (flagLowConfidence lib rule (requireCitation definition v))) ?_
  intro v _
  have hcitation : AddsNotes v fun v => .ok (requireCitation definition v) :=
    addsNotes_of_leaves fun notes => by rw [requireCitation_withNotes]; rfl
  exact hcitation.bind (g := fun v => .ok (flagLowConfidence lib rule v))
    fun u _ => flagLowConfidence_addsNotes lib rule u

/-! ### Values -/

/-- The values of a result are JSON values, so storing it leaves them as they are. -/
structure HoldsJson (r : ExtractionFieldResult) : Prop where
  extracted : r.extractedValue.isJson = true
  normalized : r.normalizedValue.isJson = true

/-- Such a result is its own JSON form. -/
theorem HoldsJson.modelDump {r : ExtractionFieldResult} (h : HoldsJson r) :
    r.modelDump = .ok r := by
  unfold ExtractionFieldResult.modelDump
  rw [PyVal.dump_of_isJson h.extracted, PyVal.dump_of_isJson h.normalized]
  rfl

theorem isJson_allowedCandidate {v : PyVal} (h : v.isJson = true) :
    (allowedCandidate v).isJson = true := by
  unfold allowedCandidate
  split
  · next items =>
    rw [PyVal.isJson] at h
    cases hget : PyVal.dictGet items "value" with
    | none => rfl
    | some w => exact PyVal.isJson_of_dictGet h hget
  · exact h

theorem isJson_canonicalizeAllowedScalar (lib : FieldLibrary) {v : PyVal}
    (allowedValues : List String) (h : v.isJson = true) :
    (canonicalizeAllowedScalar lib v allowedValues).1.isJson = true := by
  unfold canonicalizeAllowedScalar
  split
  · split
    · rfl
    · split
      · rfl
      · split <;> rfl
  · exact h

theorem isJson_canonicalizeAllowedValue (lib : FieldLibrary) {v : PyVal}
    (allowedValues : List String) (h : v.isJson = true) :
    (canonicalizeAllowedValue lib v allowedValues).1.isJson = true := by
  unfold canonicalizeAllowedValue
  split
  · exact h
  · split
    · exact isJson_canonicalizeAllowedScalar lib allowedValues h
    · rw [PyVal.isJson, PyVal.isJsonList_iff] at h ⊢
      intro w hw
      obtain ⟨p, hp, rfl⟩ := List.mem_map.mp hw
      obtain ⟨item, hitem, rfl⟩ := List.mem_map.mp hp
      exact isJson_canonicalizeAllowedScalar lib allowedValues (h item hitem)
    · exact h

theorem HoldsJson.setNormalizedCandidate {r : ExtractionFieldResult} (h : HoldsJson r)
    {candidate : PyVal} (hc : candidate.isJson = true) :
    HoldsJson (setNormalizedCandidate r candidate) := by
  obtain ⟨hextracted, hnormalized⟩ := h
  unfold ExtractFlow.setNormalizedCandidate
  split
  · next items hitems =>
    rw [hitems, PyVal.isJson] at hnormalized
    split
    · exact ⟨hextracted, PyVal.isJsonItems_dictSet hnormalized _ hc⟩
    · exact ⟨hextracted, hc⟩
  · exact ⟨hextracted, hc⟩

/-- Reconciliation keeps the values of a candidate JSON values. -/
theorem HoldsJson.finishField {lib : FieldLibrary} {num : PyNumeric} {rule : ConfidenceRule}
    {definition : ExtractionFieldDefinition} {r r' : ExtractionFieldResult} (hr : HoldsJson r)
    (h : finishField lib num rule definition r = .ok r') : HoldsJson r' := by
  have hchecked : HoldsJson (checkAllowedValues lib definition r).1 := by
    unfold checkAllowedValues
    split
    · exact hr
    · dsimp only
      have hset := hr.setNormalizedCandidate
        (isJson_canonicalizeAllowedValue lib definition.allowedValues
          (isJson_allowedCandidate hr.normalized))
      split
      · exact ⟨hset.extracted, hset.normalized⟩
      · exact hr
  unfold ExtractFlow.finishField at h
  obtain ⟨v, hv, h⟩ := Failing.bind_ok.mp h
  obtain rfl := Except.ok.inj h
  -- No later check writes a value: they add errors, notes and flags.
  have hvalid : HoldsJson v := by
    unfold validateExtractedField at hv
    obtain ⟨schema, -, hv⟩ := Failing.bind_ok.mp hv
    obtain ⟨pattern, -, hv⟩ := Failing.bind_ok.mp hv
    obtain rfl := Except.ok.inj hv
    exact ⟨hchecked.extracted, hchecked.normalized⟩
  have hcitation : HoldsJson (requireCitation definition v) := by
    unfold requireCitation
    split <;> exact ⟨hvalid.extracted, hvalid.normalized⟩
  unfold flagLowConfidence
  split <;> exact ⟨hcitation.extracted, hcitation.normalized⟩

end ExtractFlow
