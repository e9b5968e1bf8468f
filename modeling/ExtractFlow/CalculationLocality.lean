import ExtractFlow.CalculationMeaning

/-!
# Locality of calculations

Two runs of `evaluate_calculated_fields` on one accepted template, compared.  The
calculated fields may come in another order, the sets of the sort may iterate in
another order, and the extracted values may differ: the result of a field is the
same in both runs as long as the extracted fields it refers to, directly or
through other calculated fields, have the same values.

## Main definitions

* `extractedValue` — the value a list of results gives to a name.
* `resultOf` — the result of a name.
* `DifferOnlyAt` — lists of results that differ in the value of one field.

## Main results

* `evaluateCalculatedFields_hasResult`, `evaluateCalculatedFields_returns` — what a run returns,
  and when it does.
* `calculations_local` — the result of a field depends on what it refers to.
-/

namespace ExtractFlow

/-! ### Extracted values -/

/-- The value the context of the calculations holds for an extracted field. -/
def extractedValue (extracted : List ExtractionFieldResult) (name : String) : Option PyVal :=
  PyVal.dictGet (extractedContext extracted) name

/-- Both lists hold results of the same fields, with the same values but for the field `f`. -/
def DifferOnlyAt (f : String) : List ExtractionFieldResult → List ExtractionFieldResult → Prop :=
  List.Forall₂ fun r r' =>
    r.fieldName = r'.fieldName ∧ (r.fieldName ≠ f → r.normalizedValue = r'.normalizedValue)

theorem DifferOnlyAt.extractedValue_eq {f : String} {extracted extracted' : List ExtractionFieldResult}
    (h : DifferOnlyAt f extracted extracted') {id : String} (hid : id ≠ f) :
    extractedValue extracted id = extractedValue extracted' id := by
  have hfold : ∀ context context' : Context,
      PyVal.dictGet context id = PyVal.dictGet context' id →
      PyVal.dictGet (extracted.foldl (fun context field =>
          PyVal.dictSet context field.fieldName field.normalizedValue) context) id =
        PyVal.dictGet (extracted'.foldl (fun context field =>
          PyVal.dictSet context field.fieldName field.normalizedValue) context') id := by
    induction h with
    | nil => exact fun _ _ hcontext => hcontext
    | @cons r r' rest rest' hr _ ih =>
      obtain ⟨hname, hvalue⟩ := hr
      intro context context' hcontext
      rw [List.foldl_cons, List.foldl_cons]
      refine ih _ _ ?_
      by_cases heq : id = r.fieldName
      · have hvalue := hvalue (heq ▸ hid)
        rw [← hname, ← hvalue, heq, PyVal.dictGet_dictSet_self, PyVal.dictGet_dictSet_self]
      · rw [PyVal.dictGet_dictSet_ne _ _ heq, PyVal.dictGet_dictSet_ne _ _ (hname ▸ heq), hcontext]
  exact hfold [] [] rfl

/-- The context has a value for the extracted fields. -/
theorem extractedValue_isSome {extracted : List ExtractionFieldResult} {id : String} :
    (extractedValue extracted id).isSome ↔ id ∈ extracted.map ExtractionFieldResult.fieldName := by
  have hfold : ∀ context : Context,
      (PyVal.dictGet (extracted.foldl (fun context field =>
          PyVal.dictSet context field.fieldName field.normalizedValue) context) id).isSome ↔
        (PyVal.dictGet context id).isSome ∨
          id ∈ extracted.map ExtractionFieldResult.fieldName := by
    induction extracted with
    | nil => simp
    | cons r rest ih =>
      intro context
      rw [List.foldl_cons, ih, List.map_cons, List.mem_cons]
      by_cases heq : id = r.fieldName
      · rw [heq, PyVal.dictGet_dictSet_self]
        simp
      · rw [PyVal.dictGet_dictSet_ne _ _ heq]
        simp [heq]
  have h := hfold []
  simpa [extractedValue, extractedContext, PyVal.dictGet] using h

theorem mem_availableNames {fields : List CalculatedFieldDefinition}
    {extracted : List ExtractionFieldResult} {id : String} :
    id ∈ availableNames fields extracted ↔
      (extractedValue extracted id).isSome ∨ id ∈ fields.map CalculatedFieldDefinition.name := by
  unfold availableNames
  rw [List.mem_dedup, List.mem_append, extractedValue_isSome]

/-! ### What a run returns -/

/-- The result of a name, in whatever place it is in the list. -/
def resultOf (results : List CalculatedFieldResult) (name : String) :
    Option CalculatedFieldResult :=
  results.find? fun r => r.fieldName == name

section Run

variable {py : Python} {sets : SetOrder} {num : PyNumeric} {t : ExtractionTemplate}
  {fields : List CalculatedFieldDefinition} {extracted : List ExtractionFieldResult}

/-- The results of the fields of a run on `fields` and `extracted`. -/
abbrev ResultIn (py : Python) (num : PyNumeric) (fields : List CalculatedFieldDefinition)
    (extracted : List ExtractionFieldResult) :
    CalculatedFieldDefinition → CalculatedFieldResult → Prop :=
  HasResult py num (availableNames fields extracted) (extractedContext extracted) fields

theorem HasResult.fieldName {available : List String} {base : Context}
    {d : CalculatedFieldDefinition} {r : CalculatedFieldResult}
    (h : HasResult py num available base fields d r) : r.fieldName = d.name := by
  cases h with
  | turn _ _ _ _ _ _ _ _ hturn => exact (evaluateCalculatedField_spec hturn).1

/-- The sort of an accepted template's fields. -/
theorem Accepted.inOrder (sets : SetOrder) (h : Accepted py t) (hperm : fields.Perm t.calculatedFields) :
    ∃ ordered, topologicallySortCalculatedFields (py.engine sets) fields = .ok ordered ∧
      InOrder py fields ordered := by
  obtain ⟨ordered, hordered, hperm', hclosed⟩ := h.sorted sets hperm
  have hnodup : (fields.map CalculatedFieldDefinition.name).Nodup :=
    (hperm.map CalculatedFieldDefinition.name).nodup_iff.mpr h.calculated_nodup
  exact ⟨ordered, hordered, hperm', hnodup, hclosed⟩

/-- **A run that returns, returns the results of its fields**, in an order in which dependencies
come first. -/
theorem evaluateCalculatedFields_hasResult (h : Accepted py t)
    (hperm : fields.Perm t.calculatedFields) {results : List CalculatedFieldResult}
    (hrun : evaluateCalculatedFields (py.engine sets) num fields extracted = .ok results) :
    ∃ ordered, InOrder py fields ordered ∧
      List.Forall₂ (ResultIn py num fields extracted) ordered results := by
  obtain ⟨ordered, hordered, horder⟩ := h.inOrder sets hperm
  rw [evaluateCalculatedFields_eq, hordered, Failing.bind_of_ok rfl] at hrun
  obtain ⟨st, hloop, hst⟩ := Failing.bind_ok.mp hrun
  obtain rfl := Except.ok.inj hst
  exact ⟨ordered, horder, (hasResult_of_loop horder hloop).results⟩

/-- **A run returns when every field has a result**, which does not depend on the order of
the run. -/
theorem evaluateCalculatedFields_returns (sets : SetOrder) (h : Accepted py t)
    (hperm : fields.Perm t.calculatedFields)
    (hall : ∀ d ∈ fields, ∃ r, ResultIn py num fields extracted d r) :
    ∃ results, evaluateCalculatedFields (py.engine sets) num fields extracted = .ok results := by
  obtain ⟨ordered, hordered, horder⟩ := h.inOrder sets hperm
  obtain ⟨st, hloop, -⟩ := loop_of_hasResult sets horder hall
  refine ⟨st.1, ?_⟩
  rw [evaluateCalculatedFields_eq, hordered, Failing.bind_of_ok rfl, hloop]
  rfl

/-- The result of a name is that of the field of the name. -/
theorem resultOf_of_forall₂ {ordered : List CalculatedFieldDefinition}
    {results : List CalculatedFieldResult}
    (hnodup : (ordered.map CalculatedFieldDefinition.name).Nodup)
    (h : List.Forall₂ (ResultIn py num fields extracted) ordered results)
    {d : CalculatedFieldDefinition} (hd : d ∈ ordered) :
    ∃ r, resultOf results d.name = some r ∧ ResultIn py num fields extracted d r :=
  Keyed.find?_of_forall₂ (fun _ _ hr => hr.fieldName) hnodup h hd

theorem InOrder.ordered_nodup {ordered : List CalculatedFieldDefinition}
    (h : InOrder py fields ordered) :
    (ordered.map CalculatedFieldDefinition.name).Nodup :=
  (h.perm.map CalculatedFieldDefinition.name).nodup_iff.mpr h.nodup

/-- A name that is no calculated field has no result. -/
theorem resultOf_eq_none {ordered : List CalculatedFieldDefinition}
    {results : List CalculatedFieldResult} (horder : InOrder py fields ordered)
    (h : List.Forall₂ (ResultIn py num fields extracted) ordered results) {name : String}
    (hname : name ∉ fields.map CalculatedFieldDefinition.name) : resultOf results name = none := by
  have hnames : results.map CalculatedFieldResult.fieldName =
      ordered.map CalculatedFieldDefinition.name :=
    Keyed.map_eq_of_forall₂ (fun _ _ hr => hr.fieldName) h
  refine Keyed.find?_eq_none_iff.mpr ?_
  rwa [hnames, (horder.perm.map CalculatedFieldDefinition.name).mem_iff]

end Run

/-! ### Two runs -/

section Locality

variable {py : Python} {num : PyNumeric} {fields fields' : List CalculatedFieldDefinition}
  {extracted extracted' : List ExtractionFieldResult}

/-- The extracted fields that `d` refers to have the same values in both lists. -/
def SameInputs (py : Python) (fields : List CalculatedFieldDefinition)
    (extracted extracted' : List ExtractionFieldResult) (d : CalculatedFieldDefinition) : Prop :=
  ∀ id, References py fields d id → id ∉ fields.map CalculatedFieldDefinition.name →
    extractedValue extracted' id = extractedValue extracted id

theorem ResultIn.transport (hperm : fields'.Perm fields) {d : CalculatedFieldDefinition}
    {r : CalculatedFieldResult} (h : ResultIn py num fields extracted d r)
    (hsame : SameInputs py fields extracted extracted' d) :
    ResultIn py num fields' extracted' d r := by
  have hnames := hperm.map CalculatedFieldDefinition.name
  refine HasResult.transport (fun d' => hperm.mem_iff.symm) h ?_ ?_
  · exact fun id hid hno => (hsame id hid hno).symm
  · intro id hid
    rw [mem_availableNames, mem_availableNames, hnames.mem_iff]
    by_cases hcalculated : id ∈ fields.map CalculatedFieldDefinition.name
    · simp only [hcalculated, or_true]
    · rw [hsame id hid hcalculated]

/-- The results of a run are one for each field, whatever the order of the run. -/
theorem perm_of_forall₂ {ordered ordered' : List CalculatedFieldDefinition}
    {results results' : List CalculatedFieldResult} (hperm : ordered'.Perm ordered)
    (h : List.Forall₂ (ResultIn py num fields extracted) ordered results)
    (h' : List.Forall₂ (ResultIn py num fields extracted) ordered' results') :
    results'.Perm results := by
  have hunique : Relator.RightUnique (ResultIn py num fields extracted) :=
    fun _ _ _ hr hr' => hr.unique hr'
  exact List.rel_perm_imp hunique h' h hperm

/-- **Calculations are local.**  On an accepted template whose evaluation returns: in any
order of the calculated fields the evaluation returns the same results, name by name; the
result of a field is the same in every evaluation in which the extracted fields it refers
to, directly or through others, have the same values; so it is the same when only the
value of a field it does not refer to differs. -/
theorem calculations_local (py : Python) (sets₀ sets : SetOrder) (num : PyNumeric)
    (checkSchema : PyVal → Option String) (t : ExtractionTemplate)
    (extracted : List ExtractionFieldResult) (results : List CalculatedFieldResult)
    (hvalid : validateTemplate (py.engine sets₀) checkSchema t = .ok ())
    (hrun : evaluateCalculatedFields (py.engine sets) num t.calculatedFields extracted =
      .ok results) :
    (∀ (sets' : SetOrder) (fields' : List CalculatedFieldDefinition),
      fields'.Perm t.calculatedFields →
      ∃ results', evaluateCalculatedFields (py.engine sets') num fields' extracted = .ok results' ∧
        results'.Perm results ∧ ∀ name, resultOf results' name = resultOf results name) ∧
    (∀ (sets' : SetOrder) (fields' : List CalculatedFieldDefinition)
      (extracted' : List ExtractionFieldResult) (results' : List CalculatedFieldResult),
      fields'.Perm t.calculatedFields →
      evaluateCalculatedFields (py.engine sets') num fields' extracted' = .ok results' →
      ∀ d ∈ t.calculatedFields, SameInputs py t.calculatedFields extracted extracted' d →
        ∃ r, resultOf results d.name = some r ∧ resultOf results' d.name = some r) ∧
    (∀ (f : String) (extracted' : List ExtractionFieldResult)
      (results' : List CalculatedFieldResult), DifferOnlyAt f extracted extracted' →
      evaluateCalculatedFields (py.engine sets) num t.calculatedFields extracted' =
        .ok results' →
      ∀ d ∈ t.calculatedFields, ¬ References py t.calculatedFields d f →
        ∃ r, resultOf results d.name = some r ∧ resultOf results' d.name = some r) := by
  have haccepted := accepted_of_validateTemplate hvalid
  obtain ⟨ordered, horder, hresults⟩ :=
    evaluateCalculatedFields_hasResult haccepted (List.Perm.refl _) hrun
  -- two runs in which the inputs of a field agree give it one result
  have hlocal : ∀ (sets' : SetOrder) (fields' : List CalculatedFieldDefinition)
      (extracted' : List ExtractionFieldResult) (results' : List CalculatedFieldResult),
      fields'.Perm t.calculatedFields →
      evaluateCalculatedFields (py.engine sets') num fields' extracted' = .ok results' →
      ∀ d ∈ t.calculatedFields, SameInputs py t.calculatedFields extracted extracted' d →
        ∃ r, resultOf results d.name = some r ∧ resultOf results' d.name = some r := by
    intro sets' fields' extracted' results' hperm hrun' d hd hsame
    obtain ⟨ordered', horder', hresults'⟩ :=
      evaluateCalculatedFields_hasResult haccepted hperm hrun'
    have hd' : d ∈ ordered' := (horder'.perm.trans hperm).mem_iff.mpr hd
    obtain ⟨r, hfind, hr⟩ :=
      resultOf_of_forall₂ horder.ordered_nodup hresults (horder.perm.mem_iff.mpr hd)
    obtain ⟨r', hfind', hr'⟩ := resultOf_of_forall₂ horder'.ordered_nodup hresults' hd'
    obtain rfl : r = r' := (hr.transport hperm hsame).unique hr'
    exact ⟨r, hfind, hfind'⟩
  refine ⟨?_, hlocal, ?_⟩
  · intro sets' fields' hperm
    have hsame : ∀ d, SameInputs py t.calculatedFields extracted extracted d := fun _ _ _ _ => rfl
    have hall : ∀ d ∈ fields', ∃ r, ResultIn py num fields' extracted d r := by
      intro d hd
      have hd : d ∈ ordered := (hperm.trans horder.perm.symm).mem_iff.mp hd
      obtain ⟨r, -, hr⟩ := resultOf_of_forall₂ horder.ordered_nodup hresults hd
      exact ⟨r, hr.transport hperm (hsame d)⟩
    obtain ⟨results', hrun'⟩ := evaluateCalculatedFields_returns sets' haccepted hperm hall
    obtain ⟨ordered', horder', hresults'⟩ :=
      evaluateCalculatedFields_hasResult haccepted hperm hrun'
    refine ⟨results', hrun', ?_, ?_⟩
    · have hresults : List.Forall₂ (ResultIn py num fields' extracted) ordered results :=
        hresults.imp fun d _ hr => hr.transport hperm (hsame d)
      exact perm_of_forall₂ (horder'.perm.trans (hperm.trans horder.perm.symm)) hresults hresults'
    · intro name
      by_cases hname : name ∈ t.calculatedFields.map CalculatedFieldDefinition.name
      · obtain ⟨d, hd, rfl⟩ := List.mem_map.mp hname
        obtain ⟨r, hfind, hfind'⟩ :=
          hlocal sets' fields' extracted results' hperm hrun' d hd (hsame d)
        rw [hfind, hfind']
      · have hname' := (hperm.map CalculatedFieldDefinition.name).mem_iff.not.mpr hname
        rw [resultOf_eq_none horder hresults hname, resultOf_eq_none horder' hresults' hname']
  · intro f extracted' results' hdiffer hrun' d hd hno
    refine hlocal sets t.calculatedFields extracted' results' (List.Perm.refl _) hrun' d hd ?_
    intro id hid _
    have hne : id ≠ f := fun heq => hno (heq ▸ hid)
    exact (hdiffer.extractedValue_eq hne).symm

/-- The sum of the items, and what is calculated from the sum, are the same in every order of the
definitions. -/
theorem calculations_local_chain :
    ∃ results, evaluateCalculatedFields ((plainPython chainFormulas).engine insertionOrder)
        plainRuntime.num chainTemplate.calculatedFields (itemsResults [.int 1, .int 2]) =
          .ok results ∧
      results.map CalculatedFieldResult.fieldName = ["total", "double", "rate"] ∧
      ∀ (sets' : SetOrder) (fields' : List CalculatedFieldDefinition),
        fields'.Perm chainTemplate.calculatedFields →
        ∃ results', evaluateCalculatedFields ((plainPython chainFormulas).engine sets')
            plainRuntime.num fields' (itemsResults [.int 1, .int 2]) = .ok results' ∧
          results'.Perm results ∧ ∀ name, resultOf results' name = resultOf results name := by
  refine ⟨_, rfl, rfl, ?_⟩
  exact (calculations_local (plainPython chainFormulas) insertionOrder insertionOrder
    plainRuntime.num (fun _ => none) chainTemplate (itemsResults [.int 1, .int 2]) _ rfl rfl).1

end Locality

end ExtractFlow
