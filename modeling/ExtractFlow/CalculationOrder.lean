import ExtractFlow.CalculationFailures

/-!
# The order of calculations

An accepted template has no cycle of references, and the loop of
`evaluate_calculated_fields` reaches a field when every field its formula refers
to is in the context with its final value.  So, on extracted results that cover
the extracted fields of the template, no turn leaves an error about a name or a
cycle: every name a formula uses is bound.

## Main definitions

* `NamesError` — an error about an unknown name or a cycle.
* `FinalInputs` — the context of a turn holds the final values its formula refers to.

## Main results

* `CalculationRun.valuations` — every turn of a run has a valuation, and leaves a result.
* `validationErrors_of_turn` — where the errors of a turn come from.
* `not_namesError_of_turn` — none is about a name.
* `dependency_order_iff` — cycles are rejected; without one, every field is evaluated in
  order exactly when nothing escapes.
-/

namespace ExtractFlow

open DependencyOrder

/-! ### Errors about names -/

/-- The error is about an unknown name or a cycle, by how its message begins. -/
def NamesError (msg : String) : Prop :=
  ∃ start ∈ ["Unknown field reference", "Unknown identifier", "Circular dependency"],
    start.toList <+: msg.toList

/-- Such an error is known by its first three letters. -/
theorem NamesError.take_three {msg : String} (h : NamesError msg) :
    msg.toList.take 3 ∈ ["Unk".toList, "Cir".toList] := by
  obtain ⟨start, hstart, rest, hrest⟩ := h
  have hlength : ∀ start ∈ ["Unknown field reference", "Unknown identifier", "Circular dependency"],
      3 ≤ start.toList.length ∧ start.toList.take 3 ∈ ["Unk".toList, "Cir".toList] := by decide
  obtain ⟨hlong, htake⟩ := hlength start hstart
  rw [← hrest, List.take_append_of_le_length hlong]
  exact htake

/-- A text that starts otherwise is no such error. -/
theorem not_namesError_append {start : String} (rest : String)
    (hlong : 3 ≤ start.toList.length)
    (hstart : start.toList.take 3 ∉ ["Unk".toList, "Cir".toList]) :
    ¬ NamesError (start ++ rest) := by
  intro h
  have htake := h.take_three
  rw [String.toList_append, List.take_append_of_le_length hlong] at htake
  exact hstart htake

/-- The other errors of formulas are not about names. -/
theorem not_namesError_message {e : FormulaError} (h : ¬ (EvalErr.formula e).AboutName) :
    ¬ NamesError e.message := by
  cases e with
  | unknownFieldReference name => exact absurd trivial h
  | unknownIdentifier id => exact absurd trivial h
  | invalidSyntax msg =>
    show ¬ NamesError ("Invalid formula syntax: " ++ msg)
    exact not_namesError_append msg (by decide) (by decide)
  | unsupportedSyntax kind =>
    show ¬ NamesError ("Unsupported formula syntax: " ++ kind)
    exact not_namesError_append kind (by decide) (by decide)
  | unsupportedConversion fromUnit toUnit =>
    show ¬ NamesError ("Unsupported unit conversion: " ++ fromUnit ++ " -> " ++ toUnit)
    rw [String.append_assoc, String.append_assoc]
    exact not_namesError_append _ (by decide) (by decide)
  | privateAttribute => exact fun h => absurd h.take_three (by decide)
  | attributeAccess => exact fun h => absurd h.take_three (by decide)
  | notAHelper => exact fun h => absurd h.take_three (by decide)
  | keywordUnpacking => exact fun h => absurd h.take_three (by decide)
  | unsupportedUnary => exact fun h => absurd h.take_three (by decide)
  | unsupportedBinary => exact fun h => absurd h.take_three (by decide)

/-- The texts of the other errors of a calculated field. -/
def fixedErrors : List String :=
  ["Division by zero.", "Missing input.", "Calculated value is null.",
    "Calculated value is below minimum.", "Calculated value is above maximum."]

theorem not_namesError_fixed {msg : String} (hmsg : msg ∈ fixedErrors) : ¬ NamesError msg := by
  have hfixed : ∀ msg ∈ fixedErrors, msg.toList.take 3 ∉ ["Unk".toList, "Cir".toList] := by decide
  exact fun h => hfixed msg hmsg h.take_three

/-! ### The errors of a turn -/

section Turn

variable {py : Python} {sets : SetOrder} {num : PyNumeric} {available : List String}
  {context : Context} {d : CalculatedFieldDefinition}

theorem boundErrors_fixed {candidate : PyVal} {bound : Option PyFloat}
    {breaks : PyVal → PyFloat → Except PyErr Bool} {text : String} {errors : List String}
    (htext : text ∈ fixedErrors) (h : boundErrors candidate bound breaks text = .ok errors) :
    ∀ msg ∈ errors, msg ∈ fixedErrors := by
  intro msg hmsg
  unfold boundErrors at h
  split at h
  · split at h
    · obtain rfl := Except.ok.inj h
      cases hmsg
    · obtain ⟨b, -, rfl⟩ := Failing.map_ok.mp h
      cases b with
      | true => rwa [List.mem_singleton.mp hmsg]
      | false => cases hmsg
  · obtain rfl := Except.ok.inj h
    cases hmsg

/-- The check of the bounds adds errors of its own. -/
theorem validateCalculatedField_errors {result result' : CalculatedFieldResult}
    {rule : ValidationRule} (h : validateCalculatedField result rule = .ok result') :
    ∀ msg ∈ result'.validationErrors, msg ∈ result.validationErrors ∨ msg ∈ fixedErrors := by
  unfold validateCalculatedField at h
  obtain ⟨low, hlow, h⟩ := Failing.bind_ok.mp h
  obtain ⟨high, hhigh, h⟩ := Failing.bind_ok.mp h
  obtain rfl := Except.ok.inj h
  intro msg hmsg
  simp only [List.mem_append] at hmsg
  rcases hmsg with ((hmsg | hmsg) | hmsg) | hmsg
  · exact Or.inl hmsg
  · refine Or.inr ?_
    split at hmsg
    · rw [List.mem_singleton.mp hmsg]
      decide
    · cases hmsg
  · exact Or.inr (boundErrors_fixed (by decide) hlow msg hmsg)
  · exact Or.inr (boundErrors_fixed (by decide) hhigh msg hmsg)

theorem failureFindings_errors {e : EvalErr} :
    ∀ msg ∈ (failureFindings d e).errors,
      (∃ f, e = .formula f ∧ msg = f.message) ∨ msg ∈ fixedErrors := by
  have hpolicy : ∀ policy text note, text ∈ fixedErrors →
      ∀ msg ∈ (applyErrorHandling policy text note).errors, msg ∈ fixedErrors := by
    intro policy text note htext msg hmsg
    cases policy with
    | returnNullAndFlagReview => rwa [List.mem_singleton.mp hmsg]
    | returnNull => cases hmsg
  intro msg hmsg
  unfold failureFindings at hmsg
  split at hmsg
  · exact Or.inr (hpolicy _ _ _ (by decide) msg hmsg)
  · exact Or.inr (hpolicy _ _ _ (by decide) msg hmsg)
  · next f =>
    split at hmsg
    · exact Or.inr (hpolicy _ _ _ (by decide) msg hmsg)
    · exact Or.inl ⟨f, rfl, List.mem_singleton.mp hmsg⟩

/-- **Where the errors of a turn come from**: an error of the formula, or a fixed text. -/
theorem validationErrors_of_turn {r : CalculatedFieldResult}
    (h : evaluateCalculatedField (py.engine sets) num available context d = .ok r) :
    ∀ msg ∈ r.validationErrors,
      (∃ f, py.formulaOutcome d available context = .error (.formula f) ∧ msg = f.message) ∨
        msg ∈ fixedErrors := by
  unfold evaluateCalculatedField at h
  obtain ⟨⟨raw, findings⟩, hformula, h⟩ := Failing.bind_ok.mp h
  obtain ⟨⟨value, displayValue⟩, -, h⟩ := Failing.bind_ok.mp h
  obtain ⟨dependsOn, -, h⟩ := Failing.bind_ok.mp h
  intro msg hmsg
  rcases validateCalculatedField_errors h msg hmsg with hmsg | hmsg
  · cases houtcome : py.formulaOutcome d available context with
    | ok v =>
      rw [evaluateFormula_of_ok houtcome] at hformula
      obtain ⟨-, rfl⟩ := Prod.mk.inj (Except.ok.inj hformula)
      cases hmsg
    | error e =>
      rw [evaluateFormula_of_error houtcome] at hformula
      split at hformula
      · obtain ⟨-, rfl⟩ := Prod.mk.inj (Except.ok.inj hformula)
        rcases failureFindings_errors msg hmsg with ⟨f, rfl, htext⟩ | hmsg
        · exact Or.inl ⟨f, rfl, htext⟩
        · exact Or.inr hmsg
      · cases hformula
  · exact Or.inr hmsg

/-- **With the names of its formula known and bound, no error of a turn is about a name.** -/
theorem not_namesError_of_turn {tree : Node} {r : CalculatedFieldResult}
    (htree : py.compileFormula d.formula = .ok tree)
    (hknown : ∀ id ∈ tree.names, id ∈ allowedFunctions ∨ id ∈ available)
    (hbound : Bound (wrapContext context) tree)
    (h : evaluateCalculatedField (py.engine sets) num available context d = .ok r) :
    ∀ msg ∈ r.validationErrors, ¬ NamesError msg := by
  intro msg hmsg
  rcases validationErrors_of_turn h msg hmsg with ⟨f, hf, rfl⟩ | hmsg
  · refine not_namesError_message ?_
    have hvalid : py.validateFormula d.formula available = .ok () := by
      refine validateFormula_ok_iff.mpr ⟨⟨tree, htree⟩, ?_⟩
      rwa [formulaNames_of_compile htree]
    have hvisit : py.visit (wrapContext context) tree = .error (.formula f) := by
      unfold Python.formulaOutcome Python.evaluate at hf
      rw [hvalid, Failing.bind_of_ok rfl, htree, Failing.bind_of_ok rfl] at hf
      rcases Failing.bind_error.mp hf with hf | ⟨v, -, hf⟩
      · exact hf
      · cases hf
    intro habout
    have hraises : Raises EvalErr.AboutName (py.visit (wrapContext context) tree) :=
      ⟨_, hvisit, habout⟩
    exact not_hits_aboutName tree hbound (raises_visit_iff tree |>.mp hraises)
  · exact not_namesError_fixed hmsg

end Turn

/-! ### The turns of a run -/

section Run

variable {py : Python} {sets : SetOrder} {num : PyNumeric} {available : List String}
  {base : Context} {fields : List CalculatedFieldDefinition}

/-- **Every turn of a run has a valuation, and leaves the result of its field.** -/
theorem CalculationRun.valuations {context : Context} {turns : List Turn}
    (hrun : CalculationRun (py.engine sets) num available context turns) :
    ∀ (seen : List CalculatedFieldDefinition) {results : List CalculatedFieldResult},
      InOrder py fields (seen ++ turns.map Turn.definition) →
      LoopInv py num available base fields seen (results, context) →
      ∀ turn ∈ turns, HasResult py num available base fields turn.definition turn.result ∧
        ∃ res, (∀ d' ∈ fields, d'.name ∈ py.formulaNames turn.definition.formula →
            HasResult py num available base fields d' (res d')) ∧
          Valuation py base fields turn.definition res turn.context := by
  induction hrun with
  | nil context =>
    intro seen results _ _ turn hturn
    cases hturn
  | cons context d r turns hr _ ih =>
    intro seen results horder hinv turn hturn
    rw [List.map_cons] at horder
    have hvaluation := hinv.valuation horder rfl
    obtain ⟨hresult, hinv'⟩ := hinv.step horder rfl hr
    rcases List.mem_cons.mp hturn with rfl | hturn
    · exact ⟨hresult, hvaluation⟩
    · refine ih (seen ++ [d]) ?_ hinv' turn hturn
      rwa [List.append_assoc, List.singleton_append]

/-- The context of a turn holds the final values of the fields its formula refers to: the
extracted values, and the values of the results of the run. -/
def FinalInputs (py : Python) (t : ExtractionTemplate) (extracted : List ExtractionFieldResult)
    (turns : List Turn) (turn : Turn) : Prop :=
  ∀ id ∈ py.formulaNames turn.definition.formula,
    (id ∈ t.extractedFields.map ExtractionFieldDefinition.name →
      (extractedValue extracted id).isSome = true ∧
        PyVal.dictGet turn.context id = extractedValue extracted id) ∧
    ∀ turn' ∈ turns, turn'.definition.name = id →
      PyVal.dictGet turn.context id = some turn'.result.calculatedValue

end Run

section Accepted

variable {py : Python} {sets : SetOrder} {num : PyNumeric} {t : ExtractionTemplate}
  {extracted : List ExtractionFieldResult}

/-- No name is both an extracted and a calculated field. -/
theorem Accepted.not_calculated (h : Accepted py t) {id : String}
    (hid : id ∈ t.extractedFields.map ExtractionFieldDefinition.name) :
    id ∉ t.calculatedFields.map CalculatedFieldDefinition.name :=
  fun hmem => (List.nodup_append.mp h.nodup).2.2 id hid id hmem rfl

/-- The names of a formula that are not helpers are fields. -/
theorem Accepted.field_of_name (h : Accepted py t) {d : CalculatedFieldDefinition}
    (hd : d ∈ t.calculatedFields) {id : String} (hid : id ∈ py.formulaNames d.formula) :
    id ∈ allowedFunctions ∨ id ∈ t.extractedFields.map ExtractionFieldDefinition.name ∨
      id ∈ t.calculatedFields.map CalculatedFieldDefinition.name := by
  rcases (h.formulas d hd).known id hid with hhelper | hfield
  · exact Or.inl hhelper
  · refine Or.inr ?_
    rcases List.mem_append.mp hfield with hextracted | hcalculated
    · obtain ⟨f, hf, rfl⟩ := List.mem_map.mp hextracted
      exact Or.inl (List.mem_map_of_mem (List.mem_filter.mp hf).1)
    · exact Or.inr hcalculated

/-- **A turn finds the final values of what its formula refers to**, and leaves no error
about a name. -/
theorem turn_in_order (h : Accepted py t)
    (hcovers : (extracted.map ExtractionFieldResult.fieldName).Perm
      (t.extractedFields.map ExtractionFieldDefinition.name)) {turns : List Turn}
    (hrun : CalculationRun (py.engine sets) num (availableNames t.calculatedFields extracted)
      (extractedContext extracted) turns)
    (horder : InOrder py t.calculatedFields (turns.map Turn.definition)) {turn : Turn}
    (hturn : turn ∈ turns) :
    FinalInputs py t extracted turns turn ∧
      ∀ msg ∈ turn.result.validationErrors, ¬ NamesError msg := by
  have hvaluations := hrun.valuations [] horder loopInv_nil
  obtain ⟨-, res, hres, hvaluation⟩ := hvaluations turn hturn
  have hd : turn.definition ∈ t.calculatedFields :=
    horder.perm.mem_iff.mp (List.mem_map_of_mem hturn)
  have hextracted : ∀ {id}, id ∈ t.extractedFields.map ExtractionFieldDefinition.name →
      (extractedValue extracted id).isSome = true :=
    fun hid => extractedValue_isSome.mpr (hcovers.mem_iff.mpr hid)
  -- what the context holds is the extracted value, or the value of the field’s own turn
  have hfinal : FinalInputs py t extracted turns turn := by
    intro id hid
    refine ⟨fun hfield => ⟨hextracted hfield, ?_⟩, ?_⟩
    · exact hvaluation.extracted id hid (h.not_calculated hfield)
    · rintro turn' hturn' rfl
      have hd' : turn'.definition ∈ t.calculatedFields :=
        horder.perm.mem_iff.mp (List.mem_map_of_mem hturn')
      rw [hvaluation.calculated _ hd' hid,
        (hres _ hd' hid).unique (hvaluations turn' hturn').1]
  refine ⟨hfinal, ?_⟩
  obtain ⟨tree, htree⟩ := (h.formulas _ hd).parses
  have hnames := formulaNames_of_compile htree
  -- every name is available, and has a value when the formula is evaluated
  refine not_namesError_of_turn htree ?_ ?_ (hrun.turn hturn)
  · intro id hid
    rw [← hnames] at hid
    rw [mem_availableNames]
    rcases h.field_of_name hd hid with hhelper | hfield | hcalculated
    · exact Or.inl hhelper
    · exact Or.inr (Or.inl (hextracted hfield))
    · exact Or.inr (Or.inr hcalculated)
  · intro id hid
    rw [← hnames] at hid
    rw [dictGet_wrapContext, Option.isSome_map]
    rcases h.field_of_name hd hid with hhelper | hfield | hcalculated
    · exact Or.inr hhelper
    · obtain ⟨hsome, hget⟩ := (hfinal id hid).1 hfield
      exact Or.inl (by rw [hget, hsome])
    · obtain ⟨d', hd', rfl⟩ := List.mem_map.mp hcalculated
      rw [hvaluation.calculated d' hd' hid]
      exact Or.inl rfl

end Accepted

/-- **Accepted templates are evaluated in dependency order.**  A template whose formulas
refer to each other in a cycle is rejected.  When one is accepted, and the extracted results
cover its extracted fields, every calculated field is evaluated once, with the final values
its formula refers to in the context, and leaves no error about a name or a cycle — exactly
when nothing escapes. -/
theorem dependency_order_iff (py : Python) (sets₀ sets : SetOrder) (num : PyNumeric)
    (checkSchema : PyVal → Option String) (t : ExtractionTemplate) :
    (¬ Acyclic (RefersTo py t.calculatedFields) →
      validateTemplate (py.engine sets₀) checkSchema t ≠ .ok ()) ∧
    (validateTemplate (py.engine sets₀) checkSchema t = .ok () →
      ∀ extracted : List ExtractionFieldResult,
      (extracted.map ExtractionFieldResult.fieldName).Perm
        (t.extractedFields.map ExtractionFieldDefinition.name) →
      ((∃ turns : List Turn,
        evaluateCalculatedFields (py.engine sets) num t.calculatedFields extracted =
          .ok (turns.map Turn.result) ∧
        CalculationRun (py.engine sets) num (availableNames t.calculatedFields extracted)
          (extractedContext extracted) turns ∧
        (turns.map Turn.definition).Perm t.calculatedFields ∧
        ∀ turn ∈ turns, FinalInputs py t extracted turns turn ∧
          ∀ msg ∈ turn.result.validationErrors, ¬ NamesError msg) ↔
        NothingEscapes py num t.calculatedFields extracted)) := by
  constructor
  · intro hcycle hvalid
    exact hcycle (accepted_of_validateTemplate hvalid).acyclic
  · intro hvalid extracted hcovers
    have haccepted := accepted_of_validateTemplate hvalid
    rw [← evaluateCalculatedFields_returns_iff sets haccepted (List.Perm.refl _)]
    constructor
    · rintro ⟨turns, hrun, -⟩
      exact ⟨_, hrun⟩
    · rintro ⟨results, hrun⟩
      -- The run that returned is a run of turns, in an order that follows the references.
      obtain ⟨turns, hturns, rfl, horder⟩ := evaluateCalculatedFields_turns haccepted hrun
      refine ⟨turns, hrun, hturns, horder.perm, fun turn hturn => ?_⟩
      exact turn_in_order haccepted hcovers hturns horder hturn

/-- The sum is in the context, with its final value, when the two fields that go on from it are
evaluated, although one of them is declared before it. -/
theorem dependency_order_iff_chain : ∃ turns : List Turn,
    evaluateCalculatedFields ((plainPython chainFormulas).engine insertionOrder) plainRuntime.num
        chainTemplate.calculatedFields (itemsResults [.int 1, .int 2]) =
      .ok (turns.map Turn.result) ∧
    (turns.map Turn.result).map CalculatedFieldResult.fieldName = ["total", "double", "rate"] ∧
    (∀ turn ∈ turns, FinalInputs (plainPython chainFormulas) chainTemplate
      (itemsResults [.int 1, .int 2]) turns turn) ∧
    ∃ turn ∈ turns, turn.result.fieldName = "double" ∧ turn.result.calculatedValue = .int 6 := by
  have hvalid : validateTemplate ((plainPython chainFormulas).engine insertionOrder)
      (fun _ => none) chainTemplate = .ok () := rfl
  obtain ⟨results, hresults, hnames, double, hdouble, hsix⟩ : ∃ results,
      evaluateCalculatedFields ((plainPython chainFormulas).engine insertionOrder)
        plainRuntime.num chainTemplate.calculatedFields (itemsResults [.int 1, .int 2]) =
          .ok results ∧
      results.map CalculatedFieldResult.fieldName = ["total", "double", "rate"] ∧
      ∃ double, results[1]? = some double ∧ double.fieldName = "double" ∧
        double.calculatedValue = .int 6 :=
    ⟨_, rfl, rfl, _, rfl, rfl, rfl⟩
  have hnothing : NothingEscapes (plainPython chainFormulas) plainRuntime.num
      chainTemplate.calculatedFields (itemsResults [.int 1, .int 2]) :=
    (evaluateCalculatedFields_returns_iff insertionOrder (accepted_of_validateTemplate hvalid)
      (List.Perm.refl _)).mp ⟨results, hresults⟩
  obtain ⟨turns, hrun, -, -, hfinal⟩ := ((dependency_order_iff (plainPython chainFormulas)
    insertionOrder insertionOrder plainRuntime.num (fun _ => none) chainTemplate).2
    hvalid (itemsResults [.int 1, .int 2]) (List.Perm.refl _)).mpr hnothing
  have hsame : turns.map Turn.result = results := Except.ok.inj (hrun.symm.trans hresults)
  refine ⟨turns, hrun, by rw [hsame, hnames], fun turn hturn => (hfinal turn hturn).1, ?_⟩
  -- the result of the second turn is the field `double`
  obtain ⟨turn, hturn, rfl⟩ := List.mem_map.mp (hsame ▸ List.mem_of_getElem? hdouble)
  exact ⟨turn, hturn, hsix⟩

/-- A second field, which the first does not refer to. -/
def copyTemplate : ExtractionTemplate :=
  { itemsTemplate "min(items)" with
    calculatedFields := (itemsTemplate "min(items)").calculatedFields ++
      [{ name := "copy", label := "Copy", outputType := .list, formula := "items",
         dependsOn := ["items"] }] }

/-- **After the minimum of an empty list the other field is not evaluated.** -/
theorem empty_min_skips :
    ¬ ∀ (py : Python) (sets₀ sets : SetOrder) (num : PyNumeric)
      (checkSchema : PyVal → Option String) (t : ExtractionTemplate)
      (extracted : List ExtractionFieldResult),
      validateTemplate (py.engine sets₀) checkSchema t = .ok () →
      (extracted.map ExtractionFieldResult.fieldName).Perm
        (t.extractedFields.map ExtractionFieldDefinition.name) →
      ∃ turns : List Turn,
        evaluateCalculatedFields (py.engine sets) num t.calculatedFields extracted =
          .ok (turns.map Turn.result) ∧
        (turns.map Turn.definition).Perm t.calculatedFields := by
  intro hclaim
  obtain ⟨turns, hrun, -⟩ := hclaim (plainPython [minFormula, nameFormula]) insertionOrder
    insertionOrder plainRuntime.num (fun _ => none) copyTemplate (itemsResults []) rfl
    (List.Perm.refl _)
  have haborts : evaluateCalculatedFields
      ((plainPython [minFormula, nameFormula]).engine insertionOrder) plainRuntime.num
      copyTemplate.calculatedFields (itemsResults []) =
        .error (.valueError "min() iterable argument is empty") := rfl
  rw [haborts] at hrun
  cases hrun

end ExtractFlow
