import ExtractFlow.CalculationOrder

/-!
# Which function a helper call applies

The callee of a call is looked up like any name: in the context first, among the
helpers only after that.  A field of a helper's name hides the helper, and its
value is called instead.  The validators do not compare the two sets of names.

A field a formula calls is a name of the formula, so a calculated field of that
name is a dependency and has its value by then, and an extracted one has its value
from the start.  Nothing else is in the context.

## Main definitions

* `AppliesHelper` — a call applies the built-in helper.
* `EvaluatedIn` — the calculations get to a field, with a context.
* `HidesHelper` — a field of a template hides a helper.

## Main results

* `visit_call_of_appliesHelper` — what a call that applies the helper evaluates to.
* `helpers_applied_iff` — the formulas whose calls apply the helpers.
* `field_hides_helper` — a template is accepted with a field that hides one.
-/

namespace ExtractFlow

/-! ### The callee -/

/-- The function that `visit_Call` applies for the helper `name` is that helper, and not a value of
the context. -/
def AppliesHelper (py : Python) (context : Context) (name : String) : Prop :=
  py.visit context (.name name) = .ok (.function name)

section Callee

variable {py : Python} {context : Context} {name : String}

/-- **A call that applies the helper** is the helper's value on the arguments. -/
theorem visit_call_of_appliesHelper (h : AppliesHelper py context name)
    (hname : name ∈ allowedFunctions) (args : List Node) (keywords : List (Option String × Node)) :
    py.visit context (.call (.name name) args keywords) = (do
      let vs ← py.visitList context args
      let kwargs ← py.visitKeywords context [] keywords
      py.callHelper name vs kwargs) := by
  have hhelper : (Node.name name).helper? = true := by simpa [Node.helper?] using hname
  unfold AppliesHelper at h
  rw [Python.visit, if_pos hhelper, h]
  rfl

/-- Only the helper itself may be in the context under its name. -/
theorem appliesHelper_wrapContext_iff (hname : name ∈ allowedFunctions) :
    AppliesHelper py (wrapContext context) name ↔
      ∀ v, PyVal.dictGet context name = some v → v = .function name := by
  unfold AppliesHelper
  rw [Python.visit, visitName, dictGet_wrapContext]
  cases h : PyVal.dictGet context name with
  | none => simp [hname]
  | some v =>
    have hwrap : wrapValue [name] v.aged = .function name ↔ v = .function name := by
      cases v <;> simp [PyVal.aged, wrapValue]
    simpa using hwrap

end Callee

/-! ### The calculations -/

/-- The calculations get to the field `d`, and this is the context that they evaluate it in. -/
def EvaluatedIn (engine : FormulaEngine) (num : PyNumeric)
    (definitions : List CalculatedFieldDefinition) (extracted : List ExtractionFieldResult)
    (d : CalculatedFieldDefinition) (context : Context) : Prop :=
  ∃ ordered seen after results,
    topologicallySortCalculatedFields engine definitions = .ok ordered ∧
      ordered = seen ++ d :: after ∧
      seen.foldlM (calculationTurn engine num (availableNames definitions extracted))
        ([], extractedContext extracted) = .ok (results, context)

/-- An extracted result or a calculated field is named like the helper, and its value
is not the helper itself. -/
def HidesHelper (t : ExtractionTemplate) (extracted : List ExtractionFieldResult)
    (context : Context) (name : String) : Prop :=
  (name ∈ extracted.map ExtractionFieldResult.fieldName ∨
      name ∈ t.calculatedFields.map CalculatedFieldDefinition.name) ∧
    PyVal.dictGet context name ≠ some (.function name)

section Calculations

variable {py : Python} {sets : SetOrder} {num : PyNumeric} {t : ExtractionTemplate}
  {extracted : List ExtractionFieldResult} {d : CalculatedFieldDefinition} {context : Context}

/-- **A name of a formula is in the context when it is a field.** -/
theorem context_isSome_iff (haccepted : Accepted py t)
    (heval : EvaluatedIn (py.engine sets) num t.calculatedFields extracted d context) {id : String}
    (hid : id ∈ py.formulaNames d.formula) :
    (PyVal.dictGet context id).isSome = true ↔
      id ∈ extracted.map ExtractionFieldResult.fieldName ∨
        id ∈ t.calculatedFields.map CalculatedFieldDefinition.name := by
  obtain ⟨ordered, seen, after, results, hordered, hsplit, hloop⟩ := heval
  obtain ⟨ordered', hordered', horder⟩ := haccepted.inOrder sets (List.Perm.refl _)
  obtain rfl := Except.ok.inj (hordered.symm.trans hordered')
  have hinv : LoopInv py num (availableNames t.calculatedFields extracted)
      (extractedContext extracted) t.calculatedFields seen (results, context) := by
    refine Failing.foldlM_processed (I := LoopInv py num _ _ t.calculatedFields) ?_ hloop loopInv_nil
    intro before d' rest hseen st st' hst hturn
    obtain ⟨r, hr, hst'⟩ := Failing.bind_ok.mp hturn
    obtain rfl := Except.ok.inj hst'
    have hwhole : ordered = before ++ d' :: (rest ++ d :: after) := by
      rw [hsplit, hseen, List.append_assoc, List.cons_append]
    exact (hst.step horder hwhole hr).2
  obtain ⟨res, -, hvaluation⟩ := hinv.valuation horder hsplit
  by_cases hcalculated : id ∈ t.calculatedFields.map CalculatedFieldDefinition.name
  · obtain ⟨d', hd', rfl⟩ := List.mem_map.mp hcalculated
    rw [hvaluation.calculated d' hd' hid]
    exact iff_of_true rfl (Or.inr hcalculated)
  · rw [hvaluation.extracted id hid hcalculated, or_iff_left hcalculated]
    exact extractedValue_isSome

/-- A helper is applied when no field hides it. -/
theorem appliesHelper_iff_not_hides (haccepted : Accepted py t)
    (heval : EvaluatedIn (py.engine sets) num t.calculatedFields extracted d context) {name : String}
    (hid : name ∈ py.formulaNames d.formula) (hname : name ∈ allowedFunctions) :
    AppliesHelper py (wrapContext context) name ↔ ¬HidesHelper t extracted context name := by
  rw [appliesHelper_wrapContext_iff hname, HidesHelper, ← context_isSome_iff haccepted heval hid]
  cases h : PyVal.dictGet context name with
  | none => simp
  | some v => simp

/-- **The calls of a calculated field's formula apply the helpers** exactly when no field
hides one that the evaluation calls. -/
theorem helpers_applied_iff {sets₀ : SetOrder} {checkSchema : PyVal → Option String}
    (hvalid : validateTemplate (py.engine sets₀) checkSchema t = .ok ())
    (heval : EvaluatedIn (py.engine sets) num t.calculatedFields extracted d context) {tree : Node}
    (htree : py.compileFormula d.formula = .ok tree) :
    (∀ name args keywords, name ∈ allowedFunctions →
      Visits py (wrapContext context) tree (.call (.name name) args keywords) →
        AppliesHelper py (wrapContext context) name) ↔
    ∀ name args keywords, name ∈ allowedFunctions →
      Visits py (wrapContext context) tree (.call (.name name) args keywords) →
        ¬HidesHelper t extracted context name := by
  have haccepted := accepted_of_validateTemplate hvalid
  have hcalled : ∀ {name args keywords},
      Visits py (wrapContext context) tree (.call (.name name) args keywords) →
        name ∈ py.formulaNames d.formula := by
    intro name args keywords hvisits
    rw [formulaNames_of_compile htree]
    refine hvisits.names_subset (Node.mem_names_of_child ?_ (Node.mem_names_self name))
    exact List.mem_cons_self ..
  constructor
  · intro h name args keywords hname hvisits
    exact (appliesHelper_iff_not_hides haccepted heval (hcalled hvisits) hname).mp
      (h name args keywords hname hvisits)
  · intro h name args keywords hname hvisits
    exact (appliesHelper_iff_not_hides haccepted heval (hcalled hvisits) hname).mpr
      (h name args keywords hname hvisits)

end Calculations

/-- No field is called `min`, so the minimum of the items is the helper’s. -/
theorem helpers_applied_iff_min :
    AppliesHelper (plainPython [minFormula]) (wrapContext (extractedContext (itemsResults [.int 1])))
      "min" := by
  have heval : EvaluatedIn ((plainPython [minFormula]).engine insertionOrder) plainRuntime.num
      (itemsTemplate "min(items)").calculatedFields (itemsResults [.int 1])
      (itemsTemplate "min(items)").calculatedFields[0] (extractedContext (itemsResults [.int 1])) :=
    ⟨_, [], [], [], rfl, rfl, rfl⟩
  have hvalid : validateTemplate ((plainPython [minFormula]).engine insertionOrder)
      (fun _ => none) (itemsTemplate "min(items)") = .ok () := rfl
  refine (helpers_applied_iff hvalid heval rfl).mpr ?_ "min" [.name "items"] [] (by decide) (.self _)
  rintro name args keywords hname hvisits ⟨hfield, -⟩
  have hfields : name = "items" ∨ name = "total" := by
    simpa [itemsResults, itemsTemplate] using hfield
  rcases hfields with rfl | rfl <;> exact absurd hname (by decide)

/-- The sum of the items, as the parser reads it. -/
def sumCallFormula : String × Node := ("sum(items)", .call (.name "sum") [.name "items"] [])

/-- A template with a list of items and a number called `sum`. -/
def hidingTemplate : ExtractionTemplate where
  templateName := "Invoice"
  documentType := "invoice"
  extractedFields :=
    [{ name := "items", label := "Items", type := .list },
      { name := "sum", label := "Sum", type := .number }]
  calculatedFields :=
    [{ name := "total", label := "Total", outputType := .number, formula := "sum(items)",
       dependsOn := ["items", "sum"] }]

/-- The extracted items and sum. -/
def hidingResults : List ExtractionFieldResult :=
  [{ fieldName := "items", label := "Items", dataType := .list, normalizedValue := .list [.int 1] },
    { fieldName := "sum", label := "Sum", dataType := .number, normalizedValue := .int 5 }]

/-- **A field called `sum` is called in place of the helper**, though the template was accepted. -/
theorem field_hides_helper :
    ¬∀ (py : Python) (sets₀ sets : SetOrder) (num : PyNumeric) (checkSchema : PyVal → Option String)
      (t : ExtractionTemplate) (extracted : List ExtractionFieldResult)
      (d : CalculatedFieldDefinition) (context : Context) (tree : Node),
      validateTemplate (py.engine sets₀) checkSchema t = .ok () →
      EvaluatedIn (py.engine sets) num t.calculatedFields extracted d context →
      py.compileFormula d.formula = .ok tree →
      ∀ name args keywords, name ∈ allowedFunctions →
        Visits py (wrapContext context) tree (.call (.name name) args keywords) →
          AppliesHelper py (wrapContext context) name := by
  intro hall
  have heval : EvaluatedIn ((plainPython [sumCallFormula]).engine insertionOrder) plainRuntime.num
      hidingTemplate.calculatedFields hidingResults hidingTemplate.calculatedFields[0]
      (extractedContext hidingResults) := ⟨_, [], [], [], rfl, rfl, rfl⟩
  have happlies := hall (plainPython [sumCallFormula]) insertionOrder insertionOrder plainRuntime.num
    (fun _ => none) hidingTemplate hidingResults _ _ _ rfl heval rfl "sum" [.name "items"] []
    (by decide) (.self _)
  cases happlies

end ExtractFlow
