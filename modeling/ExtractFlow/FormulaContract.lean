import Mathlib.Data.List.Dedup
import ExtractFlow.Lib.Keyed
import ExtractFlow.Visits
import ExtractFlow.FormulaOrder
import ExtractFlow.TemplateContract

/-!
# What an accepted template promises about its formulas

The contract of `ExtractionTemplate` checks each formula against the names it
may use and the declared dependencies against the names it refers to, and it
sorts the calculated fields.  So in an accepted template the edges of both
searches are the references of the formulas, they form no cycle, and the sort
returns every field after the fields it refers to — for the calculated fields in
any order.

## Main definitions

* `FormulaOk` — what the contract established of one calculated field.
* `Accepted` — and of the template.
* `RefersTo` — a formula refers to another calculated field.

## Main results

* `accepted_of_validateTemplate` — a template that validates is accepted.
* `Accepted.acyclic` — its references form no cycle.
* `Accepted.sorted` — its calculated fields, in any order, are sorted along them.
-/

namespace ExtractFlow

open DependencyOrder

/-- The names a formula of the template may use. -/
def ExtractionTemplate.formulaFieldNames (t : ExtractionTemplate) : List String :=
  (t.extractedFields.filter ExtractionFieldDefinition.usableInFormulas).map
      ExtractionFieldDefinition.name ++
    t.calculatedFields.map CalculatedFieldDefinition.name

/-- What the contract established of a calculated field that may use `names`. -/
structure FormulaOk (py : Python) (names : List String) (d : CalculatedFieldDefinition) :
    Prop where
  parses : ∃ tree, py.compileFormula d.formula = .ok tree
  known : ∀ id ∈ py.formulaNames d.formula, id ∈ allowedFunctions ∨ id ∈ names
  declared : ∀ id, id ∈ d.dependsOn ↔ id ∈ py.formulaNames d.formula ∧ id ∈ names

/-! ### The engine's functions on a formula that parses -/

section Engine

variable {py : Python} {sets : SetOrder} {formula : String} {available : List String}

theorem mapError_ok {α : Type} {x : Except EvalErr α} {a : α}
    (h : x.mapError EvalErr.toPyErr = .ok a) : x = .ok a := by
  cases x with
  | error e => cases h
  | ok b => exact congrArg _ (Except.ok.inj h)

theorem formulaNames_of_compile {tree : Node} (h : py.compileFormula formula = .ok tree) :
    py.formulaNames formula = tree.names := by
  unfold Python.formulaNames
  rw [h]

/-- A formula validates when it parses and has no unknown name. -/
theorem validateFormula_ok_iff : py.validateFormula formula available = .ok () ↔
    (∃ tree, py.compileFormula formula = .ok tree) ∧
      ∀ id ∈ py.formulaNames formula, id ∈ allowedFunctions ∨ id ∈ available := by
  unfold Python.validateFormula
  cases htree : py.compileFormula formula with
  | error e => simp [bind, Except.bind]
  | ok tree =>
    rw [formulaNames_of_compile htree, Failing.bind_of_ok rfl]
    have hunknown : unknownName available tree = none ↔
        ∀ id ∈ tree.names, id ∈ allowedFunctions ∨ id ∈ available := by
      unfold unknownName
      rw [List.find?_eq_none]
      simp [or_iff_not_imp_left]
    cases hname : unknownName available tree with
    | none => simpa [hname, pure, Except.pure] using hunknown.mp hname
    | some id =>
      have hno : ¬ ∀ id ∈ tree.names, id ∈ allowedFunctions ∨ id ∈ available := by
        rw [← hunknown, hname]
        simp
      simp [hno]

/-- The references of a formula that parses are its available names. -/
theorem collectFormulaReferences_ok {refs : List String}
    (h : py.collectFormulaReferences sets formula available = .ok refs) :
    ∀ id, id ∈ refs ↔ id ∈ py.formulaNames formula ∧ id ∈ available := by
  unfold Python.collectFormulaReferences at h
  obtain ⟨tree, htree, h⟩ := Failing.bind_ok.mp h
  obtain rfl := Except.ok.inj h
  intro id
  rw [formulaNames_of_compile htree, (sets.perm _).mem_iff, List.mem_dedup, List.mem_filter]
  simp

theorem collectFormulaReferences_returns (sets : SetOrder) {tree : Node}
    (h : py.compileFormula formula = .ok tree) (available : List String) :
    ∃ refs, (py.engine sets).collectFormulaReferences formula available = .ok refs ∧ refs.Nodup ∧
      ∀ id, id ∈ refs ↔ id ∈ py.formulaNames formula ∧ id ∈ available := by
  have hrefs : py.collectFormulaReferences sets formula available =
      .ok (sets.order (tree.names.filter fun id => available.contains id).dedup) := by
    unfold Python.collectFormulaReferences
    rw [h]
    rfl
  refine ⟨_, ?_, ?_, collectFormulaReferences_ok hrefs⟩
  · exact congrArg (Except.mapError EvalErr.toPyErr) hrefs
  · exact (sets.perm _).nodup_iff.mpr (List.nodup_dedup _)

end Engine

/-! ### The contract -/

theorem mem_sortedNames {names : List String} {id : String} : id ∈ sortedNames names ↔ id ∈ names := by
  unfold sortedNames
  rw [(List.perm_insertionSort _ _).mem_iff, List.mem_dedup]

theorem checkFormula_ok {py : Python} {sets : SetOrder} {d : CalculatedFieldDefinition} {names : List String}
    (h : checkFormula (py.engine sets) d names = .ok ()) : py.validateFormula d.formula names = .ok () := by
  unfold checkFormula at h
  split at h
  · cases h
  · exact mapError_ok h

/-- A calculated field that passes its turn of the contract. -/
theorem formulaOk_of_check {py : Python} {sets : SetOrder} {t : ExtractionTemplate}
    {d : CalculatedFieldDefinition} (h : checkCalculatedField (py.engine sets) t d = .ok ()) : FormulaOk py t.formulaFieldNames d := by
  unfold checkCalculatedField at h
  obtain ⟨_, -, h⟩ := Failing.bind_ok.mp h
  obtain ⟨refs, -, h⟩ := Failing.bind_ok.mp h
  simp only at h
  split at h
  · obtain ⟨_, hthrow, -⟩ := Failing.bind_ok.mp h
    cases hthrow
  obtain ⟨⟨⟩, hcheck, h⟩ := Failing.bind_ok.mp h
  obtain ⟨available, hrefs, h⟩ := Failing.bind_ok.mp h
  split at h
  · cases h
  next heq =>
  have hdeclared : d.dependsOn.insertionSort (· ≤ ·) = sortedNames available := by
    by_contra hne
    exact heq hne
  obtain ⟨hparses, hknown⟩ := validateFormula_ok_iff.mp (checkFormula_ok hcheck)
  refine ⟨hparses, hknown, fun id => ?_⟩
  have hsorted : id ∈ d.dependsOn ↔ id ∈ available := by
    rw [← (List.perm_insertionSort (· ≤ ·) d.dependsOn).mem_iff, hdeclared, mem_sortedNames]
  exact hsorted.trans (collectFormulaReferences_ok (mapError_ok hrefs) id)

/-- What the validators established of a template, as far as formulas go. -/
structure Accepted (py : Python) (t : ExtractionTemplate) : Prop where
  nodup : t.fieldNames.Nodup
  formulas : ∀ d ∈ t.calculatedFields, FormulaOk py t.formulaFieldNames d
  cycles : detectFormulaCycles t.calculatedFields = .ok ()

/-- **A template that validates is accepted**: the three checks of its fields and formulas went
through. -/
theorem accepted_of_validateTemplate {py : Python} {sets : SetOrder} {checkSchema : PyVal → Option String}
    {t : ExtractionTemplate} (h : validateTemplate (py.engine sets) checkSchema t = .ok ()) :
    Accepted py t := by
  have hnodup := validateTemplate_nodup h
  unfold validateTemplate at h
  obtain ⟨_, -, h⟩ := Failing.bind_ok.mp h
  obtain ⟨_, -, h⟩ := Failing.bind_ok.mp h
  obtain ⟨_, hcontract, -⟩ := Failing.bind_ok.mp h
  unfold validateCalculatedFieldContract at hcontract
  obtain ⟨_, hchecks, hsort⟩ := Failing.bind_ok.mp hcontract
  refine ⟨hnodup, fun d hd => formulaOk_of_check (Failing.forM_ok hchecks d hd), ?_⟩
  split at hsort
  · next ordered hordered =>
    unfold topologicallySortCalculatedFields at hordered
    obtain ⟨⟨⟩, hdetect, -⟩ := Failing.bind_ok.mp hordered
    exact hdetect
  · cases hsort
  · cases hsort

/-! ### References -/

/-- The formula of the field `a` refers to the calculated field `b`. -/
def RefersTo (py : Python) (fields : List CalculatedFieldDefinition) (a b : String) : Prop :=
  ∃ d ∈ fields, d.name = a ∧ b ∈ py.formulaNames d.formula ∧
    b ∈ fields.map CalculatedFieldDefinition.name

theorem RefersTo.of_perm {py : Python} {fields fields' : List CalculatedFieldDefinition}
    (hperm : fields'.Perm fields) {a b : String} (h : RefersTo py fields' a b) :
    RefersTo py fields a b := by
  obtain ⟨d, hd, hname, hb, hmem⟩ := h
  exact ⟨d, hperm.mem_iff.mp hd, hname, hb,
    (hperm.map CalculatedFieldDefinition.name).mem_iff.mp hmem⟩

section Edges

variable {py : Python} {sets : SetOrder} {fields : List CalculatedFieldDefinition}
  {names : List String}

/-- The declared dependencies on calculated fields are the references to them. -/
theorem declaredDep_iff (hnodup : (fields.map CalculatedFieldDefinition.name).Nodup)
    (hok : ∀ d ∈ fields, FormulaOk py names d)
    (hnames : fields.map CalculatedFieldDefinition.name ⊆ names) {a b : String} :
    DeclaredDep fields a b ↔ RefersTo py fields a b := by
  constructor
  · intro h
    obtain ⟨d, hd, rfl⟩ := List.mem_map.mp (declared_mem_names h)
    obtain ⟨hdeclared, hb⟩ := h
    simp only [declaredDependencies, Keyed.find?_reverse_eq hnodup hd, Option.map_some,
      Option.getD_some] at hdeclared
    exact ⟨d, hd, rfl, (((hok d hd).declared b).mp hdeclared).1, hb⟩
  · rintro ⟨d, hd, rfl, hb, hmem⟩
    refine ⟨?_, hmem⟩
    simp only [declaredDependencies, Keyed.find?_reverse_eq hnodup hd, Option.map_some,
      Option.getD_some]
    exact ((hok d hd).declared b).mpr ⟨hb, hnames hmem⟩

theorem formulaDependencies_of_ok {d : CalculatedFieldDefinition} (hok : FormulaOk py names d) :
    ∃ dependencies, formulaDependencies (py.engine sets)
        (fields.map CalculatedFieldDefinition.name) d = .ok dependencies ∧
      ∀ id, id ∈ dependencies ↔ id ∈ py.formulaNames d.formula ∧
        id ∈ fields.map CalculatedFieldDefinition.name := by
  obtain ⟨tree, htree⟩ := hok.parses
  obtain ⟨refs, hrefs, -, hmem⟩ :=
    collectFormulaReferences_returns sets htree (fields.map CalculatedFieldDefinition.name)
  refine ⟨refs, ?_, hmem⟩
  unfold formulaDependencies
  rw [hrefs]

/-- So are the edges of the sort. -/
theorem sortDep_iff (hnodup : (fields.map CalculatedFieldDefinition.name).Nodup)
    (hok : ∀ d ∈ fields, FormulaOk py names d) {a b : String} :
    SortDep (py.engine sets) fields a b ↔ RefersTo py fields a b := by
  constructor
  · rintro ⟨d, dependencies, hfind, hdependencies, hb, hmem⟩
    have hd := List.mem_reverse.mp (List.mem_of_find?_eq_some hfind)
    have hname : d.name = a := by simpa using List.find?_some hfind
    obtain ⟨dependencies', hdependencies', hiff⟩ := formulaDependencies_of_ok (hok d hd)
    obtain rfl := Except.ok.inj (hdependencies.symm.trans hdependencies')
    exact ⟨d, hd, hname, ((hiff b).mp hb).1, hmem⟩
  · rintro ⟨d, hd, rfl, hb, hmem⟩
    obtain ⟨dependencies, hdependencies, hiff⟩ := formulaDependencies_of_ok (hok d hd)
    exact ⟨d, dependencies, Keyed.find?_reverse_eq hnodup hd, hdependencies, (hiff b).mpr ⟨hb, hmem⟩,
      hmem⟩

end Edges

/-! ### Accepted templates -/

section Accepted

variable {py : Python} {t : ExtractionTemplate}

theorem Accepted.extracted_nodup (h : Accepted py t) :
    (t.extractedFields.map ExtractionFieldDefinition.name).Nodup :=
  (List.nodup_append.mp h.nodup).1

theorem Accepted.calculated_nodup (h : Accepted py t) :
    (t.calculatedFields.map CalculatedFieldDefinition.name).Nodup :=
  (List.nodup_append.mp h.nodup).2.1

/-- **The references of an accepted template form no cycle**, since they are the declared
dependencies. -/
theorem Accepted.acyclic (h : Accepted py t) : Acyclic (RefersTo py t.calculatedFields) := by
  refine (acyclic_of_detectFormulaCycles h.cycles).mono fun a b => ?_
  exact (declaredDep_iff h.calculated_nodup h.formulas (List.subset_append_right _ _)).mpr

/-- **The calculated fields of an accepted template, in any order, are sorted along
their references.** -/
theorem Accepted.sorted (sets : SetOrder) (h : Accepted py t) {fields : List CalculatedFieldDefinition}
    (hperm : fields.Perm t.calculatedFields) :
    ∃ ordered, topologicallySortCalculatedFields (py.engine sets) fields = .ok ordered ∧
      ordered.Perm fields ∧
      Closed (RefersTo py fields) (ordered.map CalculatedFieldDefinition.name).reverse := by
  have hnames := hperm.map CalculatedFieldDefinition.name
  have hnodup : (fields.map CalculatedFieldDefinition.name).Nodup :=
    hnames.nodup_iff.mpr h.calculated_nodup
  have hok : ∀ d ∈ fields, FormulaOk py t.formulaFieldNames d :=
    fun d hd => h.formulas d (hperm.mem_iff.mp hd)
  have hsub : fields.map CalculatedFieldDefinition.name ⊆ t.formulaFieldNames :=
    fun n hn => List.mem_append_right _ (hnames.mem_iff.mp hn)
  have hacyclic : Acyclic (RefersTo py fields) := h.acyclic.mono fun a b => RefersTo.of_perm hperm
  have hdetect : detectFormulaCycles fields = .ok () :=
    detectFormulaCycles_of_acyclic (hacyclic.mono fun a b => (declaredDep_iff hnodup hok hsub).mp)
  have hsort : Acyclic (SortDep (py.engine sets) fields) :=
    hacyclic.mono fun a b => (sortDep_iff hnodup hok).mp
  have hfollow : Followable (py.engine sets) fields := by
    intro d hd
    obtain ⟨dependencies, hdependencies, -⟩ := formulaDependencies_of_ok (hok d hd)
    exact ⟨dependencies, hdependencies⟩
  obtain ⟨ordered, hordered, hperm', hclosed⟩ :=
    topologicallySort_of_acyclic hnodup hdetect hfollow hsort
  exact ⟨ordered, hordered, hperm', hclosed.mono fun a b => (sortDep_iff hnodup hok).mpr⟩

end Accepted

/-- A list of items and one field calculated from it. -/
def itemsTemplate (formula : String) : ExtractionTemplate where
  templateName := "Invoice"
  documentType := "invoice"
  extractedFields := [{ name := "items", label := "Items", type := .list }]
  calculatedFields :=
    [{ name := "total", label := "Total", outputType := .number, formula := formula,
       dependsOn := ["items"] }]

/-- The minimum of the items, as the parser reads it. -/
def minFormula : String × Node := ("min(items)", .call (.name "min") [.name "items"] [])

/-- The formulas of three fields: one adds up the items, the others go on from its sum. -/
def chainFormulas : List (String × Node) :=
  [("sum(items)", .call (.name "sum") [.name "items"] []),
   ("total + total", .binOp (.name "total") .add (.name "total")),
   ("total / 0", .binOp (.name "total") .div (.constant (.int 0)))]

/-- A list of items, its sum, and two fields calculated from the sum; one of them is declared
before it. -/
def chainTemplate : ExtractionTemplate :=
  { itemsTemplate "sum(items)" with
    calculatedFields :=
      [{ name := "double", label := "Double", outputType := .number, formula := "total + total",
         dependsOn := ["total"] },
       { name := "total", label := "Total", outputType := .number, formula := "sum(items)",
         dependsOn := ["items"] },
       { name := "rate", label := "Rate", outputType := .number, formula := "total / 0",
         dependsOn := ["total"] }] }

/-- The extracted list. -/
def itemsResults (items : List PyVal) : List ExtractionFieldResult :=
  [{ fieldName := "items", label := "Items", dataType := .list, normalizedValue := .list items }]

end ExtractFlow
