import ExtractFlow.Calculations
import ExtractFlow.FormulaContract

/-!
# What calculated fields mean

The result of a calculated field, defined by its dependencies: the formula is
evaluated where every extracted field it names has its extracted value and every
calculated field it names has the value of its own result.  No order, no context
that grows and no set takes part, so a result belongs to the fields its
definition refers to, directly or through others.

The loop of `evaluate_calculated_fields` computes these results: on the
calculated fields of an accepted template, in any order, the turn of a field
finds in the context exactly what the meaning asks for.

## Main definitions

* `Valuation` — a context with the values of the fields a formula names.
* `HasResult` — the result of a field, from the results of its dependencies.
* `References` — a field refers to a name, directly or through others.
* `LoopInv` — what the loop has done so far; `Turn`, `CalculationRun` — the loop, turn by turn.

## Main results

* `turn_congr` — a turn depends on what its formula names.
* `HasResult.unique` — a field has one result.
* `HasResult.transport` — which depends on nothing it does not refer to.
* `LoopInv.valuation`, `LoopInv.step` — a turn of the loop finds a valuation and leaves a result.
* `loop_of_hasResult` — when every field has a result, the loop returns.
* `run_of_loop` — the loop is a run of turns.
-/

namespace ExtractFlow

open DependencyOrder

/-! ### The turn of a field -/

section Turn

variable {py : Python} {sets : SetOrder} {num : PyNumeric} {d : CalculatedFieldDefinition}

/-- The available names matter to a formula through those it names. -/
def AvailableAlike (names : List String) (available available' : List String) : Prop :=
  ∀ id ∈ names, id ∈ available ↔ id ∈ available'

theorem validateFormula_congr {formula : String} {available available' : List String}
    (h : AvailableAlike (py.formulaNames formula) available available') :
    py.validateFormula formula available = py.validateFormula formula available' := by
  unfold Python.validateFormula
  cases htree : py.compileFormula formula with
  | error e => rfl
  | ok tree =>
    rw [formulaNames_of_compile htree] at h
    have hname : unknownName available tree = unknownName available' tree := by
      unfold unknownName
      have hcongr : ∀ id ∈ tree.names,
          (!(allowedFunctions.contains id || available.contains id)) =
            !(allowedFunctions.contains id || available'.contains id) := by
        intro id hid
        have := h id hid
        simp [this]
      generalize tree.names = names at hcongr
      induction names with
      | nil => rfl
      | cons id names ih =>
        rw [List.find?_cons, List.find?_cons, hcongr id (List.mem_cons_self ..),
          ih fun id' hid' => hcongr id' (List.mem_cons_of_mem _ hid')]
    rw [Failing.bind_of_ok rfl, Failing.bind_of_ok rfl, hname]

/-- The sorted names of a set do not depend on how the set iterates. -/
theorem sortedNames_congr {names names' : List String} (h : ∀ id, id ∈ names ↔ id ∈ names') :
    sortedNames names = sortedNames names' := by
  have hperm : names.dedup.Perm names'.dedup := by
    refine (List.perm_ext_iff_of_nodup (List.nodup_dedup _) (List.nodup_dedup _)).mpr fun id => ?_
    rw [List.mem_dedup, List.mem_dedup, h id]
  have hsorted : (sortedNames names).Perm (sortedNames names') :=
    (List.perm_insertionSort _ _).trans (hperm.trans (List.perm_insertionSort _ _).symm)
  exact hsorted.eq_of_pairwise' List.sortedLE_insertionSort.pairwise
    List.sortedLE_insertionSort.pairwise

theorem resultDependencies_congr {sets' : SetOrder} {available available' : List String}
    (h : AvailableAlike (py.formulaNames d.formula) available available') :
    resultDependencies (py.engine sets) d available =
      resultDependencies (py.engine sets') d available' := by
  unfold resultDependencies
  cases htree : py.compileFormula d.formula with
  | error e =>
    have herror : ∀ (sets : SetOrder) available,
        (py.engine sets).collectFormulaReferences d.formula available = .error e.toPyErr := by
      intro sets available
      simp only [Python.engine, Python.collectFormulaReferences, htree]
      rfl
    rw [herror, herror]
  | ok tree =>
    obtain ⟨refs, hrefs, -, hmem⟩ := collectFormulaReferences_returns sets htree available
    obtain ⟨refs', hrefs', -, hmem'⟩ :=
      collectFormulaReferences_returns sets' htree available'
    rw [hrefs, hrefs']
    simp only
    refine congrArg _ (sortedNames_congr fun id => ?_)
    rw [hmem, hmem']
    exact and_congr_right fun hid => h id hid

/-- **The turn of a field depends on what its formula names**: on their values, and on which of them
are available. -/
theorem turn_congr {sets' : SetOrder} {available available' : List String}
    {context context' : Context}
    (havailable : AvailableAlike (py.formulaNames d.formula) available available')
    (hcontext : AgreeOn (py.formulaNames d.formula) context context') :
    evaluateCalculatedField (py.engine sets) num available context d =
      evaluateCalculatedField (py.engine sets') num available' context' d := by
  have hformula : evaluateFormula (py.engine sets) d available context =
      evaluateFormula (py.engine sets') d available' context' := by
    unfold evaluateFormula
    simp only [Python.engine, validateFormula_congr havailable, Python.evaluate_congr hcontext]
  unfold evaluateCalculatedField
  rw [hformula, resultDependencies_congr havailable]

end Turn

/-! ### The meaning of a field -/

section Meaning

variable (py : Python) (num : PyNumeric) (available : List String) (base : Context)
  (fields : List CalculatedFieldDefinition)

/-- The context holds what the formula of `d` names: the extracted values, and the values
of the results `res` of the calculated fields. -/
structure Valuation (d : CalculatedFieldDefinition)
    (res : CalculatedFieldDefinition → CalculatedFieldResult) (context : Context) : Prop where
  calculated : ∀ d' ∈ fields, d'.name ∈ py.formulaNames d.formula →
    PyVal.dictGet context d'.name = some (res d').calculatedValue
  extracted : ∀ id ∈ py.formulaNames d.formula,
    id ∉ fields.map CalculatedFieldDefinition.name →
      PyVal.dictGet context id = PyVal.dictGet base id

/-- The result of a field, from the results of the calculated fields its formula names. -/
inductive HasResult : CalculatedFieldDefinition → CalculatedFieldResult → Prop
  | turn (d : CalculatedFieldDefinition) (r : CalculatedFieldResult)
      (res : CalculatedFieldDefinition → CalculatedFieldResult) (context : Context)
      (sets : SetOrder) : d ∈ fields →
      (∀ d' ∈ fields, d'.name ∈ py.formulaNames d.formula → HasResult d' (res d')) →
      Valuation py base fields d res context →
      evaluateCalculatedField (py.engine sets) num available context d = .ok r → HasResult d r

/-- The field `d` refers to the name `id`, directly or through calculated fields. -/
inductive References : CalculatedFieldDefinition → String → Prop
  | names (d : CalculatedFieldDefinition) (id : String) : id ∈ py.formulaNames d.formula →
      References d id
  | through (d d' : CalculatedFieldDefinition) (id : String) : d' ∈ fields →
      d'.name ∈ py.formulaNames d.formula → References d' id → References d id

end Meaning

section Facts

variable {py : Python} {num : PyNumeric} {available available' : List String}
  {base base' : Context} {fields fields' : List CalculatedFieldDefinition}

/-- Valuations from the same results agree. -/
theorem Valuation.agree {d : CalculatedFieldDefinition}
    {res res' : CalculatedFieldDefinition → CalculatedFieldResult} {context context' : Context}
    (h : Valuation py base fields d res context) (h' : Valuation py base fields d res' context')
    (hres : ∀ d' ∈ fields, d'.name ∈ py.formulaNames d.formula → res d' = res' d') :
    AgreeOn (py.formulaNames d.formula) context context' := by
  intro id hid
  by_cases hcalculated : id ∈ fields.map CalculatedFieldDefinition.name
  · obtain ⟨d', hd', rfl⟩ := List.mem_map.mp hcalculated
    rw [h.calculated d' hd' hid, h'.calculated d' hd' hid, hres d' hd' hid]
  · rw [h.extracted id hid hcalculated, h'.extracted id hid hcalculated]

/-- **A field has one result**, though the meaning speaks of any context that holds what it asks
for. -/
theorem HasResult.unique {d : CalculatedFieldDefinition} {r r' : CalculatedFieldResult}
    (h : HasResult py num available base fields d r)
    (h' : HasResult py num available base fields d r') : r = r' := by
  induction h generalizing r' with
  | turn d r res context sets _ _ hvaluation hturn ih =>
    cases h' with
    | turn _ _ res' context' sets' _ hres' hvaluation' hturn' =>
      have hagree := hvaluation.agree hvaluation' fun d' hd' hid => ih d' hd' hid (hres' d' hd' hid)
      have hsame : evaluateCalculatedField (py.engine sets) num available context d =
          evaluateCalculatedField (py.engine sets') num available context' d :=
        turn_congr (fun _ _ => Iff.rfl) hagree
      exact Except.ok.inj (hturn.symm.trans (hsame.trans hturn'))

/-- **The result of a field depends on nothing it does not refer to**: neither on the
order of the fields, nor on values and names outside its references. -/
theorem HasResult.transport (hfields : ∀ d, d ∈ fields ↔ d ∈ fields')
    {d : CalculatedFieldDefinition} {r : CalculatedFieldResult}
    (h : HasResult py num available base fields d r)
    (hbase : ∀ id, References py fields d id →
      id ∉ fields.map CalculatedFieldDefinition.name →
        PyVal.dictGet base id = PyVal.dictGet base' id)
    (havailable : ∀ id, References py fields d id → (id ∈ available ↔ id ∈ available')) :
    HasResult py num available' base' fields' d r := by
  induction h with
  | turn d r res context sets hd _ hvaluation hturn ih =>
    refine .turn d r res context sets ((hfields d).mp hd) ?_ ?_ ?_
    · intro d' hd' hid
      have hd' := (hfields d').mpr hd'
      refine ih d' hd' hid (fun id hid' hno => ?_) (fun id hid' => ?_)
      · exact hbase id (.through d d' id hd' hid hid') hno
      · exact havailable id (.through d d' id hd' hid hid')
    · refine ⟨fun d' hd' hid => hvaluation.calculated d' ((hfields d').mpr hd') hid, ?_⟩
      intro id hid hno
      have hno : id ∉ fields.map CalculatedFieldDefinition.name := by
        intro hmem
        obtain ⟨d', hd', rfl⟩ := List.mem_map.mp hmem
        exact hno (List.mem_map_of_mem ((hfields d').mp hd'))
      rw [hvaluation.extracted id hid hno, hbase id (.names d id hid) hno]
    · rw [← hturn]
      exact turn_congr (fun id hid => (havailable id (.names d id hid)).symm) fun _ _ => rfl

end Facts

/-! ### The loop -/

/-- One turn of the loop: the results so far and the context. -/
def calculationTurn (engine : FormulaEngine) (num : PyNumeric) (available : List String) :
    List CalculatedFieldResult × Context → CalculatedFieldDefinition →
      Except PyErr (List CalculatedFieldResult × Context) :=
  fun (results, context) definition => do
    let result ← evaluateCalculatedField engine num available context definition
    return (results ++ [result], PyVal.dictSet context definition.name result.calculatedValue)

/-- The names `evaluate_calculated_fields` lets formulas use. -/
def availableNames (definitions : List CalculatedFieldDefinition)
    (extracted : List ExtractionFieldResult) : List String :=
  (extracted.map ExtractionFieldResult.fieldName ++
    definitions.map CalculatedFieldDefinition.name).dedup

theorem evaluateCalculatedFields_eq (engine : FormulaEngine) (num : PyNumeric)
    (definitions : List CalculatedFieldDefinition) (extracted : List ExtractionFieldResult) :
    evaluateCalculatedFields engine num definitions extracted = (do
      let ordered ← topologicallySortCalculatedFields engine definitions
      let st ← ordered.foldlM
        (calculationTurn engine num (availableNames definitions extracted))
        ([], extractedContext extracted)
      return st.1) := rfl

section Loop

variable {py : Python} {sets : SetOrder} {num : PyNumeric} {available : List String}
  {base : Context} {fields : List CalculatedFieldDefinition}

/-- What the loop has done after the fields `seen`: their results, in their order and in the
context, and nothing else in the context. -/
structure LoopInv (py : Python) (num : PyNumeric) (available : List String) (base : Context)
    (fields seen : List CalculatedFieldDefinition)
    (st : List CalculatedFieldResult × Context) : Prop where
  results : List.Forall₂ (HasResult py num available base fields) seen st.1
  stored : ∀ d ∈ seen, ∀ r, HasResult py num available base fields d r →
    PyVal.dictGet st.2 d.name = some r.calculatedValue
  kept : ∀ id, id ∉ seen.map CalculatedFieldDefinition.name →
    PyVal.dictGet st.2 id = PyVal.dictGet base id

theorem LoopInv.result_of_mem {seen : List CalculatedFieldDefinition}
    {st : List CalculatedFieldResult × Context}
    (h : LoopInv py num available base fields seen st) {d : CalculatedFieldDefinition}
    (hd : d ∈ seen) : ∃ r, HasResult py num available base fields d r := by
  have hresults := h.results
  generalize st.1 = results at hresults
  clear h
  induction hresults with
  | nil => simp at hd
  | cons hdr _ ih =>
    rcases List.mem_cons.mp hd with rfl | hd
    · exact ⟨_, hdr⟩
    · exact ih hd

/-- The fields in an order in which dependencies come first, each once. -/
structure InOrder (py : Python) (fields ordered : List CalculatedFieldDefinition) : Prop where
  perm : ordered.Perm fields
  nodup : (fields.map CalculatedFieldDefinition.name).Nodup
  closed : Closed (RefersTo py fields) (ordered.map CalculatedFieldDefinition.name).reverse

/-- The fields a formula names come before its own. -/
theorem InOrder.mem_seen {ordered seen after : List CalculatedFieldDefinition}
    {d d' : CalculatedFieldDefinition} (h : InOrder py fields ordered)
    (hsplit : ordered = seen ++ d :: after) (hd' : d' ∈ fields)
    (hid : d'.name ∈ py.formulaNames d.formula) : d' ∈ seen := by
  have hd : d ∈ fields := h.perm.mem_iff.mp (by simp [hsplit])
  have hedge : RefersTo py fields d.name d'.name :=
    ⟨d, hd, rfl, hid, List.mem_map_of_mem hd'⟩
  have hclosed := h.closed
  rw [hsplit, List.map_append, List.map_cons] at hclosed
  obtain ⟨d'', hd'', hname⟩ := List.mem_map.mp (hclosed.mem_before hedge)
  have hmem : d'' ∈ fields := h.perm.mem_iff.mp (by simp [hsplit, hd''])
  rwa [← List.inj_on_of_nodup_map h.nodup hmem hd' hname]

/-- **A turn of the loop finds a valuation**: the results of all that its formula names are in the
context by then. -/
theorem LoopInv.valuation {ordered seen after : List CalculatedFieldDefinition}
    {d : CalculatedFieldDefinition} {st : List CalculatedFieldResult × Context}
    (horder : InOrder py fields ordered) (hsplit : ordered = seen ++ d :: after)
    (h : LoopInv py num available base fields seen st) :
    ∃ res, (∀ d' ∈ fields, d'.name ∈ py.formulaNames d.formula →
        HasResult py num available base fields d' (res d')) ∧
      Valuation py base fields d res st.2 := by
  have hchoice : ∀ d', ∃ r, d' ∈ seen → HasResult py num available base fields d' r := by
    intro d'
    by_cases hd' : d' ∈ seen
    · obtain ⟨r, hr⟩ := h.result_of_mem hd'
      exact ⟨r, fun _ => hr⟩
    · exact ⟨default, fun hmem => absurd hmem hd'⟩
  choose res hres using hchoice
  refine ⟨res, fun d' hd' hid => hres d' (horder.mem_seen hsplit hd' hid), ?_, ?_⟩
  · intro d' hd' hid
    have hseen := horder.mem_seen hsplit hd' hid
    exact h.stored d' hseen _ (hres d' hseen)
  · intro id _ hno
    refine h.kept id fun hmem => hno ?_
    obtain ⟨d', hd', rfl⟩ := List.mem_map.mp hmem
    have hmem' : d' ∈ ordered := by
      rw [hsplit]
      exact List.mem_append_left _ hd'
    exact List.mem_map_of_mem (horder.perm.mem_iff.mp hmem')

/-- **A turn that returns leaves the result of its field**, and the invariant for the fields up to
it. -/
theorem LoopInv.step {ordered seen after : List CalculatedFieldDefinition}
    {d : CalculatedFieldDefinition} {st : List CalculatedFieldResult × Context}
    {r : CalculatedFieldResult} (horder : InOrder py fields ordered)
    (hsplit : ordered = seen ++ d :: after) (h : LoopInv py num available base fields seen st)
    (hturn : evaluateCalculatedField (py.engine sets) num available st.2 d = .ok r) :
    HasResult py num available base fields d r ∧
      LoopInv py num available base fields (seen ++ [d])
        (st.1 ++ [r], PyVal.dictSet st.2 d.name r.calculatedValue) := by
  obtain ⟨res, hres, hvaluation⟩ := h.valuation horder hsplit
  have hd : d ∈ fields := horder.perm.mem_iff.mp (by simp [hsplit])
  have hr : HasResult py num available base fields d r :=
    .turn d r res st.2 sets hd hres hvaluation hturn
  refine ⟨hr, ?_, ?_, ?_⟩
  · exact List.rel_append h.results (.cons hr .nil)
  · intro d' hd' r' hr'
    -- the value is stored under the name of this field, which no other has
    by_cases hname : d'.name = d.name
    · have hmem : d' ∈ fields := by
        refine horder.perm.mem_iff.mp ?_
        rw [hsplit]
        rcases List.mem_append.mp hd' with hd' | hd'
        · exact List.mem_append_left _ hd'
        · rw [List.mem_singleton.mp hd']
          exact List.mem_append_right _ (List.mem_cons_self ..)
      obtain rfl := List.inj_on_of_nodup_map horder.nodup hmem hd hname
      rw [hr.unique hr']
      exact PyVal.dictGet_dictSet_self _ _ _
    · rw [PyVal.dictGet_dictSet_ne _ _ hname]
      rcases List.mem_append.mp hd' with hd' | hd'
      · exact h.stored d' hd' r' hr'
      · rw [List.mem_singleton.mp hd'] at hname
        exact absurd rfl hname
  · intro id hid
    rw [List.map_append, List.mem_append, not_or] at hid
    rw [PyVal.dictGet_dictSet_ne _ _ fun heq => hid.2 (by simp [heq])]
    exact h.kept id hid.1

/-- Before the first turn. -/
theorem loopInv_nil : LoopInv py num available base fields [] ([], base) :=
  ⟨.nil, fun _ hd => absurd hd List.not_mem_nil, fun _ _ => rfl⟩

/-- **A loop that returned left the results of the fields**, in the order of its turns. -/
theorem hasResult_of_loop {ordered : List CalculatedFieldDefinition}
    {st : List CalculatedFieldResult × Context} (horder : InOrder py fields ordered)
    (h : ordered.foldlM (calculationTurn (py.engine sets) num available) ([], base) = .ok st) :
    LoopInv py num available base fields ordered st := by
  refine Failing.foldlM_processed (I := LoopInv py num available base fields) ?_ h loopInv_nil
  intro seen d after hsplit st st' hinv hturn
  obtain ⟨r, hr, hst'⟩ := Failing.bind_ok.mp hturn
  obtain rfl := Except.ok.inj hst'
  exact (hinv.step horder hsplit hr).2

/-- The turn of a field that has a result returns it. -/
theorem LoopInv.turn_returns {ordered seen after : List CalculatedFieldDefinition}
    {d : CalculatedFieldDefinition} {st : List CalculatedFieldResult × Context}
    {r : CalculatedFieldResult} (horder : InOrder py fields ordered)
    (hsplit : ordered = seen ++ d :: after) (h : LoopInv py num available base fields seen st)
    (hr : HasResult py num available base fields d r) :
    evaluateCalculatedField (py.engine sets) num available st.2 d = .ok r := by
  obtain ⟨res, hres, hvaluation⟩ := h.valuation horder hsplit
  cases hr with
  | turn _ _ res' context' sets' _ hres' hvaluation' hturn' =>
    have hagree := hvaluation.agree hvaluation' fun d' hd' hid =>
      (hres d' hd' hid).unique (hres' d' hd' hid)
    rw [← hturn']
    exact turn_congr (fun id _ => Iff.rfl) hagree

/-- **When every field has a result, the loop returns**: no turn raises, whatever the order. -/
theorem loop_of_hasResult (sets : SetOrder) {ordered : List CalculatedFieldDefinition}
    (horder : InOrder py fields ordered)
    (hall : ∀ d ∈ fields, ∃ r, HasResult py num available base fields d r) :
    ∃ st, ordered.foldlM (calculationTurn (py.engine sets) num available) ([], base) = .ok st ∧
      LoopInv py num available base fields ordered st := by
  refine Failing.foldlM_returns (I := LoopInv py num available base fields) ?_ loopInv_nil
  intro seen d after hsplit st hinv
  obtain ⟨r, hr⟩ := hall d (horder.perm.mem_iff.mp (by simp [hsplit]))
  have hturn : evaluateCalculatedField (py.engine sets) num available st.2 d = .ok r :=
    hinv.turn_returns horder hsplit hr
  exact ⟨_, Failing.bind_ok.mpr ⟨r, hturn, rfl⟩, (hinv.step horder hsplit hturn).2⟩

/-! ### Turn by turn -/

/-- A turn of the loop: a field, the context it was evaluated in, and its result. -/
structure Turn where
  definition : CalculatedFieldDefinition
  context : Context
  result : CalculatedFieldResult

/-- Turns from a context on, each in the context the ones before left. -/
inductive CalculationRun (engine : FormulaEngine) (num : PyNumeric) (available : List String) :
    Context → List Turn → Prop
  | nil (context) : CalculationRun engine num available context []
  | cons (context d r turns) : evaluateCalculatedField engine num available context d = .ok r →
      CalculationRun engine num available (PyVal.dictSet context d.name r.calculatedValue) turns →
      CalculationRun engine num available context (⟨d, context, r⟩ :: turns)

/-- What every turn of a run did. -/
theorem CalculationRun.turn {engine : FormulaEngine} {context : Context} {turns : List Turn}
    (h : CalculationRun engine num available context turns) {turn : Turn} (hturn : turn ∈ turns) :
    evaluateCalculatedField engine num available turn.context turn.definition =
      .ok turn.result := by
  induction h with
  | nil => simp at hturn
  | cons context d r turns hr _ ih =>
    rcases List.mem_cons.mp hturn with rfl | hturn
    · exact hr
    · exact ih hturn

/-- A loop that returned is a run of turns, one for each field in order. -/
theorem run_of_loop {engine : FormulaEngine} : ∀ {ordered : List CalculatedFieldDefinition}
    {st st' : List CalculatedFieldResult × Context},
    ordered.foldlM (calculationTurn engine num available) st = .ok st' →
    ∃ turns, CalculationRun engine num available st.2 turns ∧ turns.map Turn.definition = ordered ∧
      st'.1 = st.1 ++ turns.map Turn.result := by
  intro ordered
  induction ordered with
  | nil =>
    intro st st' h
    obtain rfl : st = st' := by simpa [pure, Except.pure] using h
    exact ⟨[], .nil _, rfl, by simp⟩
  | cons d ordered ih =>
    intro st st' h
    rw [List.foldlM_cons] at h
    obtain ⟨st₁, hst₁, hrest⟩ := Failing.bind_ok.mp h
    obtain ⟨r, hr, hst₁⟩ := Failing.bind_ok.mp hst₁
    obtain rfl := Except.ok.inj hst₁
    obtain ⟨turns, hrun, hdefinitions, hresults⟩ := ih hrest
    refine ⟨⟨d, st.2, r⟩ :: turns, .cons st.2 d r turns hr hrun, ?_, ?_⟩
    · rw [List.map_cons, hdefinitions]
    · rw [hresults, List.map_cons]
      simp

end Loop

end ExtractFlow
