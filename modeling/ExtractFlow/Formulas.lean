import Mathlib.Data.List.Sort
import Mathlib.Data.String.Basic
import ExtractFlow.Models

/-!
# The formula engine's interface, and the order of evaluation

The calculations see formulas through three functions of `formulas.py`: a check
of a formula against the names it may use, its evaluation in a context, and the
names it refers to.  They are the fields of `FormulaEngine`; what follows holds
for any engine.

The order in which calculated fields are evaluated is computed here in full: a
depth-first check of the declared dependencies for a cycle, and a depth-first
sort along the names the formulas refer to.  The sort has no cycle check of its
own.  Both searches are bounded by the number of fields, beyond which a path
repeats a name: there the first has found a cycle and the second never returns.

## Main definitions

* `FormulaEngine`.
* `detectFormulaCycles`, `topologicallySortCalculatedFields`.

## Main results

* `mem_of_mem_topologicallySort` — the sort adds no field.
-/

namespace ExtractFlow

/-- The formula engine, by its three functions: `FormulaEngine.validate_formula`,
`FormulaEngine.evaluate` and `collect_formula_references`. -/
structure FormulaEngine where
  validateFormula : String → List String → Except PyErr Unit
  evaluate : String → List (String × PyVal) → Except PyErr PyVal
  collectFormulaReferences : String → List String → Except PyErr (List String)

/-! ### Cycles of declared dependencies -/

/-- `graph.get(node, [])`: what the last field of that name declares. -/
def declaredDependencies (fields : List CalculatedFieldDefinition) (node : String) :
    List String :=
  ((fields.reverse.find? fun f => f.name == node).map
    CalculatedFieldDefinition.dependsOn).getD []

/-- The sets of the search: the fields it has left, `visited`, and those on the path it is on,
`active`. -/
structure CycleSearch where
  visited : List String := []
  active : List String := []

/-- `visit` of `detect_formula_cycles`. -/
def visitForCycle (fields : List CalculatedFieldDefinition) :
    ℕ → CycleSearch → String → Except PyErr CycleSearch
  | 0, _, _ => .error .recursionError
  | fuel + 1, st, node =>
      if node ∈ st.active then
        .error (.formulaValidationError s!"Circular dependency detected at {node}")
      else if node ∈ st.visited then .ok st
      else do
        let st ← (declaredDependencies fields node).foldlM
          (fun st dependency =>
            if dependency ∈ fields.map CalculatedFieldDefinition.name then
              visitForCycle fields fuel st dependency
            else .ok st)
          { st with active := node :: st.active }
        return { visited := node :: st.visited, active := st.active.erase node }

/-- `detect_formula_cycles`: a visit from every field, which raises an error at a field that depends
on itself. -/
def detectFormulaCycles (fields : List CalculatedFieldDefinition) : Except PyErr Unit := do
  let _ ← (fields.map CalculatedFieldDefinition.name).foldlM
    (visitForCycle fields (fields.length + 1)) {}
  return ()

/-! ### The order of evaluation -/

/-- The names the sort follows from a field: those its formula refers to, or the
declared ones when the formula does not parse. -/
def formulaDependencies (engine : FormulaEngine) (names : List String)
    (field : CalculatedFieldDefinition) : Except PyErr (List String) :=
  match engine.collectFormulaReferences field.formula names with
  | .ok refs => .ok refs
  | .error (.formulaValidationError _) => .ok (field.dependsOn.filter (· ∈ names))
  | .error e => .error e

/-- What the sort has done so far: the names it was at, and the fields in the order in which they
were left. -/
structure SortState where
  visited : List String := []
  ordered : List CalculatedFieldDefinition := []

/-- `visit` of `topologically_sort_calculated_fields`. -/
def visitForSort (engine : FormulaEngine) (fields : List CalculatedFieldDefinition) :
    ℕ → SortState → String → Except PyErr SortState
  | 0, _, _ => .error .recursionError
  | fuel + 1, st, name =>
      if name ∈ st.visited then .ok st
      else
        match fields.reverse.find? fun f => f.name == name with
        | none => .error (.keyError name)
        | some field => do
            let names := fields.map CalculatedFieldDefinition.name
            let dependencies ← formulaDependencies engine names field
            let st ← dependencies.foldlM
              (fun st dependency =>
                if dependency ∈ names then visitForSort engine fields fuel st dependency
                else .ok st)
              st
            return { visited := name :: st.visited, ordered := st.ordered ++ [field] }

/-- `topologically_sort_calculated_fields`: the fields, each behind those it refers to, after the
check for cycles. -/
def topologicallySortCalculatedFields (engine : FormulaEngine)
    (fields : List CalculatedFieldDefinition) :
    Except PyErr (List CalculatedFieldDefinition) := do
  detectFormulaCycles fields
  let st ← fields.foldlM
    (fun st field => visitForSort engine fields (fields.length + 1) st field.name) {}
  return st.ordered

/-- `sorted` of a set of names. -/
def sortedNames (names : List String) : List String :=
  names.dedup.insertionSort (· ≤ ·)

/-! ### The sorted fields -/

/-- Everything the search has ordered so far is a field. -/
def SortState.Within (fields : List CalculatedFieldDefinition) (st : SortState) : Prop :=
  ∀ d ∈ st.ordered, d ∈ fields

/-- A visit puts out fields of the list only, since it looks every name up in it. -/
theorem visitForSort_within {engine : FormulaEngine} {fields : List CalculatedFieldDefinition} :
    ∀ {fuel : ℕ} {st st' : SortState} {name : String},
      visitForSort engine fields fuel st name = .ok st' → st.Within fields → st'.Within fields := by
  intro fuel
  induction fuel with
  | zero => intro st st' name h; cases h
  | succ fuel ih =>
    intro st st' name h hst
    rw [visitForSort] at h
    split at h
    · obtain rfl := Except.ok.inj h
      exact hst
    · split at h
      · cases h
      · next field hfield =>
        have hmem : field ∈ fields := List.mem_reverse.mp (List.mem_of_find?_eq_some hfield)
        obtain ⟨dependencies, -, h⟩ := Failing.bind_ok.mp h
        obtain ⟨st₁, hloop, h⟩ := Failing.bind_ok.mp h
        obtain rfl := Except.ok.inj h
        -- the visits of what the field refers to keep within the list, by induction on the fuel
        have hst₁ : st₁.Within fields := by
          refine Failing.foldlM_invariant (I := SortState.Within fields) ?_ hloop hst
          intro dependency _ b c hb hc
          split at hc
          · exact ih hc hb
          · obtain rfl := Except.ok.inj hc
            exact hb
        intro d hd
        rcases List.mem_append.mp hd with hd | hd
        · exact hst₁ d hd
        · exact List.mem_singleton.mp hd ▸ hmem

/-- **The sort adds no field**: what it returns was in the list it was given. -/
theorem mem_of_mem_topologicallySort {engine : FormulaEngine}
    {fields ordered : List CalculatedFieldDefinition}
    (h : topologicallySortCalculatedFields engine fields = .ok ordered)
    {d : CalculatedFieldDefinition} (hd : d ∈ ordered) : d ∈ fields := by
  unfold topologicallySortCalculatedFields at h
  obtain ⟨_, -, h⟩ := Failing.bind_ok.mp h
  obtain ⟨st, hloop, h⟩ := Failing.bind_ok.mp h
  obtain rfl := Except.ok.inj h
  have hst : st.Within fields :=
    Failing.foldlM_invariant (I := SortState.Within fields)
      (fun _ _ _ _ hb hc => visitForSort_within hc hb) hloop
      (fun d hd => absurd hd List.not_mem_nil)
  exact hst d hd

end ExtractFlow
