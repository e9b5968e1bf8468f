import ExtractFlow.FormulaContract

/-!
# The sort on any declarations

`topologically_sort_calculated_fields` (`shared/extraction_core/formulas.py`) looks for a
cycle along the declared dependencies, and sorts along the names the formulas refer to.  A
template has both edges alike, for its validator compares them.  The sort itself is called
with whatever fields there are.

Where the declarations are stale the two searches see two graphs.  A cycle of declarations
is rejected though the formulas have an order; a cycle of formulas is not found, and the
sort, which keeps no set of active names, goes round it without end.

## Main definitions

* `ReferenceDep` — the references of the formulas, and the declarations of those that do not
  parse.
* `ParsesOrFails` — the parser returns or finds a syntax error.
* `SortsReferences` — cycles of references are rejected, and fields without one are sorted.

## Main results

* `topologicallySort_returns_iff` — when the sort returns.
* `evaluateCalculatedFields_perm` — the loop over the sorted fields leaves one result for each.
* `topological_sort_iff` — when it does what it is for.
-/

namespace ExtractFlow

open DependencyOrder

/-! ### The references -/

/-- The formula of the field `a` refers to the calculated field `b`; if it does not parse,
the field declares that it depends on it. -/
def ReferenceDep (py : Python) (fields : List CalculatedFieldDefinition) (a b : String) : Prop :=
  b ∈ fields.map CalculatedFieldDefinition.name ∧
    ∃ d ∈ fields, d.name = a ∧
      ((∃ tree, py.compileFormula d.formula = .ok tree ∧ b ∈ tree.names) ∨
        (∃ e, py.compileFormula d.formula = .error e) ∧ b ∈ d.dependsOn)

/-- `ast.parse` returns or raises a `SyntaxError`, and nothing else, on the formulas of
the fields. -/
def ParsesOrFails (py : Python) (fields : List CalculatedFieldDefinition) : Prop :=
  ∀ d ∈ fields, ∀ e, py.compileFormula d.formula ≠ .error (.builtin e)

/-- The fields stand in an order where each comes after those it refers to. -/
def InReferenceOrder (py : Python) (fields ordered : List CalculatedFieldDefinition) : Prop :=
  ∀ before d after, ordered = before ++ d :: after → ∀ b, ReferenceDep py fields d.name b →
    b ∈ before.map CalculatedFieldDefinition.name

/-- The sort rejects a cycle of references, and sorts the fields when there is none. -/
def SortsReferences (py : Python) (sets : SetOrder) (fields : List CalculatedFieldDefinition) :
    Prop :=
  (¬ Acyclic (ReferenceDep py fields) → ∃ msg,
    topologicallySortCalculatedFields (py.engine sets) fields =
      .error (.formulaValidationError msg)) ∧
  (Acyclic (ReferenceDep py fields) → ∃ ordered,
    topologicallySortCalculatedFields (py.engine sets) fields = .ok ordered ∧
      ordered.Perm fields ∧ InReferenceOrder py fields ordered)

/-! ### How the cycle check ends -/

/-- A visit of the cycle check leaves the path it came along, or finds a cycle: its bound is
never reached. -/
theorem visitForCycle_outcome {fields : List CalculatedFieldDefinition} : ∀ {fuel : ℕ}
    {st : CycleSearch} {node : String}, node ∈ fields.map CalculatedFieldDefinition.name →
    st.active.Nodup → st.active ⊆ fields.map CalculatedFieldDefinition.name →
    fields.length < fuel + st.active.length →
    (∃ st', visitForCycle fields fuel st node = .ok st' ∧ st'.active = st.active) ∨
      ∃ e, visitForCycle fields fuel st node = .error e ∧
        ∃ msg, e = .formulaValidationError msg := by
  intro fuel
  induction fuel with
  | zero =>
    intro st node _ hnodup hsub hfuel
    -- the path is longer than the list of names, so it repeats one
    have hle := (List.subperm_of_subset hnodup hsub).length_le
    rw [List.length_map] at hle
    omega
  | succ fuel ih =>
    intro st node hnode hnodup hsub hfuel
    rw [visitForCycle]
    by_cases hactive : node ∈ st.active
    · rw [if_pos hactive]
      exact .inr ⟨_, rfl, _, rfl⟩
    rw [if_neg hactive]
    by_cases hvisited : node ∈ st.visited
    · rw [if_pos hvisited]
      exact .inl ⟨st, rfl, rfl⟩
    rw [if_neg hvisited]
    have hloop : (∃ st₁, (declaredDependencies fields node).foldlM
          (fun st dependency =>
            if dependency ∈ fields.map CalculatedFieldDefinition.name then
              visitForCycle fields fuel st dependency
            else .ok st)
          { st with active := node :: st.active } = .ok st₁ ∧ st₁.active = node :: st.active) ∨
        ∃ e, (declaredDependencies fields node).foldlM
          (fun st dependency =>
            if dependency ∈ fields.map CalculatedFieldDefinition.name then
              visitForCycle fields fuel st dependency
            else .ok st)
          { st with active := node :: st.active } = .error e ∧
            ∃ msg, e = .formulaValidationError msg := by
      refine Failing.foldlM_outcome
        (I := fun s : CycleSearch => s.active = node :: st.active) ?_ rfl
      intro dependency _ s hs
      by_cases hdep : dependency ∈ fields.map CalculatedFieldDefinition.name
      · rw [if_pos hdep]
        have hvisit := @ih s dependency hdep
        rw [hs] at hvisit
        exact hvisit (List.nodup_cons.mpr ⟨hactive, hnodup⟩) (List.cons_subset.mpr ⟨hnode, hsub⟩)
          (by rw [List.length_cons]; omega)
      · rw [if_neg hdep]
        exact .inl ⟨s, rfl, hs⟩
    rcases hloop with ⟨st₁, hloop, hst₁⟩ | ⟨e, hloop, he⟩
    · refine .inl ⟨_, Failing.bind_of_ok hloop, ?_⟩
      show st₁.active.erase node = st.active
      rw [hst₁, List.erase_cons_head]
    · exact .inr ⟨e, Failing.bind_of_error hloop, he⟩

/-- **The check of a cyclic graph raises.** -/
theorem detectFormulaCycles_of_cyclic {fields : List CalculatedFieldDefinition}
    (hcyclic : ¬ Acyclic (DeclaredDep fields)) :
    ∃ msg, detectFormulaCycles fields = .error (.formulaValidationError msg) := by
  have hloop : (∃ st, (fields.map CalculatedFieldDefinition.name).foldlM
        (visitForCycle fields (fields.length + 1)) {} = .ok st ∧ st.active = []) ∨
      ∃ e, (fields.map CalculatedFieldDefinition.name).foldlM
        (visitForCycle fields (fields.length + 1)) {} = .error e ∧
          ∃ msg, e = .formulaValidationError msg := by
    refine Failing.foldlM_outcome (I := fun s : CycleSearch => s.active = []) ?_ rfl
    intro node hnode s hs
    have hvisit := @visitForCycle_outcome fields (fields.length + 1) s node hnode
    rw [hs] at hvisit
    exact hvisit List.nodup_nil (List.nil_subset _) (by rw [List.length_nil]; omega)
  rcases hloop with ⟨st, hloop, -⟩ | ⟨e, hloop, msg, rfl⟩
  · exact absurd (acyclic_of_detectFormulaCycles (Failing.bind_of_ok hloop)) hcyclic
  · exact ⟨msg, Failing.bind_of_error hloop⟩

/-! ### How the sort ends -/

/-- What the sort does about the names it has visited. -/
structure SortClosed (engine : FormulaEngine) (fields : List CalculatedFieldDefinition)
    (visited : List String) : Prop where
  closed : Closed (SortDep engine fields) visited
  follows : ∀ x ∈ visited, ∃ field dependencies,
    (fields.reverse.find? fun f => f.name == x) = some field ∧
      formulaDependencies engine (fields.map CalculatedFieldDefinition.name) field =
        .ok dependencies

/-- A visit that returned leaves a closed list with the name in it. -/
theorem visitForSort_closed {engine : FormulaEngine} {fields : List CalculatedFieldDefinition} :
    ∀ {fuel : ℕ} {st st' : SortState} {name : String},
      visitForSort engine fields fuel st name = .ok st' → SortClosed engine fields st.visited →
      SortClosed engine fields st'.visited ∧ name ∈ st'.visited ∧ st.visited ⊆ st'.visited := by
  intro fuel
  induction fuel with
  | zero => intro st st' name h; cases h
  | succ fuel ih =>
    intro st st' name h hst
    rw [visitForSort] at h
    split at h
    · next hvisited =>
      obtain rfl := Except.ok.inj h
      exact ⟨hst, hvisited, fun _ hx => hx⟩
    split at h
    · cases h
    next field hfind =>
    obtain ⟨dependencies, hdependencies, h⟩ := Failing.bind_ok.mp h
    obtain ⟨st₁, hloop, h⟩ := Failing.bind_ok.mp h
    obtain rfl := Except.ok.inj h
    -- The loop invariant: the visited names are closed, and the dependencies met so far are among
    -- them.
    have hinv := Failing.foldlM_processed
      (I := fun seen (s : SortState) => SortClosed engine fields s.visited ∧
        st.visited ⊆ s.visited ∧
        ∀ b ∈ seen, b ∈ fields.map CalculatedFieldDefinition.name → b ∈ s.visited)
      ?_ hloop ⟨hst, fun _ hx => hx, by simp⟩
    · obtain ⟨hclosed, hsub, hdeps⟩ := hinv
      refine ⟨⟨⟨?_, hclosed.closed⟩, ?_⟩, List.mem_cons_self .., ?_⟩
      · rintro b ⟨field', dependencies', hfind', hdependencies', hb, hname⟩
        obtain rfl := Option.some.inj (hfind.symm.trans hfind')
        obtain rfl := Except.ok.inj (hdependencies.symm.trans hdependencies')
        exact hdeps b hb hname
      · exact List.forall_mem_cons.mpr ⟨⟨field, dependencies, hfind, hdependencies⟩,
          hclosed.follows⟩
      · intro x hx
        exact List.mem_cons_of_mem _ (hsub hx)
    · rintro seen dependency - - s s' ⟨hclosed, hsub, hdeps⟩ hvisit
      split at hvisit
      · obtain ⟨hclosed', hmem, hsub'⟩ := ih hvisit hclosed
        refine ⟨hclosed', fun x hx => hsub' (hsub hx), ?_⟩
        intro b hb hname
        rcases List.mem_append.mp hb with hb | hb
        · exact hsub' (hdeps b hb hname)
        · rwa [List.mem_singleton.mp hb]
      · next hno =>
        obtain rfl := Except.ok.inj hvisit
        refine ⟨hclosed, hsub, ?_⟩
        intro b hb hname
        rcases List.mem_append.mp hb with hb | hb
        · exact hdeps b hb hname
        · exact absurd (List.mem_singleton.mp hb ▸ hname) hno

section Engine

variable {engine : FormulaEngine} {fields ordered : List CalculatedFieldDefinition}

/-- A sort that returned met no cycle, and could follow every field. -/
theorem acyclic_of_topologicallySort
    (hnodup : (fields.map CalculatedFieldDefinition.name).Nodup)
    (h : topologicallySortCalculatedFields engine fields = .ok ordered) :
    detectFormulaCycles fields = .ok () ∧ Followable engine fields ∧
      Acyclic (SortDep engine fields) := by
  unfold topologicallySortCalculatedFields at h
  obtain ⟨⟨⟩, hdetect, h⟩ := Failing.bind_ok.mp h
  obtain ⟨st, hloop, -⟩ := Failing.bind_ok.mp h
  -- The loop over the fields visits each of them, and keeps the list closed.
  have hinv := Failing.foldlM_processed
    (I := fun (seen : List CalculatedFieldDefinition) (s : SortState) =>
      SortClosed engine fields s.visited ∧ ∀ d ∈ seen, d.name ∈ s.visited)
    ?_ hloop ⟨⟨trivial, List.forall_mem_nil _⟩, List.forall_mem_nil _⟩
  · obtain ⟨hclosed, hall⟩ := hinv
    refine ⟨hdetect, fun field hfield => ?_, acyclic_of_closed hclosed.closed ?_⟩
    · obtain ⟨field', dependencies, hfind, hdependencies⟩ :=
        hclosed.follows field.name (hall field hfield)
      rw [Keyed.find?_reverse_eq hnodup hfield] at hfind
      obtain rfl := Option.some.inj hfind
      exact ⟨dependencies, hdependencies⟩
    · rintro a b ⟨field, -, hfind, -⟩
      have hname : field.name = a := by simpa using List.find?_some hfind
      exact hname ▸ hall field (List.mem_reverse.mp (List.mem_of_find?_eq_some hfind))
  · rintro seen field - - s s' ⟨hclosed, hseen⟩ hvisit
    obtain ⟨hclosed', hmem, hsub⟩ := visitForSort_closed hvisit hclosed
    refine ⟨hclosed', fun d hd => ?_⟩
    rcases List.mem_append.mp hd with hd | hd
    · exact hsub (hseen d hd)
    · rw [List.mem_singleton.mp hd]
      exact hmem

/-- **When the sort returns**: when neither the declarations nor the references have a cycle, and
every formula can be followed. -/
theorem topologicallySort_returns_iff
    (hnodup : (fields.map CalculatedFieldDefinition.name).Nodup) :
    (∃ ordered, topologicallySortCalculatedFields engine fields = .ok ordered) ↔
      Acyclic (DeclaredDep fields) ∧ Followable engine fields ∧
        Acyclic (SortDep engine fields) := by
  constructor
  · rintro ⟨ordered, h⟩
    obtain ⟨hdetect, hrest⟩ := acyclic_of_topologicallySort hnodup h
    exact ⟨acyclic_of_detectFormulaCycles hdetect, hrest⟩
  · rintro ⟨hdeclared, hfollow, hacyclic⟩
    obtain ⟨ordered, h, -⟩ := topologicallySort_of_acyclic hnodup
      (detectFormulaCycles_of_acyclic hdeclared) hfollow hacyclic
    exact ⟨ordered, h⟩

/-- What a sort that returned ordered are the fields, each once. -/
theorem topologicallySort_perm (hnodup : (fields.map CalculatedFieldDefinition.name).Nodup)
    (h : topologicallySortCalculatedFields engine fields = .ok ordered) :
    ordered.Perm fields := by
  obtain ⟨hdetect, hfollow, hacyclic⟩ := acyclic_of_topologicallySort hnodup h
  obtain ⟨ordered', hordered', hperm, -⟩ :=
    topologicallySort_of_acyclic hnodup hdetect hfollow hacyclic
  obtain rfl := Except.ok.inj (h.symm.trans hordered')
  exact hperm

/-- The results of the loop have the names of the sorted fields. -/
theorem evaluateCalculatedFields_names {engine : FormulaEngine} {num : PyNumeric}
    {definitions : List CalculatedFieldDefinition} {extracted : List ExtractionFieldResult}
    {results : List CalculatedFieldResult}
    (h : evaluateCalculatedFields engine num definitions extracted = .ok results) :
    ∃ ordered, topologicallySortCalculatedFields engine definitions = .ok ordered ∧
      results.map CalculatedFieldResult.fieldName =
        ordered.map CalculatedFieldDefinition.name := by
  unfold evaluateCalculatedFields at h
  obtain ⟨ordered, hordered, h⟩ := Failing.bind_ok.mp h
  obtain ⟨⟨results', context⟩, hloop, hst⟩ := Failing.bind_ok.mp h
  obtain rfl := Except.ok.inj hst
  refine ⟨ordered, hordered, ?_⟩
  refine Failing.foldlM_processed
    (I := fun (seen : List CalculatedFieldDefinition)
        (st : List CalculatedFieldResult × List (String × PyVal)) =>
      st.1.map CalculatedFieldResult.fieldName = seen.map CalculatedFieldDefinition.name)
    ?_ hloop rfl
  intro seen definition after _ st st' hseen hturn
  obtain ⟨result, hresult, hst'⟩ := Failing.bind_ok.mp hturn
  obtain rfl := Except.ok.inj hst'
  rw [List.map_append, List.map_append, hseen, List.map_singleton, List.map_singleton,
    (evaluateCalculatedField_spec hresult).1]

/-- **Every calculated field has one result.**  The loop adds one for each field the sort
ordered, and the sort ordered each field once. -/
theorem evaluateCalculatedFields_perm {num : PyNumeric} {extracted : List ExtractionFieldResult}
    {results : List CalculatedFieldResult}
    (hnodup : (fields.map CalculatedFieldDefinition.name).Nodup)
    (h : evaluateCalculatedFields engine num fields extracted = .ok results) :
    (results.map CalculatedFieldResult.fieldName).Perm
      (fields.map CalculatedFieldDefinition.name) := by
  obtain ⟨ordered, hordered, hnames⟩ := evaluateCalculatedFields_names h
  rw [hnames]
  exact (topologicallySort_perm hnodup hordered).map CalculatedFieldDefinition.name

/-- The references of a field raise no `FormulaValidationError`: it is caught. -/
theorem formulaDependencies_raises {names : List String} {field : CalculatedFieldDefinition}
    {e : PyErr} (h : formulaDependencies engine names field = .error e) (msg : String) :
    e ≠ .formulaValidationError msg := by
  unfold formulaDependencies at h
  split at h
  · cases h
  · cases h
  · next e' hother _ =>
    obtain rfl := Except.error.inj h
    exact hother msg

/-- Nor does a visit of the sort. -/
theorem visitForSort_raises {msg : String} : ∀ {fuel : ℕ} {st : SortState} {name : String}
    {e : PyErr}, visitForSort engine fields fuel st name = .error e →
      e ≠ .formulaValidationError msg := by
  intro fuel
  induction fuel with
  | zero =>
    intro st name e h hmsg
    obtain rfl := Except.error.inj h
    cases hmsg
  | succ fuel ih =>
    intro st name e h
    rw [visitForSort] at h
    split at h
    · cases h
    split at h
    · intro hmsg
      obtain rfl := Except.error.inj h
      cases hmsg
    -- An error comes from the formula of the field or from the visit of a dependency.
    rcases Failing.bind_error.mp h with hraises | ⟨dependencies, -, h⟩
    · exact formulaDependencies_raises hraises msg
    · rcases Failing.bind_error.mp h with hloop | ⟨st₁, -, h⟩
      · obtain ⟨dependency, -, s, hturn⟩ := Failing.exists_of_foldlM_error hloop
        split at hturn
        · exact ih hturn
        · cases hturn
      · cases h

/-- **A sort that raises a `FormulaValidationError` found a cycle of declarations.** -/
theorem topologicallySort_rejects {msg : String}
    (h : topologicallySortCalculatedFields engine fields =
      .error (.formulaValidationError msg)) : ¬ Acyclic (DeclaredDep fields) := by
  intro hacyclic
  unfold topologicallySortCalculatedFields at h
  rw [Failing.bind_of_ok (detectFormulaCycles_of_acyclic hacyclic)] at h
  rcases Failing.bind_error.mp h with hloop | ⟨st, -, h⟩
  · obtain ⟨field, -, s, hturn⟩ := Failing.exists_of_foldlM_error hloop
    exact visitForSort_raises hturn rfl
  · cases h

end Engine

/-! ### The two graphs -/

section References

variable {py : Python} {sets : SetOrder} {fields : List CalculatedFieldDefinition}

/-- What the sort follows from a field whose formula parses or has a syntax error. -/
theorem formulaDependencies_spec (sets : SetOrder) {d : CalculatedFieldDefinition}
    (hparses : ∀ e, py.compileFormula d.formula ≠ .error (.builtin e)) (names : List String) :
    ∃ dependencies, formulaDependencies (py.engine sets) names d = .ok dependencies ∧
      ∀ b, b ∈ dependencies ↔ b ∈ names ∧
        ((∃ tree, py.compileFormula d.formula = .ok tree ∧ b ∈ tree.names) ∨
          (∃ e, py.compileFormula d.formula = .error e) ∧ b ∈ d.dependsOn) := by
  cases hcompile : py.compileFormula d.formula with
  | ok tree =>
    obtain ⟨refs, hrefs, -, hmem⟩ := collectFormulaReferences_returns sets hcompile names
    refine ⟨refs, ?_, fun b => ?_⟩
    · unfold formulaDependencies
      rw [hrefs]
    · rw [hmem, formulaNames_of_compile hcompile]
      simp [and_comm]
  | error e =>
    cases e with
    | builtin e => exact absurd hcompile (hparses e)
    | formula e =>
      have hrefs : (py.engine sets).collectFormulaReferences d.formula names =
          .error (.formulaValidationError e.message) :=
        congrArg (Except.mapError EvalErr.toPyErr) (Failing.bind_of_error hcompile)
      refine ⟨d.dependsOn.filter (· ∈ names), ?_, fun b => ?_⟩
      · unfold formulaDependencies
        rw [hrefs]
      · simp [and_comm]

/-- The sort can follow the fields if the parser raises nothing else. -/
theorem followable_iff : Followable (py.engine sets) fields ↔ ParsesOrFails py fields := by
  constructor
  · intro h d hd e hcompile
    obtain ⟨dependencies, hdependencies⟩ := h d hd
    have hrefs : (py.engine sets).collectFormulaReferences d.formula
        (fields.map CalculatedFieldDefinition.name) = .error e.toPyErr :=
      congrArg (Except.mapError EvalErr.toPyErr) (Failing.bind_of_error hcompile)
    unfold formulaDependencies at hdependencies
    rw [hrefs] at hdependencies
    cases e <;> cases hdependencies
  · intro h d hd
    obtain ⟨dependencies, hdependencies, -⟩ := formulaDependencies_spec sets (h d hd) _
    exact ⟨dependencies, hdependencies⟩

/-- Then its edges are the references. -/
theorem sortDep_iff_referenceDep (hnodup : (fields.map CalculatedFieldDefinition.name).Nodup)
    (hparses : ParsesOrFails py fields) {a b : String} :
    SortDep (py.engine sets) fields a b ↔ ReferenceDep py fields a b := by
  constructor
  · rintro ⟨d, dependencies, hfind, hdependencies, hb, hname⟩
    have hd := List.mem_reverse.mp (List.mem_of_find?_eq_some hfind)
    obtain ⟨dependencies', hdependencies', hmem⟩ := formulaDependencies_spec sets (hparses d hd) _
    obtain rfl := Except.ok.inj (hdependencies.symm.trans hdependencies')
    exact ⟨hname, d, hd, by simpa using List.find?_some hfind, ((hmem b).mp hb).2⟩
  · rintro ⟨hname, d, hd, rfl, hb⟩
    obtain ⟨dependencies, hdependencies, hmem⟩ := formulaDependencies_spec sets (hparses d hd) _
    exact ⟨d, dependencies, Keyed.find?_reverse_eq hnodup hd, hdependencies,
      (hmem b).mpr ⟨hname, hb⟩, hname⟩

end References

/-- **The sort does what it is for** exactly when the declarations have a cycle if the
references have one and, where there is none, the parser raises nothing but syntax errors. -/
theorem topological_sort_iff (py : Python) (sets : SetOrder)
    (fields : List CalculatedFieldDefinition)
    (hnodup : (fields.map CalculatedFieldDefinition.name).Nodup) :
    SortsReferences py sets fields ↔
      (¬ Acyclic (DeclaredDep fields) ∧ ¬ Acyclic (ReferenceDep py fields)) ∨
        (Acyclic (DeclaredDep fields) ∧ Acyclic (ReferenceDep py fields) ∧
          ParsesOrFails py fields) := by
  constructor
  · rintro ⟨hrejects, hsorts⟩
    by_cases hacyclic : Acyclic (ReferenceDep py fields)
    · obtain ⟨ordered, hreturns, -⟩ := hsorts hacyclic
      obtain ⟨hdeclared, hfollow, -⟩ := (topologicallySort_returns_iff hnodup).mp ⟨_, hreturns⟩
      exact .inr ⟨hdeclared, hacyclic, followable_iff.mp hfollow⟩
    · obtain ⟨msg, hraises⟩ := hrejects hacyclic
      exact .inl ⟨topologicallySort_rejects hraises, hacyclic⟩
  · rintro (⟨hdeclared, hcyclic⟩ | ⟨hdeclared, hacyclic, hparses⟩)
    · refine ⟨fun _ => ?_, fun hacyclic => absurd hacyclic hcyclic⟩
      obtain ⟨msg, hraises⟩ := detectFormulaCycles_of_cyclic hdeclared
      exact ⟨msg, Failing.bind_of_error hraises⟩
    · refine ⟨fun hcyclic => absurd hacyclic hcyclic, fun _ => ?_⟩
      -- The graph of the sort is that of the references, if the parser does not fail otherwise.
      have hedges : ∀ a b, SortDep (py.engine sets) fields a b ↔ ReferenceDep py fields a b :=
        fun a b => sortDep_iff_referenceDep hnodup hparses
      obtain ⟨ordered, hreturns, hperm, hclosed⟩ := topologicallySort_of_acyclic hnodup
        (detectFormulaCycles_of_acyclic hdeclared) (followable_iff.mpr hparses)
        (hacyclic.mono fun a b => (hedges a b).mp)
      refine ⟨ordered, hreturns, hperm, ?_⟩
      rintro before d after rfl b hb
      rw [List.map_append, List.map_cons] at hclosed
      exact hclosed.mem_before ((hedges _ _).mpr hb)

/-! ### Two fields that refer to each other -/

/-- A field whose formula is a name, and that declares no dependency. -/
def staleField (name reference : String) : CalculatedFieldDefinition where
  name := name
  label := name
  outputType := .number
  formula := reference

/-- An interpreter that parses three names. -/
def namesPython : Python :=
  plainPython [("gross", .name "gross"), ("net", .name "net"), ("tax", .name "tax")]

/-- The gross amount comes from the net amount, and that from the tax. -/
def chainedFields : List CalculatedFieldDefinition :=
  [staleField "gross" "net", staleField "net" "tax"]

/-- The gross amount comes from the net amount, and that from the gross amount. -/
def circularFields : List CalculatedFieldDefinition :=
  [staleField "gross" "net", staleField "net" "gross"]

theorem acyclic_declared_stale {fields : List CalculatedFieldDefinition}
    (h : ∀ d ∈ fields, d.dependsOn = []) : Acyclic (DeclaredDep fields) := by
  have hnone : ∀ a b, ¬ DeclaredDep fields a b := by
    rintro a b ⟨hdeclared, -⟩
    unfold declaredDependencies at hdeclared
    cases hfind : fields.reverse.find? fun f => f.name == a with
    | none => simp [hfind] at hdeclared
    | some field =>
      have hmem := List.mem_reverse.mp (List.mem_of_find?_eq_some hfind)
      simp [hfind, h field hmem] at hdeclared
  exact acyclic_of_closed (show Closed (DeclaredDep fields) [] from trivial) fun a b hab =>
    absurd hab (hnone a b)

/-- A formula that is a name refers to that name. -/
theorem eq_of_referenceDep {py : Python} {fields : List CalculatedFieldDefinition}
    {a b reference : String}
    (hname : ∀ d ∈ fields, d.name = a → py.compileFormula d.formula = .ok (.name reference))
    (h : ReferenceDep py fields a b) : b = reference := by
  obtain ⟨-, d, hd, hda, ⟨tree, htree, hb⟩ | ⟨⟨e, he⟩, -⟩⟩ := h
  · obtain rfl := Except.ok.inj ((hname d hd hda).symm.trans htree)
    have hnames : (Node.name reference).names = [reference] := rfl
    exact List.mem_singleton.mp (hnames ▸ hb)
  · cases (hname d hd hda).symm.trans he

/-- The sort follows the formulas of the chain, of which nothing is declared. -/
theorem topological_sort_chain : SortsReferences namesPython insertionOrder chainedFields := by
  have hcompile : ∀ d ∈ chainedFields,
      (d.name = "gross" → namesPython.compileFormula d.formula = .ok (.name "net")) ∧
        (d.name = "net" → namesPython.compileFormula d.formula = .ok (.name "tax")) := by
    intro d hd
    simp only [chainedFields, List.mem_cons, List.not_mem_nil, or_false] at hd
    rcases hd with rfl | rfl
    · exact ⟨fun _ => rfl, fun h => absurd h (by decide)⟩
    · exact ⟨fun h => absurd h (by decide), fun _ => rfl⟩
  have hgross : ∀ b, ReferenceDep namesPython chainedFields "gross" b → b = "net" :=
    fun b hb => eq_of_referenceDep (fun d hd => (hcompile d hd).1) hb
  have hnet : ∀ b, ¬ ReferenceDep namesPython chainedFields "net" b := by
    intro b hb
    obtain rfl := eq_of_referenceDep (fun d hd => (hcompile d hd).2) hb
    exact absurd hb.1 (by decide)
  -- The gross refers to the net, and the net to nothing that is calculated.
  have hclosed : Closed (ReferenceDep namesPython chainedFields) ["gross", "net"] :=
    ⟨fun b hb => by simp [hgross b hb], fun b hb => absurd hb (hnet b), trivial⟩
  refine (topological_sort_iff namesPython insertionOrder chainedFields (by decide)).mpr
    (.inr ⟨acyclic_declared_stale ?_, acyclic_of_closed hclosed ?_, ?_⟩)
  · simp [chainedFields, staleField]
  · rintro a b ⟨-, d, hd, rfl, -⟩
    exact List.mem_map_of_mem hd
  · intro d hd e
    simp only [chainedFields, List.mem_cons, List.not_mem_nil, or_false] at hd
    rcases hd with rfl | rfl
    · exact fun h => nomatch h
    · exact fun h => nomatch h

/-- **The sort goes round a cycle of references that nothing declares**, and never returns. -/
theorem circular_references_not_rejected :
    ¬ ∀ (py : Python) (sets : SetOrder) (fields : List CalculatedFieldDefinition),
      (fields.map CalculatedFieldDefinition.name).Nodup → SortsReferences py sets fields := by
  intro hclaim
  obtain ⟨hrejects, -⟩ := hclaim namesPython insertionOrder circularFields (by decide)
  have hgross : ReferenceDep namesPython circularFields "gross" "net" :=
    ⟨by decide, staleField "gross" "net", by simp [circularFields], rfl,
      .inl ⟨.name "net", rfl, Node.mem_names_self "net"⟩⟩
  have hnet : ReferenceDep namesPython circularFields "net" "gross" :=
    ⟨by decide, staleField "net" "gross", by simp [circularFields], rfl,
      .inl ⟨.name "gross", rfl, Node.mem_names_self "gross"⟩⟩
  obtain ⟨msg, hraises⟩ := hrejects fun hacyclic => hacyclic "gross" (.tail (.single hgross) hnet)
  have hloops : topologicallySortCalculatedFields (namesPython.engine insertionOrder)
      circularFields = .error .recursionError := rfl
  cases hloops.symm.trans hraises

end ExtractFlow
