import ExtractFlow.Lib.DependencyOrder
import ExtractFlow.Formulas

/-!
# The two searches agree on acyclic fields

`detect_formula_cycles` follows the declared dependencies and
`topologically_sort_calculated_fields` the names the formulas refer to.  The
first returns exactly when the declared dependencies form no cycle.  The second
has no cycle check of its own: on an acyclic graph it returns every field once,
after the fields it refers to, whatever order the fields and the sets are in.

## Main definitions

* `DeclaredDep`, `SortDep` — the edges the two searches follow.
* `SortInv` — what the sort has built so far.

## Main results

* `acyclic_of_detectFormulaCycles` — a check that returned found an acyclic graph.
* `detectFormulaCycles_of_acyclic` — the check of an acyclic graph returns.
* `topologicallySort_of_acyclic` — so does the sort, with the fields in dependency order.
-/

namespace ExtractFlow

open DependencyOrder

/-! ### The edges -/

/-- `node` declares that it depends on `dependency`, and that is a calculated field; dependencies on
extracted fields make no cycle. -/
def DeclaredDep (fields : List CalculatedFieldDefinition) (node dependency : String) : Prop :=
  dependency ∈ declaredDependencies fields node ∧
    dependency ∈ fields.map CalculatedFieldDefinition.name

/-- The sort goes from the field `name` to the calculated field `dependency`. -/
def SortDep (engine : FormulaEngine) (fields : List CalculatedFieldDefinition)
    (name dependency : String) : Prop :=
  ∃ field dependencies, (fields.reverse.find? fun f => f.name == name) = some field ∧
    formulaDependencies engine (fields.map CalculatedFieldDefinition.name) field =
      .ok dependencies ∧
    dependency ∈ dependencies ∧ dependency ∈ fields.map CalculatedFieldDefinition.name

/-! ### The cycle check -/

/-- A visit that returned leaves a closed list with the node in it. -/
theorem visitForCycle_closed {fields : List CalculatedFieldDefinition} : ∀ {fuel : ℕ}
    {st st' : CycleSearch} {node : String}, visitForCycle fields fuel st node = .ok st' →
    Closed (DeclaredDep fields) st.visited →
    Closed (DeclaredDep fields) st'.visited ∧ node ∈ st'.visited ∧ st.visited ⊆ st'.visited := by
  intro fuel
  induction fuel with
  | zero => intro st st' node h; cases h
  | succ fuel ih =>
    intro st st' node h hst
    rw [visitForCycle] at h
    split at h
    · cases h
    split at h
    · next hvisited =>
      obtain rfl := Except.ok.inj h
      exact ⟨hst, hvisited, fun _ hx => hx⟩
    obtain ⟨st₁, hloop, h⟩ := Failing.bind_ok.mp h
    obtain rfl := Except.ok.inj h
    -- the loop closes the list over the dependencies it has seen
    have hinv := Failing.foldlM_processed
      (I := fun seen (s : CycleSearch) => Closed (DeclaredDep fields) s.visited ∧
        st.visited ⊆ s.visited ∧
        ∀ b ∈ seen, b ∈ fields.map CalculatedFieldDefinition.name → b ∈ s.visited)
      ?_ hloop ⟨hst, fun _ hx => hx, by simp⟩
    · obtain ⟨hclosed, hsub, hdeps⟩ := hinv
      refine ⟨⟨?_, hclosed⟩, List.mem_cons_self .., ?_⟩
      · rintro b ⟨hdeclared, hname⟩
        exact hdeps b hdeclared hname
      · intro x hx
        exact List.mem_cons_of_mem _ (hsub hx)
    · rintro seen dependency - - s s' ⟨hclosed, hsub, hdeps⟩ hvisit
      split at hvisit
      · obtain ⟨hclosed', hmem, hsub'⟩ := ih hvisit hclosed
        refine ⟨hclosed', fun x hx => hsub' (hsub hx), ?_⟩
        intro b hb hname
        rcases List.mem_append.mp hb with hb | hb
        · exact hsub' (hdeps b hb hname)
        · rwa [List.mem_singleton.mp hb]
      · next hno =>
        obtain rfl := Except.ok.inj hvisit
        refine ⟨hclosed, hsub, ?_⟩
        intro b hb hname
        rcases List.mem_append.mp hb with hb | hb
        · exact hdeps b hb hname
        · exact absurd (List.mem_singleton.mp hb ▸ hname) hno

theorem declared_mem_names {fields : List CalculatedFieldDefinition} {a b : String}
    (h : DeclaredDep fields a b) : a ∈ fields.map CalculatedFieldDefinition.name := by
  obtain ⟨h, -⟩ := h
  unfold declaredDependencies at h
  cases hfind : fields.reverse.find? fun f => f.name == a with
  | none => simp [hfind] at h
  | some field =>
    have hmem := List.mem_reverse.mp (List.mem_of_find?_eq_some hfind)
    have hname : field.name = a := by simpa using List.find?_some hfind
    exact List.mem_map.mpr ⟨field, hmem, hname⟩

/-- **A check that returned found an acyclic graph**: no calculated field depends on itself, over
however many others. -/
theorem acyclic_of_detectFormulaCycles {fields : List CalculatedFieldDefinition}
    (h : detectFormulaCycles fields = .ok ()) : Acyclic (DeclaredDep fields) := by
  unfold detectFormulaCycles at h
  obtain ⟨st, hloop, -⟩ := Failing.bind_ok.mp h
  have hinv := Failing.foldlM_processed
    (I := fun seen (s : CycleSearch) => Closed (DeclaredDep fields) s.visited ∧ seen ⊆ s.visited)
    ?_ hloop ⟨trivial, by simp⟩
  · exact acyclic_of_closed hinv.1 fun a b hab => hinv.2 (declared_mem_names hab)
  · rintro seen node - - s s' ⟨hclosed, hseen⟩ hvisit
    obtain ⟨hclosed', hmem, hsub⟩ := visitForCycle_closed hvisit hclosed
    refine ⟨hclosed', ?_⟩
    intro x hx
    rcases List.mem_append.mp hx with hx | hx
    · exact hsub (hseen hx)
    · rwa [List.mem_singleton.mp hx]

/-- On an acyclic graph a visit returns, and leaves the path it came along. -/
theorem visitForCycle_returns {fields : List CalculatedFieldDefinition}
    (hacyclic : Acyclic (DeclaredDep fields)) : ∀ {fuel : ℕ} {st : CycleSearch} {node : String},
    node ∈ fields.map CalculatedFieldDefinition.name → st.active.Nodup →
    st.active ⊆ fields.map CalculatedFieldDefinition.name →
    (∀ a ∈ st.active, Relation.TransGen (DeclaredDep fields) a node) →
    fields.length < fuel + st.active.length →
    ∃ st', visitForCycle fields fuel st node = .ok st' ∧ st'.active = st.active := by
  intro fuel
  induction fuel with
  | zero =>
    intro st node hnode hnodup hsub hpath hfuel
    -- the path is as long as the graph, so it repeats the node
    have hnew : node ∉ st.active := fun hmem => hacyclic node (hpath node hmem)
    have := length_lt_of_path hnodup hsub hnode hnew
    rw [List.length_map] at this
    omega
  | succ fuel ih =>
    intro st node hnode hnodup hsub hpath hfuel
    have hnew : node ∉ st.active := fun hmem => hacyclic node (hpath node hmem)
    rw [visitForCycle, if_neg hnew]
    by_cases hvisited : node ∈ st.visited
    · exact ⟨st, if_pos hvisited, rfl⟩
    rw [if_neg hvisited]
    have hloop : ∃ st₁, (declaredDependencies fields node).foldlM
        (fun st dependency =>
          if dependency ∈ fields.map CalculatedFieldDefinition.name then
            visitForCycle fields fuel st dependency
          else .ok st)
        { st with active := node :: st.active } = .ok st₁ ∧ st₁.active = node :: st.active := by
      refine Failing.foldlM_returns
        (I := fun _ (s : CycleSearch) => s.active = node :: st.active) ?_ rfl
      intro _ dependency _ hsplit s hs
      have hdependency : dependency ∈ declaredDependencies fields node := by simp [hsplit]
      by_cases hname : dependency ∈ fields.map CalculatedFieldDefinition.name
      · have hedge : DeclaredDep fields node dependency := ⟨hdependency, hname⟩
        have hvisit := @ih s dependency hname
        rw [hs] at hvisit
        simp only [if_pos hname]
        refine hvisit (List.nodup_cons.mpr ⟨hnew, hnodup⟩) (List.cons_subset.mpr ⟨hnode, hsub⟩) ?_ ?_
        · intro a ha
          rcases List.mem_cons.mp ha with rfl | ha
          · exact .single hedge
          · exact .tail (hpath a ha) hedge
        · rw [List.length_cons]
          omega
      · simp only [if_neg hname]
        exact ⟨s, rfl, hs⟩
    obtain ⟨st₁, hloop, hactive⟩ := hloop
    refine ⟨_, Failing.bind_ok.mpr ⟨st₁, hloop, rfl⟩, ?_⟩
    simp only [hactive, List.erase_cons_head]

/-- **The check of an acyclic graph returns** and raises no error, in whatever order it visits the
fields. -/
theorem detectFormulaCycles_of_acyclic {fields : List CalculatedFieldDefinition}
    (hacyclic : Acyclic (DeclaredDep fields)) : detectFormulaCycles fields = .ok () := by
  have hloop : ∃ st, (fields.map CalculatedFieldDefinition.name).foldlM
      (visitForCycle fields (fields.length + 1)) {} = .ok st ∧ st.active = [] := by
    refine Failing.foldlM_returns (I := fun _ (s : CycleSearch) => s.active = []) ?_ rfl
    intro _ node _ hsplit s hs
    have hnode : node ∈ fields.map CalculatedFieldDefinition.name := by simp [hsplit]
    have hvisit := @visitForCycle_returns fields hacyclic (fields.length + 1) s node hnode
    rw [hs] at hvisit
    exact hvisit List.nodup_nil (List.nil_subset _) (by simp) (by simp)
  obtain ⟨st, hloop, -⟩ := hloop
  exact Failing.bind_ok.mpr ⟨st, hloop, rfl⟩

/-! ### The sort -/

/-- What the sort has built so far: the fields of the visited names, each after the
fields it refers to. -/
structure SortInv (engine : FormulaEngine) (fields : List CalculatedFieldDefinition)
    (st : SortState) : Prop where
  names : st.ordered.map CalculatedFieldDefinition.name = st.visited.reverse
  nodup : st.visited.Nodup
  closed : Closed (SortDep engine fields) st.visited
  within : st.Within fields

/-- What a visit from `name` that ends with `st'` has done: it kept the invariant, it was at `name`,
and it was at nothing that `name` does not lead to. -/
structure SortVisit (engine : FormulaEngine) (fields : List CalculatedFieldDefinition)
    (st : SortState) (name : String) (st' : SortState) : Prop where
  inv : SortInv engine fields st'
  mem : name ∈ st'.visited
  keeps : st.visited ⊆ st'.visited
  reached : ∀ x ∈ st'.visited, x ∈ st.visited ∨ Relation.ReflTransGen (SortDep engine fields) name x

/-- The formulas of the fields have references the sort can follow. -/
def Followable (engine : FormulaEngine) (fields : List CalculatedFieldDefinition) : Prop :=
  ∀ field ∈ fields, ∃ dependencies,
    formulaDependencies engine (fields.map CalculatedFieldDefinition.name) field = .ok dependencies

/-- What the loop of a visit has done, on its way to the name. -/
structure SortLoop (engine : FormulaEngine) (fields : List CalculatedFieldDefinition)
    (st : SortState) (name : String) (seen : List String) (s : SortState) : Prop where
  inv : SortInv engine fields s
  keeps : st.visited ⊆ s.visited
  seen : ∀ b ∈ seen, b ∈ fields.map CalculatedFieldDefinition.name → b ∈ s.visited
  reached : ∀ x ∈ s.visited, x ∈ st.visited ∨ Relation.TransGen (SortDep engine fields) name x

section Loop

variable {engine : FormulaEngine} {fields : List CalculatedFieldDefinition}
  {st s s' : SortState} {name dependency : String} {seen : List String}

/-- A turn that visits a dependency. -/
theorem SortLoop.extend (hs : SortLoop engine fields st name seen s)
    (hvisit : SortVisit engine fields s dependency s')
    (hedge : SortDep engine fields name dependency) :
    SortLoop engine fields st name (seen ++ [dependency]) s' where
  inv := hvisit.inv
  keeps x hx := hvisit.keeps (hs.keeps hx)
  seen b hb hname := by
    rcases List.mem_append.mp hb with hb | hb
    · exact hvisit.keeps (hs.seen b hb hname)
    · rw [List.mem_singleton.mp hb]
      exact hvisit.mem
  reached x hx := by
    rcases hvisit.reached x hx with hx | hx
    · exact hs.reached x hx
    · exact Or.inr (.head' hedge hx)

/-- A turn that skips a name of no calculated field. -/
theorem SortLoop.skip (hs : SortLoop engine fields st name seen s)
    (hno : dependency ∉ fields.map CalculatedFieldDefinition.name) :
    SortLoop engine fields st name (seen ++ [dependency]) s where
  inv := hs.inv
  keeps := hs.keeps
  seen b hb hname := by
    rcases List.mem_append.mp hb with hb | hb
    · exact hs.seen b hb hname
    · exact absurd (List.mem_singleton.mp hb ▸ hname) hno
  reached := hs.reached

end Loop

/-- On an acyclic graph a visit of the sort returns: the path it is on never repeats a name, so it
is no longer than the list of fields. -/
theorem visitForSort_returns {engine : FormulaEngine} {fields : List CalculatedFieldDefinition}
    (hfollow : Followable engine fields) (hacyclic : Acyclic (SortDep engine fields)) :
    ∀ (fuel : ℕ) (path : List String) (st : SortState) (name : String),
      name ∈ fields.map CalculatedFieldDefinition.name → path.Nodup →
      path ⊆ fields.map CalculatedFieldDefinition.name →
      (∀ a ∈ path, Relation.TransGen (SortDep engine fields) a name) →
      fields.length < fuel + path.length → SortInv engine fields st →
      ∃ st', visitForSort engine fields fuel st name = .ok st' ∧
        SortVisit engine fields st name st' := by
  intro fuel
  induction fuel with
  | zero =>
    intro path st name hname hnodup hsub hpath hfuel _
    have hnew : name ∉ path := fun hmem => hacyclic name (hpath name hmem)
    have := length_lt_of_path hnodup hsub hname hnew
    rw [List.length_map] at this
    omega
  | succ fuel ih =>
    intro path st name hname hnodup hsub hpath hfuel hst
    have hnew : name ∉ path := fun hmem => hacyclic name (hpath name hmem)
    rw [visitForSort]
    by_cases hvisited : name ∈ st.visited
    · rw [if_pos hvisited]
      exact ⟨st, rfl, hst, hvisited, fun _ hx => hx, fun x hx => Or.inl hx⟩
    rw [if_neg hvisited]
    obtain ⟨field, hfind⟩ : ∃ field, (fields.reverse.find? fun f => f.name == name) = some field := by
      obtain ⟨field, hmem, hfield⟩ := List.mem_map.mp hname
      cases hfind : fields.reverse.find? fun f => f.name == name with
      | some field => exact ⟨field, rfl⟩
      | none =>
        have := List.find?_eq_none.mp hfind field (List.mem_reverse.mpr hmem)
        simp [hfield] at this
    have hmem : field ∈ fields := List.mem_reverse.mp (List.mem_of_find?_eq_some hfind)
    have hfield : field.name = name := by simpa using List.find?_some hfind
    obtain ⟨dependencies, hdependencies⟩ := hfollow field hmem
    -- the loop over the names the field refers to, by induction on what it has seen
    have hloop : ∃ st₁, dependencies.foldlM
        (fun st dependency =>
          if dependency ∈ fields.map CalculatedFieldDefinition.name then
            visitForSort engine fields fuel st dependency
          else .ok st) st = .ok st₁ ∧ SortLoop engine fields st name dependencies st₁ := by
      refine Failing.foldlM_returns (I := SortLoop engine fields st name) ?_
        ⟨hst, fun _ hx => hx, by simp, fun x hx => Or.inl hx⟩
      intro seen dependency _ hsplit s hs
      have hdependency : dependency ∈ dependencies := by simp [hsplit]
      by_cases hdep : dependency ∈ fields.map CalculatedFieldDefinition.name
      · have hedge : SortDep engine fields name dependency :=
          ⟨field, dependencies, hfind, hdependencies, hdependency, hdep⟩
        simp only [if_pos hdep]
        obtain ⟨s', hvisit, hs'⟩ := ih (name :: path) s dependency hdep
          (List.nodup_cons.mpr ⟨hnew, hnodup⟩) (List.cons_subset.mpr ⟨hname, hsub⟩)
          (by
            intro a ha
            rcases List.mem_cons.mp ha with rfl | ha
            · exact .single hedge
            · exact .tail (hpath a ha) hedge)
          (by rw [List.length_cons]; omega) hs.inv
        exact ⟨s', hvisit, hs.extend hs' hedge⟩
      · simp only [if_neg hdep]
        exact ⟨s, rfl, hs.skip hdep⟩
    obtain ⟨st₁, hloop, hspec⟩ := hloop
    simp only [hfind, hdependencies]
    refine ⟨_, Failing.bind_ok.mpr ⟨dependencies, rfl, Failing.bind_ok.mpr ⟨st₁, hloop, rfl⟩⟩, ?_⟩
    -- the field is not put out below itself, or it would lie on a cycle
    have hfresh : name ∉ st₁.visited := by
      intro hmem'
      rcases hspec.reached name hmem' with hold | hcycle
      · exact hvisited hold
      · exact hacyclic name hcycle
    refine ⟨⟨?_, List.nodup_cons.mpr ⟨hfresh, hspec.inv.nodup⟩, ⟨?_, hspec.inv.closed⟩, ?_⟩,
      List.mem_cons_self .., fun x hx => List.mem_cons_of_mem _ (hspec.keeps hx), ?_⟩
    · rw [List.map_append, hspec.inv.names, List.reverse_cons, List.map_singleton, hfield]
    · rintro b ⟨field', dependencies', hfind', hdependencies', hb, hbname⟩
      obtain rfl := Option.some.inj (hfind.symm.trans hfind')
      obtain rfl := Except.ok.inj (hdependencies.symm.trans hdependencies')
      exact hspec.seen b hb hbname
    · intro d hd
      rcases List.mem_append.mp hd with hd | hd
      · exact hspec.inv.within d hd
      · exact List.mem_singleton.mp hd ▸ hmem
    · intro x hx
      rcases List.mem_cons.mp hx with rfl | hx
      · exact Or.inr .refl
      · exact (hspec.reached x hx).imp_right Relation.TransGen.to_reflTransGen

/-- **The sort of an acyclic graph returns every field once, after the fields it refers
to.** -/
theorem topologicallySort_of_acyclic {engine : FormulaEngine}
    {fields : List CalculatedFieldDefinition}
    (hnodup : (fields.map CalculatedFieldDefinition.name).Nodup)
    (hdetect : detectFormulaCycles fields = .ok ()) (hfollow : Followable engine fields)
    (hacyclic : Acyclic (SortDep engine fields)) :
    ∃ ordered, topologicallySortCalculatedFields engine fields = .ok ordered ∧
      ordered.Perm fields ∧
      Closed (SortDep engine fields) (ordered.map CalculatedFieldDefinition.name).reverse := by
  have hloop : ∃ st, fields.foldlM
      (fun st field => visitForSort engine fields (fields.length + 1) st field.name) {} = .ok st ∧
      SortInv engine fields st ∧
      ∀ d ∈ fields, d.name ∈ st.visited := by
    have hinit : SortInv engine fields {} :=
      ⟨rfl, List.nodup_nil, trivial, fun d hd => absurd hd List.not_mem_nil⟩
    refine Failing.foldlM_returns
      (I := fun (seen : List CalculatedFieldDefinition) (s : SortState) =>
        SortInv engine fields s ∧ ∀ d ∈ seen, d.name ∈ s.visited) ?_ ⟨hinit, by simp⟩
    rintro seen field _ hsplit s ⟨hs, hseen⟩
    have hfield : field ∈ fields := by simp [hsplit]
    obtain ⟨s', hvisit, hspec⟩ := visitForSort_returns hfollow hacyclic (fields.length + 1) [] s
      field.name (List.mem_map_of_mem hfield) List.nodup_nil (List.nil_subset _) (by simp)
      (by simp) hs
    refine ⟨s', hvisit, hspec.inv, ?_⟩
    intro d hd
    rcases List.mem_append.mp hd with hd | hd
    · exact hspec.keeps (hseen d hd)
    · rw [List.mem_singleton.mp hd]
      exact hspec.mem
  obtain ⟨st, hloop, hinv, hall⟩ := hloop
  refine ⟨st.ordered, ?_, ?_, ?_⟩
  · unfold topologicallySortCalculatedFields
    exact Failing.bind_ok.mpr ⟨(), hdetect, Failing.bind_ok.mpr ⟨st, hloop, rfl⟩⟩
  · have hordered : (st.ordered.map CalculatedFieldDefinition.name).Nodup := by
      rw [hinv.names]
      exact List.nodup_reverse.mpr hinv.nodup
    refine (List.perm_ext_iff_of_nodup (List.Nodup.of_map _ hordered)
      (List.Nodup.of_map _ hnodup)).mpr fun d => ⟨hinv.within d, fun hd => ?_⟩
    -- the visited field of that name is this one, as names are distinct
    have hname : d.name ∈ st.ordered.map CalculatedFieldDefinition.name := by
      rw [hinv.names]
      exact List.mem_reverse.mpr (hall d hd)
    obtain ⟨d', hd', hsame⟩ := List.mem_map.mp hname
    rwa [← List.inj_on_of_nodup_map hnodup (hinv.within d' hd') hd hsame]
  · rw [hinv.names, List.reverse_reverse]
    exact hinv.closed

end ExtractFlow
