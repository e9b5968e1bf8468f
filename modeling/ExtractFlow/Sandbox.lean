import ExtractFlow.ValueFlow

/-!
# Whether the evaluation stays inside

The evaluator calls helpers by name only, and a formula has no other way to call.  But a
name that is not called, the method of a view, a tuple and a constant of another class
are values as well.  Where one is passed on, the formula returns what no JSON document
holds, and `min` and `max` call what their `key` is.

## Main definitions

* `Calls` — the evaluation calls a value.
* `Sandboxed` — a formula returns a JSON value and calls helpers only.
* `StaysInside` — no alien is in what is returned, and no method is a key.

## Main results

* `sandbox_iff` — the formulas that are sandboxed.
-/

namespace ExtractFlow

/-! ### Calls -/

/-- A value that can be called: a helper, or the method of a view. -/
def PyVal.isCallable : PyVal → Bool
  | .function _ => true
  | .object kind => kind == "bound method AttrView.unwrap"
  | _ => false

/-- `min` and `max` get to their key: they take the keywords, and have an item. -/
def TakesKey (py : Python) (args : List PyVal) (kwargs : Kwargs) : Prop :=
  (∀ kw ∈ kwargs, kw.1 = "default" ∨ kw.1 = "key") ∧
    ((∃ iterable item rest, args = [iterable] ∧ py.iterate iterable = .ok (item :: rest)) ∨
      2 ≤ args.length ∧ PyVal.dictGet kwargs "default" = none)

section Calls

variable (py : Python) (context : Context)

/-- The evaluation of the formula gets to the key of a call of `min` or `max`. -/
def KeyReached (root n : Node) : Prop :=
  ∃ func args keywords vs kwargs name, Visits py context root (.call func args keywords) ∧
    func.helper? = true ∧ py.visit context func = .ok (.function name) ∧
    (name = "min" ∨ name = "max") ∧ CallValues py context args keywords vs kwargs ∧
    keywordNode keywords "key" = some n ∧ TakesKey py vs kwargs

/-- While it evaluates the formula, the evaluator calls the value: as the function of a call node,
or, once for each element, as the `key` of a `min` or `max`. -/
inductive Calls (root : Node) : PyVal → Prop
  | callee (func args keywords vs kwargs f) : Visits py context root (.call func args keywords) →
      func.helper? = true → CallValues py context args keywords vs kwargs →
      py.visit context func = .ok f → Calls root f
  | key (n f) : KeyReached py context root n → py.visit context n = .ok f → f.isNone = false →
      Calls root f

/-- The expression passes the method of a view on. -/
def PassesMethod (n : Node) : Prop :=
  ∃ value id items, Passes py context n (.attr value "unwrap") ∧
    py.visit context value = .ok (.view id items)

/-- What is returned holds no alien, and no key of `min` and `max` is the method of a
view. -/
structure StaysInside (tree : Node) : Prop where
  value : (∃ e, py.visit context tree = .error e) ∨ ¬HoldsAlien py context tree
  keys : ∀ n, KeyReached py context tree n → ¬PassesMethod py context n

end Calls

/-- The formula returns a JSON value, if any, and calls helpers only. -/
structure Sandboxed (py : Python) (formula : String) (context : Context) : Prop where
  value : ∀ v, py.evaluate formula context = .ok v → v.isJson = true
  calls : ∀ tree, py.compileFormula formula = .ok tree →
    ∀ f, Calls py (wrapContext context) tree f → f.isCallable = true →
      ∃ name ∈ allowedFunctions, f = .function name

/-- The constants the parser yields are atoms, or objects of other classes. -/
def ParsesAtoms (py : Python) : Prop := ∀ s tree, py.parse s = .ok tree → AtomConstants tree

/-! ### The formulas that are sandboxed -/

section Sandbox

variable {py : Python} {context : Context}

theorem parse_of_compileFormula {formula : String} {tree : Node}
    (h : py.compileFormula formula = .ok tree) :
    py.parse (normalizeFormula py.text.isAlnum formula) = .ok tree := by
  unfold Python.compileFormula at h
  split at h
  · next hparse => rw [hparse, Except.ok.inj h]
  · cases h
  · cases h

/-- The expression of a key is part of the formula. -/
theorem KeyReached.atomConstants {root n : Node} (h : KeyReached py context root n)
    (hatoms : AtomConstants root) : AtomConstants n := by
  obtain ⟨func, args, keywords, vs, kwargs, name, hvisits, -, -, -, -, hn, -⟩ := h
  have hcall : AtomConstants (.call func args keywords) :=
    fun v hv => hatoms v (hvisits.walk_subset hv)
  exact hcall.argument (List.mem_append_right _ (mem_of_keywordNode hn))

/-- The expression of a key has a value. -/
theorem KeyReached.visit {root n : Node} (h : KeyReached py context root n) :
    ∃ v, py.visit context n = .ok v := by
  obtain ⟨func, args, keywords, vs, kwargs, name, -, -, -, -, hvalues, hn, -⟩ := h
  obtain ⟨v, hv, -⟩ := (dictGet_of_visitKeywords "key" hvalues.keywords).1 n hn
  exact ⟨v, hv⟩

/-- An expression that passes the method on has it as its value. -/
theorem visit_of_passesMethod (laws : ForeignLaws py) (hclean : CleanContext context) {n : Node}
    {v : PyVal} (h : PassesMethod py context n) (hv : py.visit context n = .ok v) :
    v = .unwrapMethod := by
  obtain ⟨value, id, items, hpasses, hvalue⟩ := h
  have hattr := hpasses.same laws hclean hv
  rw [Python.visit, if_neg (by decide), Failing.bind_of_ok hvalue, getAttribute, if_pos rfl]
    at hattr
  exact (Except.ok.inj hattr).symm

/-- **A formula is sandboxed** exactly when its value is made only of what a JSON document holds, if
it has a value, and no `key=` argument is the method of a view: nothing else that a tree can contain
is called or returned against the rules. -/
theorem sandbox_iff (laws : ForeignLaws py) (hparse : ParsesAtoms py)
    (hjson : PyVal.isJsonItems context = true) (formula : String) :
    Sandboxed py formula context ↔
      ∀ tree, py.compileFormula formula = .ok tree →
        StaysInside py (wrapContext context) tree := by
  have hclean := cleanContext_wrapContext hjson
  constructor
  · rintro ⟨hvalue, hcalls⟩ tree htree
    have hatoms := hparse _ tree (parse_of_compileFormula htree)
    constructor
    · cases hvisit : py.visit (wrapContext context) tree with
      | error e => exact Or.inl ⟨e, rfl⟩
      | ok v =>
        -- The value is what a JSON document holds, so what the tree passes on is as well.
        refine Or.inr ((isClean_visit_iff laws hclean hatoms hvisit).mp (hvalue _ ?_))
        rw [Python.evaluate_of_compile htree, Python.evaluateTree, hvisit]
        rfl
    -- A key that is a method of a view would be called, and it is no helper.
    · rintro n hreached hmethod
      obtain ⟨v, hv⟩ := hreached.visit
      obtain rfl := visit_of_passesMethod laws hclean hmethod hv
      obtain ⟨name, -, hname⟩ := hcalls tree htree _ (.key n _ hreached hv rfl) (by decide)
      cases hname
  · intro hinside
    constructor
    · intro v hv
      unfold Python.evaluate at hv
      obtain ⟨tree, htree, hv⟩ := Failing.bind_ok.mp hv
      obtain ⟨u, hu, hv⟩ := Failing.bind_ok.mp hv
      obtain rfl := Except.ok.inj hv
      have hatoms := hparse _ tree (parse_of_compileFormula htree)
      refine (isClean_visit_iff laws hclean hatoms hu).mpr ?_
      refine (hinside tree htree).value.resolve_left ?_
      rintro ⟨e, he⟩
      rw [hu] at he
      cases he
    · intro tree htree f hcalls hcallable
      have hatoms := hparse _ tree (parse_of_compileFormula htree)
      cases hcalls with
      | callee func args keywords vs kwargs f hvisits hhelper hvalues hf =>
        -- A callee is a name, and a name that is no field of the document is a helper.
        cases func with
        | name id =>
          rw [Python.visit, visitName] at hf
          split at hf
          · next u hu =>
            obtain rfl := Except.ok.inj hf
            have hu := hclean id u hu
            cases u with
            | function | object => cases hu
            | none | bool | int | float | str | list | tuple | dict | view => cases hcallable
          · split at hf
            · next hid => exact ⟨id, hid, (Except.ok.inj hf).symm⟩
            · cases hf
        | constant | attr | list | tuple | boolOp | compare | ifExp | call | unaryOp | binOp |
          other => cases hhelper
      | key n f hreached hf _ =>
        obtain ⟨hfunction, hmethod⟩ :=
          callable_of_visit laws hclean (hreached.atomConstants hatoms) hf
        cases f with
        | function name => exact ⟨name, hfunction name rfl, rfl⟩
        | object kind =>
          obtain rfl := beq_iff_eq.mp hcallable
          exact absurd (hmethod rfl) ((hinside tree htree).keys n hreached)
        | none | bool | int | float | str | list | tuple | dict | view => cases hcallable

end Sandbox

/-! ### A list, and a helper that is not called -/

/-- An interpreter that needs no other classes. -/
theorem foreignLaws_plainPython (formulas : List (String × Node)) :
    ForeignLaws (plainPython formulas) where
  unary h := by cases h
  binary h := by cases h
  binary_elements h := by cases h
  iterate h := by cases h
  printf h := by cases h

/-- The parser of one formula yields its tree alone. -/
theorem parsesAtoms_plainPython {formula : String} {tree : Node} (h : AtomConstants tree) :
    ParsesAtoms (plainPython [(formula, tree)]) := by
  intro s tree' hparse
  have hlookup : ∀ key, [(formula, tree)].lookup key =
      if key == formula then some tree else none := by
    intro key
    rw [List.lookup_cons, List.lookup_nil]
    cases key == formula <;> rfl
  dsimp only [plainPython] at hparse
  rw [hlookup] at hparse
  split at hparse
  · next hfound =>
    split at hfound
    · obtain rfl := Option.some.inj hfound
      obtain rfl := Except.ok.inj hparse
      exact h
    · cases hfound
  · cases hparse

/-- A name has no constants. -/
theorem atomConstants_name (id : String) : AtomConstants (.name id) := by
  intro v hv
  simp [Node.walk, Node.levels, Node.height] at hv

/-- The longest of some lists, as the parser reads it. -/
def longestTree : Node := .call (.name "max") [.name "rows"] [(some "key", .name "count")]

theorem longestTree_walk : longestTree.walk =
    [longestTree, .name "max", .name "rows", .other "keyword" [.name "count"], .name "count"] :=
  rfl

/-- It has one call. -/
theorem longestTree_call {py : Python} {context : Context} {func : Node} {args : List Node}
    {keywords : List (Option String × Node)}
    (h : Visits py context longestTree (.call func args keywords)) :
    func = .name "max" ∧ args = [.name "rows"] ∧ keywords = [(some "key", .name "count")] := by
  have hmem := h.walk_subset (Node.mem_walk_self _)
  rw [longestTree_walk] at hmem
  simpa [longestTree] using hmem

/-- Two lists. -/
def rowsContext : Context := [("rows", .list [.list [.int 1, .int 2, .int 3], .list [.int 4]])]

/-- The longest list stays inside: it is JSON, and `max` and its key are helpers. -/
theorem sandbox_iff_longest :
    StaysInside (plainPython [("max(rows, key=count)", longestTree)]) (wrapContext rowsContext)
      longestTree := by
  have hatoms : AtomConstants longestTree := by
    intro v hv
    rw [longestTree_walk] at hv
    simp [longestTree] at hv
  refine (sandbox_iff (foreignLaws_plainPython _) (parsesAtoms_plainPython hatoms) rfl
    "max(rows, key=count)").mp ⟨?_, ?_⟩ longestTree rfl
  · intro v hv
    obtain rfl : PyVal.list [.int 1, .int 2, .int 3] = v := Except.ok.inj hv
    rfl
  · intro tree htree f hcalls _
    obtain rfl : longestTree = tree := Except.ok.inj htree
    cases hcalls with
    | callee func args keywords vs kwargs f hvisits _ _ hf =>
      obtain ⟨rfl, -, -⟩ := longestTree_call hvisits
      exact ⟨"max", by decide, (Except.ok.inj hf).symm⟩
    | key n f hreached hf _ =>
      obtain ⟨func, args, keywords, vs, kwargs, name, hvisits, -, -, -, -, hkey, -⟩ := hreached
      obtain ⟨-, -, rfl⟩ := longestTree_call hvisits
      obtain rfl : Node.name "count" = n := Option.some.inj hkey
      exact ⟨"count", by decide, (Except.ok.inj hf).symm⟩

/-- **A helper that is not called is returned**: `sum` alone is a formula, whose value no
JSON document holds. -/
theorem helper_returned :
    ¬∀ (py : Python) (formula : String) (context : Context), ForeignLaws py → ParsesAtoms py →
      PyVal.isJsonItems context = true → Sandboxed py formula context := by
  intro hclaim
  have hvalue := (hclaim (plainPython [("sum", .name "sum")]) "sum" []
    (foreignLaws_plainPython _) (parsesAtoms_plainPython (atomConstants_name _)) rfl).value
    (.function "sum") rfl
  cases hvalue

end ExtractFlow
