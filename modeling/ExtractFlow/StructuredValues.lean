import ExtractFlow.Evaluator

/-!
# Structured values in formulas

A formula sees an object of its context as an `AttrView`, and a list as a list of
what its items are seen as.  Unwrapped, a field is what it was, and the attributes
of a view are the entries of the object — but for `unwrap`, which is a method of
the view.

The helpers look at views, too.  `count` has no case for one, `lookup` and
`contains` take it for no mapping, and two views are equal when they are the same
object.

## Main definitions

* `entryAt`, `attributes` — the value under a path of keys, and the expression that reads it.
* `SeenFaithfully` — formulas and helpers see a field as Python sees its value.
* `CountHarmless`, `ContainsHarmless`, `LookupHarmless` — a helper's result is the same.

## Main results

* `unwrapValue_wrapValue` — unwrapping undoes wrapping.
* `visit_attributes` — a path of attributes reads a path of keys.
* `structured_values_iff` — where a field is seen faithfully.
* `containsAlike_of_isPlain` — what holds no object is found in a list.
-/

namespace ExtractFlow

/-! ### Wrapping and unwrapping -/

mutual

/-- **Unwrapping undoes wrapping** on the values of a document, at any depth. -/
theorem unwrapValue_wrapValue : ∀ {v : PyVal} (path : List String), v.isJson = true →
    unwrapValue (wrapValue path v.aged) = v
  | .dict items, path, h => by
    rw [PyVal.isJson] at h
    rw [PyVal.aged, wrapValue, unwrapValue, unwrapItems_wrapItems path h]
  | .list items, path, h => by
    rw [PyVal.isJson] at h
    rw [PyVal.aged, wrapValue, unwrapValue, unwrapList_wrapList path 0 h]
  | .tuple _, _, h => by simp [PyVal.isJson] at h
  | .function _, _, h => by simp [PyVal.isJson] at h
  | .view _ _, _, h => by simp [PyVal.isJson] at h
  | .object _, _, h => by simp [PyVal.isJson] at h
  | .none, _, _ => rfl
  | .bool _, _, _ => rfl
  | .int _, _, _ => rfl
  | .float _, _, _ => rfl
  | .str _, _, _ => rfl

theorem unwrapList_wrapList : ∀ {vs : List PyVal} (path : List String) (i : ℕ),
    PyVal.isJsonList vs = true → unwrapList (wrapList path i (PyVal.agedList vs)) = vs
  | [], _, _, _ => rfl
  | v :: vs, path, i, h => by
    rw [PyVal.isJsonList, Bool.and_eq_true] at h
    rw [PyVal.agedList, wrapList, unwrapList, unwrapValue_wrapValue _ h.1,
      unwrapList_wrapList path (i + 1) h.2]

theorem unwrapItems_wrapItems : ∀ {items : List (String × PyVal)} (path : List String),
    PyVal.isJsonItems items = true → unwrapItems (wrapItems path (PyVal.agedItems items)) = items
  | [], _, _ => rfl
  | (k, v) :: items, path, h => by
    rw [PyVal.isJsonItems, Bool.and_eq_true] at h
    rw [PyVal.agedItems, wrapItems, unwrapItems, unwrapValue_wrapValue _ h.1,
      unwrapItems_wrapItems path h.2]

end

/-- The keys of a view are those of the object. -/
theorem dictGet_wrapItems (path : List String) (items : List (String × PyVal)) (key : String) :
    PyVal.dictGet (wrapItems path (PyVal.agedItems items)) key =
      (PyVal.dictGet items key).map fun v => wrapValue (path ++ [key]) v.aged := by
  unfold PyVal.dictGet
  induction items with
  | nil => rfl
  | cons p items ih =>
    obtain ⟨k, v⟩ := p
    rw [PyVal.agedItems, wrapItems, List.find?_cons, List.find?_cons]
    cases hk : k == key with
    | true =>
      obtain rfl := beq_iff_eq.mp hk
      rfl
    | false => exact ih

/-! ### Paths -/

/-- The value under a path of keys, as long as it leads through objects; an absent key
holds null. -/
def entryAt : PyVal → List String → Option PyVal
  | v, [] => some v
  | .dict items, k :: ks => entryAt ((PyVal.dictGet items k).getD .none) ks
  | _, _ :: _ => none

/-- The formula `n.k₁.k₂…`, which reads one key after the other. -/
def attributes (n : Node) (ks : List String) : Node := ks.foldl .attr n

theorem attributes_cons (n : Node) (k : String) (ks : List String) :
    attributes n (k :: ks) = attributes (.attr n k) ks := rfl

/-- The entries of a JSON value are JSON values. -/
theorem isJson_of_entryAt : ∀ {ks : List String} {v w : PyVal}, v.isJson = true →
    entryAt v ks = some w → w.isJson = true := by
  intro ks
  induction ks with
  | nil =>
    intro v w hv h
    cases v <;> cases h <;> exact hv
  | cons k ks ih =>
    intro v w hv h
    cases v with
    | dict items =>
      rw [entryAt] at h
      refine ih ?_ h
      rw [PyVal.isJson] at hv
      cases hget : PyVal.dictGet items k with
      | none => rfl
      | some u => exact PyVal.isJson_of_dictGet hv hget
    | none | bool | int | float | str | list | tuple | function | view | object => cases h

section Paths

variable {py : Python} {context : Context}

/-- The attribute of a view of an object. -/
theorem getAttribute_wrapValue (path : List String) (items : List (String × PyVal)) {k : String}
    (hk : k ≠ "unwrap") :
    getAttribute (wrapValue path (PyVal.dict items).aged) k =
      .ok (wrapValue (path ++ [k]) ((PyVal.dictGet items k).getD .none).aged) := by
  rw [PyVal.aged, wrapValue, getAttribute, if_neg hk, dictGet_wrapItems]
  cases PyVal.dictGet items k with
  | none => rfl
  | some v => rfl

/-- **A path of attributes reads a path of keys**, as long as none of them is private or the name of
the view’s method. -/
theorem visit_attributes : ∀ {ks : List String} {n : Node} {v w : PyVal} (path : List String),
    (∀ k ∈ ks, isPrivate k = false) → "unwrap" ∉ ks →
    py.visit context n = .ok (wrapValue path v.aged) → entryAt v ks = some w →
      ∃ path', py.visit context (attributes n ks) = .ok (wrapValue path' w.aged) := by
  intro ks
  induction ks with
  | nil =>
    intro n v w path _ _ hn hw
    obtain rfl : v = w := by cases v <;> exact Option.some.inj hw
    exact ⟨path, hn⟩
  | cons k ks ih =>
    intro n v w path hpublic hunwrap hn hw
    rw [List.mem_cons, not_or] at hunwrap
    cases v with
    | dict items =>
      rw [entryAt] at hw
      rw [attributes_cons]
      refine ih (path ++ [k]) (fun k' hk' => hpublic k' (List.mem_cons_of_mem _ hk')) hunwrap.2
        ?_ hw
      rw [Python.visit, hpublic k (List.mem_cons_self ..), if_neg (by decide), hn,
        Failing.bind_of_ok rfl]
      exact getAttribute_wrapValue path items (Ne.symm hunwrap.1)
    | none | bool | int | float | str | list | tuple | function | view | object => cases hw

/-- The evaluation raises, or its value has no JSON form. -/
def Opaque (x : Except EvalErr PyVal) : Prop := ∀ v, x = .ok v → ∃ kind, v = .object kind

/-- Nothing is read past a bound method. -/
theorem opaque_attributes : ∀ {ks : List String} {n : Node}, Opaque (py.visit context n) →
    Opaque (py.visit context (attributes n ks)) := by
  intro ks
  induction ks with
  | nil => exact fun h => h
  | cons k ks ih =>
    intro n h
    rw [attributes_cons]
    refine ih fun v hv => ?_
    rw [Python.visit] at hv
    split at hv
    · cases hv
    · obtain ⟨u, hu, hv⟩ := Failing.bind_ok.mp hv
      obtain ⟨kind, rfl⟩ := h u hu
      cases hv

/-- **A path with `unwrap` in it reads no entry**, but the method of the view: what comes out is no
value of the document. -/
theorem opaque_attributes_of_unwrap : ∀ {ks : List String} {n : Node} {v w : PyVal}
    (path : List String), (∀ k ∈ ks, isPrivate k = false) → "unwrap" ∈ ks →
    py.visit context n = .ok (wrapValue path v.aged) → entryAt v ks = some w →
      Opaque (py.visit context (attributes n ks)) := by
  intro ks
  induction ks with
  | nil => intro n v w path _ hunwrap; simp at hunwrap
  | cons k ks ih =>
    intro n v w path hpublic hunwrap hn hw
    cases v with
    | dict items =>
      rw [entryAt] at hw
      rw [attributes_cons]
      have hvisit : py.visit context (.attr n k) =
          getAttribute (wrapValue path (PyVal.dict items).aged) k := by
        rw [Python.visit, hpublic k (List.mem_cons_self ..), if_neg (by decide), hn,
          Failing.bind_of_ok rfl]
      -- here the method is read, or the path goes on to where it is
      by_cases hk : k = "unwrap"
      · refine opaque_attributes fun u hu => ?_
        rw [hvisit, hk, PyVal.aged, wrapValue, getAttribute, if_pos rfl] at hu
        exact ⟨_, (Except.ok.inj hu).symm⟩
      · refine ih (path ++ [k]) (fun k' hk' => hpublic k' (List.mem_cons_of_mem _ hk')) ?_ ?_ hw
        · rcases List.mem_cons.mp hunwrap with h | h
          · exact absurd h.symm hk
          · exact h
        · rw [hvisit]
          exact getAttribute_wrapValue path items hk
    | none | bool | int | float | str | list | tuple | function | view | object => cases hw

end Paths

/-! ### What formulas and helpers see -/

/-- Formulas and helpers see the field `f` as Python sees its value `v`. -/
structure SeenFaithfully (py : Python) (context : Context) (f : String) (v : PyVal) : Prop where
  alone : py.evaluateTree (.name f) context = .ok v
  attributes : ∀ ks w, (∀ k ∈ ks, isPrivate k = false) → entryAt v ks = some w →
    py.evaluateTree (attributes (.name f) ks) context = .ok w
  count : py.evaluateTree (helperCall "count" [.name f]) context = .ok (.int (countItems v))
  contains : ∀ x xv, py.visit (wrapContext context) x = .ok xv →
    py.evaluateTree (helperCall "contains" [.name f, x]) context =
      builtin ((py.contains v (unwrapValue xv)).map .bool)
  lookup : ∀ k kv d dv, py.visit (wrapContext context) k = .ok kv →
    py.visit (wrapContext context) d = .ok dv →
    py.evaluateTree (helperCall "lookup" [.name f, k, d]) context =
      builtin (py.lookup v (unwrapValue kv) (unwrapValue dv))

/-- What `count` needs to tell the number of entries: no field hides it, and an object has one
entry, since it counts every object as one. -/
def CountHarmless (context : Context) (v : PyVal) : Prop :=
  PyVal.dictGet context "count" = none ∧ ∀ items, v = .dict items → items.length = 1

/-- What is looked for in an object cannot be a key; in a list it is found by its
content when it is found as the evaluator compares, views by identity. -/
def ContainsAlike (py : Python) (f : String) (v xv : PyVal) : Prop :=
  match v with
  | .dict _ => (unwrapValue xv).hashable = false
  | .list items => (items.any fun a => py.eq a (unwrapValue xv)) =
      (wrapList [f] 0 (PyVal.agedList items)).any fun a => py.eq a xv
  | _ => True

/-- Both find it, or not; or a field hides `contains`, and the helper raises as well. -/
def ContainsHarmless (py : Python) (context : Context) (f : String) (v xv : PyVal) : Prop :=
  if PyVal.dictGet context "contains" = none then ContainsAlike py f v xv
  else py.contains v (unwrapValue xv) = .error .typeError

/-- In an object the key can be a key, and what it holds, if anything, is the default.
Where a field hides `lookup`, the helper raises as well. -/
def LookupHarmless (py : Python) (context : Context) (v kv dv : PyVal) : Prop :=
  if PyVal.dictGet context "lookup" = none then
    ∀ items, v = .dict items → (unwrapValue kv).hashable = true ∧
      ∀ p, (items.find? fun p => py.eq (.str p.1) (unwrapValue kv)) = some p →
        p.2 = unwrapValue dv
  else py.lookup v (unwrapValue kv) (unwrapValue dv) = .error .typeError

section Seen

variable {py : Python} {context : Context} {f : String} {v : PyVal}

theorem visit_field (hf : PyVal.dictGet context f = some v) :
    py.visit (wrapContext context) (.name f) = .ok (wrapValue [f] v.aged) := by
  rw [Python.visit, visitName, dictGet_wrapContext, hf]
  rfl

/-- A helper's call on a field and other arguments. -/
theorem visitList_field (hf : PyVal.dictGet context f = some v) {ns : List Node} {vs : List PyVal}
    (hns : py.visitList (wrapContext context) ns = .ok vs) :
    py.visitList (wrapContext context) (.name f :: ns) = .ok (wrapValue [f] v.aged :: vs) := by
  rw [Python.visitList, visit_field hf, Failing.bind_of_ok rfl, hns]
  rfl

theorem visitList_one {n : Node} {w : PyVal} (h : py.visit (wrapContext context) n = .ok w)
    {ns : List Node} {vs : List PyVal} (hns : py.visitList (wrapContext context) ns = .ok vs) :
    py.visitList (wrapContext context) (n :: ns) = .ok (w :: vs) := by
  rw [Python.visitList, h, Failing.bind_of_ok rfl, hns]
  rfl

theorem evaluateTree_of_visit {n : Node} {x : Except EvalErr PyVal}
    (h : py.visit (wrapContext context) n = x) :
    py.evaluateTree n context = x.map unwrapValue := by
  unfold Python.evaluateTree
  rw [h]
  cases x <;> rfl

/-- **A path of attributes is seen faithfully** without `unwrap`. -/
theorem attributes_seen_iff (hjson : v.isJson = true) (hf : PyVal.dictGet context f = some v)
    {ks : List String} {w : PyVal} (hpublic : ∀ k ∈ ks, isPrivate k = false)
    (hw : entryAt v ks = some w) :
    py.evaluateTree (attributes (.name f) ks) context = .ok w ↔ "unwrap" ∉ ks := by
  constructor
  · intro h hunwrap
    have hopaque := opaque_attributes_of_unwrap [f] hpublic hunwrap (@visit_field py _ _ _ hf) hw
    rw [evaluateTree_of_visit rfl] at h
    obtain ⟨u, hu, hvalue⟩ := Failing.map_ok.mp h
    obtain ⟨kind, rfl⟩ := hopaque u hu
    have hjson' := isJson_of_entryAt hjson hw
    rw [← hvalue] at hjson'
    cases hjson'
  · intro hunwrap
    obtain ⟨path', h⟩ := visit_attributes [f] hpublic hunwrap (@visit_field py _ _ _ hf) hw
    rw [evaluateTree_of_visit h]
    exact congrArg _ (unwrapValue_wrapValue path' (isJson_of_entryAt hjson hw))

/-- The items of a view count as one. -/
theorem countItems_wrapValue (path : List String) (hjson : v.isJson = true) :
    countItems (wrapValue path v.aged) = countItems v ↔
      ∀ items, v = .dict items → items.length = 1 := by
  have hlength : ∀ (items : List PyVal) (i : ℕ),
      (wrapList path i (PyVal.agedList items)).length = items.length := by
    intro items
    induction items with
    | nil => intro i; rfl
    | cons v items ih =>
      intro i
      rw [PyVal.agedList, wrapList, List.length_cons, List.length_cons, ih]
  cases v with
  | dict items =>
    simp only [PyVal.aged, wrapValue, countItems, PyVal.dict.injEq, forall_eq']
    omega
  | list items => simp [PyVal.aged, wrapValue, countItems, hlength]
  | tuple | function | view | object => simp [PyVal.isJson] at hjson
  | none | bool | int | float | str => simp [PyVal.aged, wrapValue]

/-- **`count` is seen faithfully** where nothing sets it apart. -/
theorem count_seen_iff (hjson : PyVal.isJsonItems context = true)
    (hf : PyVal.dictGet context f = some v) :
    py.evaluateTree (helperCall "count" [.name f]) context = .ok (.int (countItems v)) ↔
      CountHarmless context v := by
  have hargs : py.visitList (wrapContext context) [.name f] = .ok [wrapValue [f] v.aged] :=
    visitList_field hf (by rw [Python.visitList])
  rw [evaluateTree_of_visit (visit_helperCall hjson (by decide) hargs), CountHarmless]
  by_cases hhidden : PyVal.dictGet context "count" = none
  · have hcall : py.callHelper "count" [wrapValue [f] v.aged] [] =
        .ok (.int (countItems (wrapValue [f] v.aged))) := rfl
    rw [if_pos hhidden, hcall, ← countItems_wrapValue [f] (PyVal.isJson_of_dictGet hjson hf)]
    simp [Except.map, unwrapValue, hhidden]
  · rw [if_neg hhidden]
    simp [raiseTypeError, Except.map, hhidden]

/-- What `contains` says of a field, and of its value. -/
theorem contains_wrapValue_iff (hjson : v.isJson = true) (xv : PyVal) :
    py.contains (wrapValue [f] v.aged) xv = py.contains v (unwrapValue xv) ↔
      ContainsAlike py f v xv := by
  unfold ContainsAlike
  cases v with
  | dict items =>
    simp only [PyVal.aged, wrapValue, Python.contains]
    cases hhash : (unwrapValue xv).hashable <;> simp
  | list items =>
    simp only [PyVal.aged, wrapValue, Python.contains, Except.ok.injEq]
    exact eq_comm
  | str s => cases xv <;> simp [PyVal.aged, wrapValue, Python.contains, unwrapValue]
  | tuple | function | view | object => simp [PyVal.isJson] at hjson
  | none | bool | int | float => simp [PyVal.aged, wrapValue, Python.contains]

/-- **`contains` is seen faithfully** where nothing sets it apart. -/
theorem contains_seen_iff (hjson : PyVal.isJsonItems context = true)
    (hf : PyVal.dictGet context f = some v) {x : Node} {xv : PyVal}
    (hx : py.visit (wrapContext context) x = .ok xv) :
    py.evaluateTree (helperCall "contains" [.name f, x]) context =
        builtin ((py.contains v (unwrapValue xv)).map .bool) ↔
      ContainsHarmless py context f v xv := by
  have hargs : py.visitList (wrapContext context) [.name f, x] = .ok [wrapValue [f] v.aged, xv] :=
    visitList_field hf (visitList_one hx (by rw [Python.visitList]))
  rw [evaluateTree_of_visit (visit_helperCall hjson (by decide) hargs), ContainsHarmless]
  by_cases hhidden : PyVal.dictGet context "contains" = none
  · have hcall : py.callHelper "contains" [wrapValue [f] v.aged, xv] [] =
        builtin ((py.contains (wrapValue [f] v.aged) xv).map .bool) := rfl
    rw [if_pos hhidden, if_pos hhidden, hcall,
      ← contains_wrapValue_iff (PyVal.isJson_of_dictGet hjson hf) xv]
    cases py.contains (wrapValue [f] v.aged) xv <;> cases py.contains v (unwrapValue xv) <;>
      simp [builtin, Except.map, Except.mapError, unwrapValue]
  · rw [if_neg hhidden, if_neg hhidden]
    cases py.contains v (unwrapValue xv) <;>
      simp [raiseTypeError, builtin, Except.map, Except.mapError, eq_comm]

/-- **`lookup` is seen faithfully** where nothing sets it apart. -/
theorem lookup_seen_iff (hjson : PyVal.isJsonItems context = true)
    (hf : PyVal.dictGet context f = some v) {k d : Node} {kv dv : PyVal}
    (hk : py.visit (wrapContext context) k = .ok kv)
    (hd : py.visit (wrapContext context) d = .ok dv) :
    py.evaluateTree (helperCall "lookup" [.name f, k, d]) context =
        builtin (py.lookup v (unwrapValue kv) (unwrapValue dv)) ↔
      LookupHarmless py context v kv dv := by
  have hargs : py.visitList (wrapContext context) [.name f, k, d] =
      .ok [wrapValue [f] v.aged, kv, dv] :=
    visitList_field hf (visitList_one hk (visitList_one hd (by rw [Python.visitList])))
  rw [evaluateTree_of_visit (visit_helperCall hjson (by decide) hargs), LookupHarmless]
  by_cases hhidden : PyVal.dictGet context "lookup" = none
  · have hcall : py.callHelper "lookup" [wrapValue [f] v.aged, kv, dv] [] =
        builtin (py.lookup (wrapValue [f] v.aged) kv dv) := rfl
    -- a wrapped value is no dictionary, so the default comes back
    have hdefault : py.lookup (wrapValue [f] v.aged) kv dv = .ok dv := by
      have hv := PyVal.isJson_of_dictGet hjson hf
      cases v with
      | tuple | function | view | object => simp [PyVal.isJson] at hv
      | none | bool | int | float | str | list | dict => rfl
    rw [if_pos hhidden, if_pos hhidden, hcall, hdefault]
    cases v with
    | dict items =>
      simp only [Python.lookup, PyVal.dict.injEq, forall_eq']
      cases hhash : (unwrapValue kv).hashable with
      | false => simp [builtin, Except.map, Except.mapError]
      | true =>
        cases hfind : items.find? fun p => py.eq (.str p.1) (unwrapValue kv) with
        | none => simp [builtin, Except.map, Except.mapError]
        | some p => simp [builtin, Except.map, Except.mapError, eq_comm]
    | none | bool | int | float | str | list | tuple | function | view | object =>
      simp [Python.lookup, builtin, Except.map, Except.mapError]
  · rw [if_neg hhidden, if_neg hhidden]
    cases py.lookup v (unwrapValue kv) (unwrapValue dv) <;>
      simp [raiseTypeError, builtin, Except.map, Except.mapError, eq_comm]

/-- **Where structured values are seen faithfully**: always alone, under attributes
without `unwrap`, and by the helpers where nothing sets them apart. -/
theorem structured_values_iff (hjson : PyVal.isJsonItems context = true)
    (hf : PyVal.dictGet context f = some v) :
    py.evaluateTree (.name f) context = .ok v ∧
    (∀ ks w, (∀ k ∈ ks, isPrivate k = false) → entryAt v ks = some w →
      (py.evaluateTree (attributes (.name f) ks) context = .ok w ↔ "unwrap" ∉ ks)) ∧
    (py.evaluateTree (helperCall "count" [.name f]) context = .ok (.int (countItems v)) ↔
      CountHarmless context v) ∧
    (∀ x xv, py.visit (wrapContext context) x = .ok xv →
      (py.evaluateTree (helperCall "contains" [.name f, x]) context =
          builtin ((py.contains v (unwrapValue xv)).map .bool) ↔
        ContainsHarmless py context f v xv)) ∧
    ∀ k kv d dv, py.visit (wrapContext context) k = .ok kv →
      py.visit (wrapContext context) d = .ok dv →
      (py.evaluateTree (helperCall "lookup" [.name f, k, d]) context =
          builtin (py.lookup v (unwrapValue kv) (unwrapValue dv)) ↔
        LookupHarmless py context v kv dv) := by
  have hv := PyVal.isJson_of_dictGet hjson hf
  refine ⟨?_, fun ks w hpublic hw => attributes_seen_iff hv hf hpublic hw, count_seen_iff hjson hf,
    fun x xv hx => contains_seen_iff hjson hf hx,
    fun k kv d dv hk hd => lookup_seen_iff hjson hf hk hd⟩
  rw [evaluateTree_of_visit (visit_field hf)]
  exact congrArg _ (unwrapValue_wrapValue [f] hv)

end Seen

/-! ### Values without objects -/

mutual

/-- A JSON value with no object in it. -/
def PyVal.isPlain : PyVal → Bool
  | .list items => PyVal.isPlainList items
  | .none | .bool _ | .int _ | .float _ | .str _ => true
  | .tuple _ | .dict _ | .function _ | .view _ _ | .object _ => false

def PyVal.isPlainList : List PyVal → Bool
  | [] => true
  | v :: vs => PyVal.isPlain v && PyVal.isPlainList vs

end

section Plain

variable {py : Python}

mutual

/-- A plain value equals what a value is seen as when it equals the value. -/
theorem eq_wrapValue : ∀ (path : List String) {a x : PyVal}, a.isJson = true → x.isPlain = true →
    py.eq (wrapValue path a.aged) x = py.eq a x
  | path, .list items, x, ha, hx => by
    cases x with
    | list xs =>
      rw [PyVal.isJson] at ha
      rw [PyVal.isPlain] at hx
      -- lists compare item by item; a plain list holds no views
      rw [PyVal.aged, wrapValue, Python.eq, Python.eq, eqList_wrapList path 0 ha hx]
    | none | bool | int | float | str => simp [PyVal.aged, wrapValue, Python.eq, PyVal.isForeign,
        PyVal.number?]
    | tuple | dict | function | view | object => simp [PyVal.isPlain] at hx
  | path, .dict items, x, _, hx => by
    cases x with
    | none | bool | int | float | str | list => simp [PyVal.aged, wrapValue, Python.eq,
        PyVal.isForeign, PyVal.number?]
    | tuple | dict | function | view | object => simp [PyVal.isPlain] at hx
  | _, .tuple _, _, ha, _ => by simp [PyVal.isJson] at ha
  | _, .function _, _, ha, _ => by simp [PyVal.isJson] at ha
  | _, .view _ _, _, ha, _ => by simp [PyVal.isJson] at ha
  | _, .object _, _, ha, _ => by simp [PyVal.isJson] at ha
  | _, .none, _, _, _ => rfl
  | _, .bool _, _, _, _ => rfl
  | _, .int _, _, _, _ => rfl
  | _, .float _, _, _, _ => rfl
  | _, .str _, _, _, _ => rfl

theorem eqList_wrapList : ∀ (path : List String) (i : ℕ) {as xs : List PyVal},
    PyVal.isJsonList as = true → PyVal.isPlainList xs = true →
    py.eqList (wrapList path i (PyVal.agedList as)) xs = py.eqList as xs
  | _, _, [], _, _, _ => rfl
  | path, i, a :: as, xs, ha, hx => by
    cases xs with
    | nil => simp [PyVal.agedList, wrapList, Python.eqList]
    | cons x xs =>
      rw [PyVal.isJsonList, Bool.and_eq_true] at ha
      rw [PyVal.isPlainList, Bool.and_eq_true] at hx
      rw [PyVal.agedList, wrapList, Python.eqList, Python.eqList, eq_wrapValue _ ha.1 hx.1,
        eqList_wrapList path (i + 1) ha.2 hx.2]

end

mutual

theorem unwrapValue_of_isPlain : ∀ {x : PyVal}, x.isPlain = true → unwrapValue x = x
  | .list items, h => by
    rw [PyVal.isPlain] at h
    rw [unwrapValue, unwrapList_of_isPlainList h]
  | .tuple _, h | .dict _, h | .function _, h | .view _ _, h | .object _, h => by
    simp [PyVal.isPlain] at h
  | .none, _ | .bool _, _ | .int _, _ | .float _, _ | .str _, _ => rfl

theorem unwrapList_of_isPlainList : ∀ {xs : List PyVal}, PyVal.isPlainList xs = true →
    unwrapList xs = xs
  | [], _ => rfl
  | x :: xs, h => by
    rw [PyVal.isPlainList, Bool.and_eq_true] at h
    rw [unwrapList, unwrapValue_of_isPlain h.1, unwrapList_of_isPlainList h.2]

end

/-- **A plain value is found in a list** by formulas as by Python. -/
theorem containsAlike_of_isPlain {f : String} {items : List PyVal} {xv : PyVal}
    (hitems : PyVal.isJsonList items = true) (hx : xv.isPlain = true) :
    ContainsAlike py f (.list items) xv := by
  have hany : ∀ i, (wrapList [f] i (PyVal.agedList items)).any (fun a => py.eq a xv) =
      items.any fun a => py.eq a xv := by
    induction items with
    | nil => intro i; rfl
    | cons a items ih =>
      intro i
      rw [PyVal.isJsonList, Bool.and_eq_true] at hitems
      rw [PyVal.agedList, wrapList, List.any_cons, List.any_cons, eq_wrapValue _ hitems.1 hx,
        ih hitems.2]
  show (items.any fun a => py.eq a (unwrapValue xv)) = _
  rw [unwrapValue_of_isPlain hx, hany]

end Plain

/-- A customer, whose address is an object, and the lines of the order, one of them an object. -/
def orderContext : Context :=
  [("customer", .dict [("name", .str "Acme"), ("address", .dict [("city", .str "Bonn")])]),
   ("lines", .list [.dict [("sku", .str "a"), ("qty", .int 2)], .str "freight"])]

/-- An entry of an entry is read, and the list is counted and searched as Python does. -/
theorem structured_values_iff_order :
    (plainPython []).evaluateTree (attributes (.name "customer") ["address", "city"])
        orderContext = .ok (.str "Bonn") ∧
      (plainPython []).evaluateTree (helperCall "count" [.name "lines"]) orderContext =
        .ok (.int 2) ∧
      (plainPython []).evaluateTree
        (helperCall "contains" [.name "lines", .constant (.str "freight")]) orderContext =
          .ok (.bool true) := by
  have hjson : PyVal.isJsonItems orderContext = true := rfl
  obtain ⟨-, hattributes, -⟩ := @structured_values_iff (plainPython []) orderContext "customer" _
    hjson rfl
  obtain ⟨-, -, hcount, hcontains, -⟩ := @structured_values_iff (plainPython []) orderContext
    "lines" _ hjson rfl
  refine ⟨?_, ?_, ?_⟩
  · exact (hattributes ["address", "city"] (.str "Bonn") (by decide) rfl).mpr (by decide)
  · exact hcount.mpr ⟨rfl, fun items h => by cases h⟩
  · exact (hcontains (.constant (.str "freight")) (.str "freight") rfl).mpr
      (containsAlike_of_isPlain rfl rfl)

/-- **An object of two entries counts as one**, so `count` does not see what the document holds. -/
theorem object_counts_as_one :
    ¬∀ (py : Python) (context : Context) (f : String) (v : PyVal),
      PyVal.isJsonItems context = true → PyVal.dictGet context f = some v →
        SeenFaithfully py context f v := by
  intro hall
  have hcount := (hall (plainPython []) [("f", .dict [("a", .int 1), ("b", .int 2)])] "f" _
    rfl rfl).count
  cases hcount

end ExtractFlow
