import ExtractFlow.HelperResults
import ExtractFlow.Visits

/-!
# Where the value of a formula comes from

The value of an expression is clean, or another expression made it: a branch that was
taken, an argument that a helper returned, an item it picked.  `Passes` and `Item` follow
these ways down the formula.  At their ends stand the expressions that make a value of
their own: a constant, a helper named alone, a bound method, a tuple, an operation.

## Main definitions

* `Passes`, `Item` — the value of an expression is that of another, or holds it.
* `Makes` — an expression that makes its value.
* `Alien`, `HoldsAlien` — the value of an expression is alien, or holds an alien.

## Main results

* `Passes.same`, `Item.elements` — the ways lead where they say.
* `origin_of_visit`, `item_of_visit` — every value has an origin, and every element.
* `isClean_visit_iff` — the expressions with clean values.
-/

namespace ExtractFlow

/-! ### The ways of a value -/

/-- The arguments of a call. -/
def argumentNodes (args : List Node) (keywords : List (Option String × Node)) : List Node :=
  args ++ keywords.map Prod.snd

/-- The expression of a keyword argument: the last one under the name. -/
def keywordNode : List (Option String × Node) → String → Option Node
  | [], _ => none
  | kw :: keywords, name =>
      (keywordNode keywords name).or (if kw.1 = some name then some kw.2 else none)

section Ways

variable (py : Python) (context : Context)

/-- Two expressions have one value. -/
def SameValue (n m : Node) : Prop :=
  ∃ v, py.visit context n = .ok v ∧ py.visit context m = .ok v

mutual

/-- The value of the first expression is that of the second, which a branch or a helper
passes on. -/
inductive Passes : Node → Node → Prop
  | refl (n) : Passes n n
  | body (test body orelse v m) : py.visit context test = .ok v → py.truthy v = true →
      Passes body m → Passes (.ifExp test body orelse) m
  | orelse (test body orelse v m) : py.visit context test = .ok v → py.truthy v = false →
      Passes orelse m → Passes (.ifExp test body orelse) m
  /-- A helper returns an argument. -/
  | argument (func args keywords a m) : a ∈ argumentNodes args keywords →
      SameValue py context (.call func args keywords) a → Passes a m →
        Passes (.call func args keywords) m
  /-- `min` or `max` returns an item. -/
  | item (func args keywords a b m) : a ∈ args → Item a b →
      SameValue py context (.call func args keywords) b → Passes b m →
        Passes (.call func args keywords) m

/-- The value of the second expression is an element of that of the first. -/
inductive Item : Node → Node → Prop
  | passes (n m k) : Passes n m → Item m k → Item n k
  | list (elts m) : m ∈ elts → Item (.list elts) m
  | tuple (elts m) : m ∈ elts → Item (.tuple elts) m
  | left (left right m) : Item left m → Item (.binOp left .add right) m
  | right (left right m) : Item right m → Item (.binOp left .add right) m
  | repeatedLeft (left right m v) : py.visit context right = .ok v → v.isPositive →
      Item left m → Item (.binOp left .mult right) m
  | repeatedRight (left right m v) : py.visit context left = .ok v → v.isPositive →
      Item right m → Item (.binOp left .mult right) m
  | start (args keywords n m) :
      args.tail.head?.or (keywordNode keywords "start") = some n → Item n m →
        Item (.call (.name "sum") args keywords) m
  | summand (iterable args keywords n m) : Item iterable n → Item n m →
      Item (.call (.name "sum") (iterable :: args) keywords) m
  | number (args keywords n m) :
      args.head?.or (keywordNode keywords "number") = some n → Item n m →
        Item (.call (.name "convert_unit") args keywords) m

end

/-- The value of the expression is a tuple, a function or an object of another class. -/
inductive Alien : Node → Prop
  | constant (v) : v.isAlien = true → Alien (.constant v)
  /-- A helper that is not called. -/
  | helper (id) : PyVal.dictGet context id = none → Alien (.name id)
  /-- The bound method of a view. -/
  | unwrap (value id items) : py.visit context value = .ok (.view id items) →
      Alien (.attr value "unwrap")
  | tuple (elts) : Alien (.tuple elts)
  | passes (n m) : Passes py context n m → Alien m → Alien n
  | operand (op operand) : Alien operand → Alien (.unaryOp op operand)
  | left (left op right) : Alien left → Alien (.binOp left op right)
  /-- A formatted text is a text. -/
  | right (left op right) : Alien right →
      (op = .mod → ∀ s, py.visit context left ≠ .ok (.str s)) → Alien (.binOp left op right)
  | start (args keywords n) :
      args.tail.head?.or (keywordNode keywords "start") = some n → Alien n →
        Alien (.call (.name "sum") args keywords)
  | summand (iterable args keywords n) : Item py context iterable n → Alien n →
      Alien (.call (.name "sum") (iterable :: args) keywords)
  | number (args keywords n) :
      args.head?.or (keywordNode keywords "number") = some n → Alien n →
        Alien (.call (.name "convert_unit") args keywords)

/-- The value of the expression is alien, or an element of it is, or one of its elements. -/
inductive HoldsAlien : Node → Prop
  | here (n) : Alien py context n → HoldsAlien n
  | item (n m) : Item py context n m → HoldsAlien m → HoldsAlien n

end Ways

/-! ### Down the formula -/

/-- An argument is part of its call. -/
theorem height_lt_of_argument {func a : Node} {args : List Node}
    {keywords : List (Option String × Node)} (h : a ∈ argumentNodes args keywords) :
    a.height < (Node.call func args keywords).height := by
  rcases List.mem_append.mp h with h | h
  · exact Node.height_lt_of_child (List.mem_cons_of_mem _ (List.mem_append_left _ h))
  · obtain ⟨kw, hkw, rfl⟩ := List.mem_map.mp h
    refine lt_trans (b := (Node.other "keyword" [kw.2]).height) ?_ ?_
    · exact Node.height_lt_of_child (List.mem_singleton_self kw.2)
    · exact Node.height_lt_of_child
        (List.mem_cons_of_mem _ (List.mem_append_right _ (List.mem_map_of_mem hkw)))

theorem mem_of_keywordNode {keywords : List (Option String × Node)} {name : String} {n : Node}
    (h : keywordNode keywords name = some n) : n ∈ keywords.map Prod.snd := by
  induction keywords with
  | nil => cases h
  | cons kw keywords ih =>
    rw [keywordNode] at h
    rcases Option.or_eq_some_iff.mp h with h | ⟨-, h⟩
    · exact List.mem_cons_of_mem _ (ih h)
    · split at h
      · rw [← Option.some.inj h]
        exact List.mem_cons_self ..
      · cases h

/-- A bound argument is an argument. -/
theorem argument_of_bound {args args' : List Node} {keywords : List (Option String × Node)}
    {name : String} {n : Node} (hargs : args' ⊆ args)
    (h : args'.head?.or (keywordNode keywords name) = some n) : n ∈ argumentNodes args keywords := by
  rcases Option.or_eq_some_iff.mp h with h | ⟨-, h⟩
  · exact List.mem_append_left _ (hargs (List.mem_of_head? h))
  · exact List.mem_append_right _ (mem_of_keywordNode h)

section Heights

variable {py : Python} {context : Context}

mutual

/-- **The ways lead down the formula.** -/
theorem Passes.height_le : ∀ {n m : Node}, Passes py context n m → m.height ≤ n.height
  | _, _, .refl n => le_rfl
  | _, _, .body test body orelse v m _ _ h =>
    h.height_le.trans (Node.height_lt_of_child (by simp [Node.children])).le
  | _, _, .orelse test body orelse v m _ _ h =>
    h.height_le.trans (Node.height_lt_of_child (by simp [Node.children])).le
  | _, _, .argument func args keywords a m ha _ h =>
    h.height_le.trans (height_lt_of_argument ha).le
  | _, _, .item func args keywords a b m ha hab _ h =>
    h.height_le.trans (hab.height_lt.trans
      (height_lt_of_argument (List.mem_append_left _ ha))).le

theorem Item.height_lt : ∀ {n m : Node}, Item py context n m → m.height < n.height
  | _, _, .passes n m k h hk => hk.height_lt.trans_le h.height_le
  | _, _, .list elts m h => Node.height_lt_of_child h
  | _, _, .tuple elts m h => Node.height_lt_of_child h
  | _, _, .left left right m h =>
    h.height_lt.trans (Node.height_lt_of_child (by simp [Node.children]))
  | _, _, .right left right m h =>
    h.height_lt.trans (Node.height_lt_of_child (by simp [Node.children]))
  | _, _, .repeatedLeft left right m v _ _ h =>
    h.height_lt.trans (Node.height_lt_of_child (by simp [Node.children]))
  | _, _, .repeatedRight left right m v _ _ h =>
    h.height_lt.trans (Node.height_lt_of_child (by simp [Node.children]))
  | _, _, .start args keywords n m hn h =>
    h.height_lt.trans (height_lt_of_argument (argument_of_bound (List.tail_subset _) hn))
  | _, _, .summand iterable args keywords n m hn h =>
    h.height_lt.trans (hn.height_lt.trans
      (height_lt_of_argument (List.mem_append_left _ (List.mem_cons_self ..))))
  | _, _, .number args keywords n m hn h =>
    h.height_lt.trans (height_lt_of_argument (argument_of_bound (List.Subset.refl _) hn))

end

end Heights

/-! ### Calls -/

section Calls

variable {py : Python} {context : Context}

theorem visitList_forall₂ : ∀ {ns : List Node} {vs : List PyVal},
    py.visitList context ns = .ok vs →
      List.Forall₂ (fun n v => py.visit context n = .ok v) ns vs := by
  intro ns
  induction ns with
  | nil =>
    intro vs h
    rw [Python.visitList] at h
    rw [← Except.ok.inj h]
    exact .nil
  | cons n ns ih =>
    intro vs h
    rw [Python.visitList] at h
    obtain ⟨v, hv, h⟩ := Failing.bind_ok.mp h
    obtain ⟨us, hus, h⟩ := Failing.bind_ok.mp h
    rw [← Except.ok.inj h]
    exact .cons hv (ih hus)

/-- The value under a keyword is that of its expression. -/
theorem dictGet_of_visitKeywords (name : String) : ∀ {keywords : List (Option String × Node)}
    {kwargs kwargs' : Kwargs}, py.visitKeywords context kwargs keywords = .ok kwargs' →
      (∀ n, keywordNode keywords name = some n →
        ∃ v, py.visit context n = .ok v ∧ PyVal.dictGet kwargs' name = some v) ∧
      (keywordNode keywords name = none →
        PyVal.dictGet kwargs' name = PyVal.dictGet kwargs name) := by
  intro keywords
  induction keywords with
  | nil =>
    intro kwargs kwargs' h
    rw [Python.visitKeywords] at h
    rw [← Except.ok.inj h]
    exact ⟨fun n hn => (nomatch hn), fun _ => rfl⟩
  | cons kw keywords ih =>
    intro kwargs kwargs' h
    obtain ⟨arg, n⟩ := kw
    cases arg with
    | none =>
      rw [Python.visitKeywords] at h
      cases h
    | some arg =>
      rw [Python.visitKeywords] at h
      obtain ⟨v, hv, h⟩ := Failing.bind_ok.mp h
      obtain ⟨hlast, hnone⟩ := ih h
      -- a keyword that is given twice has the value of the last
      rw [keywordNode]
      refine ⟨fun m hm => ?_, fun hm => ?_⟩
      · rcases Option.or_eq_some_iff.mp hm with hm | ⟨hrest, hm⟩
        · exact hlast m hm
        · split at hm
          · next harg =>
            obtain rfl := Option.some.inj hm
            obtain rfl := Option.some.inj harg
            exact ⟨v, hv, (hnone hrest).trans (PyVal.dictGet_dictSet_self ..)⟩
          · cases hm
      · obtain ⟨hrest, hother⟩ := Option.or_eq_none_iff.mp hm
        rw [hnone hrest]
        refine PyVal.dictGet_dictSet_ne _ _ ?_
        rintro rfl
        simp at hother

/-- The arguments of a call, once it is evaluated: the values by position, and those by keyword. -/
structure CallValues (py : Python) (context : Context) (args : List Node)
    (keywords : List (Option String × Node)) (vs : List PyVal) (kwargs : Kwargs) : Prop where
  args : py.visitList context args = .ok vs
  keywords : py.visitKeywords context [] keywords = .ok kwargs

variable {args : List Node} {keywords : List (Option String × Node)} {vs : List PyVal}
  {kwargs : Kwargs}

/-- A value under a keyword comes from its expression. -/
theorem CallValues.keyword (h : CallValues py context args keywords vs kwargs) {name : String}
    {v : PyVal} (hv : PyVal.dictGet kwargs name = some v) :
    ∃ n, keywordNode keywords name = some n ∧ py.visit context n = .ok v := by
  obtain ⟨hlast, hnone⟩ := dictGet_of_visitKeywords name h.keywords
  cases hn : keywordNode keywords name with
  | none => rw [hnone hn] at hv; cases hv
  | some n =>
    obtain ⟨u, hu, hget⟩ := hlast n hn
    rw [hget] at hv
    exact ⟨n, rfl, Option.some.inj hv ▸ hu⟩

/-- An argument's value comes from its expression. -/
theorem CallValues.argument (h : CallValues py context args keywords vs kwargs) {v : PyVal}
    (hv : IsArgument vs kwargs v) :
    ∃ a ∈ argumentNodes args keywords, py.visit context a = .ok v := by
  rcases hv with hv | ⟨k, hv⟩
  · obtain ⟨a, ha, hav⟩ := Keyed.exists_of_mem_right (visitList_forall₂ h.args) hv
    exact ⟨a, List.mem_append_left _ ha, hav⟩
  · obtain ⟨n, hn, hnv⟩ := h.keyword hv
    exact ⟨n, List.mem_append_right _ (mem_of_keywordNode hn), hnv⟩

/-- What a parameter of a call is bound to comes from the expression it is bound to. -/
theorem CallValues.bound (h : CallValues py context args keywords vs kwargs) {args' : List Node}
    {vs' : List PyVal} (hargs : List.Forall₂ (fun n v => py.visit context n = .ok v) args' vs')
    (name : String) :
    (∀ n, args'.head?.or (keywordNode keywords name) = some n →
      ∃ v, vs'.head?.or (PyVal.dictGet kwargs name) = some v ∧ py.visit context n = .ok v) ∧
    ∀ v, vs'.head?.or (PyVal.dictGet kwargs name) = some v →
      ∃ n, args'.head?.or (keywordNode keywords name) = some n ∧ py.visit context n = .ok v := by
  cases hargs with
  | nil =>
    refine ⟨fun n hn => ?_, fun v hv => h.keyword hv⟩
    obtain ⟨v, hv, hget⟩ := (dictGet_of_visitKeywords name h.keywords).1 n hn
    exact ⟨v, hget, hv⟩
  | cons hnv _ =>
    refine ⟨fun n hn => ⟨_, rfl, ?_⟩, fun v hv => ⟨_, rfl, ?_⟩⟩
    · rwa [← Option.some.inj hn]
    · rwa [← Option.some.inj hv]

/-- The first argument, and those after it. -/
theorem CallValues.tail (h : CallValues py context args keywords vs kwargs) :
    List.Forall₂ (fun n v => py.visit context n = .ok v) args.tail vs.tail := by
  have hall := visitList_forall₂ h.args
  cases hall with
  | nil => exact .nil
  | cons _ hrest => exact hrest

/-- The first argument comes from the first expression. -/
theorem CallValues.first {n : Node} (h : CallValues py context (n :: args) keywords vs kwargs) :
    ∃ v, vs.head? = some v ∧ py.visit context n = .ok v := by
  have hall := visitList_forall₂ h.args
  cases hall with
  | cons hnv _ => exact ⟨_, rfl, hnv⟩

/-- Everything in the context is clean. -/
def CleanContext (context : Context) : Prop :=
  ∀ id v, PyVal.dictGet context id = some v → v.isClean = true

/-- The evaluator's context is clean. -/
theorem cleanContext_wrapContext (h : PyVal.isJsonItems context = true) :
    CleanContext (wrapContext context) := by
  intro id v hv
  rw [dictGet_wrapContext] at hv
  obtain ⟨u, hu, rfl⟩ := Option.map_eq_some_iff.mp hv
  exact PyVal.isClean_wrapValue _ (PyVal.isJson_of_dictGet h hu)

/-- A clean value cannot be called. -/
theorem callValue_of_isClean {f : PyVal} (h : f.isClean = true) (args : List PyVal)
    (kwargs : Kwargs) : py.callValue f args kwargs = raiseTypeError := by
  cases f with
  | function | object => cases h
  | none | bool | int | float | str | list | tuple | dict | view => rfl

/-- A call that returns is a call of a helper. -/
theorem call_ok (hclean : CleanContext context) {func : Node} {v : PyVal}
    (h : py.visit context (.call func args keywords) = .ok v) :
    ∃ name vs kwargs, func = .name name ∧ name ∈ allowedFunctions ∧
      PyVal.dictGet context name = none ∧ CallValues py context args keywords vs kwargs ∧
        py.callHelper name vs kwargs = .ok v := by
  rw [Python.visit] at h
  split at h
  · next hhelper =>
    obtain ⟨fn, hfn, h⟩ := Failing.bind_ok.mp h
    obtain ⟨vs, hvs, h⟩ := Failing.bind_ok.mp h
    obtain ⟨kwargs, hkwargs, h⟩ := Failing.bind_ok.mp h
    cases func with
    | name name =>
      -- The context has no such name, or its value, which is JSON, would have been called.
      have hname : name ∈ allowedFunctions := of_decide_eq_true hhelper
      rw [Python.visit, visitName] at hfn
      split at hfn
      · next u hu =>
        obtain rfl := Except.ok.inj hfn
        rw [callValue_of_isClean (hclean name u hu)] at h
        cases h
      · next hnone =>
        rw [if_pos hname] at hfn
        obtain rfl := Except.ok.inj hfn
        exact ⟨name, vs, kwargs, rfl, hname, hnone, ⟨hvs, hkwargs⟩, h⟩
    | constant | attr | list | tuple | boolOp | compare | ifExp | call | unaryOp | binOp | other =>
      cases hhelper
  · cases h

end Calls

/-! ### The values on the way -/

section Values

variable {py : Python} {context : Context}

/-- A value an operator may meet as a constant: an atom, or an object of another class. -/
def PyVal.isAtom : PyVal → Bool
  | .none | .bool _ | .int _ | .float _ | .str _ => true
  | .object kind => kind != "bound method AttrView.unwrap"
  | .list _ | .tuple _ | .dict _ | .function _ | .view _ _ => false

/-- The constants of a formula are atoms. -/
def AtomConstants (n : Node) : Prop := ∀ v, .constant v ∈ n.walk → v.isAtom = true

theorem AtomConstants.child {n c : Node} (h : AtomConstants n) (hc : c ∈ n.children) :
    AtomConstants c := fun v hv => h v (Node.mem_walk_of_child hc hv)

theorem AtomConstants.argument {func a : Node} {args : List Node}
    {keywords : List (Option String × Node)} (h : AtomConstants (.call func args keywords))
    (ha : a ∈ argumentNodes args keywords) : AtomConstants a := by
  rcases List.mem_append.mp ha with ha | ha
  · exact h.child (List.mem_cons_of_mem _ (List.mem_append_left _ ha))
  · obtain ⟨kw, hkw, rfl⟩ := List.mem_map.mp ha
    have hkeyword := h.child (c := .other "keyword" [kw.2])
      (List.mem_cons_of_mem _ (List.mem_append_right _ (List.mem_map_of_mem hkw)))
    exact hkeyword.child (List.mem_singleton_self kw.2)

theorem getAttribute_ok {u v : PyVal} {attr : String} (hviews : u.viewsJson = true)
    (h : getAttribute u attr = .ok v) :
    v.isClean = true ∨ attr = "unwrap" ∧ v = PyVal.unwrapMethod ∧
      ∃ id items, u = .view id items := by
  unfold getAttribute at h
  split at h
  · next id items =>
    split at h
    · next hattr => exact Or.inr ⟨hattr, (Except.ok.inj h).symm, id, items, rfl⟩
    · obtain rfl := Except.ok.inj h
      exact Or.inl (PyVal.isClean_entry hviews attr)
  · next items =>
    obtain rfl := Except.ok.inj h
    refine Or.inl ?_
    cases hget : PyVal.dictGet items attr with
    | none => rfl
    | some w => exact PyVal.isClean_of_isJson (PyVal.isJson_of_dictGet hviews hget)
  · cases h

/-- What an operator makes holds no views but those of its operands. -/
theorem viewsJson_of_isNew {v : PyVal} (hnew : v.IsNew)
    (h : ∀ x ∈ v.elements, x.viewsJson = true) : v.viewsJson = true :=
  (PyVal.viewsJson_iff hnew.2).mpr h

theorem MadeFrom.viewsJson {sources : List PyVal} {v : PyVal} (h : MadeFrom sources v)
    (hsources : ∀ s ∈ sources, s.viewsJson = true) : v.viewsJson = true := by
  refine viewsJson_of_isNew h.isNew fun x hx => ?_
  obtain ⟨s, hs, hx⟩ := (h.elements x).mp hx
  exact PyVal.viewsJson_of_mem_elements (hsources s hs) hx

/-- The views in what a helper returns are those of its arguments. -/
theorem HelperResult.viewsJson (laws : ForeignLaws py) {name : String} {args : List PyVal}
    {kwargs : Kwargs} {v : PyVal} (h : HelperResult py name args kwargs v)
    (hviews : ∀ u, IsArgument args kwargs u → u.viewsJson = true) : v.viewsJson = true := by
  cases h with
  | clean h => exact PyVal.viewsJson_of_isClean h
  | argument h => exact hviews v h
  | item a ha hv => exact PyVal.viewsJson_of_mem_elements (hviews a (Or.inl ha)) hv
  -- A sum is made of its start and of the items of its argument.
  | sum iterable items start _ hhead hitems hstart hmade =>
    refine hmade.viewsJson fun s hs => ?_
    rcases List.mem_cons.mp hs with rfl | hs
    · rw [hstart]
      cases htail : args.tail.head? with
      | some u => exact hviews u (Or.inl (List.mem_of_mem_tail (List.mem_of_head? htail)))
      | none =>
        cases hkwarg : PyVal.dictGet kwargs "start" with
        | some u => exact hviews u (Or.inr ⟨_, hkwarg⟩)
        | none => rfl
    · rcases iterate_ok laws hitems s hs with hs | hclean
      · exact PyVal.viewsJson_of_mem_elements
          (hviews iterable (Or.inl (List.mem_of_head? hhead))) hs
      · exact PyVal.viewsJson_of_isClean hclean
  | convertUnit number _ hnumber hmade =>
    refine hmade.viewsJson fun s hs => ?_
    obtain rfl := List.mem_singleton.mp hs
    rcases Option.or_eq_some_iff.mp hnumber with hhead | ⟨-, hkwarg⟩
    · exact hviews s (Or.inl (List.mem_of_head? hhead))
    · exact hviews s (Or.inr ⟨_, hkwarg⟩)

/-- **The views in a value hold JSON values**, since every view was made of the context. -/
theorem viewsJson_of_visit (laws : ForeignLaws py) (hclean : CleanContext context) :
    ∀ (n : Node), AtomConstants n → ∀ v, py.visit context n = .ok v → v.viewsJson = true := by
  -- by induction on the height: the expressions below have been looked at
  have hall : ∀ (k : ℕ) (n : Node), n.height ≤ k → AtomConstants n →
      ∀ v, py.visit context n = .ok v → v.viewsJson = true := by
    intro k
    induction k with
    | zero => intro n hn; exact absurd n.height_pos (by omega)
    | succ k ih =>
      intro n hn hatoms v h
      have hchild : ∀ c ∈ n.children, ∀ u, py.visit context c = .ok u → u.viewsJson = true :=
        fun c hc => ih c (by have := Node.height_lt_of_child hc; omega) (hatoms.child hc)
      have hlist : ∀ {ns vs}, (∀ c ∈ ns, c ∈ n.children) → py.visitList context ns = .ok vs →
          ∀ u ∈ vs, u.viewsJson = true := by
        intro ns vs hns hvs u hu
        obtain ⟨c, hc, hcu⟩ := Keyed.exists_of_mem_right (visitList_forall₂ hvs) hu
        exact hchild c (hns c hc) u hcu
      cases n with
      | constant value =>
        rw [Python.visit] at h
        obtain rfl := Except.ok.inj h
        have hatom := hatoms value (Node.mem_walk_self _)
        cases value <;> first | rfl | cases hatom
      | name id =>
        rw [Python.visit, visitName] at h
        split at h
        · next u hu =>
          obtain rfl := Except.ok.inj h
          exact PyVal.viewsJson_of_isClean (hclean id u hu)
        · split at h
          · obtain rfl := Except.ok.inj h
            rfl
          · cases h
      | attr value attr =>
        rw [Python.visit] at h
        split at h
        · cases h
        · obtain ⟨u, hu, h⟩ := Failing.bind_ok.mp h
          rcases getAttribute_ok (hchild value (List.mem_singleton_self _) u hu) h with
            hentry | ⟨-, rfl, -⟩
          · exact PyVal.viewsJson_of_isClean hentry
          · rfl
      | list elts | tuple elts =>
        rw [Python.visit] at h
        obtain ⟨vs, hvs, h⟩ := Failing.bind_ok.mp h
        obtain rfl := Except.ok.inj h
        exact PyVal.viewsJsonList_iff.mpr (hlist (fun _ hc => hc) hvs)
      | boolOp op values =>
        rw [Python.visit] at h
        obtain ⟨vs, -, h⟩ := Failing.bind_ok.mp h
        obtain rfl := Except.ok.inj h
        rfl
      | compare left rest =>
        rw [Python.visit] at h
        obtain ⟨u, -, h⟩ := Failing.bind_ok.mp h
        obtain ⟨b, -, h⟩ := Failing.bind_ok.mp h
        obtain rfl := Except.ok.inj h
        rfl
      | ifExp test body orelse =>
        rw [Python.visit] at h
        obtain ⟨u, -, h⟩ := Failing.bind_ok.mp h
        split at h
        · exact hchild body (by simp [Node.children]) v h
        · exact hchild orelse (by simp [Node.children]) v h
      | call func args keywords =>
        obtain ⟨name, vs, kwargs, -, -, -, hvalues, hcall⟩ := call_ok hclean h
        have hviews : ∀ u, IsArgument vs kwargs u → u.viewsJson = true := by
          intro u hu
          obtain ⟨a, ha, hau⟩ := hvalues.argument hu
          exact ih a (by have := @height_lt_of_argument func _ _ _ ha; omega)
            (hatoms.argument ha) u hau
        exact (callHelper_ok laws hviews hcall).viewsJson laws hviews
      | unaryOp op operand =>
        rw [Python.visit] at h
        obtain ⟨u, -, h⟩ := Failing.bind_ok.mp h
        obtain ⟨helements, hnew, -⟩ := unaryOp_ok laws h
        exact viewsJson_of_isNew hnew (by simp [helements])
      | binOp left op right =>
        rw [Python.visit] at h
        obtain ⟨a, ha, h⟩ := Failing.bind_ok.mp h
        obtain ⟨b, hb, h⟩ := Failing.bind_ok.mp h
        obtain ⟨hnew, -, helements⟩ := binOp_ok laws h
        refine viewsJson_of_isNew hnew fun x hx => ?_
        have hleft := hchild left (by simp [Node.children]) a ha
        have hright := hchild right (by simp [Node.children]) b hb
        rcases (helements x).mp hx with ⟨-, hx | hx⟩ | ⟨-, ⟨-, hx⟩ | ⟨-, hx⟩⟩
        · exact PyVal.viewsJson_of_mem_elements hleft hx
        · exact PyVal.viewsJson_of_mem_elements hright hx
        · exact PyVal.viewsJson_of_mem_elements hleft hx
        · exact PyVal.viewsJson_of_mem_elements hright hx
      | other kind children =>
        rw [Python.visit] at h
        cases h
  exact fun n => hall n.height n le_rfl

/-! ### The ways lead where they say -/

/-- The elements of what is iterated are among the items. -/
theorem mem_of_iterate {v x : PyVal} {items : List PyVal} (h : py.iterate v = .ok items)
    (hx : x ∈ v.elements) : x ∈ items := by
  cases v with
  | list | tuple => rwa [← Except.ok.inj h]
  | none | bool | int | float | str | dict | function | view | object => cases hx

/-- What `sum` returns is made from its start and from the items of its first argument. -/
theorem sum_of_visit (laws : ForeignLaws py) (hclean : CleanContext context) {args : List Node}
    {keywords : List (Option String × Node)} {v : PyVal}
    (h : py.visit context (.call (.name "sum") args keywords) = .ok v) :
    ∃ vs kwargs iterable items, CallValues py context args keywords vs kwargs ∧
      vs.head? = some iterable ∧ py.iterate iterable = .ok items ∧
        ∀ start, start = (vs.tail.head?.or (PyVal.dictGet kwargs "start")).getD (.int 0) →
          items = [] ∧ v = start ∨ MadeFrom (start :: items) v := by
  obtain ⟨name, vs, kwargs, hname, -, -, hvalues, hcall⟩ := call_ok hclean h
  obtain rfl := Node.name.inj hname
  obtain ⟨iterable, items, hhead, hitems, hmade⟩ := sum_ok laws hcall
  exact ⟨vs, kwargs, iterable, items, hvalues, hhead, hitems, hmade⟩

/-- What `convert_unit` returns is its number, or made from it. -/
theorem convertUnit_of_visit (laws : ForeignLaws py) (hclean : CleanContext context)
    {args : List Node} {keywords : List (Option String × Node)} {v : PyVal}
    (h : py.visit context (.call (.name "convert_unit") args keywords) = .ok v) :
    ∃ vs kwargs number, CallValues py context args keywords vs kwargs ∧
      vs.head?.or (PyVal.dictGet kwargs "number") = some number ∧
        (v = number ∨ MadeFrom [number] v) := by
  obtain ⟨name, vs, kwargs, hname, -, -, hvalues, hcall⟩ := call_ok hclean h
  obtain rfl := Node.name.inj hname
  obtain ⟨number, hnumber, hmade⟩ := convert_unit_ok laws hcall
  exact ⟨vs, kwargs, number, hvalues, hnumber, hmade⟩

/-- The operands of an operation that returns. -/
theorem binOp_of_visit {left right : Node} {op : BinOperator} {v : PyVal}
    (h : py.visit context (.binOp left op right) = .ok v) :
    ∃ a b, py.visit context left = .ok a ∧ py.visit context right = .ok b ∧
      py.binOp op a b = .ok v := by
  rw [Python.visit] at h
  obtain ⟨a, ha, h⟩ := Failing.bind_ok.mp h
  obtain ⟨b, hb, h⟩ := Failing.bind_ok.mp h
  exact ⟨a, b, ha, hb, h⟩

mutual

/-- **The value that is passed on is the same**, down the whole way. -/
theorem Passes.same (laws : ForeignLaws py) (hclean : CleanContext context) :
    ∀ {n m : Node}, Passes py context n m → ∀ {v : PyVal}, py.visit context n = .ok v →
      py.visit context m = .ok v
  | _, _, .refl n, _, h => h
  | _, _, .body test body orelse u m htest htruthy h, _, hv => by
    rw [Python.visit, Failing.bind_of_ok htest, if_pos htruthy] at hv
    exact h.same laws hclean hv
  | _, _, .orelse test body orelse u m htest htruthy h, _, hv => by
    rw [Python.visit, Failing.bind_of_ok htest, htruthy, if_neg (by decide)] at hv
    exact h.same laws hclean hv
  | _, _, .argument func args keywords a m _ hsame h, _, hv => by
    obtain ⟨u, hu, ha⟩ := hsame
    rw [hu] at hv
    exact h.same laws hclean (Except.ok.inj hv ▸ ha)
  | _, _, .item func args keywords a b m _ _ hsame h, _, hv => by
    obtain ⟨u, hu, hb⟩ := hsame
    rw [hu] at hv
    exact h.same laws hclean (Except.ok.inj hv ▸ hb)

/-- **An item’s value is an element** of the value of the expression it is an item of. -/
theorem Item.elements (laws : ForeignLaws py) (hclean : CleanContext context) :
    ∀ {n m : Node}, Item py context n m → ∀ {v : PyVal}, py.visit context n = .ok v →
      ∃ x ∈ v.elements, py.visit context m = .ok x
  | _, _, .passes n m k h hk, _, hv => hk.elements laws hclean (h.same laws hclean hv)
  | _, _, .list elts m hm, _, hv => by
    rw [Python.visit] at hv
    obtain ⟨vs, hvs, hv⟩ := Failing.bind_ok.mp hv
    rw [← Except.ok.inj hv]
    exact Keyed.exists_of_mem_left (visitList_forall₂ hvs) hm
  | _, _, .tuple elts m hm, _, hv => by
    rw [Python.visit] at hv
    obtain ⟨vs, hvs, hv⟩ := Failing.bind_ok.mp hv
    rw [← Except.ok.inj hv]
    exact Keyed.exists_of_mem_left (visitList_forall₂ hvs) hm
  | _, _, .left left right m h, _, hv => by
    obtain ⟨a, b, ha, hb, hv⟩ := binOp_of_visit hv
    obtain ⟨x, hx, hm⟩ := h.elements laws hclean ha
    exact ⟨x, ((binOp_ok laws hv).2.2 x).mpr (Or.inl ⟨rfl, Or.inl hx⟩), hm⟩
  | _, _, .right left right m h, _, hv => by
    obtain ⟨a, b, ha, hb, hv⟩ := binOp_of_visit hv
    obtain ⟨x, hx, hm⟩ := h.elements laws hclean hb
    exact ⟨x, ((binOp_ok laws hv).2.2 x).mpr (Or.inl ⟨rfl, Or.inr hx⟩), hm⟩
  | _, _, .repeatedLeft left right m u hu hpositive h, _, hv => by
    obtain ⟨a, b, ha, hb, hv⟩ := binOp_of_visit hv
    obtain ⟨x, hx, hm⟩ := h.elements laws hclean ha
    obtain rfl := Except.ok.inj (hu.symm.trans hb)
    exact ⟨x, ((binOp_ok laws hv).2.2 x).mpr (Or.inr ⟨rfl, Or.inl ⟨hpositive, hx⟩⟩), hm⟩
  | _, _, .repeatedRight left right m u hu hpositive h, _, hv => by
    obtain ⟨a, b, ha, hb, hv⟩ := binOp_of_visit hv
    obtain ⟨x, hx, hm⟩ := h.elements laws hclean hb
    obtain rfl := Except.ok.inj (hu.symm.trans ha)
    exact ⟨x, ((binOp_ok laws hv).2.2 x).mpr (Or.inr ⟨rfl, Or.inr ⟨hpositive, hx⟩⟩), hm⟩
  | _, _, .start args keywords n m hn h, _, hv => by
    obtain ⟨vs, kwargs, iterable, items, hvalues, -, -, hmade⟩ := sum_of_visit laws hclean hv
    obtain ⟨start, hstart, hnv⟩ := (hvalues.bound hvalues.tail "start").1 n hn
    obtain ⟨x, hx, hm⟩ := h.elements laws hclean hnv
    refine ⟨x, ?_, hm⟩
    rcases hmade start (by rw [hstart]; rfl) with ⟨-, rfl⟩ | hmade
    · exact hx
    · exact (hmade.elements x).mpr ⟨start, List.mem_cons_self .., hx⟩
  | _, _, .summand iterable args keywords n m hn h, _, hv => by
    obtain ⟨vs, kwargs, u, items, hvalues, hhead, hitems, hmade⟩ := sum_of_visit laws hclean hv
    obtain ⟨w, hw, hiterable⟩ := hvalues.first
    rw [hhead] at hw
    obtain rfl := Option.some.inj hw
    obtain ⟨y, hy, hny⟩ := hn.elements laws hclean hiterable
    obtain ⟨x, hx, hm⟩ := h.elements laws hclean hny
    refine ⟨x, ?_, hm⟩
    have hmem := mem_of_iterate hitems hy
    -- there is an item, so the sum is not its start alone
    rcases hmade _ rfl with ⟨rfl, -⟩ | hmade
    · cases hmem
    · exact (hmade.elements x).mpr ⟨y, List.mem_cons_of_mem _ hmem, hx⟩
  | _, _, .number args keywords n m hn h, _, hv => by
    obtain ⟨vs, kwargs, number, hvalues, hnumber, hmade⟩ := convertUnit_of_visit laws hclean hv
    obtain ⟨u, hu, hnu⟩ := (hvalues.bound (visitList_forall₂ hvalues.args) "number").1 n hn
    rw [hnumber] at hu
    obtain rfl := Option.some.inj hu
    obtain ⟨x, hx, hm⟩ := h.elements laws hclean hnu
    refine ⟨x, ?_, hm⟩
    rcases hmade with rfl | hmade
    · exact hx
    · exact (hmade.elements x).mpr ⟨_, List.mem_singleton_self _, hx⟩

end

mutual

/-- The ways stay inside the formula. -/
theorem Passes.atomConstants : ∀ {n m : Node}, Passes py context n m → AtomConstants n →
    AtomConstants m
  | _, _, .refl n, hn => hn
  | _, _, .body test body orelse v m _ _ h, hn =>
    h.atomConstants (hn.child (by simp [Node.children]))
  | _, _, .orelse test body orelse v m _ _ h, hn =>
    h.atomConstants (hn.child (by simp [Node.children]))
  | _, _, .argument func args keywords a m ha _ h, hn => h.atomConstants (hn.argument ha)
  | _, _, .item func args keywords a b m ha hab _ h, hn =>
    h.atomConstants (hab.atomConstants (hn.argument (List.mem_append_left _ ha)))

theorem Item.atomConstants : ∀ {n m : Node}, Item py context n m → AtomConstants n →
    AtomConstants m
  | _, _, .passes n m k h hk, hn => hk.atomConstants (h.atomConstants hn)
  | _, _, .list elts m h, hn => hn.child h
  | _, _, .tuple elts m h, hn => hn.child h
  | _, _, .left left right m h, hn => h.atomConstants (hn.child (by simp [Node.children]))
  | _, _, .right left right m h, hn => h.atomConstants (hn.child (by simp [Node.children]))
  | _, _, .repeatedLeft left right m v _ _ h, hn =>
    h.atomConstants (hn.child (by simp [Node.children]))
  | _, _, .repeatedRight left right m v _ _ h, hn =>
    h.atomConstants (hn.child (by simp [Node.children]))
  | _, _, .start args keywords n m hn h, hcall =>
    h.atomConstants (hcall.argument (argument_of_bound (List.tail_subset _) hn))
  | _, _, .summand iterable args keywords n m hn h, hcall =>
    h.atomConstants (hn.atomConstants
      (hcall.argument (List.mem_append_left _ (List.mem_cons_self ..))))
  | _, _, .number args keywords n m hn h, hcall =>
    h.atomConstants (hcall.argument (argument_of_bound (List.Subset.refl _) hn))

end

end Values

/-! ### Where a value comes from -/

section Origin

variable (py : Python) (context : Context)

/-- The expression makes the value itself, rather than passing on that of another. -/
inductive Makes : Node → PyVal → Prop
  | constant (v) : v.isAtom = true → Makes (.constant v) v
  | helper (id) : id ∈ allowedFunctions → PyVal.dictGet context id = none →
      Makes (.name id) (.function id)
  | unwrap (value id items) : py.visit context value = .ok (.view id items) →
      Makes (.attr value "unwrap") .unwrapMethod
  | list (elts vs) : py.visitList context elts = .ok vs → Makes (.list elts) (.list vs)
  | tuple (elts vs) : py.visitList context elts = .ok vs → Makes (.tuple elts) (.tuple vs)
  | unary (op operand u v) : py.visit context operand = .ok u → py.unaryOp op u = .ok v →
      Makes (.unaryOp op operand) v
  | binary (left op right a b v) : py.visit context left = .ok a →
      py.visit context right = .ok b → py.binOp op a b = .ok v → Makes (.binOp left op right) v
  | sum (args keywords vs kwargs iterable items start v) :
      CallValues py context args keywords vs kwargs → vs.head? = some iterable →
      py.iterate iterable = .ok items →
      start = (vs.tail.head?.or (PyVal.dictGet kwargs "start")).getD (.int 0) →
      MadeFrom (start :: items) v → Makes (.call (.name "sum") args keywords) v
  | convertUnit (args keywords vs kwargs number v) :
      CallValues py context args keywords vs kwargs →
      vs.head?.or (PyVal.dictGet kwargs "number") = some number → MadeFrom [number] v →
      Makes (.call (.name "convert_unit") args keywords) v

/-- The value is clean, or passed on from an expression that makes it. -/
def HasOrigin (n : Node) (v : PyVal) : Prop :=
  v.isClean = true ∨ ∃ m, Passes py context n m ∧ py.visit context m = .ok v ∧ Makes py context m v

/-- The value is clean, or that of an item of the expression. -/
def HasItem (n : Node) (x : PyVal) : Prop :=
  x.isClean = true ∨ ∃ m, Item py context n m ∧ py.visit context m = .ok x

end Origin

section OriginFacts

variable {py : Python} {context : Context}

/-- What a sum is made from: the value of the start, or an element of the first argument's. -/
theorem CallValues.source_of_sum (laws : ForeignLaws py) {args : List Node}
    {keywords : List (Option String × Node)} {vs : List PyVal} {kwargs : Kwargs}
    (hvalues : CallValues py context args keywords vs kwargs) {iterable start s : PyVal}
    {items : List PyVal} (hhead : vs.head? = some iterable)
    (hitems : py.iterate iterable = .ok items)
    (hstart : start = (vs.tail.head?.or (PyVal.dictGet kwargs "start")).getD (.int 0))
    (hs : s ∈ start :: items) : s.isClean = true ∨
      (∃ n, args.tail.head?.or (keywordNode keywords "start") = some n ∧
        py.visit context n = .ok s) ∨
      ∃ n args' u, args = n :: args' ∧ py.visit context n = .ok u ∧ s ∈ u.elements := by
  rcases List.mem_cons.mp hs with rfl | hs
  · cases hbound : vs.tail.head?.or (PyVal.dictGet kwargs "start") with
    | none =>
      rw [hbound] at hstart
      exact Or.inl (hstart ▸ rfl)
    | some w =>
      rw [hbound] at hstart
      obtain rfl : s = w := hstart
      exact Or.inr (Or.inl ((hvalues.bound hvalues.tail "start").2 s hbound))
  · rcases iterate_ok laws hitems s hs with hmem | hclean
    · cases args with
      | nil =>
        have hall := visitList_forall₂ hvalues.args
        cases hall
        cases hhead
      | cons n args =>
        obtain ⟨w, hw, hnv⟩ := hvalues.first
        rw [hhead] at hw
        obtain rfl := Option.some.inj hw
        exact Or.inr (Or.inr ⟨n, args, _, rfl, hnv, hmem⟩)
    · exact Or.inl hclean

/-- The elements of what an expression makes come from its items, when this is so below. -/
theorem hasItem_of_makes (laws : ForeignLaws py) {m : Node} {v : PyVal}
    (hbelow : ∀ c, c.height < m.height → AtomConstants c → ∀ u, py.visit context c = .ok u →
      ∀ x ∈ u.elements, HasItem py context c x)
    (hatoms : AtomConstants m) (h : Makes py context m v) :
    ∀ x ∈ v.elements, HasItem py context m x := by
  intro x hx
  -- the parts are lower, so their elements come from their items
  have hchild : ∀ c ∈ m.children, ∀ u, py.visit context c = .ok u → ∀ x ∈ u.elements,
      HasItem py context c x := fun c hc =>
    hbelow c (Node.height_lt_of_child hc) (hatoms.child hc)
  cases h with
  | constant v hatom =>
    have hnil : v.elements = [] := by cases v <;> first | rfl | cases hatom
    rw [hnil] at hx
    cases hx
  | helper | unwrap => cases hx
  | list elts vs hvs =>
    obtain ⟨e, he, hev⟩ := Keyed.exists_of_mem_right (visitList_forall₂ hvs) hx
    exact Or.inr ⟨e, .list elts e he, hev⟩
  | tuple elts vs hvs =>
    obtain ⟨e, he, hev⟩ := Keyed.exists_of_mem_right (visitList_forall₂ hvs) hx
    exact Or.inr ⟨e, .tuple elts e he, hev⟩
  | unary op operand u v _ h =>
    rw [(unaryOp_ok laws h).1] at hx
    cases hx
  | binary left op right a b v ha hb h =>
    have hleft := hchild left (by simp [Node.children]) a ha
    have hright := hchild right (by simp [Node.children]) b hb
    rcases ((binOp_ok laws h).2.2 x).mp hx with ⟨rfl, hx | hx⟩ | ⟨rfl, ⟨hpositive, hx⟩ | ⟨hpositive, hx⟩⟩
    · exact (hleft x hx).imp_right fun ⟨k, hk, hkx⟩ => ⟨k, .left left right k hk, hkx⟩
    · exact (hright x hx).imp_right fun ⟨k, hk, hkx⟩ => ⟨k, .right left right k hk, hkx⟩
    · exact (hleft x hx).imp_right fun ⟨k, hk, hkx⟩ =>
        ⟨k, .repeatedLeft left right k b hb hpositive hk, hkx⟩
    · exact (hright x hx).imp_right fun ⟨k, hk, hkx⟩ =>
        ⟨k, .repeatedRight left right k a ha hpositive hk, hkx⟩
  | sum args keywords vs kwargs iterable items start v hvalues hhead hitems hstart hmade =>
    obtain ⟨s, hs, hx⟩ := (hmade.elements x).mp hx
    -- what is added is clean, the start, or an element of the first argument
    rcases hvalues.source_of_sum laws hhead hitems hstart hs with hclean | ⟨n, hn, hnv⟩ |
      ⟨n, args, u, rfl, hnu, hmem⟩
    · exact Or.inl (PyVal.isClean_of_mem_elements hclean hx)
    · have harg := argument_of_bound (List.tail_subset _) hn
      exact (hbelow n (height_lt_of_argument harg) (hatoms.argument harg) s hnv x hx).imp_right
        fun ⟨k, hk, hkx⟩ => ⟨k, .start _ keywords n k hn hk, hkx⟩
    · have harg : n ∈ argumentNodes (n :: args) keywords := by simp [argumentNodes]
      have hlt := @height_lt_of_argument (.name "sum") _ _ _ harg
      rcases hbelow n hlt (hatoms.argument harg) u hnu s hmem with hclean | ⟨b, hb, hbs⟩
      · exact Or.inl (PyVal.isClean_of_mem_elements hclean hx)
      · exact (hbelow b (hb.height_lt.trans hlt) (hb.atomConstants (hatoms.argument harg)) s hbs x
          hx).imp_right fun ⟨k, hk, hkx⟩ => ⟨k, .summand n args keywords b k hb hk, hkx⟩
  | convertUnit args keywords vs kwargs number v hvalues hnumber hmade =>
    obtain ⟨s, hs, hx⟩ := (hmade.elements x).mp hx
    obtain rfl := List.mem_singleton.mp hs
    obtain ⟨n, hn, hnv⟩ :=
      (hvalues.bound (visitList_forall₂ hvalues.args) "number").2 s hnumber
    have harg := argument_of_bound (List.Subset.refl _) hn
    exact (hbelow n (height_lt_of_argument harg) (hatoms.argument harg) s hnv x hx).imp_right
      fun ⟨k, hk, hkx⟩ => ⟨k, .number args keywords n k hn hk, hkx⟩

theorem HasItem.of_passes {n m : Node} {x : PyVal} (h : Passes py context n m)
    (hx : HasItem py context m x) : HasItem py context n x :=
  hx.imp_right fun ⟨k, hk, hkx⟩ => ⟨k, .passes n m k h hk, hkx⟩

/-- An origin of one expression is one of another that passes what the first passes. -/
theorem HasOrigin.of_passes {n m : Node} {v : PyVal} (hv : HasOrigin py context m v)
    (h : ∀ k, Passes py context m k → Passes py context n k) : HasOrigin py context n v :=
  hv.imp_right (Exists.imp fun k => And.imp_left (h k))

/-- What an expression makes is its own origin. -/
theorem HasOrigin.of_makes {n : Node} {v : PyVal} (h : py.visit context n = .ok v)
    (hmakes : Makes py context n v) : HasOrigin py context n v :=
  Or.inr ⟨n, .refl n, h, hmakes⟩

/-- A name is bound to a clean value, or is that of a helper. -/
theorem name_hasOrigin (hclean : CleanContext context) {id : String} {v : PyVal}
    (h : py.visit context (.name id) = .ok v) : HasOrigin py context (.name id) v := by
  have hvisit := h
  rw [Python.visit, visitName] at h
  split at h
  · next u hu =>
    obtain rfl := Except.ok.inj h
    exact Or.inl (hclean id u hu)
  · next hnone =>
    split at h
    · next hid =>
      obtain rfl := Except.ok.inj h
      exact .of_makes hvisit (.helper id hid hnone)
    · cases h

/-- An attribute is an entry of a view, or the method `unwrap` of one. -/
theorem attr_hasOrigin (laws : ForeignLaws py) (hclean : CleanContext context) {value : Node}
    {attr : String} (hatoms : AtomConstants value) {v : PyVal}
    (h : py.visit context (.attr value attr) = .ok v) :
    HasOrigin py context (.attr value attr) v := by
  have hvisit := h
  rw [Python.visit] at h
  split at h
  · cases h
  · obtain ⟨u, hu, h⟩ := Failing.bind_ok.mp h
    have hviews := viewsJson_of_visit laws hclean value hatoms u hu
    rcases getAttribute_ok hviews h with hentry | ⟨rfl, rfl, id, items, rfl⟩
    · exact Or.inl hentry
    · exact .of_makes hvisit (.unwrap value id items hu)

/-- A conditional passes the branch on that its test chooses. -/
theorem ifExp_hasOrigin {test body orelse : Node} {v : PyVal}
    (hbody : py.visit context body = .ok v → HasOrigin py context body v)
    (horelse : py.visit context orelse = .ok v → HasOrigin py context orelse v)
    (h : py.visit context (.ifExp test body orelse) = .ok v) :
    HasOrigin py context (.ifExp test body orelse) v := by
  rw [Python.visit] at h
  obtain ⟨u, hu, h⟩ := Failing.bind_ok.mp h
  split at h
  · next htruthy =>
    exact (hbody h).of_passes fun m hm => .body test body orelse u m hu htruthy hm
  · next hfalsy =>
    rw [Bool.not_eq_true] at hfalsy
    exact (horelse h).of_passes fun m hm => .orelse test body orelse u m hu hfalsy hm

/-- A call passes an argument on, or an item of one, or makes its value. -/
theorem call_hasOrigin (laws : ForeignLaws py) (hclean : CleanContext context) {func : Node}
    {args : List Node} {keywords : List (Option String × Node)}
    (hbelow : ∀ c, c.height < (Node.call func args keywords).height → AtomConstants c →
      ∀ u, py.visit context c = .ok u →
        HasOrigin py context c u ∧ ∀ x ∈ u.elements, HasItem py context c x)
    (hatoms : AtomConstants (.call func args keywords)) {v : PyVal}
    (h : py.visit context (.call func args keywords) = .ok v) :
    HasOrigin py context (.call func args keywords) v := by
  have hvisit := h
  obtain ⟨name, vs, kwargs, rfl, -, -, hvalues, hcall⟩ := call_ok hclean h
  have hargument : ∀ a ∈ argumentNodes args keywords, ∀ u, py.visit context a = .ok u →
      HasOrigin py context a u ∧ ∀ x ∈ u.elements, HasItem py context a x := fun a ha =>
    hbelow a (height_lt_of_argument ha) (hatoms.argument ha)
  have hviews : ∀ u, IsArgument vs kwargs u → u.viewsJson = true := by
    intro u hu
    obtain ⟨a, ha, hau⟩ := hvalues.argument hu
    exact viewsJson_of_visit laws hclean a (hatoms.argument ha) u hau
  cases callHelper_ok laws hviews hcall with
  | clean h => exact Or.inl h
  | argument h =>
    obtain ⟨a, ha, hav⟩ := hvalues.argument h
    exact (hargument a ha v hav).1.of_passes fun m hm =>
      .argument _ args keywords a m ha ⟨v, hvisit, hav⟩ hm
  | item u hu hv =>
    -- an item is below the argument it is an item of, which is below the call
    obtain ⟨a, ha, hau⟩ := Keyed.exists_of_mem_right (visitList_forall₂ hvalues.args) hu
    have harg : a ∈ argumentNodes args keywords := List.mem_append_left _ ha
    rcases (hargument a harg u hau).2 v hv with hclean | ⟨b, hb, hbv⟩
    · exact Or.inl hclean
    · have hlt := hb.height_lt.trans (@height_lt_of_argument (.name name) _ _ _ harg)
      exact (hbelow b hlt (hb.atomConstants (hatoms.argument harg)) v hbv).1.of_passes
        fun m hm => .item _ args keywords a b m ha hb ⟨v, hvisit, hbv⟩ hm
  | sum iterable items start hname hhead hitems hstart hsum =>
    obtain rfl := hname
    exact .of_makes hvisit (.sum args keywords vs kwargs iterable items start v hvalues hhead
      hitems hstart hsum)
  | convertUnit number hname hnumber hconverted =>
    obtain rfl := hname
    exact .of_makes hvisit (.convertUnit args keywords vs kwargs number v hvalues hnumber
      hconverted)

/-- An expression has an origin when those below it have. -/
theorem hasOrigin_of_below (laws : ForeignLaws py) (hclean : CleanContext context) {n : Node}
    (hbelow : ∀ c, c.height < n.height → AtomConstants c → ∀ u, py.visit context c = .ok u →
      HasOrigin py context c u ∧ ∀ x ∈ u.elements, HasItem py context c x)
    (hatoms : AtomConstants n) {v : PyVal} (h : py.visit context n = .ok v) :
    HasOrigin py context n v := by
  have hvisit := h
  have hchild : ∀ c ∈ n.children, py.visit context c = .ok v → HasOrigin py context c v :=
    fun c hc hv => (hbelow c (Node.height_lt_of_child hc) (hatoms.child hc) v hv).1
  -- a branch or a helper may pass on a value; every other expression makes its own
  cases n with
  | constant value =>
    rw [Python.visit] at h
    obtain rfl := Except.ok.inj h
    exact .of_makes hvisit (.constant value (hatoms value (Node.mem_walk_self _)))
  | name id => exact name_hasOrigin hclean h
  | attr value attr =>
    exact attr_hasOrigin laws hclean (hatoms.child (by simp [Node.children])) h
  | list elts =>
    rw [Python.visit] at h
    obtain ⟨vs, hvs, h⟩ := Failing.bind_ok.mp h
    obtain rfl := Except.ok.inj h
    exact .of_makes hvisit (.list elts vs hvs)
  | tuple elts =>
    rw [Python.visit] at h
    obtain ⟨vs, hvs, h⟩ := Failing.bind_ok.mp h
    obtain rfl := Except.ok.inj h
    exact .of_makes hvisit (.tuple elts vs hvs)
  | boolOp op values =>
    rw [Python.visit] at h
    obtain ⟨vs, -, h⟩ := Failing.bind_ok.mp h
    obtain rfl := Except.ok.inj h
    exact Or.inl rfl
  | compare left rest =>
    rw [Python.visit] at h
    obtain ⟨u, -, h⟩ := Failing.bind_ok.mp h
    obtain ⟨b, -, h⟩ := Failing.bind_ok.mp h
    obtain rfl := Except.ok.inj h
    exact Or.inl rfl
  | ifExp test body orelse =>
    exact ifExp_hasOrigin (hchild body (by simp [Node.children]))
      (hchild orelse (by simp [Node.children])) h
  | call func args keywords => exact call_hasOrigin laws hclean hbelow hatoms h
  | unaryOp op operand =>
    rw [Python.visit] at h
    obtain ⟨u, hu, h⟩ := Failing.bind_ok.mp h
    exact .of_makes hvisit (.unary op operand u v hu h)
  | binOp left op right =>
    obtain ⟨a, b, ha, hb, h⟩ := binOp_of_visit h
    exact .of_makes hvisit (.binary left op right a b v ha hb h)
  | other kind children =>
    rw [Python.visit] at h
    cases h

/-- **Every value has an origin, and so has every element of it.** -/
theorem origin_of_visit (laws : ForeignLaws py) (hclean : CleanContext context) :
    ∀ (n : Node), AtomConstants n → ∀ v, py.visit context n = .ok v →
      HasOrigin py context n v ∧ ∀ x ∈ v.elements, HasItem py context n x := by
  have hall : ∀ (k : ℕ) (n : Node), n.height < k → AtomConstants n →
      ∀ v, py.visit context n = .ok v →
        HasOrigin py context n v ∧ ∀ x ∈ v.elements, HasItem py context n x := by
    intro k
    induction k with
    | zero => intro n hn; exact absurd hn (by omega)
    | succ k ih =>
      intro n hn hatoms v h
      have horigin := hasOrigin_of_below laws hclean (fun c hc => ih c (by omega)) hatoms h
      refine ⟨horigin, fun x hx => ?_⟩
      rcases horigin with hv | ⟨m, hm, -, hmakes⟩
      · exact Or.inl (PyVal.isClean_of_mem_elements hv hx)
      · refine .of_passes hm (hasItem_of_makes laws ?_ (hm.atomConstants hatoms) hmakes x hx)
        intro c hc hatoms u hu
        exact (ih c (by have := hm.height_le; omega) hatoms u hu).2
  exact fun n => hall (n.height + 1) n (by omega)

/-- A value of an alien kind has an alien origin. -/
theorem alien_of_isAlien (laws : ForeignLaws py) (hclean : CleanContext context) :
    ∀ (n : Node), AtomConstants n → ∀ v, py.visit context n = .ok v → v.isAlien = true →
      Alien py context n := by
  have hall : ∀ (k : ℕ) (n : Node), n.height < k → AtomConstants n →
      ∀ v, py.visit context n = .ok v → v.isAlien = true → Alien py context n := by
    intro k
    induction k with
    | zero => intro n hn; exact absurd hn (by omega)
    | succ k ih =>
      intro n hn hatoms v h halien
      -- a value that is not clean was made by some expression on the way
      rcases (origin_of_visit laws hclean n hatoms v h).1 with hv | ⟨m, hm, -, hmakes⟩
      · rw [PyVal.isAlien_of_isClean hv] at halien
        cases halien
      · refine .passes n m hm ?_
        have hle := hm.height_le
        have hmatoms := hm.atomConstants hatoms
        have hchild : ∀ c ∈ m.children, ∀ u, py.visit context c = .ok u → u.isAlien = true →
            Alien py context c := fun c hc =>
          ih c (by have := Node.height_lt_of_child hc; omega) (hmatoms.child hc)
        cases hmakes with
        | constant v _ => exact .constant v halien
        | helper id _ hnone => exact .helper id hnone
        | unwrap value id items hvalue => exact .unwrap value id items hvalue
        | list => cases halien
        | tuple elts => exact .tuple elts
        | unary op operand u v hu h =>
          rw [(unaryOp_ok laws h).2.2] at halien
          exact .operand op operand (hchild operand (by simp [Node.children]) u hu halien)
        | binary left op right a b v ha hb h =>
          rcases (binOp_ok laws h).2.1.mp halien with halien | ⟨halien, hmod⟩
          · exact .left left op right (hchild left (by simp [Node.children]) a ha halien)
          · refine .right left op right (hchild right (by simp [Node.children]) b hb halien) ?_
            intro hop s hs
            exact hmod hop s (Except.ok.inj (ha.symm.trans hs))
        | sum args keywords vs kwargs iterable items start v hvalues hhead hitems hstart hmade =>
          obtain ⟨s, hs, halien⟩ := hmade.isAlien.mp halien
          have hdirty : s.isClean ≠ true := fun hclean => by
            rw [PyVal.isAlien_of_isClean hclean] at halien
            cases halien
          rcases hvalues.source_of_sum laws hhead hitems hstart hs with hclean | ⟨n, hn, hnv⟩ |
            ⟨n, args, u, rfl, hnu, hmem⟩
          · exact absurd hclean hdirty
          · have harg := argument_of_bound (List.tail_subset _) hn
            have hlt := @height_lt_of_argument (.name "sum") _ _ _ harg
            exact .start _ keywords n hn (ih n (by omega) (hmatoms.argument harg) s hnv halien)
          · have harg : n ∈ argumentNodes (n :: args) keywords := by simp [argumentNodes]
            have hlt := @height_lt_of_argument (.name "sum") _ _ _ harg
            obtain ⟨b, hb, hbs⟩ := ((origin_of_visit laws hclean n (hmatoms.argument harg) u
              hnu).2 s hmem).resolve_left hdirty
            have := hb.height_lt
            exact .summand n args keywords b hb
              (ih b (by omega) (hb.atomConstants (hmatoms.argument harg)) s hbs halien)
        | convertUnit args keywords vs kwargs number v hvalues hnumber hmade =>
          obtain ⟨s, hs, halien⟩ := hmade.isAlien.mp halien
          obtain rfl := List.mem_singleton.mp hs
          obtain ⟨n, hn, hnv⟩ :=
            (hvalues.bound (visitList_forall₂ hvalues.args) "number").2 s hnumber
          have harg := argument_of_bound (List.Subset.refl _) hn
          have hlt := @height_lt_of_argument (.name "convert_unit") _ _ _ harg
          exact .number args keywords n hn
            (ih n (by omega) (hmatoms.argument harg) s hnv halien)
  exact fun n => hall (n.height + 1) n (by omega)

/-- An alien origin gives a value of an alien kind. -/
theorem Alien.isAlien (laws : ForeignLaws py) (hclean : CleanContext context) {n : Node}
    (h : Alien py context n) : ∀ {v : PyVal}, py.visit context n = .ok v → v.isAlien = true := by
  induction h with
  | constant u hu =>
    intro v hv
    rw [Python.visit] at hv
    rwa [← Except.ok.inj hv]
  | helper id hnone =>
    intro v hv
    rw [Python.visit, visitName, hnone] at hv
    dsimp only at hv
    split at hv
    · rw [← Except.ok.inj hv]
      rfl
    · cases hv
  | unwrap value id items hvalue =>
    intro v hv
    rw [Python.visit, if_neg (by decide), Failing.bind_of_ok hvalue, getAttribute, if_pos rfl] at hv
    rw [← Except.ok.inj hv]
    rfl
  | tuple elts =>
    intro v hv
    rw [Python.visit] at hv
    obtain ⟨vs, -, hv⟩ := Failing.bind_ok.mp hv
    rw [← Except.ok.inj hv]
    rfl
  | passes n m hm _ ih => exact fun hv => ih (hm.same laws hclean hv)
  | operand op operand _ ih =>
    intro v hv
    rw [Python.visit] at hv
    obtain ⟨u, hu, hv⟩ := Failing.bind_ok.mp hv
    rw [(unaryOp_ok laws hv).2.2]
    exact ih hu
  | left left op right _ ih =>
    intro v hv
    obtain ⟨a, b, ha, -, hv⟩ := binOp_of_visit hv
    exact (binOp_ok laws hv).2.1.mpr (Or.inl (ih ha))
  | right left op right _ hmod ih =>
    intro v hv
    obtain ⟨a, b, ha, hb, hv⟩ := binOp_of_visit hv
    refine (binOp_ok laws hv).2.1.mpr (Or.inr ⟨ih hb, ?_⟩)
    rintro hop s rfl
    exact hmod hop s ha
  -- Addition keeps the kind, so one alien summand makes an alien sum.
  | start args keywords n hn _ ih =>
    intro v hv
    obtain ⟨vs, kwargs, iterable, items, hvalues, -, -, hmade⟩ := sum_of_visit laws hclean hv
    obtain ⟨start, hstart, hnv⟩ := (hvalues.bound hvalues.tail "start").1 n hn
    rcases hmade start (by rw [hstart]; rfl) with ⟨-, rfl⟩ | hmade
    · exact ih hnv
    · exact hmade.isAlien.mpr ⟨start, List.mem_cons_self .., ih hnv⟩
  | summand iterable args keywords n hn _ ih =>
    intro v hv
    obtain ⟨vs, kwargs, u, items, hvalues, hhead, hitems, hmade⟩ := sum_of_visit laws hclean hv
    obtain ⟨w, hw, hiterable⟩ := hvalues.first
    rw [hhead] at hw
    obtain rfl := Option.some.inj hw
    obtain ⟨y, hy, hny⟩ := hn.elements laws hclean hiterable
    have hmem := mem_of_iterate hitems hy
    rcases hmade _ rfl with ⟨rfl, -⟩ | hmade
    · cases hmem
    · exact hmade.isAlien.mpr ⟨y, List.mem_cons_of_mem _ hmem, ih hny⟩
  | number args keywords n hn _ ih =>
    intro v hv
    obtain ⟨vs, kwargs, number, hvalues, hnumber, hmade⟩ := convertUnit_of_visit laws hclean hv
    obtain ⟨u, hu, hnu⟩ := (hvalues.bound (visitList_forall₂ hvalues.args) "number").1 n hn
    rw [hnumber] at hu
    obtain rfl := Option.some.inj hu
    rcases hmade with rfl | hmade
    · exact ih hnu
    · exact hmade.isAlien.mpr ⟨_, List.mem_singleton_self _, ih hnu⟩

/-- What holds an alien is not clean. -/
theorem HoldsAlien.not_isClean (laws : ForeignLaws py) (hclean : CleanContext context) {n : Node}
    (h : HoldsAlien py context n) : ∀ {v : PyVal}, py.visit context n = .ok v →
      v.isClean ≠ true := by
  induction h with
  | here n h =>
    intro v hv hvclean
    have halien := h.isAlien laws hclean hv
    rw [PyVal.isAlien_of_isClean hvclean] at halien
    cases halien
  | item n m hm _ ih =>
    intro v hv hvclean
    obtain ⟨x, hx, hmx⟩ := hm.elements laws hclean hv
    exact ih hmx (PyVal.isClean_of_mem_elements hvclean hx)

/-- What is not clean holds an alien. -/
theorem holdsAlien_of_not_isClean (laws : ForeignLaws py) (hclean : CleanContext context) :
    ∀ (n : Node), AtomConstants n → ∀ v, py.visit context n = .ok v → v.isClean ≠ true →
      HoldsAlien py context n := by
  have hall : ∀ (k : ℕ) (n : Node), n.height < k → AtomConstants n →
      ∀ v, py.visit context n = .ok v → v.isClean ≠ true → HoldsAlien py context n := by
    intro k
    induction k with
    | zero => intro n hn; exact absurd hn (by omega)
    | succ k ih =>
      intro n hn hatoms v h hdirty
      rw [Ne, PyVal.isClean_iff (viewsJson_of_visit laws hclean n hatoms v h), not_and_or] at hdirty
      rcases hdirty with halien | helement
      · rw [Bool.not_eq_false] at halien
        exact .here n (alien_of_isAlien laws hclean n hatoms v h halien)
      · push Not at helement
        obtain ⟨x, hx, hxdirty⟩ := helement
        obtain ⟨m, hm, hmx⟩ :=
          ((origin_of_visit laws hclean n hatoms v h).2 x hx).resolve_left hxdirty
        have := hm.height_lt
        exact .item n m hm (ih m (by omega) (hm.atomConstants hatoms) x hmx hxdirty)
  exact fun n => hall (n.height + 1) n (by omega)

/-- **The value of an expression is clean** exactly when it holds no alien. -/
theorem isClean_visit_iff (laws : ForeignLaws py) (hclean : CleanContext context) {n : Node}
    (hatoms : AtomConstants n) {v : PyVal} (h : py.visit context n = .ok v) :
    v.isClean = true ↔ ¬HoldsAlien py context n := by
  constructor
  · exact fun hv halien => halien.not_isClean laws hclean h hv
  · intro hno
    by_contra hdirty
    exact hno (holdsAlien_of_not_isClean laws hclean n hatoms v h hdirty)

/-- **A function is a helper, and the method comes from a view.** -/
theorem callable_of_visit (laws : ForeignLaws py) (hclean : CleanContext context) {n : Node}
    (hatoms : AtomConstants n) {v : PyVal} (h : py.visit context n = .ok v) :
    (∀ name, v = .function name → name ∈ allowedFunctions) ∧
      (v = .unwrapMethod → ∃ value id items, Passes py context n (.attr value "unwrap") ∧
        py.visit context value = .ok (.view id items)) := by
  have hnew : v.IsNew → (∀ name, v = .function name → name ∈ allowedFunctions) ∧
      (v = .unwrapMethod → ∃ value id items, Passes py context n (.attr value "unwrap") ∧
        py.visit context value = .ok (.view id items)) := by
    rintro ⟨hmethod, hgiven⟩
    refine ⟨?_, fun h => absurd h hmethod⟩
    rintro name rfl
    cases hgiven
  -- The value is JSON, or comes from a node that makes it; only names and attributes make what can
  -- be called.
  rcases (origin_of_visit laws hclean n hatoms v h).1 with hv | ⟨m, hm, -, hmakes⟩
  · constructor
    · rintro name rfl
      cases hv
    · rintro rfl
      cases hv
  · cases hmakes with
    | constant v hatom =>
      constructor
      · rintro name rfl
        cases hatom
      · rintro rfl
        exact absurd hatom (by decide)
    | helper id hid _ =>
      refine ⟨fun name hname => ?_, fun h => by cases h⟩
      obtain rfl := PyVal.function.inj hname
      exact hid
    | unwrap value id items hvalue =>
      exact ⟨fun name hname => (nomatch hname), fun _ => ⟨value, id, items, hm, hvalue⟩⟩
    | list | tuple => exact ⟨fun name hname => (nomatch hname), fun h => (nomatch h)⟩
    | unary op operand u v _ h => exact hnew (unaryOp_ok laws h).2.1
    | binary left op right a b v _ _ h => exact hnew (binOp_ok laws h).1
    | sum args keywords vs kwargs iterable items start v _ _ _ _ hmade => exact hnew hmade.isNew
    | convertUnit args keywords vs kwargs number v _ _ hmade => exact hnew hmade.isNew

end OriginFacts

end ExtractFlow
