import ExtractFlow.StaticSoundness

/-!
# Where an evaluation raises

An exception of the visitor comes from one operation: the lookup of a name, the
access of an attribute, a comparison, the application of an operator or the call
of a helper, reached after the expressions before it got their values.  `Hits`
says that the evaluation gets to an operation whose exception is of some kind,
for any kind of exceptions.

The calculations catch three classes of exceptions; the others leave them.  An
evaluation whose names are bound raises no error about a name.

## Main definitions

* `Raises` — a computation raises an exception of a kind.
* `Hits` — an evaluation gets to an operation that does.
* `EvalErr.caught` — the exceptions the calculations catch.

## Main results

* `raises_visit_iff` — an evaluation raises an exception of a kind when it hits one.
* `not_hits_aboutName` — no error about a name, when the names are bound.
-/

namespace ExtractFlow

/-! ### Exceptions of a kind -/

/-- The computation raises an exception of the kind `bad`; it neither returns nor raises another. -/
def Raises {ε α : Type} (bad : ε → Prop) (x : Except ε α) : Prop :=
  ∃ e, x = .error e ∧ bad e

section Raises

variable {ε α β : Type} {bad : ε → Prop}

theorem not_raises_ok (a : α) : ¬ Raises bad (.ok a : Except ε α) := by
  rintro ⟨e, he, -⟩
  cases he

theorem raises_error (e : ε) : Raises bad (.error e : Except ε α) ↔ bad e := by
  constructor
  · rintro ⟨e', he, hbad⟩
    rwa [Except.error.inj he]
  · exact fun hbad => ⟨e, rfl, hbad⟩

/-- A block raises in its first half, or in its second after the first returned. -/
theorem raises_bind {x : Except ε α} {f : α → Except ε β} :
    Raises bad (x >>= f) ↔ Raises bad x ∨ ∃ a, x = .ok a ∧ Raises bad (f a) := by
  constructor
  · rintro ⟨e, he, hbad⟩
    rcases Failing.bind_error.mp he with he | ⟨a, ha, he⟩
    · exact Or.inl ⟨e, he, hbad⟩
    · exact Or.inr ⟨a, ha, e, he, hbad⟩
  · rintro (⟨e, he, hbad⟩ | ⟨a, ha, e, he, hbad⟩)
    · exact ⟨e, Failing.bind_error.mpr (Or.inl he), hbad⟩
    · exact ⟨e, Failing.bind_error.mpr (Or.inr ⟨a, ha, he⟩), hbad⟩

theorem raises_map {x : Except ε α} {g : α → β} :
    Raises bad (x >>= fun a => pure (g a)) ↔ Raises bad x := by
  rw [raises_bind]
  constructor
  · rintro (h | ⟨a, -, h⟩)
    · exact h
    · exact absurd h (not_raises_ok _)
  · exact Or.inl

end Raises

/-! ### Operations that raise -/

section Hits

variable (bad : EvalErr → Prop) (py : Python) (context : Context)

mutual

/-- The evaluation of an expression gets to an operation that raises an exception of
the kind `bad`: what comes before it has a value. -/
inductive Hits : Node → Prop
  | name (id) : Raises bad (visitName context id) → Hits (.name id)
  | privateAttr (value attr) : isPrivate attr = true → bad (.formula .privateAttribute) →
      Hits (.attr value attr)
  | attrValue (value attr) : isPrivate attr = false → Hits value → Hits (.attr value attr)
  | attr (value attr v) : isPrivate attr = false → py.visit context value = .ok v →
      Raises bad (getAttribute v attr) → Hits (.attr value attr)
  | list (elts) : HitsList elts → Hits (.list elts)
  | tuple (elts) : HitsList elts → Hits (.tuple elts)
  | boolOp (op values) : HitsList values → Hits (.boolOp op values)
  | compareLeft (left rest) : Hits left → Hits (.compare left rest)
  | compare (left rest v) : py.visit context left = .ok v → HitsCompare v rest →
      Hits (.compare left rest)
  | test (test body orelse) : Hits test → Hits (.ifExp test body orelse)
  | body (test body orelse v) : py.visit context test = .ok v → py.truthy v = true → Hits body →
      Hits (.ifExp test body orelse)
  | orelse (test body orelse v) : py.visit context test = .ok v → py.truthy v = false →
      Hits orelse → Hits (.ifExp test body orelse)
  | notAHelper (func args keywords) : func.helper? = false → bad (.formula .notAHelper) →
      Hits (.call func args keywords)
  | args (func args keywords) : func.helper? = true → HitsList args →
      Hits (.call func args keywords)
  | keywords (func args keywords vs) : func.helper? = true → py.visitList context args = .ok vs →
      HitsKeywords [] keywords → Hits (.call func args keywords)
  /-- The call itself raises. -/
  | call (func args keywords fn vs kws) : func.helper? = true → py.visit context func = .ok fn →
      py.visitList context args = .ok vs → py.visitKeywords context [] keywords = .ok kws →
      Raises bad (py.callValue fn vs kws) → Hits (.call func args keywords)
  | operand (op operand) : Hits operand → Hits (.unaryOp op operand)
  | unary (op operand v) : py.visit context operand = .ok v → Raises bad (py.unaryOp op v) →
      Hits (.unaryOp op operand)
  | left (left op right) : Hits left → Hits (.binOp left op right)
  | right (left op right v) : py.visit context left = .ok v → Hits right →
      Hits (.binOp left op right)
  | binary (left op right v w) : py.visit context left = .ok v → py.visit context right = .ok w →
      Raises bad (py.binOp op v w) → Hits (.binOp left op right)
  | other (kind children) : bad (.formula (.unsupportedSyntax kind)) → Hits (.other kind children)

/-- One of the expressions of a list does, after those before it. -/
inductive HitsList : List Node → Prop
  | head (n ns) : Hits n → HitsList (n :: ns)
  | tail (n ns v) : py.visit context n = .ok v → HitsList ns → HitsList (n :: ns)

/-- A chain of comparisons does, from a left operand on: at an operand or at a comparison that it
gets to. -/
inductive HitsCompare : PyVal → List (CmpOp × Node) → Prop
  | here (v op n rest) : Hits n → HitsCompare v ((op, n) :: rest)
  | compare (v op n rest w) : py.visit context n = .ok w →
      Raises bad (builtin (py.compare op v w)) → HitsCompare v ((op, n) :: rest)
  | next (v op n rest w) : py.visit context n = .ok w → py.compare op v w = .ok true →
      HitsCompare w rest → HitsCompare v ((op, n) :: rest)

/-- The keywords of a call do, after the ones already bound: at an unpacking or at a value. -/
inductive HitsKeywords : Kwargs → List (Option String × Node) → Prop
  | unpacking (kwargs n keywords) : bad (.formula .keywordUnpacking) →
      HitsKeywords kwargs ((none, n) :: keywords)
  | here (kwargs arg n keywords) : Hits n → HitsKeywords kwargs ((some arg, n) :: keywords)
  | next (kwargs arg n keywords v) : py.visit context n = .ok v →
      HitsKeywords (PyVal.dictSet kwargs arg v) keywords →
      HitsKeywords kwargs ((some arg, n) :: keywords)

end

end Hits

section Visit

variable {bad : EvalErr → Prop} {py : Python} {context : Context}

/-! What one construct raises, from what its parts raise.  Each of the lemmas follows the
visitor through one construct: the first part that raises ends it, and the operation of the
construct comes last. -/

theorem raises_attr {value : Node}
    (ih : Raises bad (py.visit context value) ↔ Hits bad py context value) (attr : String) :
    Raises bad (py.visit context (.attr value attr)) ↔ Hits bad py context (.attr value attr) := by
  rw [Python.visit]
  cases hprivate : isPrivate attr with
  | true =>
    rw [if_pos rfl, raises_error]
    refine ⟨.privateAttr value attr hprivate, fun h => ?_⟩
    cases h with
    | privateAttr _ _ _ h => exact h
    | attrValue _ _ hno _ => rw [hprivate] at hno; cases hno
    | attr _ _ _ hno _ _ => rw [hprivate] at hno; cases hno
  | false =>
    rw [if_neg (by decide), raises_bind, ih]
    constructor
    · rintro (h | ⟨v, hv, h⟩)
      · exact .attrValue value attr hprivate h
      · exact .attr value attr v hprivate hv h
    · intro h
      cases h with
      | privateAttr _ _ hp _ => rw [hprivate] at hp; cases hp
      | attrValue _ _ _ h => exact Or.inl h
      | attr _ _ v _ hv h => exact Or.inr ⟨v, hv, h⟩

theorem raises_compare {left : Node} {rest : List (CmpOp × Node)}
    (ihleft : Raises bad (py.visit context left) ↔ Hits bad py context left)
    (ihrest : ∀ v, Raises bad (py.visitCompare context v rest) ↔
      HitsCompare bad py context v rest) :
    Raises bad (py.visit context (.compare left rest)) ↔
      Hits bad py context (.compare left rest) := by
  rw [Python.visit, raises_bind, ihleft]
  constructor
  · rintro (h | ⟨v, hv, h⟩)
    · exact .compareLeft left rest h
    · exact .compare left rest v hv ((ihrest v).mp (raises_map.mp h))
  · intro h
    cases h with
    | compareLeft _ _ h => exact Or.inl h
    | compare _ _ v hv h => exact Or.inr ⟨v, hv, raises_map.mpr ((ihrest v).mpr h)⟩

theorem raises_ifExp {test body orelse : Node}
    (ihtest : Raises bad (py.visit context test) ↔ Hits bad py context test)
    (ihbody : Raises bad (py.visit context body) ↔ Hits bad py context body)
    (ihorelse : Raises bad (py.visit context orelse) ↔ Hits bad py context orelse) :
    Raises bad (py.visit context (.ifExp test body orelse)) ↔
      Hits bad py context (.ifExp test body orelse) := by
  rw [Python.visit, raises_bind, ihtest]
  constructor
  · rintro (h | ⟨v, hv, h⟩)
    · exact .test test body orelse h
    · -- only the branch the test selects is evaluated
      cases htruthy : py.truthy v with
      | true => exact .body test body orelse v hv htruthy (ihbody.mp (by simpa [htruthy] using h))
      | false =>
        exact .orelse test body orelse v hv htruthy (ihorelse.mp (by simpa [htruthy] using h))
  · intro h
    cases h with
    | test _ _ _ h => exact Or.inl h
    | body _ _ _ v hv htruthy h => exact Or.inr ⟨v, hv, by simpa [htruthy] using ihbody.mpr h⟩
    | orelse _ _ _ v hv htruthy h =>
      exact Or.inr ⟨v, hv, by simpa [htruthy] using ihorelse.mpr h⟩

theorem raises_call {func : Node} {args : List Node} {keywords : List (Option String × Node)}
    (ihargs : Raises bad (py.visitList context args) ↔ HitsList bad py context args)
    (ihkeywords : Raises bad (py.visitKeywords context [] keywords) ↔
      HitsKeywords bad py context [] keywords) :
    Raises bad (py.visit context (.call func args keywords)) ↔
      Hits bad py context (.call func args keywords) := by
  rw [Python.visit]
  cases hhelper : func.helper? with
  | false =>
    rw [if_neg (by decide), raises_error]
    refine ⟨.notAHelper func args keywords hhelper, fun h => ?_⟩
    cases h with
    | notAHelper _ _ _ _ h => exact h
    | args _ _ _ hno _ => rw [hhelper] at hno; cases hno
    | keywords _ _ _ _ hno _ _ => rw [hhelper] at hno; cases hno
    | call _ _ _ _ _ _ hno _ _ _ _ => rw [hhelper] at hno; cases hno
  | true =>
    -- the name of a helper always has a value
    obtain ⟨fn, hfn⟩ : ∃ fn, py.visit context func = .ok fn := visit_helper_ok hhelper
    rw [if_pos rfl, hfn, Failing.bind_of_ok rfl, raises_bind, ihargs]
    simp only [raises_bind, ihkeywords]
    constructor
    · rintro (h | ⟨vs, hvs, h | ⟨kws, hkws, h⟩⟩)
      · exact .args func args keywords hhelper h
      · exact .keywords func args keywords vs hhelper hvs h
      · exact .call func args keywords fn vs kws hhelper hfn hvs hkws h
    · intro h
      cases h with
      | notAHelper _ _ _ hno _ => rw [hhelper] at hno; cases hno
      | args _ _ _ _ h => exact Or.inl h
      | keywords _ _ _ vs _ hvs h => exact Or.inr ⟨vs, hvs, Or.inl h⟩
      | call _ _ _ fn' vs kws _ hfn' hvs hkws h =>
        obtain rfl := Except.ok.inj (hfn.symm.trans hfn')
        exact Or.inr ⟨vs, hvs, Or.inr ⟨kws, hkws, h⟩⟩

theorem raises_unaryOp {operand : Node}
    (ih : Raises bad (py.visit context operand) ↔ Hits bad py context operand)
    (op : UnaryOperator) :
    Raises bad (py.visit context (.unaryOp op operand)) ↔
      Hits bad py context (.unaryOp op operand) := by
  rw [Python.visit, raises_bind, ih]
  constructor
  · rintro (h | ⟨v, hv, h⟩)
    · exact .operand op operand h
    · exact .unary op operand v hv h
  · intro h
    cases h with
    | operand _ _ h => exact Or.inl h
    | unary _ _ v hv h => exact Or.inr ⟨v, hv, h⟩

theorem raises_binOp {left right : Node}
    (ihleft : Raises bad (py.visit context left) ↔ Hits bad py context left)
    (ihright : Raises bad (py.visit context right) ↔ Hits bad py context right)
    (op : BinOperator) :
    Raises bad (py.visit context (.binOp left op right)) ↔
      Hits bad py context (.binOp left op right) := by
  rw [Python.visit, raises_bind, ihleft]
  simp only [raises_bind, ihright]
  constructor
  · rintro (h | ⟨v, hv, h | ⟨w, hw, h⟩⟩)
    · exact .left left op right h
    · exact .right left op right v hv h
    · exact .binary left op right v w hv hw h
  · intro h
    cases h with
    | left _ _ _ h => exact Or.inl h
    | right _ _ _ v hv h => exact Or.inr ⟨v, hv, Or.inl h⟩
    | binary _ _ _ v w hv hw h => exact Or.inr ⟨v, hv, Or.inr ⟨w, hw, h⟩⟩

mutual

/-- **An evaluation raises an exception of a kind exactly when it gets to an operation
that does.**  By induction on the expression, one lemma for each construct. -/
theorem raises_visit_iff : ∀ (n : Node),
    Raises bad (py.visit context n) ↔ Hits bad py context n
  | .constant value => by
    rw [Python.visit]
    exact iff_of_false (not_raises_ok _) (fun h => by cases h)
  | .name id => by
    rw [Python.visit]
    exact ⟨.name id, fun h => by cases h with | name _ h => exact h⟩
  | .attr value attr => raises_attr (raises_visit_iff value) attr
  | .list elts => by
    rw [Python.visit, raises_map, raises_visitList_iff elts]
    exact ⟨.list elts, fun h => by cases h with | list _ h => exact h⟩
  | .tuple elts => by
    rw [Python.visit, raises_map, raises_visitList_iff elts]
    exact ⟨.tuple elts, fun h => by cases h with | tuple _ h => exact h⟩
  | .boolOp op values => by
    rw [Python.visit, raises_map, raises_visitList_iff values]
    exact ⟨.boolOp op values, fun h => by cases h with | boolOp _ _ h => exact h⟩
  | .compare left rest => raises_compare (raises_visit_iff left) (raises_visitCompare_iff rest)
  | .ifExp test body orelse =>
    raises_ifExp (raises_visit_iff test) (raises_visit_iff body) (raises_visit_iff orelse)
  | .call _ args keywords =>
    raises_call (raises_visitList_iff args) (raises_visitKeywords_iff keywords [])
  | .unaryOp op operand => raises_unaryOp (raises_visit_iff operand) op
  | .binOp left op right => raises_binOp (raises_visit_iff left) (raises_visit_iff right) op
  | .other kind children => by
    rw [Python.visit, raises_error]
    exact ⟨.other kind children, fun h => by cases h with | other _ _ h => exact h⟩

theorem raises_visitList_iff : ∀ (ns : List Node),
    Raises bad (py.visitList context ns) ↔ HitsList bad py context ns
  | [] => by
    rw [Python.visitList]
    exact iff_of_false (not_raises_ok _) (fun h => by cases h)
  | n :: ns => by
    rw [Python.visitList, raises_bind, raises_visit_iff n]
    simp only [raises_map, raises_visitList_iff ns]
    constructor
    · rintro (h | ⟨v, hv, h⟩)
      · exact .head n ns h
      · exact .tail n ns v hv h
    · intro h
      cases h with
      | head _ _ h => exact Or.inl h
      | tail _ _ v hv h => exact Or.inr ⟨v, hv, h⟩

theorem raises_visitCompare_iff : ∀ (rest : List (CmpOp × Node)) (v : PyVal),
    Raises bad (py.visitCompare context v rest) ↔ HitsCompare bad py context v rest
  | [], v => by
    rw [Python.visitCompare]
    exact iff_of_false (not_raises_ok _) (fun h => by cases h)
  | (op, n) :: rest, v => by
    have ih := raises_visitCompare_iff rest
    rw [Python.visitCompare, raises_bind, raises_visit_iff n]
    simp only [raises_bind (f := fun b : Bool => _)]
    constructor
    · rintro (h | ⟨w, hw, h | ⟨b, hb, h⟩⟩)
      · exact .here v op n rest h
      · exact .compare v op n rest w hw h
      · cases b with
        | true => exact .next v op n rest w hw (builtin_ok.mp hb) ((ih w).mp (by simpa using h))
        | false => exact absurd h (not_raises_ok _)
    · intro h
      cases h with
      | here _ _ _ _ h => exact Or.inl h
      | compare _ _ _ _ w hw h => exact Or.inr ⟨w, hw, Or.inl h⟩
      | next _ _ _ _ w hw hcompare h =>
        exact Or.inr ⟨w, hw, Or.inr ⟨true, builtin_ok.mpr hcompare, by simpa using (ih w).mpr h⟩⟩

theorem raises_visitKeywords_iff : ∀ (keywords : List (Option String × Node)) (kwargs : Kwargs),
    Raises bad (py.visitKeywords context kwargs keywords) ↔
      HitsKeywords bad py context kwargs keywords
  | [], kwargs => by
    rw [Python.visitKeywords]
    exact iff_of_false (not_raises_ok _) (fun h => by cases h)
  | (none, n) :: keywords, kwargs => by
    rw [Python.visitKeywords, raises_error]
    exact ⟨.unpacking kwargs n keywords, fun h => by cases h with | unpacking _ _ _ h => exact h⟩
  | (some arg, n) :: keywords, kwargs => by
    have ih := raises_visitKeywords_iff keywords
    rw [Python.visitKeywords, raises_bind, raises_visit_iff n]
    constructor
    · rintro (h | ⟨v, hv, h⟩)
      · exact .here kwargs arg n keywords h
      · exact .next kwargs arg n keywords v hv ((ih _).mp h)
    · intro h
      cases h with
      | here _ _ _ _ h => exact Or.inl h
      | next _ _ _ _ v hv h => exact Or.inr ⟨v, hv, (ih _).mpr h⟩

end

end Visit

/-! ### Errors about names -/

/-- The error is about a name: one the validator does not know, or one that is not bound. -/
def EvalErr.AboutName : EvalErr → Prop
  | .formula (.unknownFieldReference _) => True
  | .formula (.unknownIdentifier _) => True
  | _ => False

/-- A helper does not look up names. -/
theorem not_aboutName_helper {α : Type} {x : Except EvalErr α} (h : HelperOnly x) :
    ¬ Raises EvalErr.AboutName x := by
  rintro ⟨e, he, hbad⟩
  have hhelper := h e he
  unfold EvalErr.AboutName at hbad
  split at hbad
  · exact hhelper
  · exact hhelper
  · exact hbad

theorem not_aboutName_getAttribute (value : PyVal) (attr : String) :
    ¬ Raises EvalErr.AboutName (getAttribute value attr) := by
  unfold getAttribute
  split
  · split <;> exact not_raises_ok _
  · exact not_raises_ok _
  · rw [raises_error]
    exact id

theorem not_aboutName_unaryOp (py : Python) (op : UnaryOperator) (v : PyVal) :
    ¬ Raises EvalErr.AboutName (py.unaryOp op v) := by
  cases op with
  | uSub => exact not_aboutName_helper (helperOnly_builtin _)
  | uAdd => exact not_aboutName_helper (helperOnly_builtin _)
  | not => exact (raises_error _).not.mpr id
  | invert => exact (raises_error _).not.mpr id

theorem not_aboutName_binOp (py : Python) (op : BinOperator) (v w : PyVal) :
    ¬ Raises EvalErr.AboutName (py.binOp op v w) := by
  cases op with
  | add => exact not_aboutName_helper (helperOnly_builtin _)
  | sub => exact not_aboutName_helper (helperOnly_builtin _)
  | mult => exact not_aboutName_helper (helperOnly_builtin _)
  | mod => exact not_aboutName_helper (helperOnly_builtin _)
  | div =>
    rw [Python.binOp]
    split
    · exact (raises_error _).not.mpr id
    · exact not_aboutName_helper (helperOnly_builtin _)
  | _ => exact (raises_error _).not.mpr id

section Bound

variable {py : Python} {context : Context}

mutual

/-- **An evaluation whose names are bound raises no error about a name.** -/
theorem not_hits_aboutName : ∀ (n : Node), Bound context n →
    ¬ Hits EvalErr.AboutName py context n
  | .constant _, _, h => by cases h
  | .name id, hbound, h => by
    obtain ⟨v, hv⟩ := visitName_ok (hbound id (Node.mem_names_self id))
    cases h with
    | name _ h =>
      rw [hv] at h
      exact not_raises_ok v h
  | .attr value attr, hbound, h => by
    cases h with
    | privateAttr _ _ _ h => exact h
    | attrValue _ _ _ h =>
      exact not_hits_aboutName value (hbound.child (by simp [Node.children])) h
    | attr _ _ v _ _ h => exact not_aboutName_getAttribute v attr h
  | .list elts, hbound, h => by
    cases h with
    | list _ h =>
      exact not_hitsList_aboutName elts (fun n hn => hbound.child (c := n) hn) h
  | .tuple elts, hbound, h => by
    cases h with
    | tuple _ h =>
      exact not_hitsList_aboutName elts (fun n hn => hbound.child (c := n) hn) h
  | .boolOp op values, hbound, h => by
    cases h with
    | boolOp _ _ h =>
      exact not_hitsList_aboutName values (fun n hn => hbound.child (c := n) hn) h
  | .compare left rest, hbound, h => by
    cases h with
    | compareLeft _ _ h =>
      exact not_hits_aboutName left (hbound.child (by simp [Node.children])) h
    | compare _ _ v _ h =>
      refine not_hitsCompare_aboutName rest (fun p hp => ?_) v h
      exact hbound.child (List.mem_cons_of_mem _ (List.mem_map_of_mem hp))
  | .ifExp test body orelse, hbound, h => by
    cases h with
    | test _ _ _ h =>
      exact not_hits_aboutName test (hbound.child (by simp [Node.children])) h
    | body _ _ _ _ _ _ h =>
      exact not_hits_aboutName body (hbound.child (by simp [Node.children])) h
    | orelse _ _ _ _ _ _ h =>
      exact not_hits_aboutName orelse (hbound.child (by simp [Node.children])) h
  | .call func args keywords, hbound, h => by
    have hargs : ∀ n ∈ args, Bound context n := fun n hn =>
      hbound.child (List.mem_cons_of_mem _ (List.mem_append_left _ hn))
    have hkeywords : ∀ p ∈ keywords, Bound context p.2 := fun p hp =>
      (hbound.child (c := .other "keyword" [p.2]) (List.mem_cons_of_mem _
        (List.mem_append_right _ (List.mem_map.mpr ⟨p, hp, rfl⟩)))).child
        (List.mem_singleton_self p.2)
    cases h with
    | notAHelper _ _ _ _ h => exact h
    | args _ _ _ _ h => exact not_hitsList_aboutName args hargs h
    | keywords _ _ _ _ _ _ h => exact not_hitsKeywords_aboutName keywords hkeywords [] h
    -- a helper raises errors of its own, and none of them is about a name
    | call _ _ _ fn vs kws _ _ _ _ h =>
      exact not_aboutName_helper (helperOnly_callValue py fn vs kws) h
  | .unaryOp op operand, hbound, h => by
    cases h with
    | operand _ _ h =>
      exact not_hits_aboutName operand (hbound.child (by simp [Node.children])) h
    | unary _ _ v _ h => exact not_aboutName_unaryOp py op v h
  | .binOp left op right, hbound, h => by
    cases h with
    | left _ _ _ h =>
      exact not_hits_aboutName left (hbound.child (by simp [Node.children])) h
    | right _ _ _ _ _ h =>
      exact not_hits_aboutName right (hbound.child (by simp [Node.children])) h
    | binary _ _ _ v w _ _ h => exact not_aboutName_binOp py op v w h
  | .other _ _, _, h => by
    cases h with
    | other _ _ h => exact h

theorem not_hitsList_aboutName : ∀ (ns : List Node), (∀ n ∈ ns, Bound context n) →
    ¬ HitsList EvalErr.AboutName py context ns
  | [], _, h => by cases h
  | n :: ns, hbound, h => by
    cases h with
    | head _ _ h => exact not_hits_aboutName n (hbound n (List.mem_cons_self ..)) h
    | tail _ _ _ _ h =>
      exact not_hitsList_aboutName ns (fun m hm => hbound m (List.mem_cons_of_mem _ hm)) h

theorem not_hitsCompare_aboutName : ∀ (rest : List (CmpOp × Node)),
    (∀ p ∈ rest, Bound context p.2) → ∀ v,
    ¬ HitsCompare EvalErr.AboutName py context v rest
  | [], _, _, h => by cases h
  | (op, n) :: rest, hbound, _, h => by
    cases h with
    | here _ _ _ _ h => exact not_hits_aboutName n (hbound (op, n) (List.mem_cons_self ..)) h
    | compare _ _ _ _ w _ h => exact not_aboutName_helper (helperOnly_builtin _) h
    | next _ _ _ _ w _ _ h =>
      exact not_hitsCompare_aboutName rest
        (fun p hp => hbound p (List.mem_cons_of_mem _ hp)) w h

theorem not_hitsKeywords_aboutName : ∀ (keywords : List (Option String × Node)),
    (∀ p ∈ keywords, Bound context p.2) → ∀ kwargs,
    ¬ HitsKeywords EvalErr.AboutName py context kwargs keywords
  | [], _, _, h => by cases h
  | (arg, n) :: keywords, hbound, kwargs, h => by
    cases h with
    | unpacking _ _ _ h => exact h
    | here _ _ _ _ h =>
      exact not_hits_aboutName n (hbound (_, n) (List.mem_cons_self ..)) h
    | next _ arg _ _ v _ h =>
      exact not_hitsKeywords_aboutName keywords
        (fun p hp => hbound p (List.mem_cons_of_mem _ hp)) (PyVal.dictSet kwargs arg v) h

end

end Bound

/-! ### What the calculations catch -/

/-- The exceptions the calculations catch: `FormulaValidationError`, `TypeError` and
`ZeroDivisionError`. -/
def EvalErr.caught : EvalErr → Bool
  | .formula _ => true
  | .builtin .typeError => true
  | .builtin .zeroDivisionError => true
  | .builtin _ => false

end ExtractFlow
