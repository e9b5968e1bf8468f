import ExtractFlow.FormulaContract

/-!
# What the validator of formulas does not look at

`validate_formula` reads the names of a formula and nothing else: every name is
a helper or an available field.  So an evaluation never meets an unknown
identifier.  Which node, operator or call it meets is not checked: subscripts and
comprehensions, `not`, `//` and `**`, an attribute with an underscore, the call of
something that is no helper and the unpacking of keywords all validate, and the
visitor raises when it gets there.

## Main definitions

* `FormulaError.detectable` — the errors that show in the formula itself.
* `Stuck` — an evaluation gets to a construct the visitor does not accept.
* `Node.supported` — an expression without such constructs.

## Main results

* `visit_detectable_iff` — with its names bound, an expression fails detectably when it is stuck.
* `evaluate_detectable_iff` — the same of a formula the validator accepts.
* `not_stuck_of_supported` — a supported expression is never stuck.
* `subscript_validates` — the validator accepts a subscript.
-/

namespace ExtractFlow

/-! ### The errors that show in the formula -/

/-- Unsupported syntax and operators, unknown identifiers, calls of anything but a
helper, private attributes and keyword unpacking. -/
def FormulaError.detectable : FormulaError → Bool
  | .unsupportedSyntax _ | .unknownIdentifier _ | .privateAttribute | .notAHelper
  | .keywordUnpacking | .unsupportedUnary | .unsupportedBinary => true
  | .invalidSyntax _ | .unknownFieldReference _ | .attributeAccess
  | .unsupportedConversion _ _ => false

/-- The evaluation fails with an error that shows in the formula. -/
def FailsDetectably {α : Type} (x : Except EvalErr α) : Prop :=
  ∃ e, x = .error (.formula e) ∧ e.detectable = true

/-- The visitor has a case for the operator. -/
def UnaryOperator.supported : UnaryOperator → Bool
  | .uSub | .uAdd => true
  | .not | .invert => false

/-- The visitor has a case for the operator, among those with two operands. -/
def BinOperator.supported : BinOperator → Bool
  | .add | .sub | .mult | .div | .mod => true
  | .floorDiv | .pow | .lShift | .rShift | .bitOr | .bitXor | .bitAnd | .matMult => false

section Stuck

variable (py : Python) (context : Context)

mutual

/-- The evaluation of an expression gets to a construct the visitor does not accept:
what comes before has a value, and the construct is next. -/
inductive Stuck : Node → Prop
  /-- A node of a class the visitor has no case for. -/
  | other (kind children) : Stuck (.other kind children)
  | privateAttr (value attr) : isPrivate attr = true → Stuck (.attr value attr)
  | attr (value attr) : isPrivate attr = false → Stuck value → Stuck (.attr value attr)
  | list (elts) : StuckList elts → Stuck (.list elts)
  | tuple (elts) : StuckList elts → Stuck (.tuple elts)
  | boolOp (op values) : StuckList values → Stuck (.boolOp op values)
  | compareLeft (left rest) : Stuck left → Stuck (.compare left rest)
  | compare (left rest v) : py.visit context left = .ok v → StuckCompare v rest →
      Stuck (.compare left rest)
  | test (test body orelse) : Stuck test → Stuck (.ifExp test body orelse)
  | body (test body orelse v) : py.visit context test = .ok v → py.truthy v = true → Stuck body →
      Stuck (.ifExp test body orelse)
  | orelse (test body orelse v) : py.visit context test = .ok v → py.truthy v = false →
      Stuck orelse → Stuck (.ifExp test body orelse)
  /-- A call of something that is no helper. -/
  | notAHelper (func args keywords) : func.helper? = false → Stuck (.call func args keywords)
  | args (func args keywords) : func.helper? = true → StuckList args →
      Stuck (.call func args keywords)
  | keywords (func args keywords vs) : func.helper? = true → py.visitList context args = .ok vs →
      StuckKeywords keywords → Stuck (.call func args keywords)
  | operand (op operand) : Stuck operand → Stuck (.unaryOp op operand)
  | unary (op operand v) : py.visit context operand = .ok v → op.supported = false →
      Stuck (.unaryOp op operand)
  | left (left op right) : Stuck left → Stuck (.binOp left op right)
  | right (left op right v) : py.visit context left = .ok v → Stuck right →
      Stuck (.binOp left op right)
  | binary (left op right v w) : py.visit context left = .ok v → py.visit context right = .ok w →
      op.supported = false → Stuck (.binOp left op right)

/-- The evaluation of a list of expressions is stuck at one of them. -/
inductive StuckList : List Node → Prop
  | head (n ns) : Stuck n → StuckList (n :: ns)
  | tail (n ns v) : py.visit context n = .ok v → StuckList ns → StuckList (n :: ns)

/-- A chain of comparisons is stuck, from a left operand on: at an operand it gets to because all
pairs before it hold. -/
inductive StuckCompare : PyVal → List (CmpOp × Node) → Prop
  | here (v op n rest) : Stuck n → StuckCompare v ((op, n) :: rest)
  | next (v op n rest w) : py.visit context n = .ok w → py.compare op v w = .ok true →
      StuckCompare w rest → StuckCompare v ((op, n) :: rest)

/-- The keywords of a call are stuck, at an unpacking or in a value. -/
inductive StuckKeywords : List (Option String × Node) → Prop
  | unpacking (n keywords) : StuckKeywords ((none, n) :: keywords)
  | here (arg n keywords) : Stuck n → StuckKeywords ((some arg, n) :: keywords)
  | next (arg n keywords v) : py.visit context n = .ok v → StuckKeywords keywords →
      StuckKeywords ((some arg, n) :: keywords)

end

end Stuck

/-! ### Failing detectably, step by step -/

section Steps

variable {α β : Type}

theorem failsDetectably_error (e : FormulaError) :
    FailsDetectably (.error (.formula e) : Except EvalErr α) ↔ e.detectable = true := by
  constructor
  · rintro ⟨e', he, hd⟩
    simp only [Except.error.injEq, EvalErr.formula.injEq] at he
    rwa [he]
  · intro hd
    exact ⟨e, rfl, hd⟩

theorem not_failsDetectably_ok (a : α) : ¬ FailsDetectably (.ok a : Except EvalErr α) := by
  rintro ⟨e, he, -⟩
  cases he

theorem failsDetectably_map {x : Except EvalErr α} {g : α → β} :
    FailsDetectably (x >>= fun a => pure (g a)) ↔ FailsDetectably x := by
  cases x with
  | error e => exact ⟨fun ⟨e, he, hd⟩ => ⟨e, by simpa [bind, Except.bind] using he, hd⟩,
      fun ⟨e, he, hd⟩ => ⟨e, by simpa [bind, Except.bind] using he, hd⟩⟩
  | ok a => exact iff_of_false (not_failsDetectably_ok _) (not_failsDetectably_ok _)

/-- What a helper raises does not show in the formula. -/
theorem not_failsDetectably_helper {x : Except EvalErr α} (h : HelperOnly x) :
    ¬ FailsDetectably x := by
  rintro ⟨e, he, hd⟩
  have := h _ he
  cases e <;> simp [EvalErr.OfHelper, FormulaError.detectable] at this hd

/-- A block fails detectably in its first half, or in its second after the first returned. -/
theorem failsDetectably_bind {x : Except EvalErr α} {f : α → Except EvalErr β} :
    FailsDetectably (x >>= f) ↔ FailsDetectably x ∨ ∃ a, x = .ok a ∧ FailsDetectably (f a) := by
  unfold FailsDetectably
  constructor
  · rintro ⟨e, he, hd⟩
    rcases Failing.bind_error.mp he with he | ⟨a, ha, he⟩
    · exact Or.inl ⟨e, he, hd⟩
    · exact Or.inr ⟨a, ha, e, he, hd⟩
  · rintro (⟨e, he, hd⟩ | ⟨a, ha, e, he, hd⟩)
    · exact ⟨e, Failing.bind_error.mpr (Or.inl he), hd⟩
    · exact ⟨e, Failing.bind_error.mpr (Or.inr ⟨a, ha, he⟩), hd⟩

/-- A block whose second half does not fail detectably fails as its first half does. -/
theorem failsDetectably_bind_left {x : Except EvalErr α} {f : α → Except EvalErr β}
    (hf : ∀ a, ¬ FailsDetectably (f a)) : FailsDetectably (x >>= f) ↔ FailsDetectably x := by
  rw [failsDetectably_bind]
  constructor
  · rintro (h | ⟨a, -, h⟩)
    · exact h
    · exact absurd h (hf a)
  · exact Or.inl

end Steps

/-! ### Failing detectably is getting stuck -/

/-- Every identifier of the expression is bound, or names a helper. -/
def Bound (context : Context) (n : Node) : Prop :=
  ∀ id ∈ n.names, (PyVal.dictGet context id).isSome = true ∨ id ∈ allowedFunctions

theorem Bound.child {context : Context} {n c : Node} (h : Bound context n)
    (hc : c ∈ n.children) : Bound context c :=
  fun id hid => h id (Node.mem_names_of_child hc hid)

/-- A bound name has a value. -/
theorem visitName_ok {context : Context} {id : String}
    (h : (PyVal.dictGet context id).isSome = true ∨ id ∈ allowedFunctions) :
    ∃ v, visitName context id = .ok v := by
  unfold visitName
  cases hget : PyVal.dictGet context id with
  | some v => exact ⟨v, rfl⟩
  | none =>
    have hid : id ∈ allowedFunctions := by simpa [hget] using h
    exact ⟨.function id, if_pos hid⟩

/-- The name of a helper has a value. -/
theorem visit_helper_ok {py : Python} {context : Context} {func : Node}
    (h : func.helper? = true) : ∃ v, py.visit context func = .ok v := by
  cases func with
  | name id =>
    rw [Python.visit]
    exact visitName_ok (Or.inr (by simpa [Node.helper?] using h))
  | _ => simp [Node.helper?] at h

theorem not_failsDetectably_getAttribute (value : PyVal) (attr : String) :
    ¬ FailsDetectably (getAttribute value attr) := by
  unfold getAttribute
  split
  · split <;> exact not_failsDetectably_ok _
  · exact not_failsDetectably_ok _
  · rw [failsDetectably_error]
    decide

theorem unaryOp_failsDetectably_iff {py : Python} {op : UnaryOperator} {v : PyVal} :
    FailsDetectably (py.unaryOp op v) ↔ op.supported = false := by
  cases op <;> simp only [Python.unaryOp, UnaryOperator.supported, failsDetectably_error,
    FormulaError.detectable, not_failsDetectably_helper (helperOnly_builtin _), reduceCtorEq]

theorem binOp_failsDetectably_iff {py : Python} {op : BinOperator} {v w : PyVal} :
    FailsDetectably (py.binOp op v w) ↔ op.supported = false := by
  have hdiv : ¬ FailsDetectably (py.binOp .div v w) := by
    refine not_failsDetectably_helper (helperOnly_ite ?_ (helperOnly_builtin _))
    intro e he
    obtain rfl := Except.error.inj he
    trivial
  cases op with
  | div => exact iff_of_false hdiv (by decide)
  | _ => simp only [Python.binOp, BinOperator.supported, failsDetectably_error,
      FormulaError.detectable, not_failsDetectably_helper (helperOnly_builtin _), reduceCtorEq]

section Constructs

variable {py : Python} {context : Context}

/-- An attribute fails as the value it is read from, or is private itself. -/
theorem attr_detectable_iff {value : Node} {attr : String}
    (ih : FailsDetectably (py.visit context value) ↔ Stuck py context value) :
    FailsDetectably (py.visit context (.attr value attr)) ↔
      Stuck py context (.attr value attr) := by
  rw [Python.visit]
  cases hprivate : isPrivate attr with
  | true =>
    rw [if_pos rfl, failsDetectably_error]
    exact iff_of_true rfl (.privateAttr value attr hprivate)
  | false =>
    rw [if_neg (by decide), failsDetectably_bind_left fun v =>
      not_failsDetectably_getAttribute v attr, ih]
    constructor
    · exact .attr value attr hprivate
    · intro hstuck
      cases hstuck with
      | privateAttr _ _ hp => rw [hprivate] at hp; cases hp
      | attr _ _ _ hstuck => exact hstuck

/-- A comparison fails as its first operand, or as the chain from its value on. -/
theorem compare_detectable_iff {left : Node} {rest : List (CmpOp × Node)}
    (ihleft : FailsDetectably (py.visit context left) ↔ Stuck py context left)
    (ihrest : ∀ v, FailsDetectably (py.visitCompare context v rest) ↔
      StuckCompare py context v rest) :
    FailsDetectably (py.visit context (.compare left rest)) ↔
      Stuck py context (.compare left rest) := by
  rw [Python.visit]
  simp only [failsDetectably_bind, ihleft, ihrest]
  constructor
  · rintro (hs | ⟨v, hv, hs⟩)
    · exact .compareLeft left rest hs
    · rcases hs with hs | ⟨b, -, hs⟩
      · exact .compare left rest v hv hs
      · exact absurd hs (not_failsDetectably_ok _)
  · intro hstuck
    cases hstuck with
    | compareLeft _ _ hs => exact Or.inl hs
    | compare _ _ v hv hs => exact Or.inr ⟨v, hv, Or.inl hs⟩

/-- A conditional fails as its test, or as the branch the test chooses. -/
theorem ifExp_detectable_iff {test body orelse : Node}
    (ihtest : FailsDetectably (py.visit context test) ↔ Stuck py context test)
    (ihbody : FailsDetectably (py.visit context body) ↔ Stuck py context body)
    (ihorelse : FailsDetectably (py.visit context orelse) ↔ Stuck py context orelse) :
    FailsDetectably (py.visit context (.ifExp test body orelse)) ↔
      Stuck py context (.ifExp test body orelse) := by
  rw [Python.visit, failsDetectably_bind, ihtest]
  constructor
  · rintro (hs | ⟨v, hv, hs⟩)
    · exact .test test body orelse hs
    · cases htruthy : py.truthy v with
      | true => exact .body test body orelse v hv htruthy (ihbody.mp (by simpa [htruthy] using hs))
      | false =>
        exact .orelse test body orelse v hv htruthy (ihorelse.mp (by simpa [htruthy] using hs))
  · intro hstuck
    cases hstuck with
    | test _ _ _ hs => exact Or.inl hs
    | body _ _ _ v hv htruthy hs => exact Or.inr ⟨v, hv, by simpa [htruthy] using ihbody.mpr hs⟩
    | orelse _ _ _ v hv htruthy hs =>
      exact Or.inr ⟨v, hv, by simpa [htruthy] using ihorelse.mpr hs⟩

/-- A call fails when it calls no helper, or as its arguments or keywords; the helper itself
raises no error of the visitor. -/
theorem call_detectable_iff {func : Node} {args : List Node}
    {keywords : List (Option String × Node)}
    (ihargs : FailsDetectably (py.visitList context args) ↔ StuckList py context args)
    (ihkeywords : ∀ kwargs, FailsDetectably (py.visitKeywords context kwargs keywords) ↔
      StuckKeywords py context keywords) :
    FailsDetectably (py.visit context (.call func args keywords)) ↔
      Stuck py context (.call func args keywords) := by
  rw [Python.visit]
  cases hhelper : func.helper? with
  | false =>
    rw [if_neg (by decide), failsDetectably_error]
    exact iff_of_true rfl (.notAHelper func args keywords hhelper)
  | true =>
    -- The name of a helper always has a value, so only arguments and keywords can fail.
    have hname : ∃ fn, py.visit context func = .ok fn := visit_helper_ok hhelper
    obtain ⟨fn, hfn⟩ := hname
    rw [if_pos rfl, hfn, Failing.bind_of_ok rfl, failsDetectably_bind, ihargs]
    simp only [failsDetectably_bind, ihkeywords,
      not_failsDetectably_helper (helperOnly_callValue _ _ _ _), and_false, exists_false, or_false]
    constructor
    · rintro (hs | ⟨vs, hvs, hs⟩)
      · exact .args func args keywords hhelper hs
      · exact .keywords func args keywords vs hhelper hvs hs
    · intro hstuck
      cases hstuck with
      | notAHelper _ _ _ hno => rw [hhelper] at hno; cases hno
      | args _ _ _ _ hs => exact Or.inl hs
      | keywords _ _ _ vs _ hvs hs => exact Or.inr ⟨vs, hvs, hs⟩

/-- A sign fails as its operand, or is `not` or `~`. -/
theorem unaryOp_detectable_iff {op : UnaryOperator} {operand : Node}
    (ih : FailsDetectably (py.visit context operand) ↔ Stuck py context operand) :
    FailsDetectably (py.visit context (.unaryOp op operand)) ↔
      Stuck py context (.unaryOp op operand) := by
  rw [Python.visit, failsDetectably_bind, ih]
  simp only [unaryOp_failsDetectably_iff]
  constructor
  · rintro (hs | ⟨v, hv, hop⟩)
    · exact .operand op operand hs
    · exact .unary op operand v hv hop
  · intro hstuck
    cases hstuck with
    | operand _ _ hs => exact Or.inl hs
    | unary _ _ v hv hop => exact Or.inr ⟨v, hv, hop⟩

/-- An operation fails as an operand, or its operator is not one of the visitor's. -/
theorem binOp_detectable_iff {left right : Node} {op : BinOperator}
    (ihleft : FailsDetectably (py.visit context left) ↔ Stuck py context left)
    (ihright : FailsDetectably (py.visit context right) ↔ Stuck py context right) :
    FailsDetectably (py.visit context (.binOp left op right)) ↔
      Stuck py context (.binOp left op right) := by
  rw [Python.visit]
  simp only [failsDetectably_bind, ihleft, ihright, binOp_failsDetectably_iff]
  constructor
  · rintro (hs | ⟨v, hv, hs | ⟨w, hw, hop⟩⟩)
    · exact .left left op right hs
    · exact .right left op right v hv hs
    · exact .binary left op right v w hv hw hop
  · intro hstuck
    cases hstuck with
    | left _ _ _ hs => exact Or.inl hs
    | right _ _ _ v hv hs => exact Or.inr ⟨v, hv, Or.inl hs⟩
    | binary _ _ _ v w hv hw hop => exact Or.inr ⟨v, hv, Or.inr ⟨w, hw, hop⟩⟩

end Constructs

section Visit

variable {py : Python} {context : Context}

mutual

/-- **With its names bound, an expression fails detectably exactly when its
evaluation gets to a construct the visitor does not accept.** -/
theorem visit_detectable_iff : ∀ (n : Node), Bound context n →
    (FailsDetectably (py.visit context n) ↔ Stuck py context n)
  | .constant value, _ => by
    rw [Python.visit]
    exact iff_of_false (not_failsDetectably_ok _) (fun h => by cases h)
  | .name id, h => by
    rw [Python.visit]
    -- the validator has looked at the names, and each of them is bound
    obtain ⟨v, hv⟩ := visitName_ok (h id (Node.mem_names_self id))
    rw [hv]
    exact iff_of_false (not_failsDetectably_ok _) (fun h => by cases h)
  | .attr value attr, h =>
    attr_detectable_iff (visit_detectable_iff value (h.child (by simp [Node.children])))
  | .list elts, h => by
    have ih := visitList_detectable_iff elts fun n hn => h.child (show n ∈ elts from hn)
    rw [Python.visit, failsDetectably_map, ih]
    exact ⟨.list elts, fun hstuck => by cases hstuck with | list _ hs => exact hs⟩
  | .tuple elts, h => by
    have ih := visitList_detectable_iff elts fun n hn => h.child (show n ∈ elts from hn)
    rw [Python.visit, failsDetectably_map, ih]
    exact ⟨.tuple elts, fun hstuck => by cases hstuck with | tuple _ hs => exact hs⟩
  | .boolOp op values, h => by
    have ih := visitList_detectable_iff values fun n hn => h.child (show n ∈ values from hn)
    rw [Python.visit, failsDetectably_map, ih]
    exact ⟨.boolOp op values, fun hstuck => by cases hstuck with | boolOp _ _ hs => exact hs⟩
  | .compare left rest, h => by
    have ihleft := visit_detectable_iff left (h.child (by simp [Node.children]))
    have ihrest := visitCompare_detectable_iff rest fun p hp =>
      h.child (List.mem_cons_of_mem _ (List.mem_map_of_mem hp))
    exact compare_detectable_iff ihleft ihrest
  | .ifExp test body orelse, h => by
    have ihtest := visit_detectable_iff test (h.child (by simp [Node.children]))
    have ihbody := visit_detectable_iff body (h.child (by simp [Node.children]))
    have ihorelse := visit_detectable_iff orelse (h.child (by simp [Node.children]))
    exact ifExp_detectable_iff ihtest ihbody ihorelse
  | .call func args keywords, h => by
    have ihargs := visitList_detectable_iff args fun n hn =>
      h.child (List.mem_cons_of_mem _ (List.mem_append_left _ hn))
    have ihkeywords := visitKeywords_detectable_iff keywords fun p hp =>
      (h.child (c := .other "keyword" [p.2]) (List.mem_cons_of_mem _
        (List.mem_append_right _ (List.mem_map.mpr ⟨p, hp, rfl⟩)))).child
        (List.mem_singleton_self p.2)
    exact call_detectable_iff ihargs ihkeywords
  | .unaryOp op operand, h =>
    unaryOp_detectable_iff (visit_detectable_iff operand (h.child (by simp [Node.children])))
  | .binOp left op right, h => by
    have ihleft := visit_detectable_iff left (h.child (by simp [Node.children]))
    have ihright := visit_detectable_iff right (h.child (by simp [Node.children]))
    exact binOp_detectable_iff ihleft ihright
  | .other kind children, _ => by
    rw [Python.visit, failsDetectably_error]
    exact iff_of_true rfl (.other kind children)

theorem visitList_detectable_iff : ∀ (ns : List Node), (∀ n ∈ ns, Bound context n) →
    (FailsDetectably (py.visitList context ns) ↔ StuckList py context ns)
  | [], _ => by
    rw [Python.visitList]
    exact iff_of_false (not_failsDetectably_ok _) (fun h => by cases h)
  | n :: ns, h => by
    have ih := visit_detectable_iff n (h n (List.mem_cons_self ..))
    have ihs := visitList_detectable_iff ns fun m hm => h m (List.mem_cons_of_mem _ hm)
    rw [Python.visitList, failsDetectably_bind, ih]
    simp only [failsDetectably_map, ihs]
    constructor
    · rintro (hs | ⟨v, hv, hs⟩)
      · exact .head n ns hs
      · exact .tail n ns v hv hs
    · intro hstuck
      cases hstuck with
      | head _ _ hs => exact Or.inl hs
      | tail _ _ v hv hs => exact Or.inr ⟨v, hv, hs⟩

theorem visitCompare_detectable_iff : ∀ (rest : List (CmpOp × Node)),
    (∀ p ∈ rest, Bound context p.2) → ∀ v,
    (FailsDetectably (py.visitCompare context v rest) ↔ StuckCompare py context v rest)
  | [], _, _ => by
    rw [Python.visitCompare]
    exact iff_of_false (not_failsDetectably_ok _) (fun h => by cases h)
  | (op, n) :: rest, h, v => by
    have ih := visit_detectable_iff n (h (op, n) (List.mem_cons_self ..))
    have ihs := visitCompare_detectable_iff rest fun p hp => h p (List.mem_cons_of_mem _ hp)
    rw [Python.visitCompare, failsDetectably_bind, ih]
    simp only [failsDetectably_bind, not_failsDetectably_helper (helperOnly_builtin _), false_or]
    constructor
    · rintro (hs | ⟨w, hw, b, hb, hs⟩)
      · exact .here v op n rest hs
      · cases b with
        | false => exact absurd hs (not_failsDetectably_ok _)
        | true => exact .next v op n rest w hw (builtin_ok.mp hb) ((ihs w).mp hs)
    · intro hstuck
      cases hstuck with
      | here _ _ _ _ hs => exact Or.inl hs
      | next _ _ _ _ w hw hcompare hs =>
        exact Or.inr ⟨w, hw, true, builtin_ok.mpr hcompare, (ihs w).mpr hs⟩

theorem visitKeywords_detectable_iff : ∀ (keywords : List (Option String × Node)),
    (∀ p ∈ keywords, Bound context p.2) → ∀ kwargs,
    (FailsDetectably (py.visitKeywords context kwargs keywords) ↔ StuckKeywords py context keywords)
  | [], _, _ => by
    rw [Python.visitKeywords]
    exact iff_of_false (not_failsDetectably_ok _) (fun h => by cases h)
  | (none, n) :: keywords, _, _ => by
    rw [Python.visitKeywords, failsDetectably_error]
    exact iff_of_true rfl (.unpacking n keywords)
  | (some arg, n) :: keywords, h, kwargs => by
    have ih := visit_detectable_iff n (h (some arg, n) (List.mem_cons_self ..))
    have ihs := visitKeywords_detectable_iff keywords fun p hp => h p (List.mem_cons_of_mem _ hp)
    rw [Python.visitKeywords, failsDetectably_bind, ih]
    simp only [ihs]
    constructor
    · rintro (hs | ⟨v, hv, hs⟩)
      · exact .here arg n keywords hs
      · exact .next arg n keywords v hv hs
    · intro hstuck
      cases hstuck with
      | here _ _ _ hs => exact Or.inl hs
      | next _ _ _ v hv hs => exact Or.inr ⟨v, hv, hs⟩

end

end Visit

/-! ### Accepted formulas -/

/-- The names of a formula the validator accepts are bound in a context of its fields. -/
theorem bound_of_validateFormula {py : Python} {formula : String} {names : List String}
    {context : Context} {tree : Node} (hvalid : py.validateFormula formula names = .ok ())
    (hbinds : ∀ n ∈ names, (PyVal.dictGet context n).isSome = true)
    (htree : py.compileFormula formula = .ok tree) : Bound (wrapContext context) tree := by
  obtain ⟨-, hknown⟩ := validateFormula_ok_iff.mp hvalid
  intro id hid
  rw [← formulaNames_of_compile htree] at hid
  rcases hknown id hid with hhelper | hfield
  · exact Or.inr hhelper
  · left
    rw [dictGet_wrapContext, Option.isSome_map]
    exact hbinds id hfield

/-- **A formula the validator accepts never fails detectably, in a context of its
fields, exactly when its evaluation gets to no construct the visitor does not accept.** -/
theorem evaluate_detectable_iff {py : Python} {formula : String} {names : List String}
    {context : Context} (hvalid : py.validateFormula formula names = .ok ())
    (hbinds : ∀ n ∈ names, (PyVal.dictGet context n).isSome = true) :
    ¬ FailsDetectably (py.evaluate formula context) ↔
      ∀ tree, py.compileFormula formula = .ok tree → ¬ Stuck py (wrapContext context) tree := by
  obtain ⟨⟨tree, htree⟩, -⟩ := validateFormula_ok_iff.mp hvalid
  have hbound := bound_of_validateFormula hvalid hbinds htree
  have heval : FailsDetectably (py.evaluate formula context) ↔
      Stuck py (wrapContext context) tree := by
    unfold Python.evaluate
    rw [Failing.bind_of_ok htree, failsDetectably_map, visit_detectable_iff tree hbound]
  rw [heval]
  constructor
  · intro hno tree' htree'
    obtain rfl := Except.ok.inj (htree.symm.trans htree')
    exact hno
  · intro hno
    exact hno tree htree

/-- A subscript, as the parser reads it. -/
def subscriptFormula : String × Node :=
  ("items[0]", .other "Subscript" [.name "items", .constant (.int 0)])

/-- A name alone is accepted by the validator, and its evaluation does not fail. -/
theorem evaluate_detectable_iff_name :
    ¬ FailsDetectably ((plainPython [nameFormula]).evaluate "items" [("items", .list [.int 1])]) := by
  refine (@evaluate_detectable_iff _ _ ["items"] _ (by rfl) (by simp [PyVal.dictGet])).mpr ?_
  intro tree htree
  obtain rfl : Node.name "items" = tree := by
    have : (plainPython [nameFormula]).compileFormula "items" = .ok (Node.name "items") := by rfl
    exact Except.ok.inj (this.symm.trans htree)
  intro hstuck
  cases hstuck

/-- **The validator accepts a subscript**, on which the evaluation fails detectably. -/
theorem subscript_validates :
    ¬ ∀ (py : Python) (formula : String) (names : List String) (context : Context),
      py.validateFormula formula names = .ok () →
      (∀ n ∈ names, ∃ v, PyVal.dictGet context n = some v ∧ v.isJson = true) →
      ¬ FailsDetectably (py.evaluate formula context) := by
  intro hclaim
  refine hclaim (plainPython [subscriptFormula]) "items[0]" ["items"]
    [("items", .list [.int 1])] (by rfl) (by simp [PyVal.dictGet, PyVal.isJson, PyVal.isJsonList]) ?_
  exact ⟨.unsupportedSyntax "Subscript", by rfl, rfl⟩

/-! ### Supported expressions -/

mutual

/-- The expression has no construct the visitor does not accept, anywhere in it. -/
def Node.supported : Node → Bool
  | .constant _ => true
  | .name _ => true
  | .attr value key => !isPrivate key && Node.supported value
  | .list elts => supportedList elts
  | .tuple elts => supportedList elts
  | .boolOp _ values => supportedList values
  | .compare left rest => Node.supported left && supportedRest rest
  | .ifExp test body orelse => Node.supported test && Node.supported body && Node.supported orelse
  | .call func args keywords => func.helper? && supportedList args && supportedKeywords keywords
  | .unaryOp op operand => op.supported && Node.supported operand
  | .binOp left op right => op.supported && Node.supported left && Node.supported right
  | .other _ _ => false

def Node.supportedList : List Node → Bool
  | [] => true
  | n :: ns => Node.supported n && Node.supportedList ns

def Node.supportedRest : List (CmpOp × Node) → Bool
  | [] => true
  | (_, n) :: rest => Node.supported n && Node.supportedRest rest

def Node.supportedKeywords : List (Option String × Node) → Bool
  | [] => true
  | (arg, n) :: keywords => arg.isSome && Node.supported n && Node.supportedKeywords keywords

end

section Supported

variable {py : Python} {context : Context}

mutual

/-- **A supported expression is never stuck**, in any context. -/
theorem not_stuck_of_supported : ∀ (n : Node), n.supported = true → ¬ Stuck py context n
  | .constant _, _, hstuck => by cases hstuck
  | .name _, _, hstuck => by cases hstuck
  | .attr value key, h, hstuck => by
    obtain ⟨hkey, hvalue⟩ : isPrivate key = false ∧ value.supported = true := by
      simpa [Node.supported] using h
    cases hstuck with
    | privateAttr _ _ hp => rw [hkey] at hp; cases hp
    | attr _ _ _ hs => exact not_stuck_of_supported value hvalue hs
  | .list elts, h, hstuck => by
    cases hstuck with
    | list _ hs => exact not_stuckList_of_supported elts (by simpa [Node.supported] using h) hs
  | .tuple elts, h, hstuck => by
    cases hstuck with
    | tuple _ hs => exact not_stuckList_of_supported elts (by simpa [Node.supported] using h) hs
  | .boolOp op values, h, hstuck => by
    cases hstuck with
    | boolOp _ _ hs => exact not_stuckList_of_supported values (by simpa [Node.supported] using h) hs
  | .compare left rest, h, hstuck => by
    obtain ⟨hleft, hrest⟩ : left.supported = true ∧ Node.supportedRest rest = true := by
      simpa [Node.supported] using h
    cases hstuck with
    | compareLeft _ _ hs => exact not_stuck_of_supported left hleft hs
    | compare _ _ v _ hs => exact not_stuckCompare_of_supported rest hrest v hs
  | .ifExp test body orelse, h, hstuck => by
    obtain ⟨⟨htest, hbody⟩, horelse⟩ :
        (test.supported = true ∧ body.supported = true) ∧ orelse.supported = true := by
      simpa [Node.supported] using h
    cases hstuck with
    | test _ _ _ hs => exact not_stuck_of_supported test htest hs
    | body _ _ _ _ _ _ hs => exact not_stuck_of_supported body hbody hs
    | orelse _ _ _ _ _ _ hs => exact not_stuck_of_supported orelse horelse hs
  | .call func args keywords, h, hstuck => by
    -- a call: each way of being stuck contradicts one part of the condition
    obtain ⟨⟨hfunc, hargs⟩, hkeywords⟩ : (func.helper? = true ∧ Node.supportedList args = true) ∧
        Node.supportedKeywords keywords = true := by
      simpa [Node.supported] using h
    cases hstuck with
    | notAHelper _ _ _ hno => rw [hfunc] at hno; cases hno
    | args _ _ _ _ hs => exact not_stuckList_of_supported args hargs hs
    | keywords _ _ _ _ _ _ hs => exact not_stuckKeywords_of_supported keywords hkeywords hs
  | .unaryOp op operand, h, hstuck => by
    obtain ⟨hop, hoperand⟩ : op.supported = true ∧ operand.supported = true := by
      simpa [Node.supported] using h
    cases hstuck with
    | operand _ _ hs => exact not_stuck_of_supported operand hoperand hs
    | unary _ _ _ _ hno => rw [hop] at hno; cases hno
  | .binOp left op right, h, hstuck => by
    obtain ⟨⟨hop, hleft⟩, hright⟩ :
        (op.supported = true ∧ left.supported = true) ∧ right.supported = true := by
      simpa [Node.supported] using h
    cases hstuck with
    | left _ _ _ hs => exact not_stuck_of_supported left hleft hs
    | right _ _ _ _ _ hs => exact not_stuck_of_supported right hright hs
    | binary _ _ _ _ _ _ _ hno => rw [hop] at hno; cases hno
  | .other _ _, h, _ => by simp [Node.supported] at h

theorem not_stuckList_of_supported : ∀ (ns : List Node), Node.supportedList ns = true →
    ¬ StuckList py context ns
  | [], _, hstuck => by cases hstuck
  | n :: ns, h, hstuck => by
    obtain ⟨hn, hns⟩ : n.supported = true ∧ Node.supportedList ns = true := by
      simpa [Node.supportedList] using h
    cases hstuck with
    | head _ _ hs => exact not_stuck_of_supported n hn hs
    | tail _ _ _ _ hs => exact not_stuckList_of_supported ns hns hs

theorem not_stuckCompare_of_supported : ∀ (rest : List (CmpOp × Node)),
    Node.supportedRest rest = true → ∀ v, ¬ StuckCompare py context v rest
  | [], _, _, hstuck => by cases hstuck
  | (_, n) :: rest, h, _, hstuck => by
    obtain ⟨hn, hrest⟩ : n.supported = true ∧ Node.supportedRest rest = true := by
      simpa [Node.supportedRest] using h
    cases hstuck with
    | here _ _ _ _ hs => exact not_stuck_of_supported n hn hs
    | next _ _ _ _ w _ _ hs => exact not_stuckCompare_of_supported rest hrest w hs

theorem not_stuckKeywords_of_supported : ∀ (keywords : List (Option String × Node)),
    Node.supportedKeywords keywords = true → ¬ StuckKeywords py context keywords
  | [], _, hstuck => by cases hstuck
  | (arg, n) :: keywords, h, hstuck => by
    obtain ⟨⟨harg, hn⟩, hkeywords⟩ : (arg.isSome = true ∧ n.supported = true) ∧
        Node.supportedKeywords keywords = true := by
      simpa [Node.supportedKeywords] using h
    cases hstuck with
    | unpacking _ _ => cases harg
    | here _ _ _ hs => exact not_stuck_of_supported n hn hs
    | next _ _ _ _ _ hs => exact not_stuckKeywords_of_supported keywords hkeywords hs

end

end Supported

end ExtractFlow
