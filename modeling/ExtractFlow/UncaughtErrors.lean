import ExtractFlow.HelperLimits
import ExtractFlow.Visits

/-!
# Where an evaluation raises what is not caught

An evaluation goes down its formula and applies operators and helpers to the values of
their operands.  Names, attributes, comparisons and signs raise nothing but what the
calculations catch, so an exception that is not caught comes from one of two operations:
a binary operator or the call of a helper, on values that break it.

## Main definitions

* `FormulaOperation`, `FormulaOperation.Breaks` — an operation on values, and those that break it.
* `Performs` — an evaluation gets to an operation.

## Main results

* `hits_uncaught_iff` — an evaluation hits what is not caught when it performs an operation
  its operands break.
-/

namespace ExtractFlow

/-! ### Operations -/

/-- An operation of a formula, on the values it gets; these two are the ones that can break. -/
inductive FormulaOperation where
  | binary (op : BinOperator) (left right : PyVal)
  | call (f : PyVal) (args : List PyVal) (kwargs : Kwargs)

/-- The operands break the operation: the exception it raises is not caught. -/
def FormulaOperation.Breaks (py : Python) : FormulaOperation → Prop
  | .binary op left right => BinaryBreaks py op left right
  | .call f args kwargs => CallBreaks py f args kwargs

section Performs

variable (py : Python) (context : Context)

/-- The operation of an expression, on the values of its parts, when the evaluation gets as far as
applying it. -/
inductive Applies : Node → FormulaOperation → Prop
  | binary (left op right v w) : py.visit context left = .ok v → py.visit context right = .ok w →
      Applies (.binOp left op right) (.binary op v w)
  | call (func args keywords f vs kws) : func.helper? = true → py.visit context func = .ok f →
      py.visitList context args = .ok vs → py.visitKeywords context [] keywords = .ok kws →
      Applies (.call func args keywords) (.call f vs kws)

/-- The evaluation of an expression gets to an operation: one of the expressions it visits
applies it. -/
def Performs (n : Node) (op : FormulaOperation) : Prop :=
  ∃ m, Visits py context n m ∧ Applies py context m op

/-- The operation of an expression breaks. -/
def BrokenAt (m : Node) : Prop := ∃ op, Applies py context m op ∧ op.Breaks py

/-- That of an expression the evaluation visits. -/
def Broken (n : Node) : Prop := ∃ m, Visits py context n m ∧ BrokenAt py context m

/-- That of an expression of a list. -/
def BrokenList (ns : List Node) : Prop :=
  ∃ m, VisitsList py context ns m ∧ BrokenAt py context m

/-- That of an expression of a chain of comparisons. -/
def BrokenCompare (v : PyVal) (rest : List (CmpOp × Node)) : Prop :=
  ∃ m, VisitsCompare py context v rest m ∧ BrokenAt py context m

/-- That of an expression of the keywords of a call. -/
def BrokenKeywords (keywords : List (Option String × Node)) : Prop :=
  ∃ m, VisitsKeywords py context keywords m ∧ BrokenAt py context m

end Performs

section Facts

variable {py : Python} {context : Context}

theorem broken_iff_performs {n : Node} :
    Broken py context n ↔ ∃ op, Performs py context n op ∧ op.Breaks py := by
  constructor
  · rintro ⟨m, hm, op, hop, h⟩
    exact ⟨op, ⟨m, hm, hop⟩, h⟩
  · rintro ⟨op, ⟨m, hm, hop⟩, h⟩
    exact ⟨m, hm, op, hop, h⟩

/-- The kind of exceptions that are not caught. -/
abbrev Uncaught (e : EvalErr) : Prop := e.caught = false

theorem not_aborts_visitName (id : String) : ¬ Aborts (visitName context id) := by
  unfold visitName
  split
  · exact not_aborts_ok _
  · split
    · exact not_aborts_ok _
    · exact not_aborts_formula _

theorem not_aborts_getAttribute (value : PyVal) (attr : String) :
    ¬ Aborts (getAttribute value attr) := by
  unfold getAttribute
  split
  · split <;> exact not_aborts_ok _
  · exact not_aborts_ok _
  · exact not_aborts_formula _

/-! ### One construct at a time

What a construct hits, from what its parts hit: each of the lemmas follows `Hits` and
`Visits` through one construct.  The cases where the construct itself raises are those the
calculations catch, but for operators and calls. -/

theorem hits_name (id : String) :
    Hits Uncaught py context (.name id) ↔ Broken py context (.name id) := by
  refine iff_of_false (fun h => ?_) ?_
  · cases h with
    | name _ h => exact not_aborts_visitName id h
  · rintro ⟨m, hm, op, hop, -⟩
    cases hm
    cases hop

theorem hits_attr {value : Node} (ih : Hits Uncaught py context value ↔ Broken py context value)
    (attr : String) :
    Hits Uncaught py context (.attr value attr) ↔ Broken py context (.attr value attr) := by
  constructor
  · intro h
    cases h with
    | privateAttr _ _ _ h => cases h
    | attrValue _ _ hprivate h =>
      obtain ⟨m, hm, hbroken⟩ := ih.mp h
      exact ⟨m, .attr value attr m hprivate hm, hbroken⟩
    | attr _ _ v _ _ h => exact (not_aborts_getAttribute v attr h).elim
  · rintro ⟨m, hm, hbroken⟩
    cases hm with
    | self =>
      obtain ⟨op, hop, -⟩ := hbroken
      cases hop
    | attr _ _ _ hprivate hm => exact .attrValue value attr hprivate (ih.mpr ⟨m, hm, hbroken⟩)

theorem hits_list {elts : List Node}
    (ih : HitsList Uncaught py context elts ↔ BrokenList py context elts) :
    Hits Uncaught py context (.list elts) ↔ Broken py context (.list elts) := by
  constructor
  · intro h
    cases h with
    | list _ h =>
      obtain ⟨m, hm, hbroken⟩ := ih.mp h
      exact ⟨m, .list elts m hm, hbroken⟩
  · rintro ⟨m, hm, hbroken⟩
    cases hm with
    | self =>
      obtain ⟨op, hop, -⟩ := hbroken
      cases hop
    | list _ _ hm => exact .list elts (ih.mpr ⟨m, hm, hbroken⟩)

theorem hits_tuple {elts : List Node}
    (ih : HitsList Uncaught py context elts ↔ BrokenList py context elts) :
    Hits Uncaught py context (.tuple elts) ↔ Broken py context (.tuple elts) := by
  constructor
  · intro h
    cases h with
    | tuple _ h =>
      obtain ⟨m, hm, hbroken⟩ := ih.mp h
      exact ⟨m, .tuple elts m hm, hbroken⟩
  · rintro ⟨m, hm, hbroken⟩
    cases hm with
    | self =>
      obtain ⟨op, hop, -⟩ := hbroken
      cases hop
    | tuple _ _ hm => exact .tuple elts (ih.mpr ⟨m, hm, hbroken⟩)

theorem hits_boolOp {values : List Node}
    (ih : HitsList Uncaught py context values ↔ BrokenList py context values)
    (op : BoolOperator) :
    Hits Uncaught py context (.boolOp op values) ↔ Broken py context (.boolOp op values) := by
  constructor
  · intro h
    cases h with
    | boolOp _ _ h =>
      obtain ⟨m, hm, hbroken⟩ := ih.mp h
      exact ⟨m, .boolOp op values m hm, hbroken⟩
  · rintro ⟨m, hm, hbroken⟩
    cases hm with
    | self =>
      obtain ⟨op, hop, -⟩ := hbroken
      cases hop
    | boolOp _ _ _ hm => exact .boolOp op values (ih.mpr ⟨m, hm, hbroken⟩)

theorem hits_compare {left : Node} {rest : List (CmpOp × Node)}
    (ihleft : Hits Uncaught py context left ↔ Broken py context left)
    (ihrest : ∀ v, HitsCompare Uncaught py context v rest ↔ BrokenCompare py context v rest) :
    Hits Uncaught py context (.compare left rest) ↔ Broken py context (.compare left rest) := by
  constructor
  · intro h
    cases h with
    | compareLeft _ _ h =>
      obtain ⟨m, hm, hbroken⟩ := ihleft.mp h
      exact ⟨m, .compareLeft left rest m hm, hbroken⟩
    | compare _ _ v hv h =>
      obtain ⟨m, hm, hbroken⟩ := (ihrest v).mp h
      exact ⟨m, .compare left rest v m hv hm, hbroken⟩
  · rintro ⟨m, hm, hbroken⟩
    cases hm with
    | self =>
      obtain ⟨op, hop, -⟩ := hbroken
      cases hop
    | compareLeft _ _ _ hm => exact .compareLeft left rest (ihleft.mpr ⟨m, hm, hbroken⟩)
    | compare _ _ v _ hv hm => exact .compare left rest v hv ((ihrest v).mpr ⟨m, hm, hbroken⟩)

theorem hits_ifExp {test body orelse : Node}
    (ihtest : Hits Uncaught py context test ↔ Broken py context test)
    (ihbody : Hits Uncaught py context body ↔ Broken py context body)
    (ihorelse : Hits Uncaught py context orelse ↔ Broken py context orelse) :
    Hits Uncaught py context (.ifExp test body orelse) ↔
      Broken py context (.ifExp test body orelse) := by
  constructor
  · intro h
    cases h with
    | test _ _ _ h =>
      obtain ⟨m, hm, hbroken⟩ := ihtest.mp h
      exact ⟨m, .test test body orelse m hm, hbroken⟩
    | body _ _ _ v hv htruthy h =>
      obtain ⟨m, hm, hbroken⟩ := ihbody.mp h
      exact ⟨m, .body test body orelse v m hv htruthy hm, hbroken⟩
    -- The same, with a test that is not true.
    | orelse _ _ _ v hv htruthy h =>
      obtain ⟨m, hm, hbroken⟩ := ihorelse.mp h
      exact ⟨m, .orelse test body orelse v m hv htruthy hm, hbroken⟩
  · rintro ⟨m, hm, hbroken⟩
    cases hm with
    | self =>
      obtain ⟨op, hop, -⟩ := hbroken
      cases hop
    | test _ _ _ _ hm => exact .test test body orelse (ihtest.mpr ⟨m, hm, hbroken⟩)
    | body _ _ _ v _ hv htruthy hm =>
      exact .body test body orelse v hv htruthy (ihbody.mpr ⟨m, hm, hbroken⟩)
    | orelse _ _ _ v _ hv htruthy hm =>
      exact .orelse test body orelse v hv htruthy (ihorelse.mpr ⟨m, hm, hbroken⟩)

/-- A helper is a name, which applies no operation. -/
theorem not_broken_helper {func : Node} (h : func.helper? = true) : ¬ Broken py context func := by
  rintro ⟨m, hm, op, hop, -⟩
  cases func with
  | name id =>
    cases hm
    cases hop
  | _ => cases h

/-- The evaluation of a call raises what is not caught when some operation below it breaks, or the
call itself. -/
theorem hits_call (laws : LibraryErrors py) {func : Node} {args : List Node}
    {keywords : List (Option String × Node)}
    (ihargs : HitsList Uncaught py context args ↔ BrokenList py context args)
    (ihkeywords : HitsKeywords Uncaught py context [] keywords ↔
      BrokenKeywords py context keywords) :
    Hits Uncaught py context (.call func args keywords) ↔
      Broken py context (.call func args keywords) := by
  constructor
  · intro h
    cases h with
    | notAHelper _ _ _ _ h => cases h
    | args _ _ _ hhelper h =>
      obtain ⟨m, hm, hbroken⟩ := ihargs.mp h
      exact ⟨m, .args func args keywords m hhelper hm, hbroken⟩
    | keywords _ _ _ vs hhelper hvs h =>
      obtain ⟨m, hm, hbroken⟩ := ihkeywords.mp h
      exact ⟨m, .keywords func args keywords vs m hhelper hvs hm, hbroken⟩
    -- the parts have values, and the helper breaks on them
    | call _ _ _ f vs kws hhelper hf hvs hkws h =>
      exact ⟨_, .self _, .call f vs kws, .call func args keywords f vs kws hhelper hf hvs hkws,
        (callValue_aborts_iff laws f vs kws).mp h⟩
  · rintro ⟨m, hm, hbroken⟩
    cases hm with
    | self =>
      obtain ⟨op, hop, hbreaks⟩ := hbroken
      cases hop with
      | call _ _ _ f vs kws hhelper hf hvs hkws =>
        exact .call func args keywords f vs kws hhelper hf hvs hkws
          ((callValue_aborts_iff laws f vs kws).mpr hbreaks)
    | func _ _ _ _ hhelper hm => exact (not_broken_helper hhelper ⟨m, hm, hbroken⟩).elim
    | args _ _ _ _ hhelper hm =>
      exact .args func args keywords hhelper (ihargs.mpr ⟨m, hm, hbroken⟩)
    | keywords _ _ _ vs _ hhelper hvs hm =>
      exact .keywords func args keywords vs hhelper hvs (ihkeywords.mpr ⟨m, hm, hbroken⟩)

theorem hits_unaryOp (laws : LibraryErrors py) {operand : Node}
    (ih : Hits Uncaught py context operand ↔ Broken py context operand) (op : UnaryOperator) :
    Hits Uncaught py context (.unaryOp op operand) ↔ Broken py context (.unaryOp op operand) := by
  constructor
  · intro h
    cases h with
    | operand _ _ h =>
      obtain ⟨m, hm, hbroken⟩ := ih.mp h
      exact ⟨m, .operand op operand m hm, hbroken⟩
    | unary _ _ v _ h => exact (not_aborts_unaryOp laws op v h).elim
  · rintro ⟨m, hm, hbroken⟩
    cases hm with
    | self =>
      obtain ⟨op, hop, -⟩ := hbroken
      cases hop
    | operand _ _ _ hm => exact .operand op operand (ih.mpr ⟨m, hm, hbroken⟩)

theorem hits_binOp (laws : LibraryErrors py) {left right : Node}
    (ihleft : Hits Uncaught py context left ↔ Broken py context left)
    (ihright : Hits Uncaught py context right ↔ Broken py context right) (op : BinOperator) :
    Hits Uncaught py context (.binOp left op right) ↔ Broken py context (.binOp left op right) := by
  constructor
  · intro h
    cases h with
    | left _ _ _ h =>
      obtain ⟨m, hm, hbroken⟩ := ihleft.mp h
      exact ⟨m, .left left op right m hm, hbroken⟩
    | right _ _ _ v hv h =>
      obtain ⟨m, hm, hbroken⟩ := ihright.mp h
      exact ⟨m, .right left op right v m hv hm, hbroken⟩
    | binary _ _ _ v w hv hw h =>
      exact ⟨_, .self _, .binary op v w, .binary left op right v w hv hw,
        (binOp_aborts_iff laws op).mp h⟩
  · rintro ⟨m, hm, hbroken⟩
    cases hm with
    | self =>
      obtain ⟨op, hop, hbreaks⟩ := hbroken
      cases hop with
      | binary _ _ _ v w hv hw =>
        exact .binary left op right v w hv hw ((binOp_aborts_iff laws op).mpr hbreaks)
    | left _ _ _ _ hm => exact .left left op right (ihleft.mpr ⟨m, hm, hbroken⟩)
    | right _ _ _ v _ hv hm => exact .right left op right v hv (ihright.mpr ⟨m, hm, hbroken⟩)

mutual

/-- By induction on the expression, one lemma for each construct. -/
theorem hits_iff_broken (laws : LibraryErrors py) : ∀ (n : Node),
    Hits Uncaught py context n ↔ Broken py context n
  | .constant value => by
    refine iff_of_false (fun h => by cases h) ?_
    rintro ⟨m, hm, op, hop, -⟩
    cases hm
    cases hop
  | .name id => hits_name id
  | .attr value attr => hits_attr (hits_iff_broken laws value) attr
  | .list elts => hits_list (hitsList_iff_broken laws elts)
  | .tuple elts => hits_tuple (hitsList_iff_broken laws elts)
  | .boolOp op values => hits_boolOp (hitsList_iff_broken laws values) op
  | .compare left rest =>
    hits_compare (hits_iff_broken laws left) (hitsCompare_iff_broken laws rest)
  | .ifExp test body orelse =>
    hits_ifExp (hits_iff_broken laws test) (hits_iff_broken laws body) (hits_iff_broken laws orelse)
  | .call _ args keywords =>
    hits_call laws (hitsList_iff_broken laws args) (hitsKeywords_iff_broken laws keywords [])
  | .unaryOp op operand => hits_unaryOp laws (hits_iff_broken laws operand) op
  | .binOp left op right =>
    hits_binOp laws (hits_iff_broken laws left) (hits_iff_broken laws right) op
  -- An unsupported construct raises an error that the loop catches.
  | .other kind children => by
    refine iff_of_false (fun h => ?_) ?_
    · cases h with
      | other _ _ h => cases h
    · rintro ⟨m, hm, op, hop, -⟩
      cases hm
      cases hop

theorem hitsList_iff_broken (laws : LibraryErrors py) : ∀ (ns : List Node),
    HitsList Uncaught py context ns ↔ BrokenList py context ns
  | [] => iff_of_false (fun h => by cases h) fun ⟨_, h, _⟩ => by cases h
  | n :: ns => by
    constructor
    · intro h
      cases h with
      | head _ _ h =>
        obtain ⟨m, hm, hbroken⟩ := (hits_iff_broken laws n).mp h
        exact ⟨m, .head n ns m hm, hbroken⟩
      | tail _ _ v hv h =>
        obtain ⟨m, hm, hbroken⟩ := (hitsList_iff_broken laws ns).mp h
        exact ⟨m, .tail n ns v m hv hm, hbroken⟩
    · rintro ⟨m, hm, hbroken⟩
      cases hm with
      | head _ _ _ hm => exact .head n ns ((hits_iff_broken laws n).mpr ⟨m, hm, hbroken⟩)
      | tail _ _ v _ hv hm =>
        exact .tail n ns v hv ((hitsList_iff_broken laws ns).mpr ⟨m, hm, hbroken⟩)

theorem hitsCompare_iff_broken (laws : LibraryErrors py) : ∀ (rest : List (CmpOp × Node))
    (v : PyVal), HitsCompare Uncaught py context v rest ↔ BrokenCompare py context v rest
  | [], _ => iff_of_false (fun h => by cases h) fun ⟨_, h, _⟩ => by cases h
  | (op, n) :: rest, v => by
    constructor
    · intro h
      cases h with
      | here _ _ _ _ h =>
        obtain ⟨m, hm, hbroken⟩ := (hits_iff_broken laws n).mp h
        exact ⟨m, .here v op n rest m hm, hbroken⟩
      | compare _ _ _ _ w _ h => exact (not_breaks_compare laws op v w (aborts_builtin.mp h)).elim
      | next _ _ _ _ w hw hpasses h =>
        obtain ⟨m, hm, hbroken⟩ := (hitsCompare_iff_broken laws rest w).mp h
        exact ⟨m, .next v op n rest w m hw hpasses hm, hbroken⟩
    · rintro ⟨m, hm, hbroken⟩
      cases hm with
      | here _ _ _ _ _ hm => exact .here v op n rest ((hits_iff_broken laws n).mpr ⟨m, hm, hbroken⟩)
      | next _ _ _ _ w _ hw hpasses hm =>
        exact .next v op n rest w hw hpasses
          ((hitsCompare_iff_broken laws rest w).mpr ⟨m, hm, hbroken⟩)

theorem hitsKeywords_iff_broken (laws : LibraryErrors py) :
    ∀ (keywords : List (Option String × Node)) (kwargs : Kwargs),
      HitsKeywords Uncaught py context kwargs keywords ↔ BrokenKeywords py context keywords
  | [], _ => iff_of_false (fun h => by cases h) fun ⟨_, h, _⟩ => by cases h
  | (none, n) :: keywords, _ => by
    refine iff_of_false (fun h => ?_) fun ⟨_, h, _⟩ => by cases h
    cases h with
    | unpacking _ _ _ h => cases h
  | (some arg, n) :: keywords, kwargs => by
    constructor
    · intro h
      cases h with
      | here _ _ _ _ h =>
        obtain ⟨m, hm, hbroken⟩ := (hits_iff_broken laws n).mp h
        exact ⟨m, .here arg n keywords m hm, hbroken⟩
      | next _ _ _ _ v hv h =>
        obtain ⟨m, hm, hbroken⟩ := (hitsKeywords_iff_broken laws keywords _).mp h
        exact ⟨m, .next arg n keywords v m hv hm, hbroken⟩
    · rintro ⟨m, hm, hbroken⟩
      cases hm with
      | here _ _ _ _ hm =>
        exact .here kwargs arg n keywords ((hits_iff_broken laws n).mpr ⟨m, hm, hbroken⟩)
      | next _ _ _ v _ hv hm =>
        exact .next kwargs arg n keywords v hv
          ((hitsKeywords_iff_broken laws keywords _).mpr ⟨m, hm, hbroken⟩)

end

/-- **An evaluation hits what is not caught exactly when it performs an operation that its
operands break.** -/
theorem hits_uncaught_iff (laws : LibraryErrors py) (n : Node) :
    Hits Uncaught py context n ↔ ∃ op, Performs py context n op ∧ op.Breaks py :=
  (hits_iff_broken laws n).trans broken_iff_performs

end Facts

end ExtractFlow
