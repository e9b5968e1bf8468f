import ExtractFlow.Evaluator

/-!
# What an evaluation visits

`SafeEvaluator.visit` goes down a formula from left to right and stops where it
raises: a comparison that fails ends its chain, and a conditional expression has
one branch.  `Visits` collects the expressions the visitor is called on.

It misses none: what an evaluation looks up, it looks up at a name it visits.

## Main definitions

* `Visits` — the evaluation of one expression visits another.

## Main results

* `Visits.walk_subset` — what is visited is part of the formula.
* `Python.visit_congr_visits` — an evaluation reads the names it visits, and no others.
* `Python.evaluate_congr` — a formula reads the names in it, and no others.
-/

namespace ExtractFlow

section Visits

variable (py : Python) (context : Context)

mutual

/-- The evaluation of the first expression visits the second: it comes to it, given the values of
what it evaluated before. -/
inductive Visits : Node → Node → Prop
  | self (n) : Visits n n
  | attr (value attr m) : isPrivate attr = false → Visits value m → Visits (.attr value attr) m
  | list (elts m) : VisitsList elts m → Visits (.list elts) m
  | tuple (elts m) : VisitsList elts m → Visits (.tuple elts) m
  | boolOp (op values m) : VisitsList values m → Visits (.boolOp op values) m
  | compareLeft (left rest m) : Visits left m → Visits (.compare left rest) m
  | compare (left rest v m) : py.visit context left = .ok v → VisitsCompare v rest m →
      Visits (.compare left rest) m
  | test (test body orelse m) : Visits test m → Visits (.ifExp test body orelse) m
  | body (test body orelse v m) : py.visit context test = .ok v → py.truthy v = true →
      Visits body m → Visits (.ifExp test body orelse) m
  | orelse (test body orelse v m) : py.visit context test = .ok v → py.truthy v = false →
      Visits orelse m → Visits (.ifExp test body orelse) m
  | func (func args keywords m) : func.helper? = true → Visits func m →
      Visits (.call func args keywords) m
  | args (func args keywords m) : func.helper? = true → VisitsList args m →
      Visits (.call func args keywords) m
  | keywords (func args keywords vs m) : func.helper? = true →
      py.visitList context args = .ok vs → VisitsKeywords keywords m →
      Visits (.call func args keywords) m
  | operand (op operand m) : Visits operand m → Visits (.unaryOp op operand) m
  | left (left op right m) : Visits left m → Visits (.binOp left op right) m
  | right (left op right v m) : py.visit context left = .ok v → Visits right m →
      Visits (.binOp left op right) m

/-- So does the evaluation of a list of expressions, which ends with the first that raises. -/
inductive VisitsList : List Node → Node → Prop
  | head (n ns m) : Visits n m → VisitsList (n :: ns) m
  | tail (n ns v m) : py.visit context n = .ok v → VisitsList ns m → VisitsList (n :: ns) m

/-- So does a chain of comparisons, from a left operand on, which ends with the first pair that
fails. -/
inductive VisitsCompare : PyVal → List (CmpOp × Node) → Node → Prop
  | here (v op n rest m) : Visits n m → VisitsCompare v ((op, n) :: rest) m
  | next (v op n rest w m) : py.visit context n = .ok w → py.compare op v w = .ok true →
      VisitsCompare w rest m → VisitsCompare v ((op, n) :: rest) m

/-- So does the evaluation of the keywords of a call, one after the other. -/
inductive VisitsKeywords : List (Option String × Node) → Node → Prop
  | here (arg n keywords m) : Visits n m → VisitsKeywords ((some arg, n) :: keywords) m
  | next (arg n keywords v m) : py.visit context n = .ok v → VisitsKeywords keywords m →
      VisitsKeywords ((some arg, n) :: keywords) m

end

end Visits

section Facts

variable {py : Python} {context context' : Context}

mutual

/-- **What is visited is part of the formula**, so the walk over the formula comes to it, too. -/
theorem Visits.walk_subset : ∀ {n m : Node}, Visits py context n m → m.walk ⊆ n.walk
  | _, _, .self n => List.Subset.refl _
  | _, _, .attr value attr m _ h => fun _ hm =>
    Node.mem_walk_of_child (by simp [Node.children]) (h.walk_subset hm)
  | _, _, .list elts m h => h.walk_subset (n := .list elts) fun _ hn => hn
  | _, _, .tuple elts m h => h.walk_subset (n := .tuple elts) fun _ hn => hn
  | _, _, .boolOp op values m h => h.walk_subset (n := .boolOp op values) fun _ hn => hn
  | _, _, .compareLeft left rest m h => fun _ hm =>
    Node.mem_walk_of_child (by simp [Node.children]) (h.walk_subset hm)
  | _, _, .compare left rest v m _ h =>
    h.walk_subset (n := .compare left rest) fun _ hp =>
      List.mem_cons_of_mem _ (List.mem_map_of_mem hp)
  | _, _, .test test body orelse m h => fun _ hm =>
    Node.mem_walk_of_child (by simp [Node.children]) (h.walk_subset hm)
  | _, _, .body test body orelse v m _ _ h => fun _ hm =>
    Node.mem_walk_of_child (by simp [Node.children]) (h.walk_subset hm)
  | _, _, .orelse test body orelse v m _ _ h => fun _ hm =>
    Node.mem_walk_of_child (by simp [Node.children]) (h.walk_subset hm)
  -- The children of a call are the function, the arguments and the values of the keywords.
  | _, _, .func func args keywords m _ h => fun _ hm =>
    Node.mem_walk_of_child (by simp [Node.children]) (h.walk_subset hm)
  | _, _, .args func args keywords m _ h =>
    h.walk_subset (n := .call func args keywords) fun _ hn =>
      List.mem_cons_of_mem _ (List.mem_append_left _ hn)
  | _, _, .keywords func args keywords vs m _ _ h =>
    h.walk_subset (n := .call func args keywords) fun _ hp =>
      List.mem_cons_of_mem _ (List.mem_append_right _ (List.mem_map_of_mem hp))
  | _, _, .operand op operand m h => fun _ hm =>
    Node.mem_walk_of_child (by simp [Node.children]) (h.walk_subset hm)
  | _, _, .left left op right m h => fun _ hm =>
    Node.mem_walk_of_child (by simp [Node.children]) (h.walk_subset hm)
  | _, _, .right left op right v m _ h => fun _ hm =>
    Node.mem_walk_of_child (by simp [Node.children]) (h.walk_subset hm)

theorem VisitsList.walk_subset : ∀ {ns : List Node} {m n : Node}, VisitsList py context ns m →
    (∀ c ∈ ns, c ∈ n.children) → m.walk ⊆ n.walk
  | _, _, _, .head c ns m h, hns => fun _ hm =>
    Node.mem_walk_of_child (hns c (List.mem_cons_self ..)) (h.walk_subset hm)
  | _, _, _, .tail c ns _ m _ h, hns =>
    h.walk_subset fun c hc => hns c (List.mem_cons_of_mem _ hc)

theorem VisitsCompare.walk_subset : ∀ {v : PyVal} {rest : List (CmpOp × Node)} {m n : Node},
    VisitsCompare py context v rest m → (∀ p ∈ rest, p.2 ∈ n.children) → m.walk ⊆ n.walk
  | _, _, _, _, .here v op c rest m h, hrest => fun _ hm =>
    Node.mem_walk_of_child (hrest (op, c) (List.mem_cons_self ..)) (h.walk_subset hm)
  | _, _, _, _, .next v op c rest _ m _ _ h, hrest =>
    h.walk_subset fun p hp => hrest p (List.mem_cons_of_mem _ hp)

theorem VisitsKeywords.walk_subset : ∀ {keywords : List (Option String × Node)} {m n : Node},
    VisitsKeywords py context keywords m →
      (∀ p ∈ keywords, Node.other "keyword" [p.2] ∈ n.children) → m.walk ⊆ n.walk
  | _, _, _, .here arg c keywords m h, hkeywords => fun _ hm =>
    Node.mem_walk_of_child (hkeywords (some arg, c) (List.mem_cons_self ..))
      (Node.mem_walk_of_child (List.mem_singleton_self c) (h.walk_subset hm))
  | _, _, _, .next arg c keywords _ m _ h, hkeywords =>
    h.walk_subset fun p hp => hkeywords p (List.mem_cons_of_mem _ hp)

end

/-- So are the names in it. -/
theorem Visits.names_subset {n m : Node} (h : Visits py context n m) : m.names ⊆ n.names :=
  fun _ hid =>
    let ⟨c, hc, hname⟩ := List.mem_filterMap.mp hid
    List.mem_filterMap.mpr ⟨c, h.walk_subset hc, hname⟩

mutual

/-- **An evaluation reads the names it visits**, and no others: contexts that agree on these give
the same value. -/
theorem Python.visit_congr_visits : ∀ (n : Node),
    (∀ id, Visits py context n (.name id) →
      PyVal.dictGet context id = PyVal.dictGet context' id) →
    py.visit context n = py.visit context' n
  | .constant value, _ => by rw [visit, visit]
  | .name id, h => by rw [visit, visit, visitName, visitName, h id (.self _)]
  | .attr value attr, h => by
    rw [visit, visit]
    cases hprivate : isPrivate attr with
    | true => rfl
    | false =>
      simp only [visit_congr_visits value fun id hid => h id (.attr value attr _ hprivate hid)]
  | .list elts, h => by
    rw [visit, visit, visitList_congr_visits elts fun id hid => h id (.list elts _ hid)]
  | .tuple elts, h => by
    rw [visit, visit, visitList_congr_visits elts fun id hid => h id (.tuple elts _ hid)]
  | .boolOp op values, h => by
    rw [visit, visit, visitList_congr_visits values fun id hid => h id (.boolOp op values _ hid)]
  | .compare left rest, h => by
    rw [visit, visit, ← visit_congr_visits left fun id hid => h id (.compareLeft left rest _ hid)]
    cases hleft : py.visit context left with
    | error e => rfl
    | ok v =>
      rw [Failing.bind_of_ok rfl, Failing.bind_of_ok rfl,
        visitCompare_congr_visits rest v fun id hid => h id (.compare left rest v _ hleft hid)]
  | .ifExp test body orelse, h => by
    rw [visit, visit, ← visit_congr_visits test fun id hid => h id (.test test body orelse _ hid)]
    -- only the branch that is taken reads names
    cases htest : py.visit context test with
    | error e => rfl
    | ok v =>
      rw [Failing.bind_of_ok rfl, Failing.bind_of_ok rfl]
      cases htruthy : py.truthy v with
      | true =>
        exact visit_congr_visits body fun id hid =>
          h id (.body test body orelse v _ htest htruthy hid)
      | false =>
        exact visit_congr_visits orelse fun id hid =>
          h id (.orelse test body orelse v _ htest htruthy hid)
  | .call func args keywords, h => by
    rw [visit, visit]
    cases hhelper : func.helper? with
    | false => rfl
    | true =>
      rw [if_pos rfl, if_pos rfl,
        ← visit_congr_visits func fun id hid => h id (.func func args keywords _ hhelper hid),
        ← visitList_congr_visits args fun id hid => h id (.args func args keywords _ hhelper hid)]
      refine congrArg _ (funext fun fn => ?_)
      -- the keywords are evaluated once the arguments have values
      cases hargs : py.visitList context args with
      | error e => rfl
      | ok vs =>
        rw [Failing.bind_of_ok rfl, Failing.bind_of_ok rfl,
          visitKeywords_congr_visits keywords [] fun id hid =>
            h id (.keywords func args keywords vs _ hhelper hargs hid)]
  | .unaryOp op operand, h => by
    rw [visit, visit, visit_congr_visits operand fun id hid => h id (.operand op operand _ hid)]
  | .binOp left op right, h => by
    rw [visit, visit, ← visit_congr_visits left fun id hid => h id (.left left op right _ hid)]
    cases hleft : py.visit context left with
    | error e => rfl
    | ok v =>
      rw [Failing.bind_of_ok rfl, Failing.bind_of_ok rfl,
        visit_congr_visits right fun id hid => h id (.right left op right v _ hleft hid)]
  | .other kind children, _ => by rw [visit, visit]

theorem Python.visitList_congr_visits : ∀ (ns : List Node),
    (∀ id, VisitsList py context ns (.name id) →
      PyVal.dictGet context id = PyVal.dictGet context' id) →
    py.visitList context ns = py.visitList context' ns
  | [], _ => by rw [visitList, visitList]
  | n :: ns, h => by
    rw [visitList, visitList, ← visit_congr_visits n fun id hid => h id (.head n ns _ hid)]
    cases hn : py.visit context n with
    | error e => rfl
    | ok v =>
      rw [Failing.bind_of_ok rfl, Failing.bind_of_ok rfl,
        visitList_congr_visits ns fun id hid => h id (.tail n ns v _ hn hid)]

theorem Python.visitCompare_congr_visits : ∀ (rest : List (CmpOp × Node)) (v : PyVal),
    (∀ id, VisitsCompare py context v rest (.name id) →
      PyVal.dictGet context id = PyVal.dictGet context' id) →
    py.visitCompare context v rest = py.visitCompare context' v rest
  | [], _, _ => by rw [visitCompare, visitCompare]
  | (op, n) :: rest, v, h => by
    rw [visitCompare, visitCompare,
      ← visit_congr_visits n fun id hid => h id (.here v op n rest _ hid)]
    cases hn : py.visit context n with
    | error e => rfl
    | ok w =>
      rw [Failing.bind_of_ok rfl, Failing.bind_of_ok rfl]
      cases hcompare : py.compare op v w with
      | error e => rfl
      | ok passes =>
        cases passes with
        | false => rfl
        | true =>
          exact visitCompare_congr_visits rest w fun id hid =>
            h id (.next v op n rest w _ hn hcompare hid)

theorem Python.visitKeywords_congr_visits : ∀ (keywords : List (Option String × Node))
    (kwargs : Kwargs), (∀ id, VisitsKeywords py context keywords (.name id) →
      PyVal.dictGet context id = PyVal.dictGet context' id) →
    py.visitKeywords context kwargs keywords = py.visitKeywords context' kwargs keywords
  | [], _, _ => by rw [visitKeywords, visitKeywords]
  | (none, _) :: _, _, _ => by rw [visitKeywords, visitKeywords]
  | (some arg, n) :: keywords, kwargs, h => by
    rw [visitKeywords, visitKeywords,
      ← visit_congr_visits n fun id hid => h id (.here arg n keywords _ hid)]
    cases hn : py.visit context n with
    | error e => rfl
    | ok v =>
      rw [Failing.bind_of_ok rfl, Failing.bind_of_ok rfl]
      exact visitKeywords_congr_visits keywords _ fun id hid =>
        h id (.next arg n keywords v _ hn hid)

end

/-- Two contexts agree on some names. -/
def AgreeOn (names : List String) (context context' : Context) : Prop :=
  ∀ id ∈ names, PyVal.dictGet context id = PyVal.dictGet context' id

/-- An evaluation reads the names of its expression. -/
theorem Python.visit_congr {n : Node} (h : AgreeOn n.names context context') :
    py.visit context n = py.visit context' n :=
  visit_congr_visits n fun id hid => h id (hid.names_subset (Node.mem_names_self id))

/-- **A formula's value depends on the fields it names**, and no others. -/
theorem Python.evaluate_congr {formula : String}
    (h : AgreeOn (py.formulaNames formula) context context') :
    py.evaluate formula context = py.evaluate formula context' := by
  unfold formulaNames at h
  cases htree : py.compileFormula formula with
  | error e =>
    unfold evaluate
    rw [htree]
    rfl
  | ok tree =>
    rw [htree] at h
    have hwrap : AgreeOn tree.names (wrapContext context) (wrapContext context') := by
      intro id hid
      rw [dictGet_wrapContext, dictGet_wrapContext, h id hid]
    rw [evaluate_of_compile htree, evaluate_of_compile htree, evaluateTree, evaluateTree,
      visit_congr hwrap]

end Facts

end ExtractFlow
