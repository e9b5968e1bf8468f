import ExtractFlow.Formulas
import ExtractFlow.Helpers

/-!
# The formula engine

`FormulaEngine` of `formulas.py`: a formula is parsed, its names are checked
against the names it may use, and a visitor evaluates it in a context of field
values.  The visitor accepts thirteen classes of nodes.  A dictionary of the
context is wrapped in a view before the evaluation, so that its keys can be
read as attributes, and the value of the formula is unwrapped afterwards.

## Main definitions

* `wrapValue`, `unwrapValue`, `PyVal.aged` — views.
* `Python.visit` — `SafeEvaluator.visit`.
* `Python.compileFormula`, `Python.validateFormula`, `Python.evaluate`,
  `Python.collectFormulaReferences` — the engine.
* `Python.engine` — the same as a `FormulaEngine`; `SetOrder` — how its sets iterate.

## Main results

* `dictGet_wrapContext` — what the evaluator's context holds.
* `visit_helperCall` — a call of a helper in a context of JSON values.
-/

namespace ExtractFlow

/-! ### Views -/

mutual

/-- One more evaluation ago: the views of earlier evaluations are other objects than
those of this one. -/
def PyVal.aged : PyVal → PyVal
  | .list items => .list (agedList items)
  | .tuple items => .tuple (agedList items)
  | .dict items => .dict (agedItems items)
  | .view id items => .view { id with age := id.age + 1 } (agedItems items)
  | .none => .none
  | .bool b => .bool b
  | .int i => .int i
  | .float x => .float x
  | .str s => .str s
  | .function name => .function name
  | .object kind => .object kind

def PyVal.agedList : List PyVal → List PyVal
  | [] => []
  | v :: vs => PyVal.aged v :: PyVal.agedList vs

def PyVal.agedItems : List (String × PyVal) → List (String × PyVal)
  | [] => []
  | (k, v) :: items => (k, PyVal.aged v) :: PyVal.agedItems items

end

mutual

/-- `wrap_value` of what the context holds at `path`: a dictionary becomes a view, which remembers
the path; lists are wrapped item by item, tuples are not. -/
def wrapValue (path : List String) : PyVal → PyVal
  | .dict items => .view { path := path } (wrapItems path items)
  | .list items => .list (wrapList path 0 items)
  | .tuple items => .tuple items
  | .view id items => .view id items
  | .none => .none
  | .bool b => .bool b
  | .int i => .int i
  | .float x => .float x
  | .str s => .str s
  | .function name => .function name
  | .object kind => .object kind

def wrapList (path : List String) (i : ℕ) : List PyVal → List PyVal
  | [] => []
  | v :: vs => wrapValue (path ++ [toString i]) v :: wrapList path (i + 1) vs

def wrapItems (path : List String) : List (String × PyVal) → List (String × PyVal)
  | [] => []
  | (k, v) :: items => (k, wrapValue (path ++ [k]) v) :: wrapItems path items

end

mutual

/-- `unwrap_value`: a view becomes the dictionary it was made of, also inside of lists; tuples and
dictionaries are not looked into. -/
def unwrapValue : PyVal → PyVal
  | .view _ items => .dict (unwrapItems items)
  | .list items => .list (unwrapList items)
  | .tuple items => .tuple items
  | .dict items => .dict items
  | .none => .none
  | .bool b => .bool b
  | .int i => .int i
  | .float x => .float x
  | .str s => .str s
  | .function name => .function name
  | .object kind => .object kind

def unwrapList : List PyVal → List PyVal
  | [] => []
  | v :: vs => unwrapValue v :: unwrapList vs

def unwrapItems : List (String × PyVal) → List (String × PyVal)
  | [] => []
  | (k, v) :: items => (k, unwrapValue v) :: unwrapItems items

end

/-- The values of a formula's context, by name. -/
abbrev Context := List (String × PyVal)

/-- The context of the evaluator. -/
def wrapContext (context : Context) : Context :=
  context.map fun p => (p.1, wrapValue [p.1] p.2.aged)

/-! ### The visitor -/

/-- `getattr(view, attr)` and `value.get(attr)`.  The values of a view are wrapped
already.  Of the methods of a view, `unwrap` is the one without an underscore. -/
def getAttribute (value : PyVal) (attr : String) : Except EvalErr PyVal :=
  match value with
  | .view _ items =>
      if attr = "unwrap" then .ok (.object "bound method AttrView.unwrap")
      else .ok ((PyVal.dictGet items attr).getD .none)
  | .dict items => .ok ((PyVal.dictGet items attr).getD .none)
  | _ => .error (.formula .attributeAccess)

/-- `attr.startswith("_")`. -/
def isPrivate (attr : String) : Bool := attr.toList.head? == some '_'

/-- The call names a helper. -/
def Node.helper? : Node → Bool
  | .name id => decide (id ∈ allowedFunctions)
  | _ => false

/-- `all(values)` and `any(values)`. -/
def Python.boolOp (py : Python) (op : BoolOperator) (values : List PyVal) : Bool :=
  match op with
  | .and => values.all py.truthy
  | .or => values.any py.truthy

/-- `visit_UnaryOp`, on the value of the operand. -/
def Python.unaryOp (py : Python) (op : UnaryOperator) (operand : PyVal) : Except EvalErr PyVal :=
  match op with
  | .uSub => builtin (py.neg operand)
  | .uAdd => builtin (py.pos operand)
  | .not | .invert => .error (.formula .unsupportedUnary)

/-- `visit_BinOp`, on the values of the operands. -/
def Python.binOp (py : Python) (op : BinOperator) (left right : PyVal) : Except EvalErr PyVal :=
  match op with
  | .add => builtin (py.add left right)
  | .sub => builtin (py.sub left right)
  | .mult => builtin (py.mul left right)
  | .div =>
      if py.eq right (.int 0) then .error (.builtin .zeroDivisionError)
      else builtin (py.div left right)
  | .mod => builtin (py.mod left right)
  | .floorDiv | .pow | .lShift | .rShift | .bitOr | .bitXor | .bitAnd | .matMult =>
      .error (.formula .unsupportedBinary)

/-- `visit_Name`. -/
def visitName (context : Context) (id : String) : Except EvalErr PyVal :=
  match PyVal.dictGet context id with
  | some v => .ok v
  | none =>
      if id ∈ allowedFunctions then .ok (.function id)
      else .error (.formula (.unknownIdentifier id))

section Visitor

variable (py : Python) (context : Context)

mutual

/-- `SafeEvaluator.visit`: the value of a node, for the node classes there is a method for, and an
error for all others. -/
def Python.visit : Node → Except EvalErr PyVal
  | .constant value => .ok value
  | .name id => visitName context id
  | .attr value attr =>
      if isPrivate attr then .error (.formula .privateAttribute)
      else do getAttribute (← Python.visit value) attr
  | .list elts => do return .list (← Python.visitList elts)
  | .tuple elts => do return .tuple (← Python.visitList elts)
  | .boolOp op values => do return .bool (py.boolOp op (← Python.visitList values))
  | .compare left rest => do return .bool (← Python.visitCompare (← Python.visit left) rest)
  | .ifExp test body orelse => do
      if py.truthy (← Python.visit test) then Python.visit body else Python.visit orelse
  | .call func args keywords =>
      if func.helper? then do
        let fn ← Python.visit func
        let args ← Python.visitList args
        let kwargs ← Python.visitKeywords [] keywords
        py.callValue fn args kwargs
      else .error (.formula .notAHelper)
  | .unaryOp op operand => do py.unaryOp op (← Python.visit operand)
  | .binOp left op right => do py.binOp op (← Python.visit left) (← Python.visit right)
  | .other kind _ => .error (.formula (.unsupportedSyntax kind))

/-- The values of a list of expressions, in order. -/
def Python.visitList : List Node → Except EvalErr (List PyVal)
  | [] => .ok []
  | n :: ns => do
      let v ← Python.visit n
      let vs ← Python.visitList ns
      return v :: vs

/-- The loop of `visit_Compare`, from a left operand on. -/
def Python.visitCompare (left : PyVal) : List (CmpOp × Node) → Except EvalErr Bool
  | [] => .ok true
  | (op, n) :: rest => do
      let right ← Python.visit n
      if ← builtin (py.compare op left right) then Python.visitCompare right rest
      else return false

/-- The keyword arguments of a call. -/
def Python.visitKeywords (kwargs : Kwargs) :
    List (Option String × Node) → Except EvalErr Kwargs
  | [] => .ok kwargs
  | (none, _) :: _ => .error (.formula .keywordUnpacking)
  | (some arg, n) :: keywords => do
      let v ← Python.visit n
      Python.visitKeywords (PyVal.dictSet kwargs arg v) keywords

end

end Visitor

/-! ### The engine -/

/-- The order in which sets of texts iterate, which depends on their hashes. -/
structure SetOrder where
  /-- The order of a set, from the texts it was built from. -/
  order : List String → List String
  perm : ∀ items, (order items).Perm items

section Engine

variable (py : Python) (sets : SetOrder)

/-- `compile_formula`: the tree of the rewritten formula. A syntax error becomes an error of the
formula language. -/
def Python.compileFormula (formula : String) : Except EvalErr Node :=
  match py.parse (normalizeFormula py.text.isAlnum formula) with
  | .ok tree => .ok tree
  | .error (.syntaxError msg) => .error (.formula (.invalidSyntax msg))
  | .error (.raised e) => .error (.builtin e)

/-- The first name of a tree that is no helper and not available. -/
def unknownName (available : List String) (tree : Node) : Option String :=
  tree.names.find? fun id => !(allowedFunctions.contains id || available.contains id)

/-- `FormulaEngine.validate_formula`: the formula can be parsed, and each name in it is a helper or
is available. -/
def Python.validateFormula (formula : String) (available : List String) :
    Except EvalErr Unit := do
  let tree ← py.compileFormula formula
  match unknownName available tree with
  | some id => throw (.formula (.unknownFieldReference id))
  | none => return ()

/-- `FormulaEngine.evaluate`: the value of the formula in a context, which is wrapped before and
unwrapped behind it. -/
def Python.evaluate (formula : String) (context : Context) : Except EvalErr PyVal := do
  let tree ← py.compileFormula formula
  return unwrapValue (← py.visit (wrapContext context) tree)

/-- `evaluate` of a compiled formula. -/
def Python.evaluateTree (tree : Node) (context : Context) : Except EvalErr PyVal := do
  return unwrapValue (← py.visit (wrapContext context) tree)

theorem Python.evaluate_of_compile {py : Python} {formula : String} {tree : Node}
    (h : py.compileFormula formula = .ok tree) (context : Context) :
    py.evaluate formula context = py.evaluateTree tree context :=
  Failing.bind_of_ok h

/-- `collect_formula_references`: the available names that occur in the formula. It is a set, so it
is given as the list it iterates as. -/
def Python.collectFormulaReferences (formula : String) (available : List String) :
    Except EvalErr (List String) := do
  let tree ← py.compileFormula formula
  return sets.order (tree.names.filter fun id => available.contains id).dedup

/-- The engine as its callers see it, where the two kinds of errors are exceptions. -/
def Python.engine : FormulaEngine where
  validateFormula formula available :=
    (py.validateFormula formula available).mapError EvalErr.toPyErr
  evaluate formula context := (py.evaluate formula context).mapError EvalErr.toPyErr
  collectFormulaReferences formula available :=
    (py.collectFormulaReferences sets formula available).mapError EvalErr.toPyErr

/-- The names of a formula; none when it does not parse. -/
def Python.formulaNames (formula : String) : List String :=
  match py.compileFormula formula with
  | .ok tree => tree.names
  | .error _ => []

end Engine

/-! ### The context -/

/-- The wrapped context has the same names, each with its value wrapped. -/
theorem dictGet_wrapContext (context : Context) (id : String) :
    PyVal.dictGet (wrapContext context) id =
      (PyVal.dictGet context id).map fun v => wrapValue [id] v.aged := by
  unfold PyVal.dictGet wrapContext
  induction context with
  | nil => rfl
  | cons p context ih =>
    obtain ⟨k, v⟩ := p
    simp only [List.map_cons, List.find?_cons]
    cases hk : k == id with
    | true =>
      obtain rfl := beq_iff_eq.mp hk
      rfl
    | false => exact ih

/-- A call of a helper, without keywords. -/
def helperCall (name : String) (args : List Node) : Node := .call (.name name) args []

section Callee

variable {py : Python} {context : Context}

/-- A JSON value of the context is no function. -/
theorem callValue_wrapValue {v : PyVal} (h : v.isJson = true) (path : List String)
    (args : List PyVal) (kwargs : Kwargs) :
    py.callValue (wrapValue path v.aged) args kwargs = raiseTypeError := by
  cases v with
  | tuple | function | view | object => simp [PyVal.isJson] at h
  | none | bool | int | float | str | list | dict =>
    simp only [PyVal.aged, wrapValue, Python.callValue]

/-- The callee of a call: the helper, or a field of that name, which cannot be called. -/
theorem visitName_helper (py : Python) (hjson : PyVal.isJsonItems context = true) {name : String}
    (hname : name ∈ allowedFunctions) :
    ∃ fn, visitName (wrapContext context) name = .ok fn ∧
      ∀ args kwargs, py.callValue fn args kwargs =
        if PyVal.dictGet context name = none then py.callHelper name args kwargs
        else raiseTypeError := by
  unfold visitName
  rw [dictGet_wrapContext]
  cases h : PyVal.dictGet context name with
  | none => exact ⟨.function name, if_pos hname, fun args kwargs => rfl⟩
  | some v =>
    refine ⟨_, rfl, fun args kwargs => ?_⟩
    rw [if_neg (by simp)]
    exact callValue_wrapValue (PyVal.isJson_of_dictGet hjson h) _ _ _

/-- A call of a helper on arguments that have values is the helper’s result, unless a field of the
context has the helper’s name. -/
theorem visit_helperCall (hjson : PyVal.isJsonItems context = true) {name : String}
    (hname : name ∈ allowedFunctions) {args : List Node} {vs : List PyVal}
    (hargs : py.visitList (wrapContext context) args = .ok vs) :
    py.visit (wrapContext context) (helperCall name args) =
      if PyVal.dictGet context name = none then py.callHelper name vs [] else raiseTypeError := by
  obtain ⟨fn, hfn, hcall⟩ := visitName_helper py hjson hname
  have hhelper : (Node.name name).helper? = true := by simpa [Node.helper?] using hname
  rw [helperCall, Python.visit, if_pos hhelper, Python.visit, hfn, Failing.bind_of_ok rfl, hargs,
    Failing.bind_of_ok rfl, Python.visitKeywords, Failing.bind_of_ok rfl, hcall]

end Callee

/-! ### An interpreter that parses a few formulas -/

/-- An interpreter that parses the formulas of a table, on which the libraries are not
needed. -/
def plainPython (formulas : List (String × Node)) : Python where
  floats :=
    { ofInt := fun i => some (.fin i), add := fun _ _ => .nan, mul := fun _ _ => .nan
      div := fun _ _ => .nan, divInt := fun i j => some (.fin (i / j)), mod := fun _ _ => .nan
      roundTo := fun x _ => some x, sum := fun _ => none }
  text :=
    { str := fun _ => .ok "", format := fun _ _ => .ok "", floatOf := fun _ => .error (.valueError "")
      printf := fun _ _ => .error .typeError, isAlnum := Char.isAlphanum }
  foreign :=
    { truthy := fun _ => true, eq := fun _ _ => false, order := fun _ _ _ => .error .typeError
      unary := fun _ _ => .error .typeError, binary := fun _ _ _ => .error .typeError
      iterate := fun _ => .error .typeError, sumStart := fun _ => .error .typeError
      contains := fun _ _ => .error .typeError
      toFloat := fun _ => .error .typeError, call := fun _ _ _ => .error .typeError }
  fromIsoFormat := fun _ => .error (.valueError "")
  parseDateText := fun _ => .error (.valueError "")
  parse := fun formula =>
    match formulas.lookup formula with
    | some tree => .ok tree
    | none => .error (.syntaxError "invalid syntax")

/-- A field name alone, as the parser reads it. -/
def nameFormula : String × Node := ("items", .name "items")

/-- Sets that iterate in the order they were built. -/
def insertionOrder : SetOrder := ⟨id, fun items => .refl items⟩

end ExtractFlow
