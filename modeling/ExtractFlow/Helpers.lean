import Mathlib.Data.List.Infix
import ExtractFlow.Operators

/-!
# The helper functions of formulas

The eighteen functions a formula may call (`ALLOWED_FUNCTIONS` of
`formulas.py`): the five that are Python's own, `math.floor` and `math.ceil`,
and those the module defines.  A call binds its arguments as Python does; only
`convert_unit` raises an error of the formula language itself.

## Main definitions

* `FormulaError` — the `FormulaValidationError`s, with their messages.
* `EvalErr` — what an evaluation raises: one of those, or an error of Python.
* `bindArgs` — the binding of a call to a signature.
* `Python.callHelper`, `Python.callValue` — the call of a helper, and of a value.

## Main results

* `helperOnly_callValue` — a call raises no formula error but `convert_unit`'s.
-/

namespace ExtractFlow

/-! ### Errors -/

/-- The errors of the formula language, each a `FormulaValidationError` with a message of
its own. -/
inductive FormulaError where
  | invalidSyntax (msg : String)
  | unknownFieldReference (name : String)
  | unsupportedSyntax (kind : String)
  | unknownIdentifier (id : String)
  | privateAttribute
  | attributeAccess
  | notAHelper
  | keywordUnpacking
  | unsupportedUnary
  | unsupportedBinary
  | unsupportedConversion (fromUnit toUnit : String)
  deriving DecidableEq, Repr

/-- `str(exc)`. -/
def FormulaError.message : FormulaError → String
  | .invalidSyntax msg => s!"Invalid formula syntax: {msg}"
  | .unknownFieldReference name => s!"Unknown field reference: {name}"
  | .unsupportedSyntax kind => s!"Unsupported formula syntax: {kind}"
  | .unknownIdentifier id => s!"Unknown identifier: {id}"
  | .privateAttribute => "Private attribute access is not allowed in formulas."
  | .attributeAccess => "Attribute access is only supported on structured field values."
  | .notAHelper => "Only built-in formula helper functions are callable."
  | .keywordUnpacking => "Keyword argument unpacking is not supported."
  | .unsupportedUnary => "Unsupported unary operator"
  | .unsupportedBinary => "Unsupported binary operator"
  | .unsupportedConversion fromUnit toUnit =>
      s!"Unsupported unit conversion: {fromUnit} -> {toUnit}"

/-- What an evaluation raises: an error of the formula language, or an exception of Python. -/
inductive EvalErr where
  | formula (e : FormulaError)
  | builtin (e : BuiltinErr)
  deriving DecidableEq, Repr

/-- The exception as the callers of the engine see it. -/
def EvalErr.toPyErr : EvalErr → PyErr
  | .formula e => .formulaValidationError e.message
  | .builtin e => e.toPyErr

/-- An operation of Python inside an evaluation. -/
def builtin {α : Type} (x : Except BuiltinErr α) : Except EvalErr α := x.mapError .builtin

theorem builtin_ok {α : Type} {x : Except BuiltinErr α} {a : α} :
    builtin x = .ok a ↔ x = .ok a := by
  cases x with
  | error e => simp [builtin, Except.mapError]
  | ok b => simp [builtin, Except.mapError]

/-- The call of something that is no function, or with arguments it does not take. -/
def raiseTypeError {α : Type} : Except EvalErr α := .error (.builtin .typeError)

/-! ### Arguments -/

/-- The keyword arguments of a call. -/
abbrev Kwargs := List (String × PyVal)

/-- A parameter: its name, unless it is positional only, and its default. -/
structure Param where
  name : Option String
  default : Option PyVal := none

/-- A parameter that can be named and has to be given. -/
def Param.required (name : String) : Param := { name := some name }

/-- A parameter that can be named and has a default. -/
def Param.optional (name : String) (default : PyVal) : Param :=
  { name := some name, default := some default }

/-- A parameter that cannot be named and has to be given. -/
def Param.positional : Param := { name := none }

/-- The value of a parameter that got no positional argument. -/
def Param.value (p : Param) (kwargs : Kwargs) : Except EvalErr PyVal :=
  match p.name.bind (PyVal.dictGet kwargs), p.default with
  | some v, _ => .ok v
  | none, some v => .ok v
  | none, none => raiseTypeError

/-- Bind the arguments of a call to the parameters: by position, then by name, then by default. A
call that leaves a parameter without an argument, or has one too many, is a `TypeError`. -/
def bindArgs (params : List Param) (args : List PyVal) (kwargs : Kwargs) :
    Except EvalErr (List PyVal) :=
  let rest := params.drop args.length
  if args.length > params.length then raiseTypeError
  else if kwargs.any fun kw => !rest.any fun p => p.name == some kw.1 then raiseTypeError
  else (rest.mapM fun p : Param => p.value kwargs).map (args ++ ·)

/-- A call with these parameters, of a body that takes their values. -/
def bindCall (params : List Param) (args : List PyVal) (kwargs : Kwargs)
    (body : List PyVal → Except EvalErr PyVal) : Except EvalErr PyVal :=
  bindArgs params args kwargs >>= body

/-! ### Dates -/

/-- `parse_date`. -/
def Python.parseDate (py : Python) (value : PyVal) : Except BuiltinErr (Option Date) :=
  let value :=
    match value with
    | .view _ items => PyVal.dict items
    | v => v
  let value :=
    match value with
    | .dict items => (PyVal.dictGet items "value").getD (.dict items)
    | v => v
  match value with
  | .str s =>
      match py.fromIsoFormat s with
      | .ok d => .ok (some d)
      | .error (.valueError _) =>
          match py.parseDateText s with
          | .ok d => .ok (some d)
          | .error .typeError => .ok none
          | .error (.valueError _) => .ok none
          | .error .overflowError => .ok none
          | .error e => .error e
      | .error e => .error e
  | _ => .ok none

/-- The days of the year before a month. -/
def daysBeforeMonth (leap : Bool) (month : ℤ) : ℤ :=
  ([0, 31, 59, 90, 120, 151, 181, 212, 243, 273, 304, 334].getD (month - 1).toNat 0 : ℤ) +
    if leap && month > 2 then 1 else 0

/-- `d.toordinal()`. -/
def Date.toOrdinal (d : Date) : ℤ :=
  let y := d.year - 1
  let leap := d.year % 4 == 0 && (d.year % 100 != 0 || d.year % 400 == 0)
  y * 365 + y / 4 - y / 100 + y / 400 + daysBeforeMonth leap d.month + d.day

section Dates

variable (py : Python)

/-- Parse both dates and compare them; `None` when one is missing. -/
def Python.between (measure : Date → Date → ℤ) (start stop : PyVal) :
    Except BuiltinErr (Option ℤ) := do
  let left ← py.parseDate start
  let right ← py.parseDate stop
  match left, right with
  | some left, some right => return some (measure left right)
  | _, _ => return none

/-- `months_between`. -/
def Python.monthsBetween (start stop : PyVal) : Except BuiltinErr (Option ℤ) :=
  py.between (fun l r => (r.year - l.year) * 12 + (r.month - l.month)) start stop

/-- `days_between`. -/
def Python.daysBetween (start stop : PyVal) : Except BuiltinErr (Option ℤ) :=
  py.between (fun l r => r.toOrdinal - l.toOrdinal) start stop

/-- `years_between`. -/
def Python.yearsBetween (start stop : PyVal) : Except BuiltinErr (Option ℤ) :=
  (py.monthsBetween start stop).map (·.map fun months => Int.fdiv months 12)

end Dates

/-- An optional integer as a value. -/
def optionalInt (x : Except BuiltinErr (Option ℤ)) : Except EvalErr PyVal :=
  builtin (x.map fun i => i.elim .none .int)

/-! ### The functions of the module -/

section Functions

variable (py : Python)

/-- The items added up, from the start on. -/
def Python.sumItems (items : List PyVal) (start : PyVal) : Except BuiltinErr PyVal :=
  match (start :: items).mapM PyVal.num? with
  | some numbers =>
      if numbers.any (·.isRight) then
        (py.floats.sum numbers).elim (.error .overflowError) fun x => .ok (.float x)
      else items.foldlM py.add start
  | none => items.foldlM py.add start

/-- `sum(items, start)`: a text is no start, and nor are bytes. -/
def Python.sumFrom (items : List PyVal) (start : PyVal) : Except BuiltinErr PyVal :=
  match start with
  | .str _ => .error .typeError
  | .object kind => do
      py.foreign.sumStart kind
      py.sumItems items start
  | start => py.sumItems items start

/-- `avg`. -/
def Python.avg (values : PyVal) : Except BuiltinErr PyVal := do
  let items ← py.iterate values
  let numbers := items.filter fun v => v.num?.isSome
  if numbers.isEmpty then return .none
  else
    let total ← py.sumFrom numbers (.int 0)
    let mean ← py.div total (.int numbers.length)
    return .float (← py.toFloat mean)

/-- `count`. -/
def countItems : PyVal → ℤ
  | .none => 0
  | .list items => items.length
  | .tuple items => items.length
  | .dict items => items.length
  | .str s => s.length
  | _ => 1

/-- `contains`. -/
def Python.contains (container item : PyVal) : Except BuiltinErr Bool :=
  match container with
  | .none => .ok false
  | .list items => .ok (items.any fun v => py.eq v item)
  | .tuple items => .ok (items.any fun v => py.eq v item)
  | .str s =>
      match item with
      | .str t => .ok (decide (t.toList <:+: s.toList))
      | _ => .error .typeError
  | .dict items =>
      if item.hashable then .ok (items.any fun p => py.eq (.str p.1) item)
      else .error .typeError
  | .object kind => py.foreign.contains kind item
  | _ => .error .typeError

/-- `lookup`. -/
def Python.lookup (mapping key default : PyVal) : Except BuiltinErr PyVal :=
  match mapping with
  | .dict items =>
      if key.hashable then
        .ok (((items.find? fun p => py.eq (.str p.1) key).map Prod.snd).getD default)
      else .error .typeError
  | _ => .ok default

/-- `convert_unit`. -/
def Python.convertUnit (number fromUnit toUnit : PyVal) : Except EvalErr PyVal :=
  if number.isNone || py.eq fromUnit toUnit then .ok number
  else if !(fromUnit.hashable && toUnit.hashable) then raiseTypeError
  else
    match fromUnit, toUnit with
    | .str "days", .str "months" => builtin (py.div number (.int 30))
    | .str "months", .str "days" => builtin (py.mul number (.int 30))
    | .str "years", .str "months" => builtin (py.mul number (.int 12))
    | .str "months", .str "years" => builtin (py.div number (.int 12))
    | fromUnit, toUnit => do
        let source ← builtin (py.text.str fromUnit)
        let target ← builtin (py.text.str toUnit)
        throw (.formula (.unsupportedConversion source target))

/-- `format_currency`. -/
def Python.formatCurrency (amount currency : PyVal) : Except BuiltinErr PyVal :=
  if amount.isNone then .ok (.str "")
  else do
    let label ← py.text.str currency
    let text ← py.text.format (← py.toFloat amount) ",.2f"
    return .str s!"{label} {text}"

/-- `format_percent`. -/
def Python.formatPercent (value decimalPlaces : PyVal) : Except BuiltinErr PyVal :=
  if value.isNone then .ok (.str "")
  else do
    let number ← py.toFloat value
    let places ← py.text.str decimalPlaces
    let text ← py.text.format number s!".{places}f"
    return .str s!"{text}%"

/-! ### Python's own functions -/

/-- Round a rational to the nearest integer, a tie to the even one. -/
def roundHalfEven (q : ℚ) : ℤ :=
  let low := ⌊q⌋
  if q - low < 1 / 2 then low
  else if q - low > 1 / 2 then low + 1
  else if low % 2 = 0 then low else low + 1

/-- An integer from a float, which infinities and the not-a-number have none of. -/
def intOfFloat (f : ℚ → ℤ) : PyFloat → Except BuiltinErr PyVal
  | .fin q => .ok (.int (f q))
  | .nan => .error (.valueError "cannot convert float NaN to integer")
  | _ => .error .overflowError

/-- `round(number, ndigits)`. -/
def Python.round (number ndigits : PyVal) : Except BuiltinErr PyVal :=
  match number.num?, ndigits, ndigits.num? with
  | some (.inl i), .none, _ => .ok (.int i)
  | some (.inr x), .none, _ => intOfFloat roundHalfEven x
  | some (.inl i), _, some (.inl n) =>
      if 0 ≤ n then .ok (.int i)
      else .ok (.int (roundHalfEven (i / 10 ^ n.natAbs) * 10 ^ n.natAbs))
  | some (.inr x), _, some (.inl n) =>
      (py.floats.roundTo x n).elim (.error .overflowError) fun y => .ok (.float y)
  | _, _, _ => .error .typeError

/-- `math.floor` and `math.ceil`, with the rounding of a rational. -/
def integral (f : ℚ → ℤ) (v : PyVal) : Except BuiltinErr PyVal :=
  match v.num? with
  | some (.inl i) => .ok (.int i)
  | some (.inr x) => intOfFloat f x
  | none => .error .typeError

/-- The best item under a key: the first one no later item is better than. -/
def best (better : PyVal → PyVal → Except BuiltinErr Bool) (key : PyVal → Except EvalErr PyVal) :
    PyVal × PyVal → List PyVal → Except EvalErr PyVal
  | (item, _), [] => .ok item
  | (item, value), next :: rest => do
      let candidate ← key next
      if ← builtin (better candidate value) then best better key (next, candidate) rest
      else best better key (item, value) rest

/-- `min` and `max`: of the items of one argument, or of the arguments. -/
def Python.extremum (name : String) (op : CmpOp) (callKey : PyVal → PyVal → Except EvalErr PyVal)
    (args : List PyVal) (kwargs : Kwargs) : Except EvalErr PyVal :=
  let default := PyVal.dictGet kwargs "default"
  let key := fun item =>
    match PyVal.dictGet kwargs "key" with
    | none => .ok item
    | some .none => .ok item
    | some f => callKey f item
  if kwargs.any fun kw => kw.1 != "default" && kw.1 != "key" then raiseTypeError
  else
    match args with
    | [] => raiseTypeError
    | [iterable] => do
        match ← builtin (py.iterate iterable) with
        | [] =>
            match default with
            | some v => return v
            | none => throw (.builtin (.valueError s!"{name}() iterable argument is empty"))
        | item :: rest => best (py.order op) key (item, ← key item) rest
    | item :: rest =>
        if default.isSome then raiseTypeError
        else do best (py.order op) key (item, ← key item) rest

/-! ### The call of a helper -/

/-- `ALLOWED_FUNCTIONS`. -/
def allowedFunctions : List String :=
  ["sum", "avg", "min", "max", "count", "round", "floor", "ceil", "coalesce", "months_between",
    "days_between", "years_between", "contains", "lookup", "convert_unit", "format_currency",
    "format_percent", "iff"]

/-- The call of a helper by name; `callKey` calls the `key` of `min` and `max`. -/
def Python.callHelperWith (callKey : PyVal → PyVal → Except EvalErr PyVal) (name : String)
    (args : List PyVal) (kwargs : Kwargs) : Except EvalErr PyVal :=
  match name with
  | "sum" => bindCall [.positional, .optional "start" (.int 0)] args kwargs fun
      | [iterable, start] => builtin (py.iterate iterable >>= fun items => py.sumFrom items start)
      | _ => raiseTypeError
  | "avg" => bindCall [.required "values"] args kwargs fun
      | [values] => builtin (py.avg values)
      | _ => raiseTypeError
  | "min" => py.extremum "min" .lt callKey args kwargs
  | "max" => py.extremum "max" .gt callKey args kwargs
  | "count" => bindCall [.required "values"] args kwargs fun
      | [values] => .ok (.int (countItems values))
      | _ => raiseTypeError
  | "round" => bindCall [.required "number", .optional "ndigits" .none] args kwargs fun
      | [number, ndigits] => builtin (py.round number ndigits)
      | _ => raiseTypeError
  | "floor" => bindCall [.positional] args kwargs fun
      | [v] => builtin (integral Int.floor v)
      | _ => raiseTypeError
  | "ceil" => bindCall [.positional] args kwargs fun
      | [v] => builtin (integral Int.ceil v)
      | _ => raiseTypeError
  | "coalesce" =>
      if kwargs.isEmpty then .ok ((args.find? fun v => !v.isNone).getD .none) else raiseTypeError
  | "months_between" => bindCall [.required "start", .required "end"] args kwargs fun
      | [start, stop] => optionalInt (py.monthsBetween start stop)
      | _ => raiseTypeError
  | "days_between" => bindCall [.required "start", .required "end"] args kwargs fun
      | [start, stop] => optionalInt (py.daysBetween start stop)
      | _ => raiseTypeError
  | "years_between" => bindCall [.required "start", .required "end"] args kwargs fun
      | [start, stop] => optionalInt (py.yearsBetween start stop)
      | _ => raiseTypeError
  | "contains" => bindCall [.required "container", .required "item"] args kwargs fun
      | [container, item] => builtin ((py.contains container item).map .bool)
      | _ => raiseTypeError
  | "lookup" => bindCall [.required "mapping", .required "key", .optional "default" .none] args kwargs fun
      | [mapping, key, default] => builtin (py.lookup mapping key default)
      | _ => raiseTypeError
  | "convert_unit" =>
      bindCall [.required "number", .required "from_unit", .required "to_unit"] args kwargs fun
      | [number, fromUnit, toUnit] => py.convertUnit number fromUnit toUnit
      | _ => raiseTypeError
  | "format_currency" =>
      bindCall [.required "amount", .optional "currency" (.str "USD")] args kwargs fun
      | [amount, currency] => builtin (py.formatCurrency amount currency)
      | _ => raiseTypeError
  | "format_percent" =>
      bindCall [.required "value", .optional "decimal_places" (.int 2)] args kwargs fun
      | [value, decimalPlaces] => builtin (py.formatPercent value decimalPlaces)
      | _ => raiseTypeError
  | "iff" =>
      bindCall [.required "condition", .required "when_true", .required "when_false"] args kwargs fun
      | [condition, whenTrue, whenFalse] =>
          .ok (if py.truthy condition then whenTrue else whenFalse)
      | _ => raiseTypeError
  | _ => raiseTypeError

/-- The call of a key on an item. -/
def Python.callKey (f item : PyVal) : Except EvalErr PyVal :=
  match f with
  | .function name => py.callHelperWith (fun _ _ => raiseTypeError) name [item] []
  | .object kind => builtin (py.foreign.call kind [item] [])
  | _ => raiseTypeError

/-- The call of a helper, where `key=` may be a helper itself. -/
def Python.callHelper (name : String) (args : List PyVal) (kwargs : Kwargs) :
    Except EvalErr PyVal :=
  py.callHelperWith py.callKey name args kwargs

/-- The call of a value: only helpers, and objects of foreign classes, can be called. -/
def Python.callValue (f : PyVal) (args : List PyVal) (kwargs : Kwargs) : Except EvalErr PyVal :=
  match f with
  | .function name => py.callHelper name args kwargs
  | .object kind => builtin (py.foreign.call kind args kwargs)
  | _ => raiseTypeError

/-! ### The errors of a helper -/

/-- The errors of a helper: Python's, or the one of `convert_unit`. -/
def EvalErr.OfHelper : EvalErr → Prop
  | .builtin _ => True
  | .formula (.unsupportedConversion _ _) => True
  | .formula _ => False

/-- A computation that raises only what a helper may raise. -/
def HelperOnly {α : Type} (x : Except EvalErr α) : Prop := ∀ e, x = .error e → e.OfHelper

section HelperOnly

variable {α β : Type}

theorem helperOnly_ok (a : α) : HelperOnly (.ok a : Except EvalErr α) := by
  intro e h
  cases h

theorem helperOnly_builtin (x : Except BuiltinErr α) : HelperOnly (builtin x) := by
  intro e h
  cases x with
  | error b => obtain rfl := Except.error.inj h; trivial
  | ok a => cases h

theorem helperOnly_typeError : HelperOnly (raiseTypeError : Except EvalErr α) := by
  intro e h
  obtain rfl := Except.error.inj h
  trivial

theorem helperOnly_bind {x : Except EvalErr α} {f : α → Except EvalErr β} (hx : HelperOnly x)
    (hf : ∀ a, HelperOnly (f a)) : HelperOnly (x >>= f) := by
  intro e h
  rcases Failing.bind_error.mp h with h | ⟨a, -, h⟩
  · exact hx e h
  · exact hf a e h

theorem helperOnly_map {x : Except EvalErr α} {f : α → β} (hx : HelperOnly x) :
    HelperOnly (x.map f) := by
  intro e h
  cases x with
  | error e' => exact hx e (by simpa [Except.map] using h)
  | ok a => cases h

theorem helperOnly_ite {c : Prop} [Decidable c] {x y : Except EvalErr α} (hx : HelperOnly x)
    (hy : HelperOnly y) : HelperOnly (if c then x else y) := by
  split
  · exact hx
  · exact hy

theorem helperOnly_mapM {f : α → Except EvalErr β} (hf : ∀ a, HelperOnly (f a)) (xs : List α) :
    HelperOnly (xs.mapM f) := by
  intro e h
  obtain ⟨x, -, hx⟩ := Failing.exists_of_mapM_error h
  exact hf x e hx

end HelperOnly

theorem helperOnly_bindCall (params : List Param) (args : List PyVal) (kwargs : Kwargs)
    {body : List PyVal → Except EvalErr PyVal} (hbody : ∀ vs, HelperOnly (body vs)) :
    HelperOnly (bindCall params args kwargs body) := by
  refine helperOnly_bind ?_ hbody
  unfold bindArgs
  refine helperOnly_ite helperOnly_typeError (helperOnly_ite helperOnly_typeError ?_)
  refine helperOnly_map (helperOnly_mapM ?_ _)
  intro p
  unfold Param.value
  split
  · exact helperOnly_ok _
  · exact helperOnly_ok _
  · exact helperOnly_typeError

theorem helperOnly_best {better : PyVal → PyVal → Except BuiltinErr Bool}
    {key : PyVal → Except EvalErr PyVal} (hkey : ∀ v, HelperOnly (key v)) :
    ∀ (items : List PyVal) (start : PyVal × PyVal), HelperOnly (best better key start items) := by
  intro items
  induction items with
  | nil => intro start; exact helperOnly_ok _
  | cons next rest ih =>
    intro start
    refine helperOnly_bind (hkey next) fun candidate => ?_
    refine helperOnly_bind (helperOnly_builtin _) fun b => ?_
    exact helperOnly_ite (ih _) (ih _)

theorem helperOnly_extremum (name : String) (op : CmpOp)
    {callKey : PyVal → PyVal → Except EvalErr PyVal} (hkey : ∀ f v, HelperOnly (callKey f v))
    (args : List PyVal) (kwargs : Kwargs) :
    HelperOnly (py.extremum name op callKey args kwargs) := by
  -- the key of an item is the item, or the value of a call
  have hkey' : ∀ item, HelperOnly (match PyVal.dictGet kwargs "key" with
      | none => (.ok item : Except EvalErr PyVal)
      | some .none => .ok item
      | some f => callKey f item) := by
    intro item
    split
    · exact helperOnly_ok _
    · exact helperOnly_ok _
    · exact hkey _ _
  unfold Python.extremum
  refine helperOnly_ite helperOnly_typeError ?_
  split
  · exact helperOnly_typeError
  · refine helperOnly_bind (helperOnly_builtin _) fun items => ?_
    split
    · split
      · exact helperOnly_ok _
      · intro e h
        obtain rfl := Except.error.inj h
        trivial
    · exact helperOnly_bind (hkey' _) fun v => helperOnly_best hkey' _ _
  · exact helperOnly_ite helperOnly_typeError
      (helperOnly_bind (hkey' _) fun v => helperOnly_best hkey' _ _)

theorem helperOnly_convertUnit (number fromUnit toUnit : PyVal) :
    HelperOnly (py.convertUnit number fromUnit toUnit) := by
  unfold Python.convertUnit
  refine helperOnly_ite (helperOnly_ok _) (helperOnly_ite helperOnly_typeError ?_)
  split
  case h_5 =>
    refine helperOnly_bind (helperOnly_builtin _) fun source => ?_
    refine helperOnly_bind (helperOnly_builtin _) fun target => ?_
    intro e h
    obtain rfl := Except.error.inj h
    trivial
  all_goals exact helperOnly_builtin _

theorem helperOnly_callHelperWith {callKey : PyVal → PyVal → Except EvalErr PyVal}
    (hkey : ∀ f v, HelperOnly (callKey f v)) (name : String) (args : List PyVal)
    (kwargs : Kwargs) : HelperOnly (py.callHelperWith callKey name args kwargs) := by
  unfold Python.callHelperWith
  split
  case h_3 => exact helperOnly_extremum py _ _ hkey args kwargs
  case h_4 => exact helperOnly_extremum py _ _ hkey args kwargs
  case h_9 => exact helperOnly_ite (helperOnly_ok _) helperOnly_typeError
  case h_19 => exact helperOnly_typeError
  all_goals
    refine helperOnly_bindCall _ _ _ fun vs => ?_
    split
    · first
        | exact helperOnly_builtin _
        | exact helperOnly_ok _
        | exact helperOnly_convertUnit py _ _ _
    · exact helperOnly_typeError

theorem helperOnly_callKey (f item : PyVal) : HelperOnly (py.callKey f item) := by
  unfold Python.callKey
  split
  · exact helperOnly_callHelperWith py (fun _ _ => helperOnly_typeError) _ _ _
  · exact helperOnly_builtin _
  · exact helperOnly_typeError

/-- **A call raises no formula error but that of `convert_unit`**, whichever helper is called and
with whatever arguments. -/
theorem helperOnly_callValue (f : PyVal) (args : List PyVal) (kwargs : Kwargs) :
    HelperOnly (py.callValue f args kwargs) := by
  unfold Python.callValue
  split
  · exact helperOnly_callHelperWith py (helperOnly_callKey py) _ _ _
  · exact helperOnly_builtin _
  · exact helperOnly_typeError

end Functions

end ExtractFlow
