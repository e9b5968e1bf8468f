import ExtractFlow.FormulaSyntax

/-!
# Python's operators on formula values

What `+`, `<`, `==`, `float(...)` and iteration do on the values a formula can
hold, and which exception they raise.  Integers are exact, sequences and texts
are lists; a view compares by identity and supports no operator.

The parts of Python that are not spelled out are the fields of `Python`: the
parser, double arithmetic, the text of numbers, the calendar parsers, and the
operations of classes that no JSON value has, such as bytes and complex numbers.

## Main definitions

* `BuiltinErr` — the exceptions of Python's own operations.
* `Python` — the interpreter and the libraries.
* `Python.eq`, `Python.order`, `Python.compare`, `Python.truthy` — comparison.
* `Python.add`, `Python.sub`, `Python.mul`, `Python.div`, `Python.mod`, `Python.neg`,
  `Python.pos` — arithmetic.
* `Python.iterate`, `Python.toFloat` — iteration and conversion.
-/

namespace ExtractFlow

/-! ### The interpreter -/

/-- An exception of Python's own operations.  None of them is a
`FormulaValidationError`. -/
inductive BuiltinErr where
  | typeError
  | valueError (msg : String)
  | zeroDivisionError
  | overflowError
  | memoryError
  /-- Any other class of the interpreter or a library. -/
  | other (kind : String)
  deriving DecidableEq, Repr, Inhabited

def BuiltinErr.toPyErr : BuiltinErr → PyErr
  | .typeError => .typeError
  | .valueError msg => .valueError msg
  | .zeroDivisionError => .zeroDivisionError
  | .overflowError => .other "OverflowError"
  | .memoryError => .other "MemoryError"
  | .other kind => .other kind

/-- How `ast.parse` ends when it does not return: with a syntax error, which is reported, or with
another exception, which is not. -/
inductive ParseFailure where
  | syntaxError (msg : String)
  | raised (e : BuiltinErr)
  deriving DecidableEq, Repr, Inhabited

/-- Double arithmetic, with the operands a formula lets through. What is left out here is either
decided before or raises an error. -/
structure FloatArithmetic where
  /-- `float(i)`; nothing when the integer is too large. -/
  ofInt : ℤ → Option PyFloat
  add : PyFloat → PyFloat → PyFloat
  mul : PyFloat → PyFloat → PyFloat
  /-- `x / y` for `y != 0`. -/
  div : PyFloat → PyFloat → PyFloat
  /-- `i / j` for `j != 0`; nothing when the quotient is too large. -/
  divInt : ℤ → ℤ → Option PyFloat
  /-- `x % y` for `y != 0`. -/
  mod : PyFloat → PyFloat → PyFloat
  /-- `round(x, n)`; nothing when the result is too large. -/
  roundTo : PyFloat → ℤ → Option PyFloat
  /-- The compensated sum of `sum`, from a start value over items some of which are floats;
  nothing when an integer among them is too large. -/
  sum : List (ℤ ⊕ PyFloat) → Option PyFloat

/-- The texts of values and the values of texts, as the interpreter makes them. -/
structure PyText where
  /-- `str(v)`, which an integer of too many digits does not have. -/
  str : PyVal → Except BuiltinErr String
  /-- `format(x, spec)`. -/
  format : PyFloat → String → Except BuiltinErr String
  /-- `float(s)`. -/
  floatOf : String → Except BuiltinErr PyFloat
  /-- `s % v`. -/
  printf : String → PyVal → Except BuiltinErr PyVal
  /-- `c.isalnum()`. -/
  isAlnum : Char → Bool

/-- A day of the calendar, as `date` holds it. -/
structure Date where
  year : ℤ
  month : ℤ
  day : ℤ
  deriving DecidableEq, Repr, Inhabited

/-- The operations of the classes no JSON value has; the name of the class decides what they do. -/
structure ForeignOps where
  truthy : String → Bool
  eq : PyVal → PyVal → Bool
  order : CmpOp → PyVal → PyVal → Except BuiltinErr Bool
  unary : UnaryOperator → String → Except BuiltinErr PyVal
  binary : BinOperator → PyVal → PyVal → Except BuiltinErr PyVal
  iterate : String → Except BuiltinErr (List PyVal)
  /-- `sum` takes an object of the class as its start. -/
  sumStart : String → Except BuiltinErr Unit
  contains : String → PyVal → Except BuiltinErr Bool
  toFloat : String → Except BuiltinErr PyFloat
  call : String → List PyVal → List (String × PyVal) → Except BuiltinErr PyVal

/-- The interpreter and the libraries of the formula engine. -/
structure Python where
  floats : FloatArithmetic
  text : PyText
  foreign : ForeignOps
  /-- `datetime.fromisoformat(s).date()`. -/
  fromIsoFormat : String → Except BuiltinErr Date
  /-- `date_parser.parse(s).date()`. -/
  parseDateText : String → Except BuiltinErr Date
  /-- The body of `ast.parse(s, mode="eval")`. -/
  parse : String → Except ParseFailure Node

/-! ### Numbers -/

/-- The number a value is; a `bool` is an `int`. -/
def PyVal.num? : PyVal → Option (ℤ ⊕ PyFloat)
  | .bool b => some (.inl (if b then 1 else 0))
  | .int i => some (.inl i)
  | .float x => some (.inr x)
  | _ => Option.none

/-- An object of a class that is not spelled out. -/
def PyVal.isForeign : PyVal → Bool
  | .object _ => true
  | _ => false

/-- The float of the other sign; the not-a-number has none. -/
def PyFloat.neg : PyFloat → PyFloat
  | .fin q => .fin (-q)
  | .inf => .negInf
  | .negInf => .inf
  | .nan => .nan

/-- The largest index. -/
def maxSize : ℤ := 2 ^ 63 - 1

/-- The largest length of a list, whose items are addresses of eight bytes. -/
def maxListSize : ℤ := 2 ^ 60 - 1

/-- The largest length of a tuple, whose items stand beside its header. -/
def maxTupleSize : ℤ := 2 ^ 60 - 4

namespace Python

variable (py : Python)

/-- `float(n)` of a number. -/
def numToFloat : ℤ ⊕ PyFloat → Except BuiltinErr PyFloat
  | .inl i => (py.floats.ofInt i).elim (.error .overflowError) .ok
  | .inr x => .ok x

/-- `float(v)`: a text is read, a number is converted, and most other values have no float. -/
def toFloat (v : PyVal) : Except BuiltinErr PyFloat :=
  match v with
  | .str s => py.text.floatOf s
  | .object kind => py.foreign.toFloat kind
  | v => v.num?.elim (.error .typeError) py.numToFloat

/-! ### Comparison -/

/-- `bool(v)`, which never fails for the values of a formula. -/
def truthy : PyVal → Bool
  | .object kind => py.foreign.truthy kind
  | v => v.truthy

mutual

/-- `a == b`: sequences and dictionaries compare by their items, numbers by their values whatever
their types, and views by identity. -/
def eq : PyVal → PyVal → Bool
  | .none, .none => true
  | .str a, .str b => a == b
  | .list a, .list b => eqList a b
  | .tuple a, .tuple b => eqList a b
  | .dict a, .dict b => decide (a.length = b.length) && eqItems a b
  | .function a, .function b => a == b
  | .view a _, .view b _ => decide (a = b)
  | a, b =>
      if a.isForeign || b.isForeign then py.foreign.eq a b
      else
        match a.number?, b.number? with
        | some x, some y => x.eq y
        | _, _ => false

/-- The lists are equal element by element. -/
def eqList : List PyVal → List PyVal → Bool
  | [], [] => true
  | a :: as, b :: bs => eq a b && eqList as bs
  | _, _ => false

/-- Every entry of the first dictionary is in the second. -/
def eqItems : List (String × PyVal) → List (String × PyVal) → Bool
  | [], _ => true
  | (k, v) :: items, b =>
      (match PyVal.dictGet b k with
        | some w => eq v w
        | none => false) && eqItems items b

end

/-- An order relation of Python on floats. -/
def orderFloat : CmpOp → PyFloat → PyFloat → Bool
  | .lt, x, y => x.lt y
  | .ltE, x, y => x.le y
  | .gt, x, y => y.lt x
  | .gtE, x, y => y.le x
  | _, _, _ => false

/-- An order relation on texts, by code point. -/
def orderStr : CmpOp → String → String → Bool
  | .lt, a, b => decide (a < b)
  | .ltE, a, b => decide (¬ b < a)
  | .gt, a, b => decide (b < a)
  | .gtE, a, b => decide (¬ a < b)
  | _, _, _ => false

/-- The order relation of two lists, one a prefix of the other. -/
def orderLength : CmpOp → ℕ → ℕ → Bool
  | .lt, m, n => decide (m < n)
  | .ltE, m, n => decide (m ≤ n)
  | .gt, m, n => decide (n < m)
  | .gtE, m, n => decide (n ≤ m)
  | _, _, _ => false

mutual

/-- `a < b`, `a <= b`, `a > b` and `a >= b`. -/
def order (op : CmpOp) : PyVal → PyVal → Except BuiltinErr Bool
  | .str a, .str b => .ok (orderStr op a b)
  | .list a, .list b => orderList op a b
  | .tuple a, .tuple b => orderList op a b
  | a, b =>
      if a.isForeign || b.isForeign then py.foreign.order op a b
      else
        match a.number?, b.number? with
        | some x, some y => .ok (orderFloat op x y)
        | _, _ => .error .typeError

/-- Lists compare at the first place where they differ. -/
def orderList (op : CmpOp) : List PyVal → List PyVal → Except BuiltinErr Bool
  | a :: as, b :: bs => if py.eq a b then orderList op as bs else order op a b
  | as, bs => .ok (orderLength op as.length bs.length)

end

/-- One comparison of a chain.  The evaluator tests six of the operators; the others pass. -/
def compare (op : CmpOp) (a b : PyVal) : Except BuiltinErr Bool :=
  match op with
  | .eq => .ok (py.eq a b)
  | .notEq => .ok (!py.eq a b)
  | .lt | .ltE | .gt | .gtE => py.order op a b
  | .is | .isNot | .in | .notIn => .ok true

/-! ### Arithmetic -/

/-- An operator on two numbers: on integers, or on floats. -/
def numeric (op : BinOperator) (onInt : ℤ → ℤ → Except BuiltinErr PyVal)
    (onFloat : PyFloat → PyFloat → Except BuiltinErr PyVal) (a b : PyVal) :
    Except BuiltinErr PyVal :=
  if a.isForeign || b.isForeign then py.foreign.binary op a b
  else
    match a.num?, b.num? with
    | some (.inl i), some (.inl j) => onInt i j
    | some x, some y => do onFloat (← py.numToFloat x) (← py.numToFloat y)
    | _, _ => .error .typeError

/-- `a + b`: texts, lists and tuples are put together with their like, and numbers are added. -/
def add (a b : PyVal) : Except BuiltinErr PyVal :=
  match a, b with
  | .str a, .str b => .ok (.str (a ++ b))
  | .list a, .list b => .ok (.list (a ++ b))
  | .tuple a, .tuple b => .ok (.tuple (a ++ b))
  | a, b => py.numeric .add (fun i j => .ok (.int (i + j)))
      (fun x y => .ok (.float (py.floats.add x y))) a b

/-- `a - b`, which is defined for numbers only. -/
def sub (a b : PyVal) : Except BuiltinErr PyVal :=
  py.numeric .sub (fun i j => .ok (.int (i - j)))
    (fun x y => .ok (.float (py.floats.add x y.neg))) a b

/-- A sequence repeated `n` times. -/
def repeatItems {α : Type} (items : List α) (n : ℤ) : List α :=
  (List.replicate n.toNat items).flatten

/-- `seq * n`: the count has to fit an index, and the items what a sequence can hold.
Memory that runs out before that is not modelled. -/
def repeatSeq (a : PyVal) (n : ℤ) : Except BuiltinErr PyVal :=
  if n > maxSize ∨ n < -maxSize - 1 then .error .overflowError
  else
    match a with
    | .str s =>
        if n * s.length > maxSize then .error .overflowError
        else .ok (.str (String.ofList (repeatItems s.toList n)))
    | .list items =>
        if n * items.length > maxListSize then .error .memoryError
        else .ok (.list (repeatItems items n))
    | .tuple items =>
        if n * items.length > maxTupleSize then .error .memoryError
        else .ok (.tuple (repeatItems items n))
    | _ => .error .typeError

/-- A sequence that can be repeated. -/
def isSequence : PyVal → Bool
  | .str _ | .list _ | .tuple _ => true
  | _ => false

/-- `a * b`: a sequence is repeated by an integer on either side, and numbers are multiplied. -/
def mul (a b : PyVal) : Except BuiltinErr PyVal :=
  match isSequence a, isSequence b, a.num?, b.num? with
  | true, _, _, some (.inl n) => repeatSeq a n
  | _, true, some (.inl n), _ => repeatSeq b n
  | _, _, _, _ => py.numeric .mult (fun i j => .ok (.int (i * j)))
      (fun x y => .ok (.float (py.floats.mul x y))) a b

/-- `a / b`, for a `b` that is not equal to 0. -/
def div (a b : PyVal) : Except BuiltinErr PyVal :=
  py.numeric .div
    (fun i j => (py.floats.divInt i j).elim (.error .overflowError) fun x => .ok (.float x))
    (fun x y => .ok (.float (py.floats.div x y))) a b

/-- `a % b`: a text is a format for the right operand, and numbers have a remainder with the sign of
the divisor. -/
def mod (a b : PyVal) : Except BuiltinErr PyVal :=
  match a with
  | .str s => py.text.printf s b
  | a => py.numeric .mod
      (fun i j => if j = 0 then .error .zeroDivisionError else .ok (.int (Int.fmod i j)))
      (fun x y => if y = .fin 0 then .error .zeroDivisionError
        else .ok (.float (py.floats.mod x y))) a b

/-- `-v`: a number with the other sign; a truth value counts as an integer. -/
def neg : PyVal → Except BuiltinErr PyVal
  | .object kind => py.foreign.unary .uSub kind
  | v =>
      match v.num? with
      | some (.inl i) => .ok (.int (-i))
      | some (.inr x) => .ok (.float x.neg)
      | none => .error .typeError

/-- `+v`: the number itself, which for a truth value is an integer. -/
def pos : PyVal → Except BuiltinErr PyVal
  | .object kind => py.foreign.unary .uAdd kind
  | v =>
      match v.num? with
      | some (.inl i) => .ok (.int i)
      | some (.inr x) => .ok (.float x)
      | none => .error .typeError

/-! ### Iteration -/

/-- The items of an iterable: the characters of a text, and the keys of a dictionary. -/
def iterate : PyVal → Except BuiltinErr (List PyVal)
  | .list items => .ok items
  | .tuple items => .ok items
  | .str s => .ok (s.toList.map fun c => .str (String.ofList [c]))
  | .dict items => .ok (items.map fun p => .str p.1)
  | .object kind => py.foreign.iterate kind
  | _ => .error .typeError

end Python

mutual

/-- `hash(v)` does not raise. -/
def PyVal.hashable : PyVal → Bool
  | .list _ => false
  | .dict _ => false
  | .tuple items => hashableList items
  | _ => true

/-- Every item is hashable. -/
def PyVal.hashableList : List PyVal → Bool
  | [] => true
  | v :: vs => PyVal.hashable v && PyVal.hashableList vs

end

end ExtractFlow
