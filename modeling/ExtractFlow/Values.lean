import Mathlib.Data.Rat.Floor
import Mathlib.Algebra.Order.Field.Basic
import ExtractFlow.Lib.Failing

/-!
# Python values and exceptions

The worker and the backend pass JSON values around as Python objects.  A
formula may produce objects JSON cannot express — a tuple, a helper function, a
view of a dictionary, a byte string — so the type of values is a little larger
than JSON, and storing a value (`PyVal.dump`, pydantic's
`model_dump(mode="json")`) may fail.

Floats are modelled as the rationals they denote, with the two infinities and
the not-a-number beside them.

## Main definitions

* `PyErr` — the exceptions the modelled functions raise.
* `PyFloat`, `PyVal` — numbers and values; `ViewId` — the identity of a view.
* `PyVal.dump` — the JSON form of a value.
* `PyVal.isJson` — the values a JSON document can hold.
* `PyVal.ltFloat`, `PyVal.gtFloat` — `v < m` and `v > m` for a float bound `m`.

## Main results

* `PyVal.dump_of_isJson` — a JSON value is its own JSON form.
* `PyVal.isJson_of_dump` — a JSON form is a JSON value.
* `PyVal.isJson_of_dictGet`, `PyVal.isJsonItems_dictSet` — reading and storing entries.
-/

namespace ExtractFlow

/-- An exception, by its class, with the message or the key of those whose text or key some code
reads. -/
inductive PyErr where
  | valueError (msg : String)
  | typeError
  | zeroDivisionError
  | keyError (key : String)
  | recursionError
  | runtimeError (msg : String)
  /-- `FormulaValidationError` of the formula engine. -/
  | formulaValidationError (msg : String)
  /-- FastAPI's `HTTPException`. -/
  | httpException (status : ℕ) (detail : String)
  /-- Any other exception class. -/
  | other (kind : String)
  deriving DecidableEq, Repr, Inhabited

/-! ### Floats -/

/-- A Python float: the rational number it denotes, an infinity, or the not-a-number. -/
inductive PyFloat where
  | fin (q : ℚ)
  | inf
  | negInf
  | nan
  deriving DecidableEq, Repr

namespace PyFloat

/-- Python's `<` on floats. -/
def lt : PyFloat → PyFloat → Bool
  | .fin p, .fin q => decide (p < q)
  | .fin _, .inf => true
  | .negInf, .fin _ => true
  | .negInf, .inf => true
  | _, _ => false

/-- Python's `==` on floats: the not-a-number differs from itself. -/
def eq : PyFloat → PyFloat → Bool
  | .nan, _ => false
  | x, y => decide (x = y)

/-- Python's `<=` on floats: the not-a-number is not below itself. -/
def le : PyFloat → PyFloat → Bool
  | .nan, _ => false
  | _, .nan => false
  | x, y => !lt y x

end PyFloat

/-! ### Values -/

/-- Which object a view is: two views are one object when this agrees.  `path` is
where the formula's context held the dictionary, and `age` how many evaluations
ago it was wrapped. -/
structure ViewId where
  path : List String
  age : ℕ := 0
  deriving DecidableEq, Repr, Inhabited

/-- A Python value, of those a formula can produce or a JSON document can hold. -/
inductive PyVal where
  | none
  | bool (b : Bool)
  | int (i : ℤ)
  | float (x : PyFloat)
  | str (s : String)
  | list (items : List PyVal)
  | tuple (items : List PyVal)
  /-- A dictionary with string keys, in insertion order. -/
  | dict (items : List (String × PyVal))
  /-- A helper function of the formula language. -/
  | function (name : String)
  /-- An `AttrView` on a dictionary. -/
  | view (id : ViewId) (items : List (String × PyVal))
  /-- Any other object.  Its content is left out, so it has no JSON form here; the texts that
  bytes and complex numbers of a formula are stored as are not modelled. -/
  | object (kind : String)
  deriving Repr, Inhabited

namespace PyVal

/-- `v is None`. -/
def isNone : PyVal → Bool
  | .none => true
  | _ => false

/-- `bool(v)`. -/
def truthy : PyVal → Bool
  | .none => false
  | .bool b => b
  | .int i => i != 0
  | .float x => x != .fin 0
  | .str s => s != ""
  | .list items => !items.isEmpty
  | .tuple items => !items.isEmpty
  | .dict items => !items.isEmpty
  | .function _ => true
  | .view _ _ => true
  | .object _ => true

/-- The number a value is, when it is an `int`, a `bool` or a `float`. -/
def number? : PyVal → Option PyFloat
  | .bool b => some (.fin (if b then 1 else 0))
  | .int i => some (.fin i)
  | .float x => some x
  | _ => Option.none

/-- `v < m`; comparing a value that is not a number raises `TypeError`. -/
def ltFloat (v : PyVal) (m : PyFloat) : Except PyErr Bool :=
  match v.number? with
  | some x => .ok (x.lt m)
  | Option.none => .error .typeError

/-- `v > m` for a bound `m`: a comparison of numbers, and a `TypeError` for a value that is none. -/
def gtFloat (v : PyVal) (m : PyFloat) : Except PyErr Bool :=
  match v.number? with
  | some x => .ok (m.lt x)
  | Option.none => .error .typeError

/-- `v.get(key)` of a dictionary. -/
def dictGet (items : List (String × PyVal)) (key : String) : Option PyVal :=
  (items.find? fun p => p.1 == key).map Prod.snd

/-- `d[key] = v` of a dictionary: in place, or at the end. -/
def dictSet (items : List (String × PyVal)) (key : String) (v : PyVal) : List (String × PyVal) :=
  if (items.find? fun p => p.1 == key).isSome then
    items.map fun p => if p.1 == key then (key, v) else p
  else items ++ [(key, v)]

/-- A dictionary holds what was stored last under a key. -/
theorem dictGet_dictSet_self (items : List (String × PyVal)) (key : String) (v : PyVal) :
    dictGet (dictSet items key v) key = some v := by
  unfold dictGet dictSet
  cases hfind : items.find? fun p => p.1 == key with
  | none => simp [hfind, List.find?_append]
  | some p =>
    simp only [Option.isSome_some, if_true]
    induction items with
    | nil => cases hfind
    | cons q items ih =>
      rw [List.map_cons, List.find?_cons]
      cases hq : q.1 == key with
      | true => simp
      | false =>
        rw [List.find?_cons, hq] at hfind
        simpa [hq] using ih hfind

/-- Storing under a key leaves the other keys. -/
theorem dictGet_dictSet_ne (items : List (String × PyVal)) {key key' : String} (v : PyVal)
    (h : key' ≠ key) : dictGet (dictSet items key v) key' = dictGet items key' := by
  have hne : (key == key') = false := by simpa using Ne.symm h
  have hmap : ((items.map fun p => if p.1 == key then (key, v) else p).find?
      fun p => p.1 == key').map Prod.snd = (items.find? fun p => p.1 == key').map Prod.snd := by
    induction items with
    | nil => rfl
    | cons q items ih =>
      rw [List.map_cons, List.find?_cons, List.find?_cons]
      cases hq : q.1 == key with
      | true =>
        have hq' : (q.1 == key') = false := by rw [beq_iff_eq.mp hq, hne]
        simpa only [if_true, hne, hq'] using ih
      | false =>
        cases hq' : q.1 == key' with
        | true => simp [hq']
        | false => simpa [hq'] using ih
  unfold dictGet dictSet
  split
  · exact hmap
  · rw [List.find?_append]
    simp [hne]

mutual

/-- The JSON form of a value, as `model_dump` makes it: a tuple becomes a list, and a function, a
view or an object, which have none, raise. -/
def dump : PyVal → Except PyErr PyVal
  | .list xs => (dumpList xs).map .list
  | .tuple xs => (dumpList xs).map .list
  | .dict kvs => (dumpItems kvs).map .dict
  | .function name => .error (.other s!"Unable to serialize unknown type: function {name}")
  | .view _ _ => .error (.other "Unable to serialize unknown type: AttrView")
  | .object kind => .error (.other s!"Unable to serialize unknown type: {kind}")
  | .none => .ok .none
  | .bool b => .ok (.bool b)
  | .int i => .ok (.int i)
  | .float x => .ok (.float x)
  | .str s => .ok (.str s)

/-- `dump` of every item. -/
def dumpList : List PyVal → Except PyErr (List PyVal)
  | [] => .ok []
  | x :: xs => do
    let y ← dump x
    let ys ← dumpList xs
    return y :: ys

/-- `dump` of every entry. -/
def dumpItems : List (String × PyVal) → Except PyErr (List (String × PyVal))
  | [] => .ok []
  | (k, x) :: kvs => do
    let y ← dump x
    let rest ← dumpItems kvs
    return (k, y) :: rest

end

mutual

/-- A value that a JSON document can hold: it is made of lists, dictionaries and scalars all the way
down. -/
def isJson : PyVal → Bool
  | .list xs => isJsonList xs
  | .dict kvs => isJsonItems kvs
  | .tuple _ => false
  | .function _ => false
  | .view _ _ => false
  | .object _ => false
  | .none => true
  | .bool _ => true
  | .int _ => true
  | .float _ => true
  | .str _ => true

/-- Every item is a JSON value. -/
def isJsonList : List PyVal → Bool
  | [] => true
  | x :: xs => isJson x && isJsonList xs

/-- Every entry holds a JSON value. -/
def isJsonItems : List (String × PyVal) → Bool
  | [] => true
  | (_, x) :: kvs => isJson x && isJsonItems kvs

end

theorem isJsonList_iff : ∀ {xs : List PyVal},
    isJsonList xs = true ↔ ∀ x ∈ xs, x.isJson = true := by
  intro xs
  induction xs with
  | nil => simp [isJsonList]
  | cons x xs ih => rw [isJsonList, Bool.and_eq_true, ih, List.forall_mem_cons]

theorem isJsonItems_iff : ∀ {kvs : List (String × PyVal)},
    isJsonItems kvs = true ↔ ∀ p ∈ kvs, p.2.isJson = true := by
  intro kvs
  induction kvs with
  | nil => simp [isJsonItems]
  | cons p kvs ih => rw [isJsonItems, Bool.and_eq_true, ih, List.forall_mem_cons]

/-- The entries of a JSON object are JSON values themselves. -/
theorem isJson_of_dictGet {kvs : List (String × PyVal)} (h : isJsonItems kvs = true)
    {key : String} {v : PyVal} (hv : dictGet kvs key = some v) : v.isJson = true := by
  obtain ⟨p, hp, rfl⟩ := Option.map_eq_some_iff.mp hv
  exact isJsonItems_iff.mp h p (List.mem_of_find?_eq_some hp)

/-- An object stays one of JSON when a JSON value is stored under a key of it. -/
theorem isJsonItems_dictSet {kvs : List (String × PyVal)} (h : isJsonItems kvs = true)
    (key : String) {v : PyVal} (hv : v.isJson = true) :
    isJsonItems (dictSet kvs key v) = true := by
  rw [isJsonItems_iff] at h ⊢
  intro p hp
  unfold dictSet at hp
  split at hp
  · obtain ⟨q, hq, rfl⟩ := List.mem_map.mp hp
    split
    · exact hv
    · exact h q hq
  · rcases List.mem_append.mp hp with hp | hp
    · exact h p hp
    · rw [List.mem_singleton.mp hp]
      exact hv

mutual

/-- A JSON value is its own JSON form, so storing and loading it changes nothing. -/
theorem dump_of_isJson : ∀ {v : PyVal}, v.isJson = true → v.dump = .ok v
  | .list xs, h => by rw [isJson] at h; rw [dump, dumpList_of_isJson h]; rfl
  | .dict kvs, h => by rw [isJson] at h; rw [dump, dumpItems_of_isJson h]; rfl
  | .tuple _, h => by simp [isJson] at h
  | .function _, h => by simp [isJson] at h
  | .view _ _, h => by simp [isJson] at h
  | .object _, h => by simp [isJson] at h
  | .none, _ => rfl
  | .bool _, _ => rfl
  | .int _, _ => rfl
  | .float _, _ => rfl
  | .str _, _ => rfl

theorem dumpList_of_isJson : ∀ {xs : List PyVal}, isJsonList xs = true → dumpList xs = .ok xs
  | [], _ => rfl
  | x :: xs, h => by
    rw [isJsonList, Bool.and_eq_true] at h
    rw [dumpList, dump_of_isJson h.1, dumpList_of_isJson h.2]
    rfl

theorem dumpItems_of_isJson : ∀ {kvs : List (String × PyVal)}, isJsonItems kvs = true →
    dumpItems kvs = .ok kvs
  | [], _ => rfl
  | (k, x) :: kvs, h => by
    rw [isJsonItems, Bool.and_eq_true] at h
    rw [dumpItems, dump_of_isJson h.1, dumpItems_of_isJson h.2]
    rfl

end

mutual

/-- Whatever has a JSON form, that form is a JSON value; tuples have become lists in it. -/
theorem isJson_of_dump : ∀ {v u : PyVal}, v.dump = .ok u → u.isJson = true
  | .list xs, u, h => by
    rw [dump] at h
    obtain ⟨ys, hys, rfl⟩ := Failing.map_ok.mp h
    rw [isJson]
    exact isJsonList_of_dumpList hys
  | .tuple xs, u, h => by
    rw [dump] at h
    obtain ⟨ys, hys, rfl⟩ := Failing.map_ok.mp h
    rw [isJson]
    exact isJsonList_of_dumpList hys
  | .dict kvs, u, h => by
    rw [dump] at h
    obtain ⟨ys, hys, rfl⟩ := Failing.map_ok.mp h
    rw [isJson]
    exact isJsonItems_of_dumpItems hys
  | .function _, u, h => by simp [dump] at h
  | .view _ _, u, h => by simp [dump] at h
  | .object _, u, h => by simp [dump] at h
  | .none, u, h => by rw [dump] at h; obtain rfl := Except.ok.inj h; rfl
  | .bool _, u, h => by rw [dump] at h; obtain rfl := Except.ok.inj h; rfl
  | .int _, u, h => by rw [dump] at h; obtain rfl := Except.ok.inj h; rfl
  | .float _, u, h => by rw [dump] at h; obtain rfl := Except.ok.inj h; rfl
  | .str _, u, h => by rw [dump] at h; obtain rfl := Except.ok.inj h; rfl

theorem isJsonList_of_dumpList : ∀ {xs ys : List PyVal}, dumpList xs = .ok ys →
    isJsonList ys = true
  | [], ys, h => by rw [dumpList] at h; obtain rfl := Except.ok.inj h; rfl
  | x :: xs, ys, h => by
    rw [dumpList] at h
    obtain ⟨y, hy, h⟩ := Failing.bind_ok.mp h
    obtain ⟨zs, hzs, h⟩ := Failing.bind_ok.mp h
    obtain rfl := Except.ok.inj h
    rw [isJsonList, isJson_of_dump hy, isJsonList_of_dumpList hzs]
    rfl

theorem isJsonItems_of_dumpItems : ∀ {kvs ys : List (String × PyVal)},
    dumpItems kvs = .ok ys → isJsonItems ys = true
  | [], ys, h => by rw [dumpItems] at h; obtain rfl := Except.ok.inj h; rfl
  | (k, x) :: kvs, ys, h => by
    rw [dumpItems] at h
    obtain ⟨y, hy, h⟩ := Failing.bind_ok.mp h
    obtain ⟨zs, hzs, h⟩ := Failing.bind_ok.mp h
    obtain rfl := Except.ok.inj h
    rw [isJsonItems, isJson_of_dump hy, isJsonItems_of_dumpItems hzs]
    rfl

end

end PyVal

end ExtractFlow
