import ExtractFlow.Lib.Keyed
import ExtractFlow.StructuredValues

/-!
# What operators and helpers return

A value of an evaluation is clean when its unwrapped form is a JSON value.  Three
kinds never are: tuples, functions and objects of other classes.  An operator or a
helper makes a new value from its arguments, or returns one of them, or an item of
one; where a tuple or an object goes in, none may come out, but none comes out that
did not go in.

## Main definitions

* `PyVal.elements`, `PyVal.isAlien`, `PyVal.isClean`, `PyVal.viewsJson`.
* `MadeFrom` — a value put together from others.
* `ForeignLaws` — what is known of the classes that are not spelled out.

## Main results

* `isClean_iff` — a value is clean when neither it nor an element is alien.
* `binOp_ok` — what an operator makes.
* `callHelper_ok` — what a helper returns.
-/

namespace ExtractFlow

/-! ### Kinds of values -/

namespace PyVal

/-- The elements of a list or a tuple, which an operator or a helper may hand on one by one. -/
def elements : PyVal → List PyVal
  | .list items => items
  | .tuple items => items
  | _ => []

/-- A value of a kind that JSON does not have, however it is unwrapped. -/
def isAlien : PyVal → Bool
  | .tuple _ | .function _ | .object _ => true
  | _ => false

/-- A view, a dictionary or a function: no operator makes one. -/
def isGiven : PyVal → Bool
  | .view _ _ | .dict _ | .function _ => true
  | _ => false

/-- The method a view shows under the name `unwrap`. -/
def unwrapMethod : PyVal := .object "bound method AttrView.unwrap"

/-- The evaluation may return it: unwrapped, it is a JSON value. -/
def isClean (v : PyVal) : Bool := (unwrapValue v).isJson

mutual

/-- Every view and every dictionary in the value holds JSON values, as those made of the
context do. -/
def viewsJson : PyVal → Bool
  | .list items => viewsJsonList items
  | .tuple items => viewsJsonList items
  | .view _ items => isJsonItems (unwrapItems items)
  | .dict items => isJsonItems items
  | .none | .bool _ | .int _ | .float _ | .str _ | .function _ | .object _ => true

def viewsJsonList : List PyVal → Bool
  | [] => true
  | v :: vs => viewsJson v && viewsJsonList vs

end

theorem viewsJsonList_iff {vs : List PyVal} :
    viewsJsonList vs = true ↔ ∀ v ∈ vs, v.viewsJson = true := by
  induction vs with
  | nil => simp [viewsJsonList]
  | cons v vs ih => rw [viewsJsonList, Bool.and_eq_true, ih, List.forall_mem_cons]

/-- The views in a value are those in its elements, when it is none itself. -/
theorem viewsJson_iff {v : PyVal} (h : v.isGiven = false) :
    v.viewsJson = true ↔ ∀ x ∈ v.elements, x.viewsJson = true := by
  cases v with
  | list items | tuple items => exact viewsJsonList_iff
  | view | dict | function => cases h
  | none | bool | int | float | str | object => simp [viewsJson, elements]

theorem viewsJson_of_mem_elements {v x : PyVal} (h : v.viewsJson = true) (hx : x ∈ v.elements) :
    x.viewsJson = true := by
  cases v with
  | list items | tuple items => exact viewsJsonList_iff.mp h x hx
  | none | bool | int | float | str | dict | function | view | object => cases hx

theorem isJsonList_unwrapList {vs : List PyVal} :
    isJsonList (unwrapList vs) = true ↔ ∀ v ∈ vs, v.isClean = true := by
  induction vs with
  | nil => simp [unwrapList, isJsonList]
  | cons v vs ih => rw [unwrapList, isJsonList, Bool.and_eq_true, ih, List.forall_mem_cons]; rfl

/-- **A value is clean** when neither it nor an element of it is alien. -/
theorem isClean_iff {v : PyVal} (h : v.viewsJson = true) :
    v.isClean = true ↔ v.isAlien = false ∧ ∀ x ∈ v.elements, x.isClean = true := by
  cases v with
  | list items =>
    rw [isClean, unwrapValue, isJson, isJsonList_unwrapList]
    simp [isAlien, elements]
  | view id items =>
    rw [viewsJson] at h
    simpa [isClean, unwrapValue, isJson, isAlien, elements] using h
  | dict items =>
    rw [viewsJson] at h
    simpa [isClean, unwrapValue, isJson, isAlien, elements] using h
  | tuple | function | object => simp [isClean, unwrapValue, isJson, isAlien]
  | none | bool | int | float | str => simp [isClean, unwrapValue, isJson, isAlien, elements]

theorem isAlien_of_isClean {v : PyVal} (h : v.isClean = true) : v.isAlien = false := by
  cases v with
  | tuple | function | object => cases h
  | none | bool | int | float | str | list | dict | view => rfl

theorem isClean_of_mem_elements {v x : PyVal} (h : v.isClean = true) (hx : x ∈ v.elements) :
    x.isClean = true := by
  cases v with
  | list items =>
    rw [isClean, unwrapValue, isJson, isJsonList_unwrapList] at h
    exact h x hx
  | tuple => cases h
  | none | bool | int | float | str | dict | function | view | object => cases hx

mutual

theorem viewsJson_of_isClean : ∀ {v : PyVal}, v.isClean = true → v.viewsJson = true
  | .list items, h => by
    rw [isClean, unwrapValue, isJson] at h
    rw [viewsJson]
    exact viewsJsonList_of_isClean h
  | .tuple items, h => by cases h
  | .view id items, h => h
  | .dict items, h => h
  | .none, _ | .bool _, _ | .int _, _ | .float _, _ | .str _, _ => rfl
  | .function _, _ | .object _, _ => rfl

theorem viewsJsonList_of_isClean : ∀ {vs : List PyVal}, isJsonList (unwrapList vs) = true →
    viewsJsonList vs = true
  | [], _ => rfl
  | v :: vs, h => by
    rw [unwrapList, isJsonList, Bool.and_eq_true] at h
    rw [viewsJsonList, viewsJson_of_isClean (v := v) h.1, viewsJsonList_of_isClean h.2]
    rfl

end

/-- What the evaluator's context holds is clean. -/
theorem isClean_wrapValue (path : List String) {v : PyVal} (h : v.isJson = true) :
    (wrapValue path v.aged).isClean = true := by
  rw [isClean, unwrapValue_wrapValue path h]
  exact h

/-- An entry of a view is clean, and so is one of a dictionary. -/
theorem isClean_entry {items : List (String × PyVal)} (h : isJsonItems (unwrapItems items) = true)
    (key : String) : ((dictGet items key).getD .none).isClean = true := by
  cases hget : dictGet items key with
  | none => rfl
  | some v =>
    rw [Option.getD_some]
    induction items with
    | nil => cases hget
    | cons p items ih =>
      obtain ⟨k, u⟩ := p
      rw [unwrapItems, isJsonItems, Bool.and_eq_true] at h
      unfold dictGet at hget
      rw [List.find?_cons] at hget
      split at hget
      · obtain rfl := Option.some.inj hget
        exact h.1
      · exact ih h.2 hget

mutual

theorem unwrapValue_of_isJson : ∀ {v : PyVal}, v.isJson = true → unwrapValue v = v
  | .list items, h => by rw [isJson] at h; rw [unwrapValue, unwrapList_of_isJsonList h]
  | .dict items, _ => rfl
  | .tuple _, h | .function _, h | .view _ _, h | .object _, h => by simp [isJson] at h
  | .none, _ | .bool _, _ | .int _, _ | .float _, _ | .str _, _ => rfl

theorem unwrapList_of_isJsonList : ∀ {vs : List PyVal}, isJsonList vs = true → unwrapList vs = vs
  | [], _ => rfl
  | v :: vs, h => by
    rw [isJsonList, Bool.and_eq_true] at h
    rw [unwrapList, unwrapValue_of_isJson h.1, unwrapList_of_isJsonList h.2]

end

theorem isClean_of_isJson {v : PyVal} (h : v.isJson = true) : v.isClean = true := by
  rw [isClean, unwrapValue_of_isJson h]
  exact h

end PyVal

/-! ### Operators -/

/-- What is known of the classes that are not spelled out, such as bytes and complex
numbers: their operations give objects of such classes, no bound methods, they do not
add to lists, and what they hold are integers. -/
structure ForeignLaws (py : Python) : Prop where
  unary : ∀ {op kind v}, py.foreign.unary op kind = .ok v →
    (∃ kind', v = .object kind') ∧ v ≠ PyVal.unwrapMethod
  binary : ∀ {op a b v}, py.foreign.binary op a b = .ok v →
    (∃ kind, v = .object kind) ∧ v ≠ PyVal.unwrapMethod
  /-- Only `%` of bytes takes a list or a tuple. -/
  binary_elements : ∀ {op a b v}, py.foreign.binary op a b = .ok v → op ≠ .mod →
    a.elements = [] ∧ b.elements = []
  iterate : ∀ {kind items}, py.foreign.iterate kind = .ok items → ∀ x ∈ items, ∃ i, x = .int i
  printf : ∀ {s v r}, py.text.printf s v = .ok r → ∃ t, r = .str t

/-- A value as operators make them. -/
def PyVal.IsNew (v : PyVal) : Prop := v ≠ unwrapMethod ∧ v.isGiven = false

/-- A value put together from others: alien when one of them is, with their elements. -/
structure MadeFrom (sources : List PyVal) (v : PyVal) : Prop where
  isAlien : v.isAlien = true ↔ ∃ s ∈ sources, s.isAlien = true
  elements : ∀ x, x ∈ v.elements ↔ ∃ s ∈ sources, x ∈ s.elements
  isNew : v.IsNew

/-- A number. -/
theorem madeFrom_of_num? {sources : List PyVal} {v : PyVal} (hv : v.num?.isSome = true)
    (hsources : ∀ s ∈ sources, s.num?.isSome = true) : MadeFrom sources v := by
  have hnumber : ∀ {u : PyVal}, u.num?.isSome = true → u.isAlien = false ∧ u.elements = [] ∧
      u.IsNew := by
    intro u hu
    cases u with
    | bool | int | float => exact ⟨rfl, rfl, fun h => (nomatch h), rfl⟩
    | none | str | list | tuple | dict | function | view | object => cases hu
  obtain ⟨halien, helements, hnew⟩ := hnumber hv
  refine ⟨?_, fun x => ?_, hnew⟩
  · rw [halien]
    refine iff_of_false (by simp) ?_
    rintro ⟨s, hs, h⟩
    rw [(hnumber (hsources s hs)).1] at h
    cases h
  · rw [helements]
    refine iff_of_false List.not_mem_nil ?_
    rintro ⟨s, hs, h⟩
    rw [(hnumber (hsources s hs)).2.1] at h
    exact absurd h List.not_mem_nil

theorem elements_of_num? {v : PyVal} {n : ℤ ⊕ PyFloat} (h : v.num? = some n) :
    v.elements = [] ∧ v.isAlien = false := by
  cases v <;> first | exact ⟨rfl, rfl⟩ | cases h

theorem isAlien_of_isForeign {v : PyVal} (h : v.isForeign = true) : v.isAlien = true := by
  cases v <;> first | rfl | cases h

section Operators

variable {py : Python}

/-- An operator on numbers, or on an object of another class. -/
theorem numeric_ok {op : BinOperator} {onInt : ℤ → ℤ → Except BuiltinErr PyVal}
    {onFloat : PyFloat → PyFloat → Except BuiltinErr PyVal}
    (hint : ∀ i j v, onInt i j = .ok v → v.num?.isSome = true)
    (hfloat : ∀ x y v, onFloat x y = .ok v → v.num?.isSome = true) {a b v : PyVal}
    (h : py.numeric op onInt onFloat a b = .ok v) :
    (v.num?.isSome = true ∧ a.num?.isSome = true ∧ b.num?.isSome = true) ∨
      (a.isForeign || b.isForeign) = true ∧ py.foreign.binary op a b = .ok v := by
  unfold Python.numeric at h
  split at h
  · next hforeign => exact Or.inr ⟨hforeign, h⟩
  · refine Or.inl ?_
    split at h
    · next ha hb => exact ⟨hint _ _ _ h, by rw [ha]; rfl, by rw [hb]; rfl⟩
    · next _ ha hb =>
      obtain ⟨x, -, h⟩ := Failing.bind_ok.mp h
      obtain ⟨y, -, h⟩ := Failing.bind_ok.mp h
      exact ⟨hfloat _ _ _ h, by rw [ha]; rfl, by rw [hb]; rfl⟩
    · cases h

/-- An object made from an object. -/
theorem madeFrom_of_foreign (laws : ForeignLaws py) {op : BinOperator} {a b v : PyVal}
    (hforeign : (a.isForeign || b.isForeign) = true) (h : py.foreign.binary op a b = .ok v)
    (hop : op ≠ .mod) : MadeFrom [a, b] v := by
  obtain ⟨⟨kind, rfl⟩, hmethod⟩ := laws.binary h
  obtain ⟨ha, hb⟩ := laws.binary_elements h hop
  refine ⟨iff_of_true rfl ?_, fun x => ?_, ⟨hmethod, rfl⟩⟩
  · rcases Bool.or_eq_true _ _ ▸ hforeign with h | h
    · exact ⟨a, by simp, isAlien_of_isForeign h⟩
    · exact ⟨b, by simp, isAlien_of_isForeign h⟩
  · show x ∈ [] ↔ _
    simp [ha, hb]

/-- A number from numbers, or an object from an object; nothing with elements. -/
theorem madeFrom_of_numeric (laws : ForeignLaws py) {op : BinOperator}
    {onInt : ℤ → ℤ → Except BuiltinErr PyVal}
    {onFloat : PyFloat → PyFloat → Except BuiltinErr PyVal}
    (hint : ∀ i j v, onInt i j = .ok v → v.num?.isSome = true)
    (hfloat : ∀ x y v, onFloat x y = .ok v → v.num?.isSome = true) {a b v : PyVal}
    (h : py.numeric op onInt onFloat a b = .ok v) (hop : op ≠ .mod) :
    MadeFrom [a, b] v ∧ a.elements = [] ∧ b.elements = [] := by
  rcases numeric_ok hint hfloat h with ⟨hv, ha, hb⟩ | ⟨hforeign, h⟩
  · refine ⟨madeFrom_of_num? hv (by simp [ha, hb]), ?_⟩
    obtain ⟨m, hm⟩ := Option.isSome_iff_exists.mp ha
    obtain ⟨n, hn⟩ := Option.isSome_iff_exists.mp hb
    exact ⟨(elements_of_num? hm).1, (elements_of_num? hn).1⟩
  · exact ⟨madeFrom_of_foreign laws hforeign h hop, laws.binary_elements h hop⟩

/-- A sum is made from its operands. -/
theorem add_madeFrom (laws : ForeignLaws py) {a b v : PyVal} (h : py.add a b = .ok v) :
    MadeFrom [a, b] v := by
  unfold Python.add at h
  split at h
  · obtain rfl := Except.ok.inj h
    exact ⟨by simp [PyVal.isAlien], by simp [PyVal.elements], ⟨fun h => (nomatch h), rfl⟩⟩
  · obtain rfl := Except.ok.inj h
    exact ⟨by simp [PyVal.isAlien], by simp [PyVal.elements], ⟨fun h => (nomatch h), rfl⟩⟩
  · obtain rfl := Except.ok.inj h
    exact ⟨by simp [PyVal.isAlien], by simp [PyVal.elements], ⟨fun h => (nomatch h), rfl⟩⟩
  · refine (madeFrom_of_numeric laws ?_ ?_ h (by decide)).1
    · rintro i j v h
      obtain rfl := Except.ok.inj h
      rfl
    · rintro x y v h
      obtain rfl := Except.ok.inj h
      rfl

/-- A difference is a number, or made from an object. -/
theorem sub_madeFrom (laws : ForeignLaws py) {a b v : PyVal} (h : py.sub a b = .ok v) :
    MadeFrom [a, b] v ∧ a.elements = [] ∧ b.elements = [] := by
  refine madeFrom_of_numeric laws ?_ ?_ h (by decide)
  · rintro i j v h
    obtain rfl := Except.ok.inj h
    rfl
  · rintro x y v h
    obtain rfl := Except.ok.inj h
    rfl

/-- So is a quotient. -/
theorem div_madeFrom (laws : ForeignLaws py) {a b v : PyVal} (h : py.div a b = .ok v) :
    MadeFrom [a, b] v ∧ a.elements = [] ∧ b.elements = [] := by
  refine madeFrom_of_numeric laws ?_ ?_ h (by decide)
  · rintro i j v h
    cases hdiv : py.floats.divInt i j with
    | none => rw [hdiv] at h; cases h
    | some x =>
      rw [hdiv] at h
      obtain rfl := Except.ok.inj h
      rfl
  · rintro x y v h
    obtain rfl := Except.ok.inj h
    rfl

/-- What a repeated sequence holds: the items of the sequence, if it is repeated at all, and nothing
else. -/
theorem repeatSeq_ok {a v : PyVal} {n : ℤ} (h : Python.repeatSeq a n = .ok v) :
    v.isAlien = a.isAlien ∧ v.IsNew ∧
      ∀ x, x ∈ v.elements ↔ 0 < n ∧ x ∈ a.elements := by
  have hmem : ∀ (items : List PyVal) (x : PyVal),
      x ∈ Python.repeatItems items n ↔ 0 < n ∧ x ∈ items := by
    intro items x
    simp only [Python.repeatItems, List.mem_flatten, List.mem_replicate]
    constructor
    · rintro ⟨l, ⟨hn, rfl⟩, hx⟩
      exact ⟨by omega, hx⟩
    · rintro ⟨hn, hx⟩
      exact ⟨items, ⟨by omega, rfl⟩, hx⟩
  -- A count beyond an index raises, and so does a result that is too long.
  unfold Python.repeatSeq at h
  split at h
  · cases h
  · split at h
    · split at h
      · cases h
      · obtain rfl := Except.ok.inj h
        exact ⟨rfl, ⟨fun h => (nomatch h), rfl⟩, fun x => by simp [PyVal.elements]⟩
    · split at h
      · cases h
      · obtain rfl := Except.ok.inj h
        exact ⟨rfl, ⟨fun h => (nomatch h), rfl⟩, hmem _⟩
    · split at h
      · cases h
      · obtain rfl := Except.ok.inj h
        exact ⟨rfl, ⟨fun h => (nomatch h), rfl⟩, hmem _⟩
    · cases h

/-- The value is an integer above 0. -/
def PyVal.isPositive (v : PyVal) : Prop := ∃ n, v.num? = some (.inl n) ∧ 0 < n

/-- A product: alien when an operand is, with the elements of a sequence that is
repeated. -/
structure Repeated (a b v : PyVal) : Prop where
  isAlien : v.isAlien = true ↔ a.isAlien = true ∨ b.isAlien = true
  elements : ∀ x, x ∈ v.elements ↔
    b.isPositive ∧ x ∈ a.elements ∨ a.isPositive ∧ x ∈ b.elements
  isNew : v.IsNew

theorem num?_of_isSequence {v : PyVal} (h : Python.isSequence v = true) : v.num? = none := by
  cases v <;> first | rfl | cases h

/-- A product repeats a sequence, or is made like a sum. -/
theorem mul_repeated (laws : ForeignLaws py) {a b v : PyVal} (h : py.mul a b = .ok v) :
    Repeated a b v := by
  unfold Python.mul at h
  split at h
  · next hseq hnum =>
    obtain ⟨halien, hnew, helements⟩ := repeatSeq_ok h
    obtain ⟨hb, hbalien⟩ := elements_of_num? hnum
    refine ⟨by simp [halien, hbalien], fun x => ?_, hnew⟩
    rw [helements, hb]
    simp [PyVal.isPositive, hnum, num?_of_isSequence hseq]
  · next hseq hnum _ =>
    obtain ⟨halien, hnew, helements⟩ := repeatSeq_ok h
    obtain ⟨ha, haalien⟩ := elements_of_num? hnum
    refine ⟨by simp [halien, haalien], fun x => ?_, hnew⟩
    rw [helements, ha]
    simp [PyVal.isPositive, hnum, num?_of_isSequence hseq]
  -- no sequence: two numbers, or a foreign operand
  · have hint : ∀ i j v, Except.ok (PyVal.int (i * j)) = (Except.ok v : Except BuiltinErr PyVal) →
        v.num?.isSome = true := by
      rintro i j v h
      obtain rfl := Except.ok.inj h
      rfl
    have hfloat : ∀ x y v, Except.ok (PyVal.float (py.floats.mul x y)) =
        (Except.ok v : Except BuiltinErr PyVal) → v.num?.isSome = true := by
      rintro x y v h
      obtain rfl := Except.ok.inj h
      rfl
    obtain ⟨hmade, ha, hb⟩ := madeFrom_of_numeric laws hint hfloat h (by decide)
    refine ⟨by simpa using hmade.isAlien, fun x => ?_, hmade.isNew⟩
    rw [hmade.elements]
    simp [ha, hb]

/-- A remainder is a text, or made like a difference. -/
theorem mod_ok (laws : ForeignLaws py) {a b v : PyVal} (h : py.mod a b = .ok v) :
    (∃ s t, a = .str s ∧ v = .str t) ∨
      (∀ s, a ≠ .str s) ∧ v.elements = [] ∧ v.IsNew ∧
        (v.isAlien = true ↔ a.isAlien = true ∨ b.isAlien = true) := by
  unfold Python.mod at h
  split at h
  · obtain ⟨t, rfl⟩ := laws.printf h
    exact Or.inl ⟨_, t, rfl, rfl⟩
  · next hno =>
    refine Or.inr ⟨hno, ?_⟩
    have hint : ∀ i j v, (if j = 0 then .error .zeroDivisionError
        else .ok (.int (Int.fmod i j)) : Except BuiltinErr PyVal) = .ok v →
        v.num?.isSome = true := by
      intro i j v h
      split at h
      · cases h
      · obtain rfl := Except.ok.inj h
        rfl
    have hfloat : ∀ x y v, (if y = .fin 0 then .error .zeroDivisionError
        else .ok (.float (py.floats.mod x y)) : Except BuiltinErr PyVal) = .ok v →
        v.num?.isSome = true := by
      intro x y v h
      split at h
      · cases h
      · obtain rfl := Except.ok.inj h
        rfl
    -- two numbers, or an operand of a foreign class
    rcases numeric_ok hint hfloat h with ⟨hv, ha, hb⟩ | ⟨hforeign, h⟩
    · have hmade := @madeFrom_of_num? [a, b] v hv (by simp [ha, hb])
      obtain ⟨n, hn⟩ := Option.isSome_iff_exists.mp hv
      exact ⟨(elements_of_num? hn).1, hmade.isNew, by simpa using hmade.isAlien⟩
    · obtain ⟨⟨kind, rfl⟩, hmethod⟩ := laws.binary h
      refine ⟨rfl, ⟨hmethod, rfl⟩, iff_of_true rfl ?_⟩
      exact (Bool.or_eq_true _ _ ▸ hforeign).imp isAlien_of_isForeign isAlien_of_isForeign

/-- A sign is that of a number, or of an object. -/
theorem sign_ok (laws : ForeignLaws py) (op : UnaryOperator) {a v : PyVal}
    (h : (∃ kind, a = .object kind ∧ py.foreign.unary op kind = .ok v) ∨
      a.num?.isSome = true ∧ v.num?.isSome = true) :
    v.elements = [] ∧ v.IsNew ∧ v.isAlien = a.isAlien := by
  rcases h with ⟨kind, rfl, h⟩ | ⟨ha, hv⟩
  · obtain ⟨⟨kind', rfl⟩, hmethod⟩ := laws.unary h
    exact ⟨rfl, ⟨hmethod, rfl⟩, rfl⟩
  · obtain ⟨m, hm⟩ := Option.isSome_iff_exists.mp ha
    obtain ⟨n, hn⟩ := Option.isSome_iff_exists.mp hv
    obtain ⟨helements, halien⟩ := elements_of_num? hn
    exact ⟨helements, (@madeFrom_of_num? [] v hv (by simp)).isNew,
      halien.trans (elements_of_num? hm).2.symm⟩

/-- **A sign keeps the kind of a value**: a number gives a number, and a foreign object one of its
like. -/
theorem unaryOp_ok (laws : ForeignLaws py) {op : UnaryOperator} {a v : PyVal}
    (h : py.unaryOp op a = .ok v) :
    v.elements = [] ∧ v.IsNew ∧ v.isAlien = a.isAlien := by
  unfold Python.unaryOp at h
  cases op with
  | not | invert => cases h
  -- Numbers are negated by themselves, and a foreign object by the library.
  | uSub =>
    have hneg := builtin_ok.mp h
    unfold Python.neg at hneg
    refine sign_ok laws .uSub ?_
    split at hneg
    · exact Or.inl ⟨_, rfl, hneg⟩
    · refine Or.inr ?_
      split at hneg
      · next hnum =>
        obtain rfl := Except.ok.inj hneg
        exact ⟨by rw [hnum]; rfl, rfl⟩
      · next hnum =>
        obtain rfl := Except.ok.inj hneg
        exact ⟨by rw [hnum]; rfl, rfl⟩
      · cases hneg
  | uAdd =>
    have hpos := builtin_ok.mp h
    unfold Python.pos at hpos
    refine sign_ok laws .uAdd ?_
    split at hpos
    · exact Or.inl ⟨_, rfl, hpos⟩
    · refine Or.inr ?_
      split at hpos
      · next hnum =>
        obtain rfl := Except.ok.inj hpos
        exact ⟨by rw [hnum]; rfl, rfl⟩
      · next hnum =>
        obtain rfl := Except.ok.inj hpos
        exact ⟨by rw [hnum]; rfl, rfl⟩
      · cases hpos

/-- **What an operator makes**: a value that is alien where an operand is, but for texts
that are formatted, with the elements of operands that are added or repeated. -/
theorem binOp_ok (laws : ForeignLaws py) {op : BinOperator} {a b v : PyVal}
    (h : py.binOp op a b = .ok v) :
    v.IsNew ∧
      (v.isAlien = true ↔
        a.isAlien = true ∨ b.isAlien = true ∧ (op = .mod → ∀ s, a ≠ .str s)) ∧
      ∀ x, x ∈ v.elements ↔ op = .add ∧ (x ∈ a.elements ∨ x ∈ b.elements) ∨
        op = .mult ∧ (b.isPositive ∧ x ∈ a.elements ∨ a.isPositive ∧ x ∈ b.elements) := by
  unfold Python.binOp at h
  cases op with
  | add =>
    have hmade := add_madeFrom laws (builtin_ok.mp h)
    exact ⟨hmade.isNew, by simpa using hmade.isAlien, fun x => by simpa using hmade.elements x⟩
  | sub =>
    obtain ⟨hmade, ha, hb⟩ := sub_madeFrom laws (builtin_ok.mp h)
    refine ⟨hmade.isNew, by simpa using hmade.isAlien, fun x => ?_⟩
    rw [hmade.elements]
    simp [ha, hb]
  | mult =>
    have hrepeated := mul_repeated laws (builtin_ok.mp h)
    exact ⟨hrepeated.isNew, by simpa using hrepeated.isAlien,
      fun x => by simpa using hrepeated.elements x⟩
  | div =>
    dsimp only at h
    split at h
    · cases h
    · obtain ⟨hmade, ha, hb⟩ := div_madeFrom laws (builtin_ok.mp h)
      refine ⟨hmade.isNew, by simpa using hmade.isAlien, fun x => ?_⟩
      rw [hmade.elements]
      simp [ha, hb]
  -- A text on the left is formatted, whatever is on the right.
  | mod =>
    rcases mod_ok laws (builtin_ok.mp h) with ⟨s, t, rfl, rfl⟩ | ⟨hno, helements, hnew, halien⟩
    · refine ⟨⟨fun h => (nomatch h), rfl⟩, ?_, by simp [PyVal.elements]⟩
      exact iff_of_false (by simp [PyVal.isAlien]) (by simp [PyVal.isAlien])
    · refine ⟨hnew, halien.trans ?_, by simp [helements]⟩
      simp [hno]
  | floorDiv | pow | lShift | rShift | bitOr | bitXor | bitAnd | matMult => cases h

end Operators

/-! ### Helpers -/

section Helpers

variable {py : Python}

/-- What is iterated is an element, or clean. -/
theorem iterate_ok (laws : ForeignLaws py) {v : PyVal} {items : List PyVal}
    (h : py.iterate v = .ok items) : ∀ x ∈ items, x ∈ v.elements ∨ x.isClean = true := by
  intro x hx
  unfold Python.iterate at h
  split at h
  · obtain rfl := Except.ok.inj h
    exact Or.inl hx
  · obtain rfl := Except.ok.inj h
    exact Or.inl hx
  · obtain rfl := Except.ok.inj h
    obtain ⟨c, -, rfl⟩ := List.mem_map.mp hx
    exact Or.inr rfl
  · obtain rfl := Except.ok.inj h
    obtain ⟨p, -, rfl⟩ := List.mem_map.mp hx
    exact Or.inr rfl
  · obtain ⟨i, rfl⟩ := laws.iterate h x hx
    exact Or.inr rfl
  · cases h

/-- A sum over a list is made from its start and its items. -/
theorem foldlM_add_madeFrom (laws : ForeignLaws py) : ∀ {items : List PyVal} {start v : PyVal},
    items.foldlM py.add start = .ok v →
      items = [] ∧ v = start ∨ MadeFrom (start :: items) v := by
  intro items
  induction items with
  | nil =>
    intro start v h
    exact Or.inl ⟨rfl, (Except.ok.inj h).symm⟩
  | cons x items ih =>
    intro start v h
    obtain ⟨u, hu, h⟩ := Failing.bind_ok.mp h
    have hadd := add_madeFrom laws hu
    refine Or.inr ?_
    rcases ih h with ⟨rfl, rfl⟩ | hrest
    · exact hadd
    · refine ⟨?_, fun y => ?_, hrest.isNew⟩
      · rw [hrest.isAlien]
        simp only [List.mem_cons, exists_eq_or_imp, hadd.isAlien]
        simp [or_assoc]
      · rw [hrest.elements]
        simp only [List.mem_cons, exists_eq_or_imp, hadd.elements]
        simp [or_assoc]

theorem isSome_of_mapM {α β : Type} {f : α → Option β} : ∀ {xs : List α} {ys : List β},
    xs.mapM f = some ys → ∀ x ∈ xs, (f x).isSome = true := by
  intro xs
  induction xs with
  | nil => intro ys _ x hx; cases hx
  | cons x xs ih =>
    intro ys h
    rw [List.mapM_cons] at h
    obtain ⟨y, hy, h⟩ := Option.bind_eq_some_iff.mp h
    obtain ⟨zs, hzs, -⟩ := Option.bind_eq_some_iff.mp h
    exact List.forall_mem_cons.mpr ⟨by rw [hy]; rfl, ih hzs⟩

/-- So is what `sum` adds up. -/
theorem sumItems_madeFrom (laws : ForeignLaws py) {items : List PyVal} {start v : PyVal}
    (h : py.sumItems items start = .ok v) :
    items = [] ∧ v = start ∨ MadeFrom (start :: items) v := by
  unfold Python.sumItems at h
  split at h
  · next numbers hnumbers =>
    split at h
    · refine Or.inr (madeFrom_of_num? ?_ (isSome_of_mapM hnumbers))
      cases hsum : py.floats.sum numbers with
      | none => rw [hsum] at h; cases h
      | some x =>
        rw [hsum] at h
        obtain rfl := Except.ok.inj h
        rfl
    · exact foldlM_add_madeFrom laws h
  · exact foldlM_add_madeFrom laws h

/-- So is what `sum` returns. -/
theorem sumFrom_madeFrom (laws : ForeignLaws py) {items : List PyVal} {start v : PyVal}
    (h : py.sumFrom items start = .ok v) :
    items = [] ∧ v = start ∨ MadeFrom (start :: items) v := by
  unfold Python.sumFrom at h
  split at h
  · cases h
  · obtain ⟨u, -, h⟩ := Failing.bind_ok.mp h
    exact sumItems_madeFrom laws h
  · exact sumItems_madeFrom laws h

/-- `convert_unit` returns the number, or makes another from it. -/
theorem convertUnit_madeFrom (laws : ForeignLaws py) {number fromUnit toUnit v : PyVal}
    (h : py.convertUnit number fromUnit toUnit = .ok v) : v = number ∨ MadeFrom [number] v := by
  have hquotient : ∀ {n : ℤ}, py.div number (.int n) = .ok v → MadeFrom [number] v := by
    intro n h
    have hmade := (div_madeFrom laws h).1
    exact ⟨by simpa [PyVal.isAlien] using hmade.isAlien,
      fun x => by simpa [PyVal.elements] using hmade.elements x, hmade.isNew⟩
  have hproduct : ∀ {n : ℤ}, 0 < n → py.mul number (.int n) = .ok v → MadeFrom [number] v := by
    intro n hn h
    have hrepeated := mul_repeated laws h
    have hpositive : (PyVal.int n).isPositive := ⟨n, rfl, hn⟩
    exact ⟨by simpa [PyVal.isAlien] using hrepeated.isAlien,
      fun x => by simpa [PyVal.elements, hpositive] using hrepeated.elements x, hrepeated.isNew⟩
  -- the units are equal, or the pair is known and the number is divided or multiplied
  unfold Python.convertUnit at h
  split at h
  · exact Or.inl (Except.ok.inj h).symm
  · split at h
    · cases h
    · split at h
      · exact Or.inr (hquotient (builtin_ok.mp h))
      · exact Or.inr (hproduct (by decide) (builtin_ok.mp h))
      · exact Or.inr (hproduct (by decide) (builtin_ok.mp h))
      · exact Or.inr (hquotient (builtin_ok.mp h))
      · obtain ⟨source, -, h⟩ := Failing.bind_ok.mp h
        obtain ⟨target, -, h⟩ := Failing.bind_ok.mp h
        cases h

/-- The best item is one of them. -/
theorem best_mem {better : PyVal → PyVal → Except BuiltinErr Bool}
    {key : PyVal → Except EvalErr PyVal} : ∀ {items : List PyVal} {start : PyVal × PyVal} {v : PyVal},
    best better key start items = .ok v → v ∈ start.1 :: items := by
  intro items
  induction items with
  | nil =>
    intro start v h
    rw [best] at h
    rw [← Except.ok.inj h]
    exact List.mem_cons_self ..
  | cons next rest ih =>
    intro start v h
    rw [best] at h
    obtain ⟨candidate, -, h⟩ := Failing.bind_ok.mp h
    obtain ⟨wins, -, h⟩ := Failing.bind_ok.mp h
    split at h
    · exact List.mem_cons_of_mem _ (ih h)
    · rcases List.mem_cons.mp (ih h) with rfl | hmem
      · exact List.mem_cons_self ..
      · exact List.mem_cons_of_mem _ (List.mem_cons_of_mem _ hmem)

/-- The value is an argument of the call. -/
def IsArgument (args : List PyVal) (kwargs : Kwargs) (v : PyVal) : Prop :=
  v ∈ args ∨ ∃ k, PyVal.dictGet kwargs k = some v

/-- `min` and `max` return an argument, or an item of one. -/
theorem extremum_ok (laws : ForeignLaws py) {name : String} {op : CmpOp}
    {callKey : PyVal → PyVal → Except EvalErr PyVal} {args : List PyVal} {kwargs : Kwargs}
    {v : PyVal} (h : py.extremum name op callKey args kwargs = .ok v) :
    v.isClean = true ∨ IsArgument args kwargs v ∨ ∃ a ∈ args, v ∈ a.elements := by
  unfold Python.extremum at h
  extract_lets default key at h
  have hkwarg : default = PyVal.dictGet kwargs "default" := rfl
  clear_value default key
  split at h
  · cases h
  · split at h
    · cases h
    -- one argument is an iterable; the default is returned when it has no items
    · next iterable =>
      obtain ⟨items, hitems, h⟩ := Failing.bind_ok.mp h
      split at h
      · split at h
        · obtain rfl := Except.ok.inj h
          exact Or.inr (Or.inl (Or.inr ⟨_, hkwarg.symm⟩))
        · cases h
      · obtain ⟨value, -, h⟩ := Failing.bind_ok.mp h
        rcases iterate_ok laws (builtin_ok.mp hitems) v (best_mem h) with hmem | hclean
        · exact Or.inr (Or.inr ⟨iterable, List.mem_singleton_self _, hmem⟩)
        · exact Or.inl hclean
    · split at h
      · cases h
      · obtain ⟨value, -, h⟩ := Failing.bind_ok.mp h
        exact Or.inr (Or.inl (Or.inl (best_mem h)))

/-- A binding: the positional arguments, and a value for each parameter after them. -/
theorem bindArgs_ok {params : List Param} {args bound : List PyVal} {kwargs : Kwargs}
    (h : bindArgs params args kwargs = .ok bound) : args.length ≤ params.length ∧
      ∃ rest, (params.drop args.length).mapM (fun p => p.value kwargs) = .ok rest ∧
        bound = args ++ rest := by
  unfold bindArgs at h
  dsimp only at h
  split at h
  · cases h
  · next hlength =>
    split at h
    · cases h
    · obtain ⟨rest, hrest, rfl⟩ := Failing.map_ok.mp h
      exact ⟨not_lt.mp hlength, rest, hrest, rfl⟩

/-- The value of a parameter: a keyword argument, or the default. -/
theorem paramValue_ok {p : Param} {kwargs : Kwargs} {v : PyVal} (h : p.value kwargs = .ok v) :
    ((p.name.bind (PyVal.dictGet kwargs)).or p.default) = some v := by
  unfold Param.value at h
  split at h
  · next u hu =>
    rw [hu, ← Except.ok.inj h]
    rfl
  · next u hno hu =>
    rw [hno, hu, ← Except.ok.inj h]
    rfl
  · cases h

/-- What a parameter is bound to: an argument, or a default. -/
theorem mem_of_bindArgs {params : List Param} {args bound : List PyVal} {kwargs : Kwargs}
    (h : bindArgs params args kwargs = .ok bound) : ∀ v ∈ bound,
      IsArgument args kwargs v ∨ ∃ p ∈ params, p.default = some v := by
  obtain ⟨-, rest, hrest, rfl⟩ := bindArgs_ok h
  intro v hv
  rcases List.mem_append.mp hv with hv | hv
  · exact Or.inl (Or.inl hv)
  · obtain ⟨p, hp, hvalue⟩ := Keyed.exists_of_mem_right (Failing.mapM_forall₂ hrest) hv
    rcases Option.or_eq_some_iff.mp (paramValue_ok hvalue) with hkwarg | ⟨-, hdefault⟩
    · obtain ⟨k, -, hk⟩ := Option.bind_eq_some_iff.mp hkwarg
      exact Or.inl (Or.inr ⟨k, hk⟩)
    · exact Or.inr ⟨p, List.mem_of_mem_drop hp, hdefault⟩

/-- The first parameter is bound to the first argument, or to a keyword argument. -/
theorem head?_of_bindArgs {p : Param} {params : List Param} {args bound : List PyVal}
    {kwargs : Kwargs} (h : bindArgs (p :: params) args kwargs = .ok bound) :
    bound.head? = args.head?.or ((p.name.bind (PyVal.dictGet kwargs)).or p.default) := by
  obtain ⟨-, rest, hrest, rfl⟩ := bindArgs_ok h
  cases args with
  | cons a args => rfl
  | nil =>
    rw [List.length_nil, List.drop_zero, List.mapM_cons] at hrest
    obtain ⟨v, hv, hrest⟩ := Failing.bind_ok.mp hrest
    obtain ⟨vs, -, hrest⟩ := Failing.bind_ok.mp hrest
    rw [← Except.ok.inj hrest, paramValue_ok hv]
    rfl

/-- `sum` is made from its start and the items of its first argument. -/
theorem sum_ok (laws : ForeignLaws py) {callKey : PyVal → PyVal → Except EvalErr PyVal}
    {args : List PyVal} {kwargs : Kwargs} {v : PyVal}
    (h : py.callHelperWith callKey "sum" args kwargs = .ok v) :
    ∃ iterable items, args.head? = some iterable ∧ py.iterate iterable = .ok items ∧
      ∀ start, start = (args.tail.head?.or (PyVal.dictGet kwargs "start")).getD (.int 0) →
        items = [] ∧ v = start ∨ MadeFrom (start :: items) v := by
  obtain ⟨bound, hbound, h⟩ := Failing.bind_ok.mp
    (show bindArgs [.positional, .optional "start" (.int 0)] args kwargs >>= _ = .ok v from h)
  -- the start is the second argument, the keyword, or nought
  have hparams : ∃ iterable, args.head? = some iterable ∧ bound =
      [iterable, (args.tail.head?.or (PyVal.dictGet kwargs "start")).getD (.int 0)] := by
    have hhead := head?_of_bindArgs hbound
    obtain ⟨hlength, rest, hrest, rfl⟩ := bindArgs_ok hbound
    cases args with
    | nil =>
      obtain rfl : rest = [] := List.head?_eq_none_iff.mp hhead
      cases h
    | cons iterable args =>
      refine ⟨iterable, rfl, ?_⟩
      cases args with
      | nil =>
        rw [show ([.positional, .optional "start" (.int 0)] : List Param).drop [iterable].length =
          [.optional "start" (.int 0)] from rfl, List.mapM_cons] at hrest
        obtain ⟨u, hu, hrest⟩ := Failing.bind_ok.mp hrest
        have hvalue := paramValue_ok hu
        obtain rfl := Except.ok.inj hrest
        cases hstart : PyVal.dictGet kwargs "start" with
        | none => simpa [Param.optional, hstart] using hvalue.symm
        | some u => simpa [Param.optional, hstart] using hvalue.symm
      | cons start args =>
        cases args with
        | nil =>
          obtain rfl := Except.ok.inj hrest
          rfl
        | cons => simp at hlength
  obtain ⟨iterable, hhead, rfl⟩ := hparams
  obtain ⟨items, hitems, hsum⟩ := Failing.bind_ok.mp (builtin_ok.mp h)
  exact ⟨iterable, items, hhead, hitems, fun start hstart => hstart ▸ sumFrom_madeFrom laws hsum⟩

/-- `convert_unit` is made from its number. -/
theorem convert_unit_ok (laws : ForeignLaws py) {callKey : PyVal → PyVal → Except EvalErr PyVal}
    {args : List PyVal} {kwargs : Kwargs} {v : PyVal}
    (h : py.callHelperWith callKey "convert_unit" args kwargs = .ok v) :
    ∃ number, args.head?.or (PyVal.dictGet kwargs "number") = some number ∧
      (v = number ∨ MadeFrom [number] v) := by
  obtain ⟨bound, hbound, h⟩ := Failing.bind_ok.mp (show
    bindArgs [.required "number", .required "from_unit", .required "to_unit"] args kwargs >>= _ =
      .ok v from h)
  have hhead := head?_of_bindArgs hbound
  split at h
  · next number fromUnit toUnit =>
    refine ⟨number, ?_, convertUnit_madeFrom laws h⟩
    rw [← Option.or_none (o := PyVal.dictGet kwargs "number")]
    exact hhead.symm
  · cases h

/-! ### The helpers that make a number, a truth value or a text -/

theorem avg_isClean {values v : PyVal} (h : py.avg values = .ok v) : v.isClean = true := by
  unfold Python.avg at h
  obtain ⟨items, -, h⟩ := Failing.bind_ok.mp h
  dsimp only at h
  split at h
  · obtain rfl := Except.ok.inj h
    rfl
  · obtain ⟨total, -, h⟩ := Failing.bind_ok.mp h
    obtain ⟨mean, -, h⟩ := Failing.bind_ok.mp h
    obtain ⟨x, -, h⟩ := Failing.bind_ok.mp h
    obtain rfl := Except.ok.inj h
    rfl

theorem intOfFloat_isClean {f : ℚ → ℤ} {x : PyFloat} {v : PyVal} (h : intOfFloat f x = .ok v) :
    v.isClean = true := by
  unfold intOfFloat at h
  split at h
  · obtain rfl := Except.ok.inj h
    rfl
  · cases h
  · cases h

theorem round_isClean {number ndigits v : PyVal} (h : py.round number ndigits = .ok v) :
    v.isClean = true := by
  unfold Python.round at h
  split at h
  · obtain rfl := Except.ok.inj h
    rfl
  · exact intOfFloat_isClean h
  · split at h
    · obtain rfl := Except.ok.inj h
      rfl
    · obtain rfl := Except.ok.inj h
      rfl
  · next x n _ _ _ =>
    cases hround : py.floats.roundTo x n with
    | none => rw [hround] at h; cases h
    | some y =>
      rw [hround] at h
      obtain rfl := Except.ok.inj h
      rfl
  · cases h

theorem integral_isClean {f : ℚ → ℤ} {u v : PyVal} (h : integral f u = .ok v) :
    v.isClean = true := by
  unfold integral at h
  split at h
  · obtain rfl := Except.ok.inj h
    rfl
  · exact intOfFloat_isClean h
  · cases h

theorem optionalInt_isClean {x : Except BuiltinErr (Option ℤ)} {v : PyVal}
    (h : optionalInt x = .ok v) : v.isClean = true := by
  obtain ⟨i, -, rfl⟩ := Failing.map_ok.mp (builtin_ok.mp h)
  cases i <;> rfl

theorem formatCurrency_isClean {amount currency v : PyVal}
    (h : py.formatCurrency amount currency = .ok v) : v.isClean = true := by
  unfold Python.formatCurrency at h
  split at h
  · obtain rfl := Except.ok.inj h
    rfl
  · obtain ⟨label, -, h⟩ := Failing.bind_ok.mp h
    obtain ⟨x, -, h⟩ := Failing.bind_ok.mp h
    obtain ⟨text, -, h⟩ := Failing.bind_ok.mp h
    obtain rfl := Except.ok.inj h
    rfl

theorem formatPercent_isClean {value decimalPlaces v : PyVal}
    (h : py.formatPercent value decimalPlaces = .ok v) : v.isClean = true := by
  unfold Python.formatPercent at h
  split at h
  · obtain rfl := Except.ok.inj h
    rfl
  · obtain ⟨x, -, h⟩ := Failing.bind_ok.mp h
    obtain ⟨places, -, h⟩ := Failing.bind_ok.mp h
    obtain ⟨text, -, h⟩ := Failing.bind_ok.mp h
    obtain rfl := Except.ok.inj h
    rfl

/-- `lookup` returns its default, or an entry of a dictionary. -/
theorem lookup_ok {mapping key default v : PyVal} (hviews : mapping.viewsJson = true)
    (h : py.lookup mapping key default = .ok v) : v = default ∨ v.isClean = true := by
  unfold Python.lookup at h
  split at h
  · next items =>
    split at h
    · cases hfind : items.find? fun p => py.eq (.str p.1) key with
      | none =>
        rw [hfind] at h
        exact Or.inl (Except.ok.inj h).symm
      | some p =>
        rw [hfind] at h
        obtain rfl := Except.ok.inj h
        rw [PyVal.viewsJson] at hviews
        exact Or.inr (PyVal.isClean_of_isJson
          (PyVal.isJsonItems_iff.mp hviews p (List.mem_of_find?_eq_some hfind)))
    · cases h
  · exact Or.inl (Except.ok.inj h).symm

/-- Where the value of a call of a helper comes from: it is clean, an argument, an item of
one, or made by `sum` or `convert_unit`. -/
inductive HelperResult (py : Python) (name : String) (args : List PyVal) (kwargs : Kwargs)
    (v : PyVal) : Prop
  | clean : v.isClean = true → HelperResult py name args kwargs v
  | argument : IsArgument args kwargs v → HelperResult py name args kwargs v
  | item (a) : a ∈ args → v ∈ a.elements → HelperResult py name args kwargs v
  | sum (iterable items start) : name = "sum" → args.head? = some iterable →
      py.iterate iterable = .ok items →
      start = (args.tail.head?.or (PyVal.dictGet kwargs "start")).getD (.int 0) →
      MadeFrom (start :: items) v → HelperResult py name args kwargs v
  | convertUnit (number) : name = "convert_unit" →
      args.head?.or (PyVal.dictGet kwargs "number") = some number → MadeFrom [number] v →
      HelperResult py name args kwargs v

/-- An argument is passed on, and a default is clean. -/
theorem HelperResult.of_bound {name : String} {params : List Param} {args bound : List PyVal}
    {kwargs : Kwargs} {v : PyVal} (hbound : bindArgs params args kwargs = .ok bound)
    (hdefaults : ∀ p ∈ params, ∀ u, p.default = some u → u.isClean = true) (hv : v ∈ bound) :
    HelperResult py name args kwargs v := by
  rcases mem_of_bindArgs hbound v hv with hargument | ⟨p, hp, hdefault⟩
  · exact .argument hargument
  · exact .clean (hdefaults p hp v hdefault)

/-- **What a helper returns**: a new value made of its arguments, one of them, or an item of one;
the cases are those of the helper’s name. -/
theorem callHelper_ok (laws : ForeignLaws py) {callKey : PyVal → PyVal → Except EvalErr PyVal}
    {name : String} {args : List PyVal} {kwargs : Kwargs} {v : PyVal}
    (hviews : ∀ u, IsArgument args kwargs u → u.viewsJson = true)
    (h : py.callHelperWith callKey name args kwargs = .ok v) :
    HelperResult py name args kwargs v := by
  have hcall := h
  unfold Python.callHelperWith at h
  split at h
  case h_1 =>
    obtain ⟨iterable, items, hhead, hitems, hmade⟩ := sum_ok laws hcall
    rcases hmade _ rfl with ⟨-, rfl⟩ | hmade
    · cases htail : args.tail.head? with
      | some u => exact .argument (Or.inl (List.mem_of_mem_tail (List.mem_of_head? htail)))
      | none =>
        cases hstart : PyVal.dictGet kwargs "start" with
        | some u => exact .argument (Or.inr ⟨_, hstart⟩)
        | none => exact .clean rfl
    · exact .sum iterable items _ rfl hhead hitems rfl hmade
  -- `min` and `max` return an item or their default.
  case h_3 | h_4 =>
    rcases extremum_ok laws h with hclean | hargument | ⟨a, ha, hv⟩
    · exact .clean hclean
    · exact .argument hargument
    · exact .item a ha hv
  case h_9 =>
    split at h
    · obtain rfl := Except.ok.inj h
      cases hfind : args.find? fun v => !v.isNone with
      | none => exact .clean rfl
      | some u => exact .argument (Or.inl (List.mem_of_find?_eq_some hfind))
    · cases h
  -- `lookup` returns what the mapping holds, which is JSON, or its default.
  case h_14 =>
    obtain ⟨bound, hbound, h⟩ := Failing.bind_ok.mp h
    split at h
    · next mapping key default =>
      have hdefaults : ∀ p ∈ [Param.required "mapping", .required "key",
          .optional "default" .none], ∀ u, p.default = some u → u.isClean = true := by
        simp only [List.forall_mem_cons, List.not_mem_nil]
        simp [Param.required, Param.optional, PyVal.isClean, unwrapValue, PyVal.isJson]
      have hmapping : mapping.viewsJson = true := by
        rcases mem_of_bindArgs hbound mapping (by simp) with hargument | ⟨p, hp, hdefault⟩
        · exact hviews _ hargument
        · exact PyVal.viewsJson_of_isClean (hdefaults p hp _ hdefault)
      rcases lookup_ok hmapping (builtin_ok.mp h) with rfl | hclean
      · exact .of_bound hbound hdefaults (by simp)
      · exact .clean hclean
    · cases h
  case h_15 =>
    obtain ⟨number, hnumber, rfl | hmade⟩ := convert_unit_ok laws hcall
    · rcases Option.or_eq_some_iff.mp hnumber with hhead | ⟨-, hkwarg⟩
      · exact .argument (Or.inl (List.mem_of_head? hhead))
      · exact .argument (Or.inr ⟨_, hkwarg⟩)
    · exact .convertUnit number rfl hnumber hmade
  case h_18 =>
    obtain ⟨bound, hbound, h⟩ := Failing.bind_ok.mp h
    split at h
    · refine .of_bound hbound (by simp [Param.required]) ?_
      rw [← Except.ok.inj h]
      split <;> simp
    · cases h
  case h_19 => cases h
  -- The others make a number, a text or a truth value.
  all_goals
    obtain ⟨bound, -, h⟩ := Failing.bind_ok.mp h
    split at h
    · refine .clean ?_
      first
        | exact avg_isClean (builtin_ok.mp h)
        | exact round_isClean (builtin_ok.mp h)
        | exact integral_isClean (builtin_ok.mp h)
        | exact optionalInt_isClean h
        | exact formatCurrency_isClean (builtin_ok.mp h)
        | exact formatPercent_isClean (builtin_ok.mp h)
        | (obtain rfl := Except.ok.inj h; rfl)
        | (obtain ⟨b, -, rfl⟩ := Failing.map_ok.mp (builtin_ok.mp h); rfl)
    · cases h

end Helpers

end ExtractFlow
