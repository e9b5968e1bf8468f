import ExtractFlow.Lib.JsObject
import ExtractFlow.Lib.Trim

/-!
# JavaScript values

What the language makes of texts, numbers and JSON values outside of `JSON`: white space,
the text of a number and the number of a text, the text of a value, and the properties that
every object inherits.

The numbers are all but the not-a-number, and the two zeros count as one: the text of a
number, and so its JSON, tells them not apart.

## Main definitions

* `isJsSpace`, `trim` — white space.
* `lines`, `joinLines` — the lines of a text.
* `JsNumbers` — `String(n)`, `Number(s)`, and the JSON of numbers.
* `JsNumbers.textOf` — `String(v)`, unless it throws.
* `oneDigit` — the numbers of one digit, for examples.
* `inheritedMethods` — the names of `Object.prototype`.

## Main results

* `trim_trim`, `trim_stringify` — trimmed texts stay, and JSON is trimmed.
* `lines_joinLines`, `lines_joinLines_flatMap` — lines, and texts, joined and split.
* `JsNumbers.parse_stringify` — a value written and read.
-/

namespace Js

open JsonText JsObject

/-! ### White space -/

/-- The white space and the line ends that `trim` takes away, by their code points. -/
def isJsSpace (c : Char) : Bool :=
  (9 ≤ c.toNat && c.toNat ≤ 13) || c.toNat == 0x20 || c.toNat == 0xA0 || c.toNat == 0x1680 ||
    (0x2000 ≤ c.toNat && c.toNat ≤ 0x200A) || c.toNat == 0x2028 || c.toNat == 0x2029 ||
    c.toNat == 0x202F || c.toNat == 0x205F || c.toNat == 0x3000 || c.toNat == 0xFEFF

/-- `s.trim()`: the text without the white space at its two ends. -/
def trim (s : String) : String := String.ofList (Trim.trim isJsSpace s.toList)

@[simp] theorem toList_trim (s : String) : (trim s).toList = Trim.trim isJsSpace s.toList :=
  String.toList_ofList

@[simp] theorem trim_trim (s : String) : trim (trim s) = trim s := by
  unfold trim
  rw [String.toList_ofList, Trim.trim_idem]

/-- A text of white space is trimmed to nothing. -/
theorem trim_eq_empty_iff {s : String} : trim s = "" ↔ ∀ c ∈ s.toList, isJsSpace c = true := by
  rw [← Trim.trim_eq_nil_iff, ← toList_trim, ← String.toList_eq_nil_iff]

/-- Ink is no white space. -/
theorem isJsSpace_of_isInk {c : Char} (h : isInk c = true) : isJsSpace c = false := by
  have hrange : 0x21 ≤ c.toNat ∧ c.toNat < 0x7F := by
    unfold isInk isNumberChar at h
    simp only [Bool.or_eq_true, decide_eq_true_iff, List.mem_cons, List.not_mem_nil, or_false] at h
    rcases h with ((hdigit | hsign) | hlower) | hbracket
    · have : 48 ≤ c.toNat ∧ c.toNat ≤ 57 := Char.isDigit_iff_toNat.mp hdigit
      omega
    · rcases hsign with rfl | rfl | rfl | rfl | rfl <;> decide
    · have hrange : (decide ('a'.val ≤ c.val) && decide (c.val ≤ 'z'.val)) = true := hlower
      rw [Bool.and_eq_true, decide_eq_true_iff, decide_eq_true_iff, UInt32.le_iff_toNat_le,
        UInt32.le_iff_toNat_le] at hrange
      have : (97 : ℕ) ≤ c.toNat ∧ c.toNat ≤ 122 := hrange
      omega
    · rcases hbracket with rfl | rfl | rfl | rfl | rfl <;> decide
  unfold isJsSpace
  simp only [Bool.or_eq_false_iff, Bool.and_eq_false_iff, decide_eq_false_iff_not,
    beq_eq_false_iff_ne]
  omega

/-- JSON begins and ends with a character that is not blank, so `trim` leaves it alone. -/
theorem trim_stringify {ν : Type} (fmt : NumberFormat ν) (gap depth : ℕ) (v : Json ν) :
    Trim.trim isJsSpace (stringify fmt gap depth v) = stringify fmt gap depth v := by
  obtain ⟨⟨c, tail, hhead, hc⟩, front, d, hlast, hd⟩ := inked_stringify fmt gap depth v
  refine Trim.trim_of_trimmed ⟨fun a rest h => ?_, fun init a h => ?_⟩
  · rw [hhead] at h
    obtain rfl := (List.cons.inj h).1
    exact isJsSpace_of_isInk hc
  · rw [hlast] at h
    obtain ⟨-, h⟩ := List.append_inj' h rfl
    obtain rfl := (List.cons.inj h).1
    exact isJsSpace_of_isInk hd

/-! ### Lines -/

/-- `s.split("\n")`: there is always one line at least, which is empty for the empty text. -/
def lines (s : String) : List String := (s.toList.splitOn '\n').map String.ofList

/-- `items.join("\n")`: the texts with a line feed between each two. -/
def joinLines (items : List String) : String :=
  String.ofList (['\n'].intercalate (items.map String.toList))

/-- The pieces between the separators have none. -/
theorem not_mem_of_mem_splitOn {α : Type} [DecidableEq α] {a : α} {l piece : List α}
    (h : piece ∈ l.splitOn a) : a ∉ piece := by
  induction l generalizing piece with
  | nil =>
    rw [List.splitOn_nil, List.mem_singleton] at h
    rw [h]
    exact List.not_mem_nil
  | cons x l ih =>
    rw [List.splitOn_cons_eq_if_modifyHead] at h
    split at h
    · rcases List.mem_cons.mp h with rfl | h
      · exact List.not_mem_nil
      · exact ih h
    · next hx =>
      cases hl : l.splitOn a with
      | nil => exact absurd hl (List.splitOn_ne_nil a l)
      | cons first rest =>
        rw [hl] at h ih
        rcases List.mem_cons.mp h with rfl | h
        · intro hmem
          rcases List.mem_cons.mp hmem with rfl | hmem
          · exact hx (beq_self_eq_true _)
          · exact ih List.mem_cons_self hmem
        · exact ih (List.mem_cons_of_mem _ h)

theorem not_mem_of_mem_lines {s line : String} (h : line ∈ lines s) : '\n' ∉ line.toList := by
  obtain ⟨piece, hpiece, rfl⟩ := List.mem_map.mp h
  rw [String.toList_ofList]
  exact not_mem_of_mem_splitOn hpiece

/-- **Lines joined and split** are the lines again, as long as there are some and none holds a line
feed. -/
theorem lines_joinLines {items : List String} (hne : items ≠ [])
    (h : ∀ item ∈ items, '\n' ∉ item.toList) : lines (joinLines items) = items := by
  unfold lines joinLines
  rw [String.toList_ofList, List.splitOn_intercalate _ (List.forall_mem_map.mpr h)
    (mt List.map_eq_nil_iff.mp hne), List.map_map]
  exact (List.map_congr_left fun item _ => String.ofList_toList).trans (List.map_id _)

/-- Texts that hold line feeds themselves fall apart when they are joined and split. -/
theorem lines_joinLines_flatMap {items : List String} (hne : items ≠ []) :
    lines (joinLines items) = items.flatMap lines := by
  unfold lines joinLines
  rw [String.toList_ofList]
  induction items with
  | nil => exact absurd rfl hne
  | cons item items ih =>
    cases items with
    | nil => simp
    | cons item' items =>
      rw [List.map_cons, List.map_cons, List.intercalate_cons_cons, List.append_assoc,
        List.singleton_append, List.splitOn_append_cons_self, List.map_append,
        List.flatMap_cons]
      exact congrArg _ (ih (List.cons_ne_nil _ _))

/-- Trimming leaves letters of the text. -/
theorem mem_of_mem_trim {s : String} {c : Char} (h : c ∈ (trim s).toList) : c ∈ s.toList := by
  rw [toList_trim] at h
  exact List.dropWhile_subset _ (List.rdropWhile_prefix _ _ |>.subset h)

/-! ### Numbers -/

/-- The numbers but the not-a-number, with the conversions of the language and what the language
says about them. They are a parameter, since floating-point arithmetic plays no part in what is
proved. -/
structure JsNumbers (ν : Type) where
  /-- `String(n)`. -/
  toStr : ν → String
  /-- `Number(s)`, unless that is not a number. -/
  number : String → Option ν
  /-- `Number.isFinite(n)`. -/
  isFinite : ν → Bool
  zero : ν
  number_toStr : ∀ n, number (toStr n) = some n
  literal_toStr : ∀ n, isFinite n = true → isLiteral (toStr n).toList = true
  isFinite_zero : isFinite zero = true
  number_blank : ∀ s, trim s = "" → number s = some zero

namespace JsNumbers

variable {ν : Type} (num : JsNumbers ν)

/-- The JSON of numbers: those that are not finite have none. -/
def format : NumberFormat ν where
  text n := if num.isFinite n then some (num.toStr n).toList else none
  read cs := num.number (String.ofList cs)
  literal_text := by
    intro n cs h
    split at h
    · next hfinite =>
      obtain rfl := Option.some.inj h
      exact num.literal_toStr n hfinite
    · cases h
  read_text := by
    intro n cs h
    split at h
    · obtain rfl := Option.some.inj h
      rw [String.ofList_toList, num.number_toStr]
    · cases h

/-- `JSON.parse(s)`, unless it throws. -/
def parse (s : String) : Option (Json ν) := jsonParse num.format s.toList

/-- `JSON.stringify(v, null, 2)`. -/
def pretty (v : Json ν) : String := String.ofList (stringify num.format 2 0 v)

/-- `JSON.stringify(v)`. -/
def compact (v : Json ν) : String := String.ofList (stringify num.format 0 0 v)

variable {num}

/-- What was read has its objects in order. -/
theorem canon_of_parse {s : String} {v : Json ν} (h : num.parse s = some v) : canon v = v :=
  canon_jsonParse num.format h

/-- **A value written and read.** -/
theorem parse_pretty {v : Json ν} (h : canon v = v) :
    num.parse (num.pretty v) = some (v.written num.format) := by
  unfold parse pretty
  rw [String.toList_ofList, jsonParse_stringify num.format 2 0 h]

/-- **Values have the same JSON if they are the same**, but for the numbers that have none. -/
theorem compact_eq_iff {v w : Json ν} :
    num.compact v = num.compact w ↔ v.written num.format = w.written num.format := by
  unfold compact
  rw [← stringify_eq_iff num.format 0 0]
  exact ⟨fun h => String.ofList_injective h, congrArg String.ofList⟩

/-- What is written, written again. -/
theorem compact_written (v : Json ν) : num.compact (v.written num.format) = num.compact v := by
  unfold compact
  rw [stringify_written]

@[simp] theorem trim_pretty (v : Json ν) : trim (num.pretty v) = num.pretty v := by
  unfold trim pretty
  rw [String.toList_ofList, trim_stringify]

variable (num)

mutual

/-- `String(v)`.  An object with a property `toString` of its own throws: no JSON value can be
called. -/
def textOf : Json ν → Option String
  | .null => some "null"
  | .bool b => some (if b then "true" else "false")
  | .num n => some (num.toStr n)
  | .str s => some s
  | .arr items => (textsOf items).map (String.intercalate ",")
  | .obj entries => if (get entries "toString").isSome then none else some "[object Object]"

/-- The texts that `join` puts together. -/
def textsOf : List (Json ν) → Option (List String)
  | [] => some []
  | .null :: vs => (textsOf vs).map fun ts => "" :: ts
  | v :: vs => (textOf v).bind fun t => (textsOf vs).map fun ts => t :: ts

end

/-- `String(v ?? "")`. -/
def cellText : Json ν → Option String
  | .null => some ""
  | v => num.textOf v

@[simp] theorem cellText_str (s : String) : num.cellText (.str s) = some s := by
  rw [cellText, textOf]
  exact nofun

end JsNumbers

/-! ### The digits -/

/-- A digit, or nothing, which counts as nought. -/
def readDigit : List Char → Option (Fin 10)
  | [] => some 0
  | [c] => if h : c.isDigit = true ∧ c.toNat - 48 < 10 then some ⟨c.toNat - 48, h.2⟩ else none
  | _ => none

/-- The numbers of one digit, which have all the properties asked for, so that statements about
numbers can be evaluated. -/
def oneDigit : JsNumbers (Fin 10) where
  toStr d := String.ofList [Nat.digitChar d]
  number s := readDigit (Trim.trim isJsSpace s.toList)
  isFinite _ := true
  zero := 0
  number_toStr d := by
    rw [String.toList_ofList]
    revert d
    decide
  literal_toStr d _ := by
    rw [String.toList_ofList]
    revert d
    decide
  isFinite_zero := rfl
  number_blank s h := by
    rw [← toList_trim, h]
    rfl

/-! ### Inherited properties -/

/-- The methods of `Object.prototype`, which reading a property finds on every object. -/
def inheritedMethods : List String :=
  ["constructor", "__defineGetter__", "__defineSetter__", "hasOwnProperty", "__lookupGetter__",
    "__lookupSetter__", "isPrototypeOf", "propertyIsEnumerable", "toString", "valueOf",
    "toLocaleString"]

end Js
