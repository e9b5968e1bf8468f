import Mathlib.Data.List.Basic
import ExtractFlow.Lib.Utf16

/-!
# JSON texts

JSON values over a type of numbers, the text they are written as, with or without line
breaks, and the reader of texts.  A text is read in two passes: a transducer cuts it into
tokens, and a recursive descent makes values of them.

A number that has no text of its own is written `null`.  Apart from that a value is read
as it was written, so two values have the same text only if they are the same.

## Main definitions

* `NumberFormat` — the texts of numbers.
* `Json`, `Json.written` — values, and what becomes of a value in writing.
* `stringify` — the text of a value.
* `lex`, `parseValue`, `parse` — the reader.

## Main results

* `lex_stringify` — the tokens of a written value.
* `parse_stringify` — a written value is read.
* `stringify_eq_iff` — values with the same text.
-/

namespace JsonText

open Utf16

/-! ### Numbers -/

/-- The characters of numbers. -/
def isNumberChar (c : Char) : Bool := c.isDigit || decide (c ∈ ['-', '+', '.', 'e', 'E'])

/-- Digits at the front of a text, at least one. -/
def digits1 (cs : List Char) : Option (List Char) :=
  match cs with
  | c :: _ => if c.isDigit then some (cs.dropWhile Char.isDigit) else none
  | [] => none

/-- The whole part of a literal: a nought, or digits without one in front. -/
def wholePart : List Char → Option (List Char)
  | '0' :: cs => some cs
  | cs => digits1 cs

/-- The fraction of a literal. -/
def fractionPart : List Char → Option (List Char)
  | '.' :: cs => digits1 cs
  | cs => some cs

/-- The exponent of a literal. -/
def exponentPart : List Char → Option (List Char)
  | 'e' :: '+' :: cs | 'e' :: '-' :: cs | 'E' :: '+' :: cs | 'E' :: '-' :: cs => digits1 cs
  | 'e' :: cs | 'E' :: cs => digits1 cs
  | cs => some cs

/-- The grammar of number literals. -/
def isLiteral (cs : List Char) : Bool :=
  cs.all isNumberChar &&
    match cs with
    | '-' :: cs => ((wholePart cs).bind fractionPart).bind exponentPart == some []
    | cs => ((wholePart cs).bind fractionPart).bind exponentPart == some []

/-- How numbers are written and read. Some numbers have no text, as infinities have none in JSON;
the others are written as a literal and read back from it. -/
structure NumberFormat (ν : Type) where
  text : ν → Option (List Char)
  read : List Char → Option ν
  literal_text : ∀ {n cs}, text n = some cs → isLiteral cs = true
  read_text : ∀ {n cs}, text n = some cs → read cs = some n

/-! ### Values and their texts -/

/-- JSON values over a type of numbers. The entries of an object are in the order in which they are
written. -/
inductive Json (ν : Type) where
  | null
  | bool (b : Bool)
  | num (n : ν)
  | str (s : String)
  | arr (items : List (Json ν))
  | obj (entries : List (String × Json ν))
  deriving Repr

namespace Json

variable {ν : Type} (fmt : NumberFormat ν)

mutual

/-- The value as it is read again after it was written: a number without a text became `null`,
wherever it stood. -/
def written : Json ν → Json ν
  | null => null
  | bool b => bool b
  | num n => if (fmt.text n).isSome then num n else null
  | str s => str s
  | arr items => arr (writtenItems items)
  | obj entries => obj (writtenEntries entries)

/-- The items of an array. -/
def writtenItems : List (Json ν) → List (Json ν)
  | [] => []
  | v :: vs => written v :: writtenItems vs

/-- The entries of an object. -/
def writtenEntries : List (String × Json ν) → List (String × Json ν)
  | [] => []
  | (k, v) :: kvs => (k, written v) :: writtenEntries kvs

end

theorem writtenItems_eq (vs : List (Json ν)) : writtenItems fmt vs = vs.map (written fmt) := by
  induction vs with
  | nil => rfl
  | cons v vs ih => rw [writtenItems, ih, List.map_cons]

theorem writtenEntries_eq (kvs : List (String × Json ν)) :
    writtenEntries fmt kvs = kvs.map fun kv => (kv.1, written fmt kv.2) := by
  induction kvs with
  | nil => rfl
  | cons kv kvs ih => rw [writtenEntries, ih, List.map_cons]

/-- A number is written as it is, or as null. -/
theorem written_num_eq_or (n : ν) :
    written fmt (.num n) = .num n ∨ written fmt (.num n) = .null := by
  rw [written]
  split
  · exact Or.inl rfl
  · exact Or.inr rfl

variable {fmt}

/-- Texts, booleans and objects are written as such, and nothing else is. -/
theorem eq_str_of_written {v : Json ν} {s : String} (h : written fmt v = .str s) : v = .str s := by
  cases v with
  | str s' => exact h
  | num n => rcases written_num_eq_or fmt n with hn | hn <;> rw [hn] at h <;> cases h
  | null => cases h
  | bool b => cases h
  | arr items => cases h
  | obj entries => cases h

theorem eq_bool_of_written {v : Json ν} {b : Bool} (h : written fmt v = .bool b) :
    v = .bool b := by
  cases v with
  | bool b' => exact h
  | num n => rcases written_num_eq_or fmt n with hn | hn <;> rw [hn] at h <;> cases h
  | null => cases h
  | str s => cases h
  | arr items => cases h
  | obj entries => cases h

theorem eq_obj_of_written {v : Json ν} {kvs : List (String × Json ν)}
    (h : written fmt v = .obj kvs) :
    ∃ entries, v = .obj entries ∧ entries.map (fun kv => (kv.1, written fmt kv.2)) = kvs := by
  cases v with
  | obj entries =>
    rw [written, writtenEntries_eq] at h
    exact ⟨entries, rfl, Json.obj.inj h⟩
  | num n => rcases written_num_eq_or fmt n with hn | hn <;> rw [hn] at h <;> cases h
  | null => cases h
  | bool b => cases h
  | str s => cases h
  | arr items => cases h

/-- The first of the entries that are written as these. -/
theorem eq_cons_of_written {entries kvs : List (String × Json ν)} {k : String} {w : Json ν}
    (h : entries.map (fun kv => (kv.1, written fmt kv.2)) = (k, w) :: kvs) :
    ∃ v rest, entries = (k, v) :: rest ∧ written fmt v = w ∧
      rest.map (fun kv => (kv.1, written fmt kv.2)) = kvs := by
  obtain ⟨⟨k', v⟩, rest, rfl, hfirst, hrest⟩ := List.map_eq_cons_iff.mp h
  obtain ⟨rfl, hv⟩ := Prod.mk.inj hfirst
  exact ⟨v, rest, rfl, hv, hrest⟩

/-- What is written as null is null, or a number. -/
theorem null_or_num_of_written {v : Json ν} (h : written fmt v = .null) :
    v = .null ∨ ∃ n, v = .num n := by
  cases v with
  | null => exact Or.inl rfl
  | num n => exact Or.inr ⟨n, rfl⟩
  | bool b => cases h
  | str s => cases h
  | arr items => cases h
  | obj entries => cases h

end Json

/-- A hexadecimal digit. -/
def hexDigit (d : ℕ) : Char := Nat.digitChar d

/-- A character inside a string. -/
def escape (c : Char) : List Char :=
  if c = '"' then ['\\', '"']
  else if c = '\\' then ['\\', '\\']
  else if c.toNat = 8 then ['\\', 'b']
  else if c.toNat = 9 then ['\\', 't']
  else if c.toNat = 10 then ['\\', 'n']
  else if c.toNat = 12 then ['\\', 'f']
  else if c.toNat = 13 then ['\\', 'r']
  else if c.toNat < 32 then
    ['\\', 'u', '0', '0', hexDigit (c.toNat / 16), hexDigit (c.toNat % 16)]
  else [c]

/-- A string in its quotes. -/
def quote (s : String) : List Char := '"' :: (s.toList.flatMap escape ++ ['"'])

/-- The line break in front of an item, `gap` spaces for every level. -/
def lineBreak (gap depth : ℕ) : List Char :=
  if gap = 0 then [] else '\n' :: List.replicate (gap * depth) ' '

/-- What stands between a key and its value. -/
def colon (gap : ℕ) : List Char := if gap = 0 then [':'] else [':', ' ']

section Stringify

variable {ν : Type} (fmt : NumberFormat ν) (gap : ℕ)

mutual

/-- What `JSON.stringify(value, null, gap)` writes at a depth: nested items stand on lines of their
own, indented by the gap once for each level, or all on one line when there is no gap. -/
def stringify (depth : ℕ) : Json ν → List Char
  | .null => ['n', 'u', 'l', 'l']
  | .bool true => ['t', 'r', 'u', 'e']
  | .bool false => ['f', 'a', 'l', 's', 'e']
  | .num n => (fmt.text n).getD ['n', 'u', 'l', 'l']
  | .str s => quote s
  | .arr [] => ['[', ']']
  | .arr (v :: vs) =>
      '[' :: (lineBreak gap (depth + 1) ++ stringify (depth + 1) v ++ stringifyItems depth vs)
  | .obj [] => ['{', '}']
  | .obj ((k, v) :: kvs) =>
      '{' :: (lineBreak gap (depth + 1) ++ quote k ++ colon gap ++ stringify (depth + 1) v ++
        stringifyEntries depth kvs)

/-- The items behind the first, and the end of the array. -/
def stringifyItems (depth : ℕ) : List (Json ν) → List Char
  | [] => lineBreak gap depth ++ [']']
  | v :: vs =>
      ',' :: (lineBreak gap (depth + 1) ++ stringify (depth + 1) v ++ stringifyItems depth vs)

/-- The entries behind the first, and the end of the object. -/
def stringifyEntries (depth : ℕ) : List (String × Json ν) → List Char
  | [] => lineBreak gap depth ++ ['}']
  | (k, v) :: kvs =>
      ',' :: (lineBreak gap (depth + 1) ++ quote k ++ colon gap ++ stringify (depth + 1) v ++
        stringifyEntries depth kvs)

end

end Stringify

/-! ### Tokens -/

/-- What a text is cut into: punctuation, the word `null`, and the truth values, numbers and texts
with what they mean. -/
inductive Token (ν : Type) where
  | lbracket | rbracket | lbrace | rbrace | comma | colon
  | null
  | bool (b : Bool)
  | num (n : ν)
  | str (s : String)
  deriving Repr

/-- Where the reader stands inside a string: at a character, behind a backslash, or behind
some digits of a code unit. -/
inductive Escape where
  | plain
  | slash
  | unit (value count : ℕ)
  deriving Repr

/-- Where the reader stands in a text: between tokens, or in a token with what it has read. -/
inductive Mode where
  | between
  | string (units : List ℕ) (esc : Escape)
  | number (cs : List Char)
  | word (cs : List Char)
  deriving Repr

/-- White space between tokens. -/
def isSpace (c : Char) : Bool := c == ' ' || c == '\n' || c == '\r' || c == '\t'

section Lex

variable {ν : Type} (fmt : NumberFormat ν)

/-- Tokens of one character. -/
def punctuation (c : Char) : Option (Token ν) :=
  if c = '[' then some .lbracket else if c = ']' then some .rbracket
  else if c = '{' then some .lbrace else if c = '}' then some .rbrace
  else if c = ',' then some .comma else if c = ':' then some .colon else none

/-- The token of a word. -/
def wordToken (cs : List Char) : Option (Token ν) :=
  if cs = ['n', 'u', 'l', 'l'] then some .null
  else if cs = ['t', 'r', 'u', 'e'] then some (.bool true)
  else if cs = ['f', 'a', 'l', 's', 'e'] then some (.bool false) else none

/-- The token of a number. -/
def numberToken (cs : List Char) : Option (Token ν) :=
  if isLiteral cs then (fmt.read cs).map .num else none

/-- The value of a hexadecimal digit. -/
def hexValue (c : Char) : Option ℕ :=
  if c.isDigit then some (c.toNat - 48)
  else if 97 ≤ c.toNat ∧ c.toNat ≤ 102 then some (c.toNat - 87)
  else if 65 ≤ c.toNat ∧ c.toNat ≤ 70 then some (c.toNat - 55) else none

/-- The character an escape of one letter stands for. -/
def unescape (c : Char) : Option ℕ :=
  if c = '"' ∨ c = '\\' ∨ c = '/' then some c.toNat
  else if c = 'b' then some 8 else if c = 't' then some 9 else if c = 'n' then some 10
  else if c = 'f' then some 12 else if c = 'r' then some 13 else none

/-- A character between tokens. -/
def stepBetween (c : Char) : Option (List (Token ν) × Mode) :=
  if isSpace c then some ([], .between)
  else
    match punctuation c with
    | some t => some ([t], .between)
    | none =>
        if c = '"' then some ([], .string [] .plain)
        else if c.isDigit || c == '-' then some ([], .number [c])
        else if c.isLower then some ([], .word [c]) else none

/-- A character inside a string. -/
def stepString (units : List ℕ) (c : Char) : Escape → Option (List (Token ν) × Mode)
  | .plain =>
      if c = '"' then some ([.str (String.ofList (decode units))], .between)
      else if c = '\\' then some ([], .string units .slash)
      else if c.toNat < 32 then none
      else some ([], .string (units ++ unitsOf c) .plain)
  | .slash =>
      if c = 'u' then some ([], .string units (.unit 0 0))
      else (unescape c).map fun u => ([], .string (units ++ [u]) .plain)
  | .unit value count =>
      (hexValue c).map fun d =>
        if count = 3 then ([], .string (units ++ [value * 16 + d]) .plain)
        else ([], .string units (.unit (value * 16 + d) (count + 1)))

/-- One character: the tokens that end in front of it or with it. -/
def step (c : Char) : Mode → Option (List (Token ν) × Mode)
  | .between => stepBetween c
  | .string units esc => stepString units c esc
  | .number cs =>
      if isNumberChar c then some ([], .number (cs ++ [c]))
      else (numberToken fmt cs).bind fun t => (stepBetween c).map fun r => (t :: r.1, r.2)
  | .word cs =>
      if c.isLower then some ([], .word (cs ++ [c]))
      else (wordToken cs).bind fun t => (stepBetween c).map fun r => (t :: r.1, r.2)

/-- The end of the text. -/
def finish : Mode → Option (List (Token ν))
  | .between => some []
  | .string _ _ => none
  | .number cs => (numberToken fmt cs).map fun t => [t]
  | .word cs => (wordToken cs).map fun t => [t]

/-- The tokens of a text, read character by character, or nothing when some character cannot go on
from where the reading stands. -/
def lex : Mode → List Char → Option (List (Token ν))
  | mode, [] => finish fmt mode
  | mode, c :: cs =>
      (step fmt c mode).bind fun r => (lex r.2 cs).map fun ts => r.1 ++ ts

end Lex

/-! ### The reader -/

mutual

/-- A value at the front of the tokens, and the tokens behind it. -/
def parseValue {ν : Type} : ℕ → List (Token ν) → Option (Json ν × List (Token ν))
  | 0, _ => none
  | _ + 1, .null :: ts => some (.null, ts)
  | _ + 1, .bool b :: ts => some (.bool b, ts)
  | _ + 1, .num n :: ts => some (.num n, ts)
  | _ + 1, .str s :: ts => some (.str s, ts)
  | _ + 1, .lbracket :: .rbracket :: ts => some (.arr [], ts)
  | n + 1, .lbracket :: ts => (parseItems n ts).map fun r => (.arr r.1, r.2)
  | _ + 1, .lbrace :: .rbrace :: ts => some (.obj [], ts)
  | n + 1, .lbrace :: ts => (parseEntries n ts).map fun r => (.obj r.1, r.2)
  | _ + 1, _ => none

/-- Items up to the end of the array, at least one. -/
def parseItems {ν : Type} : ℕ → List (Token ν) → Option (List (Json ν) × List (Token ν))
  | 0, _ => none
  | n + 1, ts =>
      (parseValue n ts).bind fun r =>
        match r.2 with
        | .comma :: ts => (parseItems n ts).map fun r' => (r.1 :: r'.1, r'.2)
        | .rbracket :: ts => some ([r.1], ts)
        | _ => none

/-- Entries up to the end of the object, at least one. -/
def parseEntries {ν : Type} :
    ℕ → List (Token ν) → Option (List (String × Json ν) × List (Token ν))
  | 0, _ => none
  | n + 1, .str k :: .colon :: ts =>
      (parseValue n ts).bind fun r =>
        match r.2 with
        | .comma :: ts => (parseEntries n ts).map fun r' => ((k, r.1) :: r'.1, r'.2)
        | .rbrace :: ts => some ([(k, r.1)], ts)
        | _ => none
  | _ + 1, _ => none

end

/-- The value of a text, if it is one: its tokens make a value and none of them is left over. -/
def parse {ν : Type} (fmt : NumberFormat ν) (cs : List Char) : Option (Json ν) :=
  (lex fmt .between cs).bind fun ts =>
    (parseValue (ts.length + 1) ts).bind fun r => if r.2.isEmpty then some r.1 else none

/-! ### One token -/

section Tokens

variable {ν : Type} {fmt : NumberFormat ν} {mode mode' : Mode} {c : Char} {cs rest : List Char}

/-- Behind the text no number and no word goes on. -/
def Delimited (rest : List Char) : Prop :=
  ∀ c ∈ rest.head?, isNumberChar c = false ∧ c.isLower = false

/-- The tokens behind some tokens. -/
def emit (ts : List (Token ν)) (behind : Option (List (Token ν))) : Option (List (Token ν)) :=
  behind.map (ts ++ ·)

theorem emit_emit (ts us : List (Token ν)) (behind : Option (List (Token ν))) :
    emit ts (emit us behind) = emit (ts ++ us) behind := by
  cases behind with
  | none => rfl
  | some behind => exact congrArg some (List.append_assoc ..).symm

theorem lex_of_step (h : step fmt c mode = some ([], mode')) :
    lex fmt mode (c :: cs) = lex fmt mode' cs := by
  rw [lex, h, Option.bind_some]
  simp

theorem lex_of_step_token {t : Token ν} (h : step fmt c mode = some ([t], mode')) :
    lex fmt mode (c :: cs) = emit [t] (lex fmt mode' cs) := by
  rw [lex, h]
  rfl

/-- A number or a word ends at what delimits it. -/
theorem lex_flush {t : Token ν} (hrest : Delimited rest)
    (hmode : (∃ cs, mode = .number cs ∧ numberToken fmt cs = some t) ∨
      ∃ cs, mode = .word cs ∧ wordToken cs = some t) :
    lex fmt mode rest = emit [t] (lex fmt .between rest) := by
  cases rest with
  | nil =>
    rcases hmode with ⟨cs, rfl, ht⟩ | ⟨cs, rfl, ht⟩ <;>
    · rw [lex, finish, ht]
      rfl
  | cons c rest =>
    obtain ⟨hnumber, hword⟩ := hrest c rfl
    have hstep : step fmt c mode = (stepBetween c).map fun r => (t :: r.1, r.2) := by
      rcases hmode with ⟨cs, rfl, ht⟩ | ⟨cs, rfl, ht⟩
      · rw [step, if_neg (by simp [hnumber]), ht]
        rfl
      · rw [step, if_neg (by simp [hword]), ht]
        rfl
    rw [lex, lex, hstep, step]
    cases (stepBetween c : Option (List (Token ν) × Mode)) with
    | none => rfl
    | some r => simp [emit, Function.comp_def]

/-! ### Strings -/

theorem hexValue_hexDigit : ∀ d : Fin 16, hexValue (hexDigit d) = some (d : ℕ) := by decide

theorem unitsOf_of_lt (h : c.toNat < 32) : unitsOf c = [c.toNat] :=
  unitsOf_basic (show c.toNat < 0x10000 by omega)

/-- A character of a text is read from its escape, and the reading goes on behind it inside the same
text. -/
theorem lex_escape (units : List ℕ) (c : Char) (rest : List Char) :
    lex fmt (.string units .plain) (escape c ++ rest) =
      lex fmt (.string (units ++ unitsOf c) .plain) rest := by
  -- an escape of one letter is read in two steps
  have hletter : ∀ (d : Char) (u : ℕ), d ≠ 'u' → unescape d = some u → unitsOf c = [u] →
      lex fmt (.string units .plain) ('\\' :: d :: rest) =
        lex fmt (.string (units ++ unitsOf c) .plain) rest := by
    intro d u hd hu hunits
    have hslash : step fmt '\\' (.string units .plain) = some ([], .string units .slash) := rfl
    have hchar : step fmt d (.string units .slash) = some ([], .string (units ++ [u]) .plain) := by
      rw [step, stepString, if_neg hd, hu]
      rfl
    rw [lex_of_step hslash, lex_of_step hchar, hunits]
  unfold escape
  split_ifs with hquote hslash h8 h9 h10 h12 h13 h32
  · exact hletter '"' 34 (by decide) (by decide) (by rw [hquote]; decide)
  · exact hletter '\\' 92 (by decide) (by decide) (by rw [hslash]; decide)
  · exact hletter 'b' 8 (by decide) (by decide) (by rw [unitsOf_of_lt (by omega), h8])
  · exact hletter 't' 9 (by decide) (by decide) (by rw [unitsOf_of_lt (by omega), h9])
  · exact hletter 'n' 10 (by decide) (by decide) (by rw [unitsOf_of_lt (by omega), h10])
  · exact hletter 'f' 12 (by decide) (by decide) (by rw [unitsOf_of_lt (by omega), h12])
  · exact hletter 'r' 13 (by decide) (by decide) (by rw [unitsOf_of_lt (by omega), h13])
  -- other control characters are written as four hexadecimal digits, of which the first two are
  -- zero
  · have hhigh := hexValue_hexDigit ⟨c.toNat / 16, by omega⟩
    have hlow := hexValue_hexDigit ⟨c.toNat % 16, by omega⟩
    have hunit : ∀ {d : Char} {v k u : ℕ}, k < 3 → hexValue d = some u →
        step fmt d (.string units (.unit v k)) =
          some ([], .string units (.unit (v * 16 + u) (k + 1))) := by
      intro d v k u hk hu
      rw [step, stepString, hu, Option.map_some, if_neg (by omega)]
    have hlast : step fmt (hexDigit (c.toNat % 16)) (.string units (.unit (c.toNat / 16) 3)) =
        some ([], .string (units ++ [c.toNat]) .plain) := by
      have hvalue : c.toNat / 16 * 16 + c.toNat % 16 = c.toNat := by omega
      rw [step, stepString, hlow, Option.map_some, if_pos rfl, hvalue]
    have hslash : step fmt '\\' (.string units .plain) = some ([], .string units .slash) := rfl
    have hu : step fmt 'u' (.string units .slash) = some ([], .string units (.unit 0 0)) := rfl
    have hzero : hexValue '0' = some 0 := by decide
    simp only [List.cons_append, List.nil_append]
    rw [lex_of_step hslash, lex_of_step hu, lex_of_step (hunit (by omega) hzero),
      lex_of_step (hunit (by omega) hzero), lex_of_step (hunit (by omega) hhigh)]
    simp only [Nat.zero_mul, Nat.zero_add]
    rw [lex_of_step hlast, unitsOf_of_lt h32]
  -- any other character stands for itself
  · have hplain : step fmt c (.string units .plain) =
        some ([], .string (units ++ unitsOf c) .plain) := by
      rw [step, stepString, if_neg hquote, if_neg hslash, if_neg h32]
    rw [List.singleton_append, lex_of_step hplain]

theorem lex_escapes : ∀ (s : List Char) (units : List ℕ) (rest : List Char),
    lex fmt (.string units .plain) (s.flatMap escape ++ rest) =
      lex fmt (.string (units ++ encode s) .plain) rest := by
  intro s
  induction s with
  | nil =>
    intro units rest
    rw [encode_nil, List.append_nil]
    rfl
  | cons c s ih =>
    intro units rest
    rw [List.flatMap_cons, List.append_assoc, lex_escape, ih, encode_cons, List.append_assoc]

/-- **A string is read.** -/
theorem lex_quote (s : String) (rest : List Char) :
    lex fmt .between (quote s ++ rest) = emit [.str s] (lex fmt .between rest) := by
  have hopen : step fmt '"' .between = some ([], .string [] .plain) := rfl
  have hclose : step fmt '"' (.string ([] ++ encode s.toList) .plain) =
      some ([.str s], .between) := by
    rw [List.nil_append, step, stepString, if_pos rfl, decode_encode, String.ofList_toList]
  rw [quote, List.cons_append, List.append_assoc, lex_of_step hopen, lex_escapes,
    List.singleton_append, lex_of_step_token hclose]

/-! ### Numbers and words -/

/-- A literal begins with a digit or a minus. -/
theorem head_of_isLiteral (h : isLiteral cs = true) :
    ∃ c rest, cs = c :: rest ∧ (c.isDigit = true ∨ c = '-') := by
  have hgrammar := (Bool.and_eq_true _ _ ▸ h : _ ∧ _).2
  cases cs with
  | nil => cases hgrammar
  | cons c cs =>
    refine ⟨c, cs, rfl, ?_⟩
    by_cases hminus : c = '-'
    · exact .inr hminus
    · left
      split at hgrammar
      next heq => exact absurd (List.cons.inj heq).1 hminus
      next =>
        by_contra hdigit
        have hzero : c ≠ '0' := fun h => hdigit (h ▸ rfl)
        have hnone : wholePart (c :: cs) = none := by
          unfold wholePart
          split
          next heq => exact absurd (List.cons.inj heq).1 hzero
          next => exact if_neg hdigit
        rw [hnone] at hgrammar
        cases hgrammar

theorem stepBetween_number (h : c.isDigit = true ∨ c = '-') :
    (stepBetween c : Option (List (Token ν) × Mode)) = some ([], .number [c]) := by
  have hcode : (48 ≤ c.toNat ∧ c.toNat ≤ 57) ∨ c.toNat = 45 := by
    rcases h with h | rfl
    · exact .inl (Char.isDigit_iff_toNat.mp h)
    · exact .inr rfl
  have hne : ∀ d : Char, d.toNat < 45 ∨ 57 < d.toNat → c ≠ d := by
    rintro d hd rfl
    omega
  have hspace : isSpace c = false := by simp [isSpace, hne]
  have hpunctuation : (punctuation c : Option (Token ν)) = none := by simp [punctuation, hne]
  have hnumber : (c.isDigit || c == '-') = true := by simpa using h
  rw [stepBetween, hspace, hpunctuation]
  simp only [Bool.false_eq_true, if_false]
  rw [if_neg (hne '"' (by decide)), if_pos hnumber]

theorem lex_number_chars : ∀ (cs acc : List Char), cs.all isNumberChar = true →
    lex fmt (.number acc) (cs ++ rest) = lex fmt (.number (acc ++ cs)) rest := by
  intro cs
  induction cs with
  | nil =>
    intro acc _
    rw [List.nil_append, List.append_nil]
  | cons c cs ih =>
    intro acc h
    obtain ⟨hc, hcs⟩ := Bool.and_eq_true _ _ ▸ List.all_cons ▸ h
    have hstep : step fmt c (.number acc) = some ([], .number (acc ++ [c])) := by
      rw [step, if_pos hc]
    rw [List.cons_append, lex_of_step hstep, ih _ hcs, List.append_assoc, List.singleton_append]

/-- **A number is read.** -/
theorem lex_number {n : ν} (htext : fmt.text n = some cs) (hrest : Delimited rest) :
    lex fmt .between (cs ++ rest) = emit [.num n] (lex fmt .between rest) := by
  have hliteral := fmt.literal_text htext
  obtain ⟨c, tail, rfl, hc⟩ := head_of_isLiteral hliteral
  have hall : tail.all isNumberChar = true := by
    have hall := (Bool.and_eq_true _ _ ▸ hliteral : _ ∧ _).1
    exact (Bool.and_eq_true _ _ ▸ List.all_cons ▸ hall : _ ∧ _).2
  have htoken : numberToken fmt (c :: tail) = some (.num n) := by
    rw [numberToken, if_pos hliteral, fmt.read_text htext, Option.map_some]
  rw [List.cons_append, lex_of_step (show step fmt c .between = _ from stepBetween_number hc),
    lex_number_chars _ _ hall, List.singleton_append]
  exact lex_flush hrest (.inl ⟨_, rfl, htoken⟩)

theorem lex_word_chars : ∀ (cs acc : List Char), cs.all Char.isLower = true →
    lex fmt (.word acc) (cs ++ rest) = lex fmt (.word (acc ++ cs)) rest := by
  intro cs
  induction cs with
  | nil =>
    intro acc _
    rw [List.nil_append, List.append_nil]
  | cons c cs ih =>
    intro acc h
    obtain ⟨hc, hcs⟩ := Bool.and_eq_true _ _ ▸ List.all_cons ▸ h
    have hstep : step fmt c (.word acc) = some ([], .word (acc ++ [c])) := by
      rw [step, if_pos hc]
    rw [List.cons_append, lex_of_step hstep, ih _ hcs, List.append_assoc, List.singleton_append]

/-- A word is read. -/
theorem lex_word {t : Token ν} (hfirst : stepBetween c = some (([] : List (Token ν)), .word [c]))
    (hcs : cs.all Char.isLower = true) (htoken : wordToken (c :: cs) = some t)
    (hrest : Delimited rest) :
    lex fmt .between (c :: cs ++ rest) = emit [t] (lex fmt .between rest) := by
  rw [List.cons_append, lex_of_step (show step fmt c .between = _ from hfirst),
    lex_word_chars _ _ hcs, List.singleton_append]
  exact lex_flush hrest (.inr ⟨_, rfl, htoken⟩)

/-! ### White space and punctuation -/

theorem lex_spaces : ∀ (n : ℕ), lex fmt .between (List.replicate n ' ' ++ rest) =
    lex fmt .between rest := by
  intro n
  induction n with
  | zero => rfl
  | succ n ih =>
    rw [List.replicate_succ, List.cons_append,
      lex_of_step (show step fmt ' ' .between = _ from rfl), ih]

theorem lex_lineBreak (gap depth : ℕ) : lex fmt .between (lineBreak gap depth ++ rest) =
    lex fmt .between rest := by
  unfold lineBreak
  split
  next => rfl
  next => rw [List.cons_append, lex_of_step (show step fmt '\n' .between = _ from rfl), lex_spaces]

theorem lex_colon (gap : ℕ) : lex fmt .between (colon gap ++ rest) =
    emit [.colon] (lex fmt .between rest) := by
  have hcolon : step fmt ':' .between = some ([.colon], .between) := rfl
  unfold colon
  split
  next => rw [List.singleton_append, lex_of_step_token hcolon]
  next =>
    rw [List.cons_append, lex_of_step_token hcolon, List.singleton_append,
      lex_of_step (show step fmt ' ' .between = _ from rfl)]

theorem delimited_cons (h : isNumberChar c = false ∧ c.isLower = false) : Delimited (c :: cs) := by
  intro d hd
  obtain rfl := Option.some.inj hd
  exact h

theorem delimited_lineBreak (gap depth : ℕ) (h : Delimited rest) :
    Delimited (lineBreak gap depth ++ rest) := by
  unfold lineBreak
  split
  next => exact h
  next => exact delimited_cons (by decide)

end Tokens

/-! ### The tokens of a value -/

section Values

variable {ν : Type} (fmt : NumberFormat ν) (gap : ℕ)

mutual

/-- The tokens of a value. -/
def tokens : Json ν → List (Token ν)
  | .null => [.null]
  | .bool b => [.bool b]
  | .num n => [if (fmt.text n).isSome then .num n else .null]
  | .str s => [.str s]
  | .arr [] => [.lbracket, .rbracket]
  | .arr (v :: vs) => .lbracket :: (tokens v ++ itemTokens vs)
  | .obj [] => [.lbrace, .rbrace]
  | .obj ((k, v) :: kvs) => .lbrace :: .str k :: .colon :: (tokens v ++ entryTokens kvs)

/-- The tokens of the items behind the first, and of the end of the array. -/
def itemTokens : List (Json ν) → List (Token ν)
  | [] => [.rbracket]
  | v :: vs => .comma :: (tokens v ++ itemTokens vs)

/-- The tokens of the entries behind the first, and of the end of the object. -/
def entryTokens : List (String × Json ν) → List (Token ν)
  | [] => [.rbrace]
  | (k, v) :: kvs => .comma :: .str k :: .colon :: (tokens v ++ entryTokens kvs)

end

variable {rest : List Char}

theorem lex_open_bracket : step fmt '[' .between = some ([.lbracket], .between) := rfl

theorem lex_close_bracket : step fmt ']' .between = some ([.rbracket], .between) := rfl

theorem lex_open_brace : step fmt '{' .between = some ([.lbrace], .between) := rfl

theorem lex_close_brace : step fmt '}' .between = some ([.rbrace], .between) := rfl

theorem lex_comma : step fmt ',' .between = some ([.comma], .between) := rfl

theorem delimited_stringifyItems (depth : ℕ) (vs : List (Json ν)) :
    Delimited (stringifyItems fmt gap depth vs ++ rest) := by
  cases vs with
  | nil =>
    rw [stringifyItems, List.append_assoc]
    exact delimited_lineBreak _ _ (delimited_cons (by decide))
  | cons v vs =>
    rw [stringifyItems]
    exact delimited_cons (by decide)

theorem delimited_stringifyEntries (depth : ℕ) (kvs : List (String × Json ν)) :
    Delimited (stringifyEntries fmt gap depth kvs ++ rest) := by
  cases kvs with
  | nil =>
    rw [stringifyEntries, List.append_assoc]
    exact delimited_lineBreak _ _ (delimited_cons (by decide))
  | cons kv kvs =>
    rw [stringifyEntries]
    exact delimited_cons (by decide)

mutual

/-- **The tokens of a written value** are those of the value, in front of the tokens of what
follows, as long as what follows does not run on from its last character. -/
theorem lex_stringify : ∀ (v : Json ν) (depth : ℕ) {rest : List Char}, Delimited rest →
    lex fmt .between (stringify fmt gap depth v ++ rest) =
      emit (tokens fmt v) (lex fmt .between rest)
  | .null, _, _, hrest => by
    rw [stringify, tokens]
    exact lex_word rfl rfl rfl hrest
  | .bool true, _, _, hrest => by
    rw [stringify, tokens]
    exact lex_word rfl rfl rfl hrest
  | .bool false, _, _, hrest => by
    rw [stringify, tokens]
    exact lex_word rfl rfl rfl hrest
  | .num n, _, _, hrest => by
    rw [stringify, tokens]
    cases htext : fmt.text n with
    | none => exact lex_word rfl rfl rfl hrest
    | some cs => exact lex_number htext hrest
  | .str s, _, rest, _ => by
    rw [stringify, tokens]
    exact lex_quote s rest
  | .arr [], _, rest, _ => by
    rw [stringify, tokens, List.cons_append, lex_of_step_token (lex_open_bracket fmt),
      List.singleton_append, lex_of_step_token (lex_close_bracket fmt), emit_emit]
    rfl
  | .arr (v :: vs), depth, rest, _ => by
    -- an array: its bracket, its first item, and the others behind commas
    rw [stringify, tokens, List.cons_append, lex_of_step_token (lex_open_bracket fmt),
      List.append_assoc, List.append_assoc, lex_lineBreak,
      lex_stringify v _ (delimited_stringifyItems fmt gap depth vs), lex_stringifyItems vs,
      emit_emit, emit_emit]
    rfl
  | .obj [], _, rest, _ => by
    rw [stringify, tokens, List.cons_append, lex_of_step_token (lex_open_brace fmt),
      List.singleton_append, lex_of_step_token (lex_close_brace fmt), emit_emit]
    rfl
  | .obj ((k, v) :: kvs), depth, rest, _ => by
    -- an object: as an array, with a name and a colon before each value
    rw [stringify, tokens, List.cons_append, lex_of_step_token (lex_open_brace fmt),
      List.append_assoc, List.append_assoc, List.append_assoc, List.append_assoc, lex_lineBreak,
      lex_quote, lex_colon, lex_stringify v _ (delimited_stringifyEntries fmt gap depth kvs),
      lex_stringifyEntries kvs, emit_emit, emit_emit, emit_emit, emit_emit]
    rfl

theorem lex_stringifyItems : ∀ (vs : List (Json ν)) (depth : ℕ) {rest : List Char},
    lex fmt .between (stringifyItems fmt gap depth vs ++ rest) =
      emit (itemTokens fmt vs) (lex fmt .between rest)
  | [], _, _ => by
    rw [stringifyItems, itemTokens, List.append_assoc, lex_lineBreak, List.singleton_append,
      lex_of_step_token (lex_close_bracket fmt)]
  | v :: vs, depth, _ => by
    rw [stringifyItems, itemTokens, List.cons_append, lex_of_step_token (lex_comma fmt),
      List.append_assoc, List.append_assoc, lex_lineBreak,
      lex_stringify v _ (delimited_stringifyItems fmt gap depth vs), lex_stringifyItems vs,
      emit_emit, emit_emit]
    rfl

theorem lex_stringifyEntries : ∀ (kvs : List (String × Json ν)) (depth : ℕ) {rest : List Char},
    lex fmt .between (stringifyEntries fmt gap depth kvs ++ rest) =
      emit (entryTokens fmt kvs) (lex fmt .between rest)
  | [], _, _ => by
    rw [stringifyEntries, entryTokens, List.append_assoc, lex_lineBreak, List.singleton_append,
      lex_of_step_token (lex_close_brace fmt)]
  | (k, v) :: kvs, depth, _ => by
    rw [stringifyEntries, entryTokens, List.cons_append, lex_of_step_token (lex_comma fmt),
      List.append_assoc, List.append_assoc, List.append_assoc, List.append_assoc, lex_lineBreak,
      lex_quote, lex_colon, lex_stringify v _ (delimited_stringifyEntries fmt gap depth kvs),
      lex_stringifyEntries kvs, emit_emit, emit_emit, emit_emit, emit_emit]
    rfl

end

/-! ### Values out of tokens -/

/-- A value does not begin like the end of an array or an object. -/
theorem tokens_head (v : Json ν) :
    ∃ t ts, tokens fmt v = t :: ts ∧ t ≠ .rbracket ∧ t ≠ .rbrace := by
  rcases v with _ | b | n | s | (_ | ⟨v, vs⟩) | (_ | ⟨⟨k, v⟩, kvs⟩)
  case num =>
    by_cases htext : (fmt.text n).isSome = true
    · exact ⟨.num n, [], by rw [tokens, if_pos htext], nofun, nofun⟩
    · exact ⟨.null, [], by rw [tokens, if_neg htext], nofun, nofun⟩
  all_goals
    rw [tokens]
    exact ⟨_, _, rfl, nofun, nofun⟩

theorem parseValue_lbracket {t : Token ν} (n : ℕ) (ts : List (Token ν)) (ht : t ≠ .rbracket) :
    parseValue (n + 1) (.lbracket :: t :: ts) =
      (parseItems n (t :: ts)).map fun r => (.arr r.1, r.2) := by
  cases t with
  | rbracket => exact absurd rfl ht
  | _ => rfl

theorem itemTokens_length_pos (vs : List (Json ν)) : 0 < (itemTokens fmt vs).length := by
  cases vs with
  | nil => exact Nat.one_pos
  | cons v vs => exact Nat.succ_pos _

mutual

/-- **The value of the tokens of a value** is the value as it is read again, and the tokens behind
it are left; as much fuel as there are tokens is enough. -/
theorem parseValue_tokens : ∀ (v : Json ν) (n : ℕ) (rest : List (Token ν)),
    (tokens fmt v).length ≤ n → parseValue n (tokens fmt v ++ rest) = some (v.written fmt, rest)
  | .null, n + 1, rest, _ => rfl
  | .bool b, n + 1, rest, _ => rfl
  | .num x, n + 1, rest, _ => by
    rw [tokens, Json.written]
    split <;> rfl
  | .str s, n + 1, rest, _ => rfl
  | .arr [], n + 1, rest, _ => rfl
  | .arr (v :: vs), n + 1, rest, h => by
    -- The first token decides how the value is read, so the tokens of the first item are opened.
    obtain ⟨t, ts, heq, ht, -⟩ := tokens_head fmt v
    have hlength : (tokens fmt v).length + (itemTokens fmt vs).length ≤ n := by
      simpa [tokens] using h
    have hitems := parseItems_tokens v vs n rest hlength
    rw [tokens, List.cons_append, List.append_assoc]
    rw [heq] at hitems ⊢
    rw [List.cons_append, parseValue_lbracket n _ ht, ← List.cons_append, hitems, Json.written,
      Json.writtenItems]
    rfl
  | .obj [], n + 1, rest, _ => rfl
  | .obj ((k, v) :: kvs), n + 1, rest, h => by
    have hlength : (tokens fmt v).length + (entryTokens fmt kvs).length + 2 ≤ n := by
      simp only [tokens, List.length_cons, List.length_append] at h
      omega
    have hentries := parseEntries_tokens k v kvs n rest hlength
    rw [tokens, List.cons_append, List.cons_append, List.cons_append, List.append_assoc,
      parseValue, hentries, Json.written, Json.writtenEntries]
    rfl
    nofun
termination_by v => sizeOf v

theorem parseItems_tokens : ∀ (v : Json ν) (vs : List (Json ν)) (n : ℕ) (rest : List (Token ν)),
    (tokens fmt v).length + (itemTokens fmt vs).length ≤ n →
      parseItems n (tokens fmt v ++ (itemTokens fmt vs ++ rest)) =
        some (v.written fmt :: Json.writtenItems fmt vs, rest)
  | v, [], n + 1, rest, h => by
    have hpos := itemTokens_length_pos fmt []
    rw [parseItems, parseValue_tokens v n _ (by omega)]
    rfl
  | v, v' :: vs, n + 1, rest, h => by
    have hlength : (tokens fmt v').length + (itemTokens fmt vs).length + 1 +
        (tokens fmt v).length ≤ n + 1 := by
      simp only [itemTokens, List.length_cons, List.length_append] at h
      omega
    have hpos := itemTokens_length_pos fmt vs
    have hitems := parseItems_tokens v' vs n rest (by omega)
    rw [parseItems, parseValue_tokens v n _ (by omega)]
    simp only [itemTokens, List.cons_append, List.append_assoc, Option.bind_some, hitems]
    rfl
termination_by v vs => 1 + sizeOf v + sizeOf vs

theorem parseEntries_tokens : ∀ (k : String) (v : Json ν) (kvs : List (String × Json ν)) (n : ℕ)
    (rest : List (Token ν)), (tokens fmt v).length + (entryTokens fmt kvs).length + 2 ≤ n →
      parseEntries n (.str k :: .colon :: (tokens fmt v ++ (entryTokens fmt kvs ++ rest))) =
        some ((k, v.written fmt) :: Json.writtenEntries fmt kvs, rest)
  | k, v, [], n + 1, rest, h => by
    rw [parseEntries, parseValue_tokens v n _ (by omega)]
    rfl
  | k, v, (k', v') :: kvs, n + 1, rest, h => by
    have hlength : (tokens fmt v').length + (entryTokens fmt kvs).length + 5 +
        (tokens fmt v).length ≤ n + 1 := by
      simp only [entryTokens, List.length_cons, List.length_append] at h
      omega
    have hentries := parseEntries_tokens k' v' kvs n rest (by omega)
    rw [parseEntries, parseValue_tokens v n _ (by omega)]
    simp only [entryTokens, List.cons_append, List.append_assoc, Option.bind_some, hentries]
    rfl
termination_by _ v kvs => 1 + sizeOf v + sizeOf kvs

end

/-- **A written value is read** at whatever depth and with whatever gap it was written; only numbers
without a text come back as `null`. -/
theorem parse_stringify (depth : ℕ) (v : Json ν) :
    parse fmt (stringify fmt gap depth v) = some (v.written fmt) := by
  have hlex : lex fmt .between (stringify fmt gap depth v ++ []) =
      emit (tokens fmt v) (lex fmt .between []) := lex_stringify fmt gap v depth nofun
  have hvalue := parseValue_tokens fmt v ((tokens fmt v).length + 1) [] (by omega)
  rw [List.append_nil] at hlex hvalue
  rw [parse, hlex, show lex fmt .between [] = some [] from rfl, emit, Option.map_some,
    List.append_nil, Option.bind_some, hvalue]
  rfl

mutual

/-- What a value is read as is written the same. -/
theorem stringify_written : ∀ (v : Json ν) (depth : ℕ),
    stringify fmt gap depth (v.written fmt) = stringify fmt gap depth v
  | .null, _ => rfl
  | .bool _, _ => rfl
  | .num n, _ => by
    rw [Json.written]
    cases htext : fmt.text n with
    | none =>
      rw [Option.isSome_none, if_neg Bool.false_ne_true, stringify, stringify, htext]
      rfl
    | some cs => rw [Option.isSome_some, if_pos rfl]
  | .str _, _ => rfl
  | .arr [], _ => rfl
  | .arr (v :: vs), depth => by
    rw [Json.written, Json.writtenItems, stringify, stringify, stringify_written v,
      stringifyItems_written vs]
  | .obj [], _ => rfl
  | .obj ((k, v) :: kvs), depth => by
    rw [Json.written, Json.writtenEntries, stringify, stringify, stringify_written v,
      stringifyEntries_written kvs]

theorem stringifyItems_written : ∀ (vs : List (Json ν)) (depth : ℕ),
    stringifyItems fmt gap depth (Json.writtenItems fmt vs) = stringifyItems fmt gap depth vs
  | [], _ => rfl
  | v :: vs, depth => by
    rw [Json.writtenItems, stringifyItems, stringifyItems, stringify_written v,
      stringifyItems_written vs]

theorem stringifyEntries_written : ∀ (kvs : List (String × Json ν)) (depth : ℕ),
    stringifyEntries fmt gap depth (Json.writtenEntries fmt kvs) =
      stringifyEntries fmt gap depth kvs
  | [], _ => rfl
  | (k, v) :: kvs, depth => by
    rw [Json.writtenEntries, stringifyEntries, stringifyEntries, stringify_written v,
      stringifyEntries_written kvs]

end

/-- **Values have the same text if and only if they are read as the same value.** -/
theorem stringify_eq_iff (depth : ℕ) (v w : Json ν) :
    stringify fmt gap depth v = stringify fmt gap depth w ↔ v.written fmt = w.written fmt := by
  constructor
  · intro h
    have hparse := parse_stringify fmt gap depth v
    rw [h, parse_stringify] at hparse
    exact (Option.some.inj hparse).symm
  · intro h
    rw [← stringify_written, h, stringify_written]

/-! ### The ends of a text -/

/-- Characters a text begins or ends with. -/
def isInk (c : Char) : Bool :=
  isNumberChar c || c.isLower || decide (c ∈ ['[', ']', '{', '}', '"'])

theorem stringifyItems_last (depth : ℕ) (vs : List (Json ν)) :
    ∃ cs, stringifyItems fmt gap depth vs = cs ++ [']'] := by
  induction vs with
  | nil => exact ⟨_, stringifyItems.eq_1 ..⟩
  | cons v vs ih =>
    obtain ⟨cs, heq⟩ := ih
    rw [stringifyItems, heq, ← List.append_assoc, ← List.cons_append]
    exact ⟨_, rfl⟩

theorem stringifyEntries_last (depth : ℕ) (kvs : List (String × Json ν)) :
    ∃ cs, stringifyEntries fmt gap depth kvs = cs ++ ['}'] := by
  induction kvs with
  | nil => exact ⟨_, stringifyEntries.eq_1 ..⟩
  | cons kv kvs ih =>
    obtain ⟨cs, heq⟩ := ih
    rw [stringifyEntries, heq, ← List.append_assoc, ← List.cons_append]
    exact ⟨_, rfl⟩

/-- The text begins and ends with a character that is not blank, so trimming leaves it alone. -/
structure Inked (cs : List Char) : Prop where
  head : ∃ c tail, cs = c :: tail ∧ isInk c = true
  last : ∃ front c, cs = front ++ [c] ∧ isInk c = true

theorem Inked.of_ends {cs tail : List Char} {c d : Char} (front : List Char)
    (hhead : cs = c :: tail) (hlast : cs = front ++ [d]) (hc : isInk c = true)
    (hd : isInk d = true) : Inked cs :=
  ⟨⟨c, tail, hhead, hc⟩, front, d, hlast, hd⟩

theorem inked_of_isLiteral {cs : List Char} (h : isLiteral cs = true) : Inked cs := by
  have hall : ∀ c ∈ cs, isInk c = true := by
    intro c hc
    have hchar : isNumberChar c = true :=
      List.all_eq_true.mp (Bool.and_eq_true _ _ ▸ h : _ ∧ _).1 c hc
    rw [isInk, hchar]
    rfl
  obtain ⟨c, tail, rfl, -⟩ := head_of_isLiteral h
  have hne : c :: tail ≠ [] := nofun
  exact .of_ends _ rfl (List.dropLast_append_getLast hne).symm (hall c List.mem_cons_self)
    (hall _ (List.getLast_mem hne))

theorem inked_null : Inked ['n', 'u', 'l', 'l'] :=
  .of_ends ['n', 'u', 'l'] rfl rfl rfl rfl

/-- **A text begins and ends with ink.** -/
theorem inked_stringify (depth : ℕ) (v : Json ν) : Inked (stringify fmt gap depth v) := by
  rcases v with _ | b | n | s | (_ | ⟨v, vs⟩) | (_ | ⟨⟨k, v⟩, kvs⟩)
  case null => exact inked_null
  case bool =>
    cases b
    · exact .of_ends ['f', 'a', 'l', 's'] rfl rfl rfl rfl
    · exact .of_ends ['t', 'r', 'u'] rfl rfl rfl rfl
  case num =>
    rw [stringify]
    cases htext : fmt.text n with
    | none => exact inked_null
    | some cs => exact inked_of_isLiteral (fmt.literal_text htext)
  case str => exact .of_ends ('"' :: s.toList.flatMap escape) rfl rfl rfl rfl
  case arr.nil => exact .of_ends ['['] rfl rfl rfl rfl
  case arr.cons =>
    obtain ⟨cs, hlast⟩ := stringifyItems_last fmt gap depth vs
    rw [stringify, hlast, ← List.append_assoc, ← List.cons_append]
    exact .of_ends _ rfl rfl rfl rfl
  case obj.nil => exact .of_ends ['{'] rfl rfl rfl rfl
  case obj.cons =>
    obtain ⟨cs, hlast⟩ := stringifyEntries_last fmt gap depth kvs
    rw [stringify, hlast, ← List.append_assoc, ← List.cons_append]
    exact .of_ends _ rfl rfl rfl rfl

end Values

end JsonText
