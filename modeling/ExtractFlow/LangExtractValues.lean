import Mathlib.Data.List.TakeWhile
import ExtractFlow.Lib.DecimalDigits
import ExtractFlow.MockExtract

/-!
# Values of LangExtract

`normalize_langextract_value` (`worker/app/services/provider.py`): the text LangExtract
extracted for a field and the attributes beside it become the field's value.  What an
attribute is, is up to the model: a text, a list of texts, or any other value.

Numbers and amounts are searched for in the text of the value, by two patterns.

## Main definitions

* `ValueLibrary` — what is taken from Python's tables, from `float`, `str` and dateutil.
* `PyDate`, `PyDate.isoformat` — dates.
* `langExtractCurrencyMatch`, `langExtractNumberMatch` — `CURRENCY_PATTERN` and
  `NUMBER_PATTERN`.
* `stringifyLangextractValue`, `parseCurrencyAmount`, `parseNumber`, `parseBoolean`,
  `normalizeLangextractValue`.

## Main results

* `searchFrom_currency` — an amount begins at the first digit of the text.
-/

namespace ExtractFlow

/-! ### Dates -/

/-- The days of a month. -/
def daysInMonth (year month : ℕ) : ℕ :=
  if month = 2 then
    if year % 4 = 0 ∧ (year % 100 ≠ 0 ∨ year % 400 = 0) then 29 else 28
  else if month ∈ [4, 6, 9, 11] then 30
  else 31

/-- A `datetime.date`, with the bounds that make it a day of the calendar. -/
structure PyDate where
  year : ℕ
  month : ℕ
  day : ℕ
  year_pos : 0 < year
  year_lt : year < 10000
  month_pos : 0 < month
  month_le : month ≤ 12
  day_pos : 0 < day
  day_le : day ≤ daysInMonth year month

/-- `date.isoformat()`: year, month and day in digits of fixed width, with hyphens between them. -/
def PyDate.isoformat (date : PyDate) : String :=
  String.ofList (Decimal.pad 4 date.year ++ '-' :: Decimal.pad 2 date.month ++
    '-' :: Decimal.pad 2 date.day)

/-! ### What comes from outside -/

/-- What the provider takes from Python's tables, from `float` and `str`, and from
dateutil. -/
structure ValueLibrary extends MockLibrary where
  /-- The values of the digits. -/
  digits : DecimalDigits
  isDecimal_eq : ∀ c, isDecimal c = digits.isDecimal c
  /-- No digit is white space. -/
  isPySpace_of_isDecimal : ∀ c, isDecimal c = true → isPySpace c = false
  num : PyNumeric
  lower : LowerCase
  /-- `date_parser.parse(s).date()`, unless it raises one of `TypeError`, `ValueError` and
  `OverflowError`. -/
  parseDate : String → Option PyDate

variable (lib : ValueLibrary)

/-- `str(v)`. -/
def strOf : PyVal → String
  | .str s => s
  | v => lib.num.str v

/-- `stringify_langextract_value`: the trimmed text of a value. A list is the texts of its items
that are not blank, with commas between them. -/
def stringifyLangextractValue : PyVal → String
  | .none => ""
  | .list items =>
      pyStrip (", ".intercalate ((items.filter fun item => pyStrip (strOf lib item) != "").map
        (strOf lib)))
  | v => pyStrip (strOf lib v)

/-! ### The patterns -/

/-- `[-+]?`. -/
def signOf (cs : List Char) : List Char := (cs.take 1).takeWhile fun c => c == '-' || c == '+'

/-- `CURRENCY_PATTERN`, matched at a position: the amount in the match, without the sign in front of
it. -/
def langExtractCurrencyMatch (before : Option Char) (cs : List Char) : Option (List Char) :=
  (currencyMatch lib.toMockLibrary before (cs.drop (signOf cs).length)).map Prod.snd

/-- `NUMBER_PATTERN`, matched at a position: the whole match, with the sign in front of it. It knows
no separators of thousands. -/
def langExtractNumberMatch (_before : Option Char) (cs : List Char) : Option (List Char) :=
  let sign := signOf cs
  let whole := (cs.drop sign.length).takeWhile lib.isDecimal
  let fraction := fractionOf lib.toMockLibrary (cs.drop (sign.length + whole.length))
  if whole.isEmpty then none
  else some (sign ++ whole ++ (if fraction.isEmpty then [] else '.' :: fraction))

/-- `parse_currency_amount`: the first amount in the text of the value, without its commas. -/
def parseCurrencyAmount (value : PyVal) : Option PyFloat :=
  (searchFrom (langExtractCurrencyMatch lib) none
    (stringifyLangextractValue lib value).toList).map fun amount =>
      lib.parseFloat (amount.filter (· != ','))

/-- `parse_number`: the first number in the text of the value, if there is one. -/
def parseNumber (value : PyVal) : Option PyFloat :=
  (searchFrom (langExtractNumberMatch lib) none
    (stringifyLangextractValue lib value).toList).map lib.parseFloat

/-- `parse_boolean`: the truth value of one of eight words, in any case, and none for any other
text. -/
def parseBoolean (value : PyVal) : Option Bool :=
  let candidate := lib.lower.lower (stringifyLangextractValue lib value)
  if candidate ∈ ["true", "yes", "y", "1"] then some true
  else if candidate ∈ ["false", "no", "n", "0"] then some false
  else none

/-! ### The value of a field -/

/-- `{"value": value} if value else None`. -/
def textValue (value : String) : PyVal :=
  if value = "" then .none else .dict [("value", .str value)]

/-- The value of a date: what is no date stays as it is. -/
def dateValue (value : String) : PyVal :=
  if value = "" then .none
  else
    let normalized := ((lib.parseDate value).map PyDate.isoformat).getD value
    .dict [("value", .str normalized), ("display_value", .str value)]

/-- The items of a list: those of the value, or its text between commas. -/
def listItems : PyVal → List String
  | .list items =>
      (items.map fun item => pyStrip (strOf lib item)).filter (· != "")
  | v =>
      (((strOf lib v).toList.splitOn ',').map fun part => pyStrip (String.ofList part)).filter
        (· != "")

/-- `stringify(attributes.get("currency")) or definition.validation.currency or "USD"`. -/
def currencyOf (rule : ValidationRule) (attributes : List (String × PyVal)) : String :=
  let stated := stringifyLangextractValue lib ((PyVal.dictGet attributes "currency").getD .none)
  if stated = "" then mockCurrency rule else stated

/-- The value of an amount. -/
def currencyValue (rule : ValidationRule) (text : String) (attributes : List (String × PyVal)) :
    Option PyFloat → PyVal
  | none => .none
  | some amount =>
      let currency := currencyOf lib rule attributes
      let display :=
        if text = "" then currency ++ " " ++ lib.num.formatAmount amount else text
      .dict [("amount", .float amount), ("currency", .str currency),
        ("display_value", .str display)]

/-- `attributes.get("value", extracted_text)`. -/
def rawValue (text : String) (attributes : List (String × PyVal)) : PyVal :=
  (PyVal.dictGet attributes "value").getD (.str text)

/-- What the amount is searched in: `raw_value if raw_value else extracted_text`. -/
def amountSource (text : String) (attributes : List (String × PyVal)) : PyVal :=
  if (rawValue text attributes).truthy then rawValue text attributes else .str text

/-- `normalize_langextract_value`: the value that the type of the field makes of the text and the
attributes. A field the template does not define keeps the text. -/
def normalizeLangextractValue (definition : Option ExtractionFieldDefinition) (text : String)
    (attributes : List (String × PyVal)) : PyVal :=
  let raw := rawValue text attributes
  match definition with
  | none => textValue text
  | some definition =>
      match definition.type with
      | .text | .paragraph | .category | .citationBacked =>
          textValue (stringifyLangextractValue lib raw)
      | .date => dateValue lib (stringifyLangextractValue lib raw)
      | .number =>
          match parseNumber lib raw with
          | some number => .dict [("value", .float number)]
          | none => .none
      | .currency =>
          currencyValue lib definition.validation text attributes
            (parseCurrencyAmount lib (amountSource text attributes))
      | .boolean =>
          match parseBoolean lib raw with
          | some b => .bool b
          | none => .none
      | .list | .multiSelect =>
          let items := listItems lib raw
          if items.isEmpty then .none else .dict [("value", .list (items.map .str))]
      | .jsonObject | .structuredObject | .table =>
          if attributes.isEmpty then textValue text else .dict attributes
      | .percentage | .unitValue | .calculated => textValue (stringifyLangextractValue lib raw)

/-! ### Where an amount begins -/

section Amounts

variable {lib : ValueLibrary}

/-- The letters of an amount that begins at the head of the text. -/
def amountAt (lib : MockLibrary) : List Char → Option (List Char)
  | [] => none
  | d :: tail =>
      let digits := tail.takeWhile fun c => lib.isDecimal c || c == ','
      some (d :: digits ++ centsOf lib (tail.drop digits.length))

/-- An optional letter and the rest of the text. -/
theorem optional_split (p : Char → Bool) (cs : List Char) :
    cs = (cs.take 1).takeWhile p ++ cs.drop ((cs.take 1).takeWhile p).length ∧
      ∀ c ∈ (cs.take 1).takeWhile p, p c = true := by
  refine ⟨?_, fun c hc => List.mem_takeWhile_imp hc⟩
  have hprefix : (cs.take 1).takeWhile p <+: cs :=
    (List.takeWhile_prefix p).trans (List.take_prefix 1 cs)
  exact (List.prefix_iff_eq_append.mp hprefix).symm

theorem signOf_split (cs : List Char) :
    cs = signOf cs ++ cs.drop (signOf cs).length ∧
      ∀ c ∈ signOf cs, (c == '-' || c == '+') = true :=
  optional_split (fun c => c == '-' || c == '+') cs

theorem isDecimal_eq_false {c : Char} (hascii : c.toNat < 128) (h : c.isDigit = false) :
    lib.isDecimal c = false := by
  rw [lib.isDecimal_eq]
  exact lib.digits.isDecimal_eq_false hascii h

/-- A letter that may stand in front of a digit is none. -/
theorem isDecimal_of_isPySpace {c : Char} (h : isPySpace c = true) : lib.isDecimal c = false := by
  by_contra hdecimal
  rw [lib.isPySpace_of_isDecimal c (by simpa using hdecimal)] at h
  cases h

theorem isDecimal_of_sign {c : Char} (h : (c == '-' || c == '+') = true) :
    lib.isDecimal c = false := by
  rcases Bool.or_eq_true_iff.mp h with h | h
  · rw [eq_of_beq h]
    exact isDecimal_eq_false (by decide) (by decide)
  · rw [eq_of_beq h]
    exact isDecimal_eq_false (by decide) (by decide)

/-- Letters that are no digits are skipped. -/
theorem dropWhile_append_of_not_decimal {pre cs : List Char}
    (h : ∀ c ∈ pre, lib.isDecimal c = false) :
    (pre ++ cs).dropWhile (fun c => !lib.isDecimal c) =
      cs.dropWhile fun c => !lib.isDecimal c :=
  List.dropWhile_append_of_pos fun c hc => by rw [h c hc]; rfl

/-- A match of the mock's pattern is an amount behind letters that are no digits. -/
theorem currencyMatch_split {before : Option Char} {cs : List Char} {whole amount : List Char}
    (h : currencyMatch lib.toMockLibrary before cs = some (whole, amount)) :
    ∃ pre d tail, cs = pre ++ d :: tail ∧ (∀ c ∈ pre, lib.isDecimal c = false) ∧
      lib.isDecimal d = true ∧ amountAt lib.toMockLibrary (d :: tail) = some amount := by
  obtain ⟨hdollar, hdollars⟩ := optional_split (· == '$') cs
  obtain ⟨hspace, hspaces⟩ :=
    optional_split isPySpace (cs.drop ((cs.take 1).takeWhile (· == '$')).length)
  unfold currencyMatch at h
  dsimp only at h
  split at h
  next d tail hrest =>
    split at h
    next hd =>
      rw [hrest] at hspace
      rw [hspace, ← List.append_assoc] at hdollar
      refine ⟨_, d, tail, hdollar, ?_, hd, congrArg some (Prod.mk.inj (Option.some.inj h)).2⟩
      intro c hc
      rcases List.mem_append.mp hc with hc | hc
      · rw [eq_of_beq (hdollars c hc)]
        exact isDecimal_eq_false (by decide) (by decide)
      · exact isDecimal_of_isPySpace (hspaces c hc)
    next => cases h
  next => cases h

/-- At a digit the mock's pattern matches. -/
theorem currencyMatch_of_decimal {before : Option Char} {d : Char} {tail : List Char}
    (hd : lib.isDecimal d = true) :
    (currencyMatch lib.toMockLibrary before (d :: tail)).map Prod.snd =
      amountAt lib.toMockLibrary (d :: tail) := by
  have hdollar : d ≠ '$' := by
    rintro rfl
    rw [isDecimal_eq_false (by decide) (by decide)] at hd
    cases hd
  have hnone : ((d :: tail).take 1).takeWhile (· == '$') = [] := by
    simp [hdollar]
  have hspace : ((d :: tail).take 1).takeWhile isPySpace = [] := by
    simp [lib.isPySpace_of_isDecimal d hd]
  unfold currencyMatch
  simp only [hnone, List.length_nil, List.drop_zero, hspace, hd, if_true, Option.map_some,
    amountAt]

/-- At a digit there is no sign. -/
theorem signOf_of_decimal {d : Char} {tail : List Char} (hd : lib.isDecimal d = true) :
    signOf (d :: tail) = [] := by
  have hsign : (d == '-' || d == '+') = false := by
    refine Bool.eq_false_iff.mpr fun h => ?_
    rw [isDecimal_of_sign h] at hd
    cases hd
  simp only [signOf, List.take_succ_cons, List.take_zero]
  rw [List.takeWhile_cons_of_neg (by rw [hsign]; decide)]

/-- **An amount begins at the first digit** of the text, whatever stands before it. -/
theorem searchFrom_currency : ∀ {cs : List Char} {before : Option Char},
    searchFrom (langExtractCurrencyMatch lib) before cs =
      amountAt lib.toMockLibrary (cs.dropWhile fun c => !lib.isDecimal c) := by
  intro cs
  induction cs with
  | nil => intro before; rfl
  | cons c cs ih =>
    intro before
    rw [searchFrom]
    by_cases hc : lib.isDecimal c = true
    · rw [langExtractCurrencyMatch, signOf_of_decimal hc, List.length_nil, List.drop_zero,
        currencyMatch_of_decimal hc, List.dropWhile_cons_of_neg (by simp [hc])]
      rfl
    · have hskip : (c :: cs).dropWhile (fun c => !lib.isDecimal c) =
          cs.dropWhile fun c => !lib.isDecimal c :=
        List.dropWhile_cons_of_pos (by simpa using hc)
      cases hmatch : langExtractCurrencyMatch lib before (c :: cs) with
      | none => rw [hskip, ← ih]
      | some amount =>
        -- the match begins before the first digit, its amount at it
        obtain ⟨⟨whole, amount'⟩, hcurrency, rfl⟩ := Option.map_eq_some_iff.mp hmatch
        obtain ⟨pre, d, tail, hsplit, hpre, hd, hamount⟩ := currencyMatch_split hcurrency
        obtain ⟨hsign, hsigns⟩ := signOf_split (c :: cs)
        rw [hsign, hsplit,
          dropWhile_append_of_not_decimal fun c hc => isDecimal_of_sign (hsigns c hc),
          dropWhile_append_of_not_decimal hpre, List.dropWhile_cons_of_neg (by simp [hd]), hamount]

end Amounts

end ExtractFlow
