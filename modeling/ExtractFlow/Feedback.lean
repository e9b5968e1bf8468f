import ExtractFlow.FloatTexts

/-!
# Feedback attributes

`build_langextract_feedback_attributes` (`shared/extraction_core/langextract_feedback.py`):
a reviewed value becomes attributes again, for an example LangExtract is shown.  What a
value read from a text and attributes becomes is read back by `normalize_langextract_value`
from the same text and the new attributes.

Texts, dates, truth values and lists are read back as they were.  A number is written with
`str`, and an amount as the text it was shown as; there the two packages differ.

## Main definitions

* `feedbackStringify`, `buildLangextractFeedbackAttributes` — the builder.
* `ValueLibrary.DatesRead` — what is assumed of dateutil.
* `SameReviewed` — what has to be the same after the round trip.
* `FeedbackReads` — when it is.

## Main results

* `feedback_reads_back_iff` — which values are read back.
-/

namespace ExtractFlow

/-! ### The builder -/

/-- What the builder takes from outside beside the reader’s library. -/
structure FeedbackLibrary extends ValueLibrary where
  /-- `json.dumps(v)` of a list, `json.dumps(v, sort_keys=True)` of a dictionary. -/
  jsonDumps : PyVal → String

section Builder

variable (lib : FeedbackLibrary)

/-- `_stringify`: the text of a value, which for a list or a dictionary is its JSON. -/
def feedbackStringify : PyVal → String
  | .none => ""
  | .bool b => if b then "true" else "false"
  | .int i => lib.num.str (.int i)
  | .float x => lib.num.str (.float x)
  | .str s => pyStrip s
  | .list items => lib.jsonDumps (.list items)
  | .dict items => lib.jsonDumps (.dict items)
  | v => pyStrip (strOf lib.toValueLibrary v)

/-- `_read_value`. -/
def readValue : PyVal → PyVal
  | .dict items => (PyVal.dictGet items "value").getD (.dict items)
  | v => v

/-- `{"value": value} if value else {}`. -/
def valueAttribute (value : String) : List (String × PyVal) :=
  if value = "" then [] else [("value", .str value)]

/-- The texts of the items of a list, without the empty ones. -/
def feedbackItems (items : List PyVal) : List PyVal :=
  ((items.map (feedbackStringify lib)).filter (· != "")).map .str

/-- The attributes of a list. -/
def listAttributes (v : PyVal) : List (String × PyVal) :=
  match readValue v with
  | .list items =>
      if (feedbackItems lib items).isEmpty then [] else [("value", .list (feedbackItems lib items))]
  | value =>
      let fallback := feedbackStringify lib value
      if fallback = "" then [] else [("value", .list [.str fallback])]

/-- The attributes of an amount: the text it is shown as comes before the amount. -/
def currencyAttributes : PyVal → List (String × PyVal)
  | .dict items =>
      let entry := fun key => feedbackStringify lib ((PyVal.dictGet items key).getD .none)
      let display := entry "display_value"
      let currency := entry "currency"
      (if display = "" then valueAttribute (entry "amount") else [("value", .str display)]) ++
        (if currency = "" then [] else [("currency", .str currency)])
  | v => valueAttribute (feedbackStringify lib v)

/-- `_stringify_attributes`. -/
def stringifyAttributes : PyVal → List (String × PyVal)
  | .dict items =>
      items.filterMap fun item =>
        match item.2 with
        | .list entries =>
            if (feedbackItems lib entries).isEmpty then none
            else some (item.1, .list (feedbackItems lib entries))
        | v =>
            let text := feedbackStringify lib v
            if text = "" then none else some (item.1, .str text)
  | v => valueAttribute (feedbackStringify lib v)

/-- `build_langextract_feedback_attributes`: the attributes that say a value, by the type of its
field; none for a missing value. -/
def buildLangextractFeedbackAttributes (definition : Option ExtractionFieldDefinition)
    (v : PyVal) : List (String × PyVal) :=
  match definition with
  | none => []
  | some definition =>
      if v.isNone then []
      else
        match definition.type with
        | .text | .paragraph | .category | .citationBacked | .date | .number | .percentage
        | .unitValue | .calculated => valueAttribute (feedbackStringify lib (readValue v))
        | .currency => currencyAttributes lib v
        | .boolean =>
            match v with
            | .bool b => [("value", .str (if b then "true" else "false"))]
            | v => valueAttribute (feedbackStringify lib (readValue v))
        | .list | .multiSelect => listAttributes lib v
        | .jsonObject | .structuredObject | .table => stringifyAttributes lib v

end Builder

/-! ### The round trip -/

/-- dateutil reads an ISO date as the date it denotes, which its documentation promises. -/
structure ValueLibrary.DatesRead (lib : ValueLibrary) : Prop where
  parseDate_isoformat : ∀ date : PyDate, lib.parseDate date.isoformat = some date

/-- An entry of a value that is a dictionary. -/
def entryOf (v : PyVal) (key : String) : Option PyVal :=
  match v with
  | .dict items => PyVal.dictGet items key
  | _ => none

/-- What a reviewer sees of a value: the truth value, the amount and the currency, or the
entry `value`. -/
def SameReviewed (type : DataType) (v w : PyVal) : Prop :=
  match type with
  | .boolean => w = v
  | .currency =>
      entryOf w "amount" = entryOf v "amount" ∧ entryOf w "currency" = entryOf v "currency"
  | _ => entryOf w "value" = entryOf v "value"

/-- **The round trip**: the value of a text and attributes, read again from the text and the
attributes that are built from it. -/
def readBack (lib : FeedbackLibrary) (definition : ExtractionFieldDefinition) (text : String)
    (attributes : List (String × PyVal)) : PyVal :=
  normalizeLangextractValue lib.toValueLibrary (some definition) text
    (buildLangextractFeedbackAttributes lib (some definition)
      (normalizeLangextractValue lib.toValueLibrary (some definition) text attributes))

/-- The amount is read back.  A text that is not blank reads as the amount itself; without
a text the currency has no digit, or reads as the amount, and the amount is finite; behind
a blank text the amount is one `str` writes without an exponent. -/
def AmountReads (lib : ValueLibrary) (rule : ValidationRule) (text : String)
    (attributes : List (String × PyVal)) : Prop :=
  if text = "" then
    if (currencyOf lib rule attributes).toList.any lib.isDecimal then
      parseCurrencyAmount lib (.str (currencyOf lib rule attributes)) =
        parseCurrencyAmount lib (amountSource text attributes)
    else ∃ q, parseCurrencyAmount lib (amountSource text attributes) = some (.fin q)
  else if pyStrip text = "" then
    ∃ q, parseCurrencyAmount lib (amountSource text attributes) = some (.fin q) ∧ PlainNumber q
  else parseCurrencyAmount lib (.str text) = parseCurrencyAmount lib (amountSource text attributes)

/-- The currency is read back: an attribute states it, or what the template declares is
blank or has no white space at its ends. -/
def CurrencyReads (lib : ValueLibrary) (rule : ValidationRule)
    (attributes : List (String × PyVal)) : Prop :=
  stringifyLangextractValue lib ((PyVal.dictGet attributes "currency").getD .none) ≠ "" ∨
    pyStrip (rule.currency.getD "") ∈ ["", rule.currency.getD ""]

/-- **When the value is read back**, a condition on the numbers and amounts in the text and the
attributes it came from. -/
def FeedbackReads (lib : ValueLibrary) (definition : ExtractionFieldDefinition) (text : String)
    (attributes : List (String × PyVal)) : Prop :=
  match definition.type with
  | .number =>
      ∃ q, parseNumber lib (rawValue text attributes) = some (.fin q) ∧ PlainNumber q
  | .currency =>
      AmountReads lib definition.validation text attributes ∧
        CurrencyReads lib definition.validation attributes
  | _ => True

/-! ### Texts -/

section Texts

variable {lib : ValueLibrary}

/-- What is made a text of a value is stripped. -/
theorem pyStrip_stringify (v : PyVal) :
    pyStrip (stringifyLangextractValue lib v) = stringifyLangextractValue lib v := by
  cases v with
  | none => rfl
  | list items => exact pyStrip_idem _
  | bool | int | float | str | tuple | dict | function | view | object => exact pyStrip_idem _

theorem isPySpace_of_mem_pad {c : Char} : ∀ {w n : ℕ}, c ∈ Decimal.pad w n →
    isPySpace c = false := by
  intro w
  induction w with
  | zero => intro n hc; cases hc
  | succ w ih =>
    intro n hc
    rcases List.mem_append.mp hc with hc | hc
    · exact ih hc
    · rw [List.mem_singleton.mp hc]
      have hdigits : ∀ d : Fin 10, isPySpace (Nat.digitChar d) = false := by decide
      exact hdigits ⟨n % 10, Nat.mod_lt n (by decide)⟩

/-- An ISO date has no white space. -/
theorem pyStrip_isoformat (date : PyDate) : pyStrip date.isoformat = date.isoformat := by
  refine pyStrip_of_forall fun c hc => ?_
  rw [PyDate.isoformat, String.toList_ofList] at hc
  simp only [List.mem_append, List.mem_cons] at hc
  rcases hc with (hc | rfl | hc) | rfl | hc
  · exact isPySpace_of_mem_pad hc
  · decide
  · exact isPySpace_of_mem_pad hc
  · decide
  · exact isPySpace_of_mem_pad hc

theorem isoformat_ne_empty (date : PyDate) : date.isoformat ≠ "" := by
  intro h
  have hlength := congrArg (fun s : String => s.toList.length) h
  simp [PyDate.isoformat] at hlength

end Texts

/-! ### Values that are read back -/

section ReadBack

variable {lib : FeedbackLibrary} {definition : ExtractionFieldDefinition} {text : String}
  {attributes : List (String × PyVal)}

theorem rawValue_valueAttribute {s : String} (h : s ≠ "") :
    rawValue text (valueAttribute s) = .str s := by
  rw [valueAttribute, if_neg h]
  rfl

theorem textValue_of_ne {s : String} (h : s ≠ "") : textValue s = .dict [("value", .str s)] :=
  if_neg h

/-- A text is read back as it is. -/
theorem textValue_readBack (v : PyVal)
    (h : textValue (stringifyLangextractValue lib.toValueLibrary v) ≠ .none) :
    textValue (stringifyLangextractValue lib.toValueLibrary (rawValue text (valueAttribute
      (feedbackStringify lib (readValue (textValue
        (stringifyLangextractValue lib.toValueLibrary v))))))) =
      textValue (stringifyLangextractValue lib.toValueLibrary v) := by
  generalize hs : stringifyLangextractValue lib.toValueLibrary v = s at h ⊢
  have hne : s ≠ "" := by
    rintro rfl
    exact h rfl
  have hstrip : pyStrip s = s := by
    rw [← hs]
    exact pyStrip_stringify v
  have hvalue : feedbackStringify lib (readValue (textValue s)) = s := by
    rw [textValue_of_ne hne]
    exact hstrip
  rw [hvalue, rawValue_valueAttribute hne, stringify_str, hstrip]

/-- A date is read back as the date, or as the text that is none. -/
theorem dateValue_readBack (hdates : lib.DatesRead) (v : PyVal)
    (h : dateValue lib.toValueLibrary (stringifyLangextractValue lib.toValueLibrary v) ≠ .none) :
    entryOf (dateValue lib.toValueLibrary (stringifyLangextractValue lib.toValueLibrary
      (rawValue text (valueAttribute (feedbackStringify lib (readValue (dateValue lib.toValueLibrary
        (stringifyLangextractValue lib.toValueLibrary v)))))))) "value" =
      entryOf (dateValue lib.toValueLibrary (stringifyLangextractValue lib.toValueLibrary v))
        "value" := by
  generalize hs : stringifyLangextractValue lib.toValueLibrary v = s at h ⊢
  have hne : s ≠ "" := by
    rintro rfl
    exact h rfl
  have hstrip : pyStrip s = s := by
    rw [← hs]
    exact pyStrip_stringify v
  have hdate : ∀ {s : String}, s ≠ "" → dateValue lib.toValueLibrary s =
      .dict [("value", .str (((lib.parseDate s).map PyDate.isoformat).getD s)),
        ("display_value", .str s)] := fun hs => if_neg hs
  -- what is no date stays the text it was
  cases hparse : lib.parseDate s with
  | none =>
    have hvalue : feedbackStringify lib (readValue (dateValue lib.toValueLibrary s)) = s := by
      rw [hdate hne, hparse]
      exact hstrip
    rw [hvalue, rawValue_valueAttribute hne, stringify_str, hstrip]
  | some date =>
    have hvalue : feedbackStringify lib (readValue (dateValue lib.toValueLibrary s)) =
        date.isoformat := by
      rw [hdate hne, hparse]
      exact pyStrip_isoformat date
    rw [hvalue, rawValue_valueAttribute (isoformat_ne_empty date), stringify_str,
      pyStrip_isoformat, hdate (isoformat_ne_empty date), hdates.parseDate_isoformat, hdate hne,
      hparse]
    rfl

/-- Text in small letters of ASCII is its own lower-case form. -/
theorem lower_of_small (lc : LowerCase) {s : String}
    (h : s.toList.all (fun c => decide (c.toNat < 128 ∧ c.toLower = c)) = true) :
    lc.lower s = s := by
  have hsmall : ∀ c ∈ s.toList, c.toNat < 128 ∧ c.toLower = c :=
    fun c hc => of_decide_eq_true (List.all_eq_true.mp h c hc)
  have hmap : s.toList.map Char.toLower = s.toList := by
    refine (List.map_congr_left fun c hc => (hsmall c hc).2).trans (List.map_id _)
  rw [LowerCase.lower, LowerCase.lowerChars,
    LowerCase.lowerFrom_of_ascii fun c hc => (hsmall c hc).1, hmap, String.ofList_toList]

/-- A truth value is read back. -/
theorem parseBoolean_readBack (lib : ValueLibrary) (b : Bool) :
    parseBoolean lib (.str (if b then "true" else "false")) = some b := by
  cases b with
  | true =>
    have hcandidate : stringifyLangextractValue lib (.str "true") = "true" := by
      rw [stringify_str]
      decide
    rw [if_pos rfl, parseBoolean, hcandidate, lower_of_small lib.lower (by decide)]
    rfl
  | false =>
    have hcandidate : stringifyLangextractValue lib (.str "false") = "false" := by
      rw [stringify_str]
      decide
    rw [if_neg (by decide), parseBoolean, hcandidate, lower_of_small lib.lower (by decide)]
    rfl

/-- The items of a list are stripped, and not empty. -/
theorem listItems_stripped (lib : ValueLibrary) (v : PyVal) :
    ∀ item ∈ listItems lib v, pyStrip item = item ∧ item ≠ "" := by
  have hfilter : ∀ texts : List String, (∀ item ∈ texts, pyStrip item = item) →
      ∀ item ∈ texts.filter (· != ""), pyStrip item = item ∧ item ≠ "" := by
    intro texts htexts item hitem
    obtain ⟨hmem, hne⟩ := List.mem_filter.mp hitem
    exact ⟨htexts item hmem, by simpa using hne⟩
  cases v with
  | list items =>
    refine hfilter _ fun item hitem => ?_
    obtain ⟨v, -, rfl⟩ := List.mem_map.mp hitem
    exact pyStrip_idem _
  | none | bool | int | float | str | tuple | dict | function | view | object =>
    refine hfilter _ fun item hitem => ?_
    obtain ⟨part, -, rfl⟩ := List.mem_map.mp hitem
    exact pyStrip_idem _

/-- A list of stripped texts is read back. -/
theorem listItems_readBack (lib : FeedbackLibrary) {items : List String}
    (hitems : ∀ item ∈ items, pyStrip item = item ∧ item ≠ "") :
    feedbackItems lib (items.map .str) = items.map .str ∧
      listItems lib.toValueLibrary (.list (items.map .str)) = items := by
  have hstrip : items.map pyStrip = items :=
    (List.map_congr_left fun item hitem => (hitems item hitem).1).trans (List.map_id _)
  have hfilter : items.filter (· != "") = items :=
    List.filter_eq_self.mpr fun item hitem => by simpa using (hitems item hitem).2
  constructor
  · have hmap : (items.map PyVal.str).map (feedbackStringify lib) = items.map pyStrip := by
      rw [List.map_map]
      rfl
    rw [feedbackItems, hmap, hstrip, hfilter]
  · have hmap : (items.map PyVal.str).map
        (fun item => pyStrip (strOf lib.toValueLibrary item)) = items.map pyStrip := by
      rw [List.map_map]
      rfl
    rw [listItems, hmap, hstrip, hfilter]

end ReadBack

/-! ### Currencies -/

section Currencies

variable {lib : FeedbackLibrary} {rule : ValidationRule} {text : String}
  {attributes : List (String × PyVal)}

/-- The attributes of an amount that was read. -/
theorem currencyAttributes_eq {x : PyFloat} {c display : String}
    (hstr : lib.num.str (.float x) ≠ "") :
    currencyAttributes lib (.dict [("amount", .float x), ("currency", .str c),
      ("display_value", .str display)]) =
      ("value", .str (if pyStrip display = "" then lib.num.str (.float x) else pyStrip display)) ::
        (if pyStrip c = "" then [] else [("currency", .str (pyStrip c))]) := by
  have hdisplayed : PyVal.dictGet [("amount", .float x), ("currency", .str c),
      ("display_value", .str display)] "display_value" = some (.str display) := rfl
  have hamount : PyVal.dictGet [("amount", .float x), ("currency", .str c),
      ("display_value", .str display)] "amount" = some (.float x) := rfl
  have hcurrency : PyVal.dictGet [("amount", .float x), ("currency", .str c),
      ("display_value", .str display)] "currency" = some (.str c) := rfl
  simp only [currencyAttributes, hdisplayed, hamount, hcurrency, Option.getD_some,
    feedbackStringify]
  by_cases hdisplay : pyStrip display = ""
  · rw [if_pos hdisplay, if_pos hdisplay, valueAttribute, if_neg hstr, List.singleton_append]
  · rw [if_neg hdisplay, if_neg hdisplay, List.singleton_append]

/-- The currency that is read back. -/
theorem currencyOf_feedback {s c : String} :
    currencyOf lib.toValueLibrary rule (("value", .str s) ::
      (if pyStrip c = "" then [] else [("currency", .str (pyStrip c))])) =
        if pyStrip c = "" then mockCurrency rule else pyStrip c := by
  by_cases hc : pyStrip c = ""
  · rw [if_pos hc, if_pos hc]
    rfl
  · have hstated : stringifyLangextractValue lib.toValueLibrary
        ((PyVal.dictGet (("value", .str s) :: [("currency", .str (pyStrip c))])
          "currency").getD .none) = pyStrip c := pyStrip_idem c
    rw [if_neg hc, if_neg hc, currencyOf, hstated, if_neg hc]

/-- **When the currency is read back**: when it is not blank, or is the one that is read for a
missing currency. -/
theorem currency_read_back_iff :
    (if pyStrip (currencyOf lib.toValueLibrary rule attributes) = "" then mockCurrency rule
      else pyStrip (currencyOf lib.toValueLibrary rule attributes)) =
        currencyOf lib.toValueLibrary rule attributes ↔
      CurrencyReads lib.toValueLibrary rule attributes := by
  unfold CurrencyReads currencyOf
  dsimp only
  generalize hstated : stringifyLangextractValue lib.toValueLibrary
    ((PyVal.dictGet attributes "currency").getD .none) = stated
  -- Without a currency of its own the amount has the declared one.
  by_cases hempty : stated = ""
  · rw [if_pos hempty]
    unfold mockCurrency
    dsimp only
    generalize rule.currency.getD "" = declared
    by_cases hdeclared : declared = ""
    · rw [if_pos hdeclared, hdeclared]
      exact iff_of_true (by decide) (Or.inr (by decide))
    · rw [if_neg hdeclared]
      by_cases hblank : pyStrip declared = ""
      · rw [if_pos hblank]
        exact iff_of_true rfl (Or.inr (by rw [hblank]; exact List.mem_cons_self ..))
      · rw [if_neg hblank]
        simp [hempty, hblank]
  · have hstrip : pyStrip stated = stated := by
      rw [← hstated]
      exact pyStrip_stringify _
    rw [if_neg hempty, hstrip, if_neg hempty]
    exact iff_of_true rfl (Or.inl hempty)

/-- White space at its ends does not change which amount is in a text. -/
theorem floatIn_pyStrip (s : String) : floatIn lib.toValueLibrary (pyStrip s).toList =
    floatIn lib.toValueLibrary s.toList := by
  rw [pyStrip, String.toList_ofList, floatIn, amountIn_strip]
  rfl

theorem pyStrip_ne_empty {s : String} {c : Char} (hc : c ∈ s.toList)
    (hspace : isPySpace c = false) : pyStrip s ≠ "" := by
  intro hblank
  have hnil : Trim.trim isPySpace s.toList = [] := by
    have hlist := congrArg String.toList hblank
    rwa [pyStrip, String.toList_ofList] at hlist
  rw [Trim.trim_eq_nil_iff.mp hnil c hc] at hspace
  cases hspace

/-- **When the amount is read back**: what shows it is the text of the extraction or, if that is
empty, the currency with the formatted amount behind it. -/
theorem amount_read_back_iff (h : lib.FloatTexts) {x : PyFloat}
    (hx : parseCurrencyAmount lib.toValueLibrary (amountSource text attributes) = some x)
    {display : String}
    (hdisplay : display = if text = "" then
      currencyOf lib.toValueLibrary rule attributes ++ " " ++ lib.num.formatAmount x else text) :
    parseCurrencyAmount lib.toValueLibrary (.str (if pyStrip display = "" then
      lib.num.str (.float x) else pyStrip display)) = some x ↔
      AmountReads lib.toValueLibrary rule text attributes := by
  obtain ⟨t, ht, hfloat⟩ := numberText_of_parseCurrencyAmount hx
  obtain ⟨c, hc, hspace⟩ := format_not_blank h ht hfloat
  have hinj : ∀ q, (some x = some (PyFloat.fin q)) = (x = .fin q) := fun q => by simp
  unfold AmountReads
  rw [hx, parseCurrencyAmount_str]
  by_cases hempty : text = ""
  · rw [if_pos hempty] at hdisplay
    rw [if_pos hempty]
    have hchars : display.toList = (currencyOf lib.toValueLibrary rule attributes).toList ++
        ' ' :: (lib.num.formatAmount x).toList := by
      rw [hdisplay, String.toList_append, String.toList_append, List.append_assoc]
      rfl
    have hshown : pyStrip display ≠ "" := pyStrip_ne_empty (by rw [hchars]; simp [hc]) hspace
    rw [if_neg hshown, floatIn_pyStrip, hchars]
    -- A currency with a digit in it is read as the number; one without is skipped.
    by_cases hdigit : (currencyOf lib.toValueLibrary rule attributes).toList.any
        lib.isDecimal = true
    · have hends : ∀ c ∈ (' ' :: (lib.num.formatAmount x).toList).head?,
          EndsAmount lib.toValueLibrary c := by
        intro c hc
        cases hc
        exact endsAmount_of_isPySpace (by decide)
      rw [if_pos hdigit, floatIn, amountIn_append (List.any_eq_true.mp hdigit) hends,
        parseCurrencyAmount_str]
      rfl
    · have hnone : ∀ c ∈ (currencyOf lib.toValueLibrary rule attributes).toList ++ [' '],
          lib.isDecimal c = false := by
        intro c hc
        rcases List.mem_append.mp hc with hc | hc
        · by_contra hdecimal
          exact hdigit (List.any_eq_true.mpr ⟨c, hc, by simpa using hdecimal⟩)
        · rw [List.mem_singleton.mp hc]
          exact isDecimal_eq_false (by decide) (by decide)
      rw [if_neg hdigit, List.append_cons, floatIn, amountIn_skip hnone]
      simp only [hinj]
      exact floatIn_format_iff h ht hfloat
  · rw [if_neg hempty] at hdisplay
    rw [if_neg hempty, hdisplay]
    by_cases hblank : pyStrip text = ""
    · rw [if_pos hblank, if_pos hblank]
      simp only [hinj]
      exact floatIn_str_iff h ht hfloat
    · rw [if_neg hblank, if_neg hblank, floatIn_pyStrip, parseCurrencyAmount_str]

end Currencies

/-! ### The round trip of every type -/

section RoundTrip

variable {lib : FeedbackLibrary}

variable {definition : ExtractionFieldDefinition} {text : String}
  {attributes : List (String × PyVal)}

/-- The types whose value is the text of the raw value. -/
def TextLike (type : DataType) : Prop :=
  type ∈ [.text, .paragraph, .category, .citationBacked, .percentage, .unitValue, .calculated]

instance (type : DataType) : Decidable (TextLike type) := inferInstanceAs (Decidable (type ∈ _))

/-- The types of the round trip, by how they are read. -/
theorem type_cases {type : DataType} (h : type ∉ [.jsonObject, .structuredObject, .table]) :
    TextLike type ∨ type = .date ∨ type = .number ∨ type = .currency ∨ type = .boolean ∨
      type ∈ [.list, .multiSelect] := by
  unfold TextLike
  cases type <;> revert h <;> decide

theorem normalize_of_textLike (h : TextLike definition.type) :
    normalizeLangextractValue lib.toValueLibrary (some definition) text attributes =
      textValue (stringifyLangextractValue lib.toValueLibrary (rawValue text attributes)) := by
  unfold TextLike at h
  unfold normalizeLangextractValue
  dsimp only
  cases hdef : definition.type <;> rw [hdef] at h <;>
    first
    | rfl
    | exact absurd h (by decide)

theorem normalize_of_list (h : definition.type ∈ [DataType.list, .multiSelect]) :
    normalizeLangextractValue lib.toValueLibrary (some definition) text attributes =
      if (listItems lib.toValueLibrary (rawValue text attributes)).isEmpty then .none
      else .dict [("value",
        .list ((listItems lib.toValueLibrary (rawValue text attributes)).map .str))] := by
  unfold normalizeLangextractValue
  dsimp only
  cases hdef : definition.type <;> rw [hdef] at h <;>
    first
    | rfl
    | exact absurd h (by decide)

/-- What is built from a value that is read from an attribute `value`. -/
theorem build_of_value {v : PyVal} (hv : v ≠ .none)
    (h : TextLike definition.type ∨ definition.type ∈ [DataType.date, .number]) :
    buildLangextractFeedbackAttributes lib (some definition) v =
      valueAttribute (feedbackStringify lib (readValue v)) := by
  have hnone : v.isNone = false := by
    cases v with
    | none => exact absurd rfl hv
    | bool | int | float | str | list | tuple | dict | function | view | object => rfl
  unfold TextLike at h
  unfold buildLangextractFeedbackAttributes
  dsimp only
  rw [hnone, if_neg (by decide)]
  cases hdef : definition.type <;> rw [hdef] at h <;>
    first
    | rfl
    | exact absurd h (by decide)

theorem build_of_list {items : List (String × PyVal)}
    (h : definition.type ∈ [DataType.list, .multiSelect]) :
    buildLangextractFeedbackAttributes lib (some definition) (.dict items) =
      listAttributes lib (.dict items) := by
  unfold buildLangextractFeedbackAttributes
  dsimp only
  have hnone : (PyVal.dict items).isNone = false := rfl
  rw [hnone, if_neg Bool.false_ne_true]
  cases hdef : definition.type <;> rw [hdef] at h <;>
    first
    | rfl
    | exact absurd h (by decide)

theorem SameReviewed.refl (type : DataType) (v : PyVal) : SameReviewed type v v := by
  cases type <;> first | rfl | exact ⟨rfl, rfl⟩

theorem feedbackReads_of_ne (hnumber : definition.type ≠ .number)
    (hcurrency : definition.type ≠ .currency) :
    FeedbackReads lib.toValueLibrary definition text attributes := by
  unfold FeedbackReads
  cases hdef : definition.type with
  | number => exact absurd hdef hnumber
  | currency => exact absurd hdef hcurrency
  | _ => trivial

/-- A text. -/
theorem readBack_of_textLike (h : TextLike definition.type)
    (hvalue : normalizeLangextractValue lib.toValueLibrary (some definition) text attributes ≠
      .none) :
    readBack lib definition text attributes =
      normalizeLangextractValue lib.toValueLibrary (some definition) text attributes := by
  rw [readBack, build_of_value hvalue (Or.inl h)]
  rw [normalize_of_textLike h] at hvalue
  rw [normalize_of_textLike h, normalize_of_textLike h]
  exact textValue_readBack _ hvalue

/-- A list is read back as it was: its items are trimmed and filled already, so each is written and
read as itself. -/
theorem readBack_of_list (h : definition.type ∈ [DataType.list, .multiSelect])
    (hvalue : normalizeLangextractValue lib.toValueLibrary (some definition) text attributes ≠
      .none) :
    readBack lib definition text attributes =
      normalizeLangextractValue lib.toValueLibrary (some definition) text attributes := by
  have hlist : ∀ attributes, normalizeLangextractValue lib.toValueLibrary (some definition) text
      attributes = _ := fun _ => normalize_of_list h
  unfold readBack
  rw [hlist] at hvalue
  rw [hlist attributes]
  have hstripped := listItems_stripped lib.toValueLibrary (rawValue text attributes)
  generalize listItems lib.toValueLibrary (rawValue text attributes) = items at hvalue hstripped ⊢
  by_cases hempty : items.isEmpty = true
  · rw [if_pos hempty] at hvalue
    exact absurd rfl hvalue
  · obtain ⟨hitems, hread⟩ := listItems_readBack lib hstripped
    -- the attributes hold the items, and none of them is dropped
    have hattributes : listAttributes lib (.dict [("value", .list (items.map .str))]) =
        [("value", .list (items.map .str))] := by
      have hne : ¬ (items.map PyVal.str).isEmpty = true := by simpa using hempty
      show (if (feedbackItems lib (items.map .str)).isEmpty then []
        else [("value", PyVal.list (feedbackItems lib (items.map .str)))]) = _
      rw [hitems, if_neg hne]
    rw [if_neg hempty, build_of_list h, hattributes, hlist]
    have hraw : rawValue text [("value", .list (items.map .str))] = .list (items.map .str) := rfl
    rw [hraw, hread, if_neg hempty]

/-- A truth value is read back as it was, from the word that says it. -/
theorem readBack_of_boolean (h : definition.type = .boolean)
    (hvalue : normalizeLangextractValue lib.toValueLibrary (some definition) text attributes ≠
      .none) :
    readBack lib definition text attributes =
      normalizeLangextractValue lib.toValueLibrary (some definition) text attributes := by
  have hboolean : ∀ attributes, normalizeLangextractValue lib.toValueLibrary (some definition)
      text attributes =
        ((parseBoolean lib.toValueLibrary (rawValue text attributes)).map .bool).getD .none := by
    intro attributes
    unfold normalizeLangextractValue
    dsimp only
    rw [h]
    cases parseBoolean lib.toValueLibrary (rawValue text attributes) <;> rfl
  unfold readBack
  rw [hboolean] at hvalue
  rw [hboolean attributes]
  cases hread : parseBoolean lib.toValueLibrary (rawValue text attributes) with
  | none =>
    rw [hread] at hvalue
    exact absurd rfl hvalue
  | some b =>
    -- The word that is sent back is one that is read as the same truth value.
    have hbuild : buildLangextractFeedbackAttributes lib (some definition) (.bool b) =
        [("value", .str (if b then "true" else "false"))] := by
      unfold buildLangextractFeedbackAttributes
      dsimp only
      rw [h]
      rfl
    have hraw : rawValue text [("value", .str (if b then "true" else "false"))] =
        .str (if b then "true" else "false") := rfl
    rw [Option.map_some, Option.getD_some, hbuild, hboolean, hraw, parseBoolean_readBack]
    rfl

/-- A date. -/
theorem sameReviewed_of_date (hdates : lib.DatesRead) (h : definition.type = .date)
    (hvalue : normalizeLangextractValue lib.toValueLibrary (some definition) text attributes ≠
      .none) :
    SameReviewed .date
      (normalizeLangextractValue lib.toValueLibrary (some definition) text attributes)
      (readBack lib definition text attributes) := by
  have hdate : ∀ attributes, normalizeLangextractValue lib.toValueLibrary (some definition)
      text attributes = dateValue lib.toValueLibrary
        (stringifyLangextractValue lib.toValueLibrary (rawValue text attributes)) := by
    intro attributes
    unfold normalizeLangextractValue
    dsimp only
    rw [h]
  rw [readBack, build_of_value hvalue (Or.inr (by rw [h]; decide))]
  rw [hdate] at hvalue
  rw [hdate, hdate]
  exact dateValue_readBack hdates _ hvalue

/-- **A number is read back** just in case its text reads as it does, which needs it to be plain. -/
theorem sameReviewed_of_number_iff (hfloats : lib.FloatTexts) (h : definition.type = .number)
    (hvalue : normalizeLangextractValue lib.toValueLibrary (some definition) text attributes ≠
      .none) :
    SameReviewed .number
        (normalizeLangextractValue lib.toValueLibrary (some definition) text attributes)
        (readBack lib definition text attributes) ↔
      ∃ q, parseNumber lib.toValueLibrary (rawValue text attributes) = some (.fin q) ∧
        PlainNumber q := by
  have hnumber : ∀ attributes, normalizeLangextractValue lib.toValueLibrary (some definition)
      text attributes = ((parseNumber lib.toValueLibrary (rawValue text attributes)).map
        fun x => .dict [("value", .float x)]).getD .none := by
    intro attributes
    unfold normalizeLangextractValue
    dsimp only
    rw [h]
    cases parseNumber lib.toValueLibrary (rawValue text attributes) <;> rfl
  rw [readBack, build_of_value hvalue (Or.inr (by rw [h]; decide))]
  rw [hnumber] at hvalue
  rw [hnumber attributes]
  cases hread : parseNumber lib.toValueLibrary (rawValue text attributes) with
  | none =>
    rw [hread] at hvalue
    exact absurd rfl hvalue
  | some x =>
    obtain ⟨t, hfloat⟩ := numberText_of_parseNumber hread
    have hvalue : feedbackStringify lib (readValue (.dict [("value", .float x)])) =
        lib.num.str (.float x) := rfl
    rw [Option.map_some, Option.getD_some, hvalue,
      hnumber, rawValue_valueAttribute (str_ne_empty hfloats hfloat)]
    simp only [Option.some.injEq]
    -- It is plain just in case its own text reads as the number.
    rw [← parseNumber_str_iff hfloats hfloat]
    cases hback : parseNumber lib.toValueLibrary (.str (lib.num.str (.float x))) with
    | none => exact iff_of_false (fun heq => by cases heq) (fun heq => by cases heq)
    | some y =>
      show some (PyVal.float y) = some (.float x) ↔ some y = some x
      simp

/-- What is built from an amount. -/
theorem build_of_currency (h : definition.type = .currency) {x : PyFloat} {c display : String}
    (hstr : lib.num.str (.float x) ≠ "") :
    buildLangextractFeedbackAttributes lib (some definition)
        (.dict [("amount", .float x), ("currency", .str c), ("display_value", .str display)]) =
      ("value", .str (if pyStrip display = "" then lib.num.str (.float x) else pyStrip display)) ::
        (if pyStrip c = "" then [] else [("currency", .str (pyStrip c))]) := by
  unfold buildLangextractFeedbackAttributes
  dsimp only
  rw [if_neg (by exact Bool.false_ne_true), h]
  exact currencyAttributes_eq hstr

/-- The attribute `value` is the source of the amount. -/
theorem amountSource_value {s : String} (hne : s ≠ "") (rest : List (String × PyVal)) :
    amountSource text (("value", .str s) :: rest) = .str s := by
  have htruthy : (rawValue text (("value", PyVal.str s) :: rest)).truthy = true := by
    show (s != "") = true
    simpa using hne
  exact if_pos htruthy

/-- **An amount is read back** just in case the text that shows it reads as the amount, and the
currency as the currency. -/
theorem sameReviewed_of_currency_iff (hfloats : lib.FloatTexts) (h : definition.type = .currency)
    (hvalue : normalizeLangextractValue lib.toValueLibrary (some definition) text attributes ≠
      .none) :
    SameReviewed .currency
        (normalizeLangextractValue lib.toValueLibrary (some definition) text attributes)
        (readBack lib definition text attributes) ↔
      AmountReads lib.toValueLibrary definition.validation text attributes ∧
        CurrencyReads lib.toValueLibrary definition.validation attributes := by
  have hcurrency : ∀ attributes, normalizeLangextractValue lib.toValueLibrary (some definition)
      text attributes = currencyValue lib.toValueLibrary definition.validation text attributes
        (parseCurrencyAmount lib.toValueLibrary (amountSource text attributes)) := by
    intro attributes
    unfold normalizeLangextractValue
    dsimp only
    rw [h]
  unfold readBack
  rw [hcurrency] at hvalue
  rw [hcurrency attributes]
  cases hread : parseCurrencyAmount lib.toValueLibrary (amountSource text attributes) with
  | none =>
    rw [hread] at hvalue
    exact absurd rfl hvalue
  | some x =>
    obtain ⟨t, -, hfloat⟩ := numberText_of_parseCurrencyAmount hread
    have hstr : lib.num.str (.float x) ≠ "" := str_ne_empty hfloats hfloat
    unfold currencyValue
    dsimp only
    generalize hdisplay : (if text = "" then
      currencyOf lib.toValueLibrary definition.validation attributes ++ " " ++
        lib.num.formatAmount x else text) = display
    rw [build_of_currency h hstr, hcurrency, ← amount_read_back_iff hfloats hread hdisplay.symm,
      ← currency_read_back_iff]
    -- the amount is read from what was shown, or from its own text if nothing was
    generalize hshown : (if pyStrip display = "" then lib.num.str (.float x)
      else pyStrip display) = shown
    have hne : shown ≠ "" := by
      rw [← hshown]
      split
      · exact hstr
      · assumption
    rw [amountSource_value hne]
    cases hback : parseCurrencyAmount lib.toValueLibrary (.str shown) with
    | none => exact iff_of_false (fun heq => by cases heq.1) (fun heq => by cases heq.1)
    | some y =>
      unfold currencyValue
      dsimp only
      rw [currencyOf_feedback]
      show some (PyVal.float y) = some (.float x) ∧ some (PyVal.str _) = some (.str _) ↔ _
      simp

/-- **When a reviewed value is read back**: texts, dates, truth values and lists always; a
number if it is plain; an amount if the text that shows it reads as the amount, and its
currency has no white space at its ends. -/
theorem feedback_reads_back_iff (lib : FeedbackLibrary) (hfloats : lib.FloatTexts)
    (hdates : lib.DatesRead) (definition : ExtractionFieldDefinition) (text : String)
    (attributes : List (String × PyVal))
    (htype : definition.type ∉ [.jsonObject, .structuredObject, .table])
    (hvalue : normalizeLangextractValue lib.toValueLibrary (some definition) text attributes ≠
      .none) :
    SameReviewed definition.type
        (normalizeLangextractValue lib.toValueLibrary (some definition) text attributes)
        (readBack lib definition text attributes) ↔
      FeedbackReads lib.toValueLibrary definition text attributes := by
  -- By the type of the field: texts, dates, numbers, amounts, truth values and lists.
  rcases type_cases htype with h | h | h | h | h | h
  · rw [readBack_of_textLike h hvalue]
    refine iff_of_true (SameReviewed.refl _ _) (feedbackReads_of_ne ?_ ?_) <;>
    · intro hdef
      rw [hdef] at h
      exact absurd h (by decide)
  · rw [h]
    refine iff_of_true (sameReviewed_of_date hdates h hvalue) (feedbackReads_of_ne ?_ ?_) <;>
    · rw [h]
      decide
  · unfold FeedbackReads
    rw [h]
    exact sameReviewed_of_number_iff hfloats h hvalue
  · unfold FeedbackReads
    rw [h]
    exact sameReviewed_of_currency_iff hfloats h hvalue
  · rw [readBack_of_boolean h hvalue]
    refine iff_of_true (SameReviewed.refl _ _) (feedbackReads_of_ne ?_ ?_) <;>
    · rw [h]
      decide
  · rw [readBack_of_list h hvalue]
    refine iff_of_true (SameReviewed.refl _ _) (feedbackReads_of_ne ?_ ?_) <;>
    · intro hdef
      rw [hdef] at h
      exact absurd h (by decide)

end RoundTrip

/-! ### Values that are read back, and values that are not -/

/-- `float` of a decimal text, for floats that are whole numbers below `10 ^ 16`. -/
def wholeFloat (cs : List Char) : PyFloat :=
  match exactFloat DecimalDigits.asciiOnly cs with
  | .fin q =>
      let n := q.num.tdiv q.den
      if n.natAbs < 10 ^ 16 then .fin n else if 0 < n then .inf else .negInf
  | x => x

/-- The text of a whole number, with the decimals given. -/
def wholeText (n : ℤ) (decimals : List Char) : String :=
  String.ofList ((if n < 0 then ['-'] else []) ++ (Nat.toDigits 10 n.natAbs ++ '.' :: decimals))

/-- The texts of floats that are whole numbers. -/
def wholeTextOf (decimals : List Char) : PyFloat → String
  | .fin q => wholeText q.num decimals
  | .inf => "inf"
  | .negInf => "-inf"
  | .nan => "nan"

/-- The date of three numbers, if there is one. -/
def dateOf (year month day : ℕ) : Option PyDate :=
  if h : (0 < year ∧ year < 10000) ∧ (0 < month ∧ month ≤ 12) ∧
      0 < day ∧ day ≤ daysInMonth year month then
    some ⟨year, month, day, h.1.1, h.1.2, h.2.1.1, h.2.1.2, h.2.2.1, h.2.2.2⟩
  else none

/-- The date of an ISO text. -/
def parseIsoDate (s : String) : Option PyDate :=
  (dateOf (DecimalDigits.asciiOnly.number (s.toList.take 4))
    (DecimalDigits.asciiOnly.number ((s.toList.drop 5).take 2))
    (DecimalDigits.asciiOnly.number (s.toList.drop 8))).filter fun date => date.isoformat == s

/-- A library with whole numbers for floats, and ISO dates alone. -/
def wholeLibrary : FeedbackLibrary :=
  { exactLibrary with
    parseFloat := wholeFloat
    num :=
      { roundCents := fun _ => .error .typeError
        formatAmount := wholeTextOf ['0', '0']
        str := fun v =>
          match v with
          | .float x => wholeTextOf ['0'] x
          | _ => ""
        display := fun _ => .error .typeError }
    parseDate := parseIsoDate
    jsonDumps := fun _ => "" }

section Whole

theorem number_pad : ∀ {w n : ℕ}, n < 10 ^ w →
    DecimalDigits.asciiOnly.number (Decimal.pad w n) = n := by
  intro w
  induction w with
  | zero =>
    intro n hn
    have hzero : n = 0 := by simpa using hn
    rw [hzero]
    rfl
  | succ w ih =>
    intro n hn
    have hdigit : ∀ d : Fin 10, DecimalDigits.asciiOnly.number [Nat.digitChar d] = d := by decide
    have hlast : DecimalDigits.asciiOnly.number [Nat.digitChar (n % 10)] = n % 10 :=
      hdigit ⟨n % 10, Nat.mod_lt n (by decide)⟩
    have hfirst : n / 10 < 10 ^ w := by
      rw [pow_succ] at hn
      omega
    rw [Decimal.pad, number_append, ih hfirst, hlast, List.length_singleton, pow_one]
    omega

/-- The parts of an ISO date. -/
theorem isoformat_toList (date : PyDate) : date.isoformat.toList = Decimal.pad 4 date.year ++
    '-' :: (Decimal.pad 2 date.month ++ '-' :: Decimal.pad 2 date.day) := by
  rw [PyDate.isoformat, String.toList_ofList, List.append_assoc, List.cons_append]

/-- An ISO text is read as the date it denotes. -/
theorem parseIsoDate_isoformat (date : PyDate) : parseIsoDate date.isoformat = some date := by
  have hyear : date.isoformat.toList.take 4 = Decimal.pad 4 date.year := by
    rw [isoformat_toList]
    exact List.take_left' (Decimal.length_pad 4 _)
  -- month and day are read at their places behind the year
  have hbehind : date.isoformat.toList.drop 5 =
      Decimal.pad 2 date.month ++ '-' :: Decimal.pad 2 date.day := by
    have hdrop : date.isoformat.toList.drop 4 =
        '-' :: (Decimal.pad 2 date.month ++ '-' :: Decimal.pad 2 date.day) := by
      rw [isoformat_toList]
      exact List.drop_left' (Decimal.length_pad 4 _)
    have hfive : date.isoformat.toList.drop 5 = (date.isoformat.toList.drop 4).drop 1 := by
      rw [List.drop_drop]
    rw [hfive, hdrop, List.drop_succ_cons, List.drop_zero]
  have hmonth : (date.isoformat.toList.drop 5).take 2 = Decimal.pad 2 date.month := by
    rw [hbehind]
    exact List.take_left' (Decimal.length_pad 2 _)
  have hday : date.isoformat.toList.drop 8 = Decimal.pad 2 date.day := by
    have hdrop : (date.isoformat.toList.drop 5).drop 2 = '-' :: Decimal.pad 2 date.day := by
      rw [hbehind]
      exact List.drop_left' (Decimal.length_pad 2 _)
    have hlast : date.isoformat.toList.drop 8 =
        ((date.isoformat.toList.drop 5).drop 2).drop 1 := by
      rw [List.drop_drop, List.drop_drop]
    rw [hlast, hdrop, List.drop_succ_cons, List.drop_zero]
  have hyear_lt : date.year < 10 ^ 4 := by
    have hlt := date.year_lt
    omega
  have hmonth_lt : date.month < 10 ^ 2 := by
    have hle := date.month_le
    omega
  have hday_lt : date.day < 10 ^ 2 := by
    have hle := date.day_le
    unfold daysInMonth at hle
    split_ifs at hle <;> omega
  have hdate : dateOf date.year date.month date.day = some date :=
    dif_pos ⟨⟨date.year_pos, date.year_lt⟩, ⟨date.month_pos, date.month_le⟩, date.day_pos,
      date.day_le⟩
  rw [parseIsoDate, hyear, hmonth, hday, number_pad hyear_lt, number_pad hmonth_lt,
    number_pad hday_lt, hdate, Option.filter_some, if_pos (beq_self_eq_true _)]

theorem wholeLibrary_parseDate : wholeLibrary.toValueLibrary.parseDate = parseIsoDate := rfl

theorem wholeLibrary_datesRead : wholeLibrary.DatesRead where
  parseDate_isoformat date := by
    rw [wholeLibrary_parseDate]
    exact parseIsoDate_isoformat date

/-- A decimal text is read exactly first. -/
theorem exactFloat_text (sign : NumeralSign) {whole fraction : List Char} (hne : whole ≠ [])
    (hwhole : ∀ c ∈ whole, wholeLibrary.isDecimal c = true)
    (hfraction : ∀ c ∈ fraction, wholeLibrary.isDecimal c = true) :
    exactFloat DecimalDigits.asciiOnly (sign.text ++ (whole ++ fractionText fraction)) =
      .fin (sign.factor * decimalValue DecimalDigits.asciiOnly whole fraction) :=
  exactLibrary_readsDecimals.parseFloat_eq sign whole fraction hne hwhole hfraction

/-- The float of a text is a whole number, unless it is too large. -/
theorem float_wholeLibrary (t : NumberText wholeLibrary.toValueLibrary) {q : ℚ}
    (h : t.float = .fin q) :
    ∃ n : ℤ, q = n ∧ n.natAbs < 10 ^ 16 ∧ (t.sign = .absent → 0 ≤ n) := by
  have hexact := exactFloat_text t.sign t.whole_ne_nil t.whole_digits t.fraction_digits
  have hfloat : t.float = wholeFloat t.text := rfl
  rw [hfloat, wholeFloat, NumberText.text, hexact] at h
  dsimp only at h
  split at h
  next hsmall =>
    refine ⟨_, (PyFloat.fin.inj h).symm, hsmall, fun hsign => ?_⟩
    have hnonneg : 0 ≤ t.sign.factor * decimalValue DecimalDigits.asciiOnly t.whole t.fraction := by
      rw [hsign]
      show 0 ≤ 1 * _
      rw [one_mul]
      exact decimalValue_nonneg _ _
    exact Int.tdiv_nonneg (Rat.num_nonneg.mpr hnonneg) (Int.natCast_nonneg _)
  next =>
    split at h <;> cases h

/-- Noughts denote nought. -/
theorem number_of_noughts {cs : List Char} (h : ∀ c ∈ cs, c = '0') :
    DecimalDigits.asciiOnly.number cs = 0 := by
  have hcs : cs = List.replicate cs.length '0' := List.eq_replicate_iff.mpr ⟨rfl, h⟩
  rw [hcs]
  generalize cs.length = k
  induction k with
  | zero => rfl
  | succ k ih =>
    have hzero : DecimalDigits.asciiOnly.number ['0'] = 0 := by decide
    rw [List.replicate_succ', number_append, ih, hzero]
    rfl

/-- The sign of a whole number. -/
def signOfInt (n : ℤ) : NumeralSign := if n < 0 then .minus else .absent

theorem wholeText_toList (n : ℤ) {decimals : List Char} (hne : decimals ≠ []) :
    (wholeText n decimals).toList =
      (signOfInt n).text ++ (Nat.toDigits 10 n.natAbs ++ fractionText decimals) := by
  have hpoint : fractionText decimals = '.' :: decimals := if_neg (by simpa using hne)
  rw [wholeText, String.toList_ofList, hpoint, signOfInt]
  split <;> rfl

theorem isDecimal_toDigits (n : ℕ) : ∀ c ∈ Nat.toDigits 10 n, wholeLibrary.isDecimal c = true :=
  fun _ hc => DecimalDigits.asciiOnly.isDecimal_of_isDigit
    (Nat.isDigit_of_mem_toDigits (by decide) (by decide) hc)

/-- A whole number is read from its text. -/
theorem wholeFloat_text {n : ℤ} (hn : n.natAbs < 10 ^ 16) {decimals : List Char}
    (hdecimals : ∀ c ∈ decimals, c = '0') :
    wholeFloat ((signOfInt n).text ++ (Nat.toDigits 10 n.natAbs ++ fractionText decimals)) =
      .fin n := by
  have hdigits : ∀ c ∈ decimals, wholeLibrary.isDecimal c = true := by
    intro c hc
    rw [hdecimals c hc]
    decide
  -- The digits are those of the absolute value, and the decimals are noughts.
  have hvalue : (signOfInt n).factor *
      decimalValue DecimalDigits.asciiOnly (Nat.toDigits 10 n.natAbs) decimals = (n : ℚ) := by
    rw [decimalValue, DecimalDigits.number_toDigits, number_of_noughts hdecimals, Nat.cast_zero,
      zero_div, add_zero, signOfInt]
    split
    next hneg =>
      have habs : ((n.natAbs : ℤ) : ℚ) = ((-n : ℤ) : ℚ) := by
        rw [Int.ofNat_natAbs_of_nonpos (le_of_lt hneg)]
      show -1 * (n.natAbs : ℚ) = n
      rw [← Int.cast_natCast, habs]
      simp
    next hpos =>
      have habs : ((n.natAbs : ℤ) : ℚ) = (n : ℚ) := by
        rw [Int.natAbs_of_nonneg (not_lt.mp hpos)]
      show 1 * (n.natAbs : ℚ) = n
      rw [← Int.cast_natCast, habs, one_mul]
  rw [wholeFloat, exactFloat_text (signOfInt n) Nat.toDigits_ne_nil (isDecimal_toDigits _) hdigits,
    hvalue]
  dsimp only
  rw [Rat.num_intCast, Rat.den_intCast, Nat.cast_one, Int.tdiv_one, if_pos hn]

/-- A whole number below `10 ^ 16` is plain. -/
theorem plainNumber_of_int {n : ℤ} (hsmall : n.natAbs < 10 ^ 16) : PlainNumber (n : ℚ) := by
  by_cases hzero : n = 0
  · exact Or.inl (by rw [hzero]; rfl)
  · have habs : |(n : ℚ)| = (n.natAbs : ℚ) := by
      rw [Nat.cast_natAbs, Int.cast_abs]
    have hone : (1 : ℚ) ≤ (n.natAbs : ℚ) := by
      have hpos : 1 ≤ n.natAbs := Int.natAbs_pos.mpr hzero
      exact_mod_cast hpos
    refine Or.inr ⟨?_, ?_⟩
    · rw [habs]
      exact le_trans (by decide +kernel) hone
    · rw [habs]
      exact_mod_cast hsmall

/-- The texts of whole numbers are plain. -/
theorem wholeLibrary_floatTexts : wholeLibrary.FloatTexts where
  plain t q hq hplain := by
    obtain ⟨n, rfl, hsmall, hsign⟩ := float_wholeLibrary t hq
    have hnought : ∀ c ∈ ['0'], c = '0' := List.forall_mem_singleton.mpr rfl
    refine ⟨⟨signOfInt n, Nat.toDigits 10 n.natAbs, ['0'], Nat.toDigits_ne_nil,
      isDecimal_toDigits _, List.all_eq_true.mp (by decide)⟩, ?_,
      wholeFloat_text hsmall hnought, ?_⟩
    · have hstr : wholeLibrary.num.str (.float (.fin n)) = wholeText (n : ℚ).num ['0'] := rfl
      rw [hstr, Rat.num_intCast, wholeText_toList n (by decide)]
      rfl
    · rintro ⟨habsent, -⟩
      exact ⟨if_neg (not_lt.mpr (hsign habsent)), Nat.le_succ 1⟩
  -- Whole numbers below 10^16 are all plain, so none is written with an exponent.
  scientific t q hq hplain := by
    obtain ⟨n, rfl, hsmall, -⟩ := float_wholeLibrary t hq
    exact absurd (plainNumber_of_int hsmall) hplain
  format t q hq ht := by
    obtain ⟨n, rfl, hsmall, hsign⟩ := float_wholeLibrary t hq
    have habsent : signOfInt n = .absent := if_neg (not_lt.mpr (hsign ht.1))
    have hnoughts : ∀ c ∈ ['0', '0'], c = '0' :=
      List.forall_mem_cons.mpr ⟨rfl, List.forall_mem_singleton.mpr rfl⟩
    have hne : ['0', '0'] ≠ [] := List.cons_ne_nil _ _
    have hread := wholeFloat_text hsmall hnoughts
    have hshown := wholeText_toList n hne
    rw [habsent] at hread hshown
    refine ⟨⟨.absent, false, Nat.toDigits 10 n.natAbs, [], some ['0', '0'], Nat.toDigits_ne_nil,
      isDecimal_toDigits _, List.forall_mem_nil _, fun hne => absurd rfl hne,
      List.all_eq_true.mp (by decide)⟩, ?_, rfl, rfl, rfl, ?_⟩
    · have hformat : wholeLibrary.num.formatAmount (.fin n) = wholeText (n : ℚ).num ['0', '0'] :=
        rfl
      rw [hformat, Rat.num_intCast, hshown]
      rfl
    · have hwhole : Nat.toDigits 10 n.natAbs ++ [].flatten = Nat.toDigits 10 n.natAbs := by simp
      rw [Numeral.whole, hwhole]
      exact hread
  nonfinite x hx := by
    cases x with
    | fin q => exact absurd rfl (hx q)
    | inf => exact ⟨by decide, by decide⟩
    | negInf => exact ⟨by decide, by decide⟩
    | nan => exact ⟨by decide, by decide⟩

end Whole

/-- A field for a fee. -/
def feeField : ExtractionFieldDefinition := { name := "fee", label := "Fee", type := .currency }

/-- A fee in euros is read back. -/
theorem fee_reads_back :
    SameReviewed .currency
      (normalizeLangextractValue wholeLibrary.toValueLibrary (some feeField) "12.00 due"
        [("currency", .str "EUR")])
      (readBack wholeLibrary feeField "12.00 due" [("currency", .str "EUR")]) :=
  (feedback_reads_back_iff wholeLibrary wholeLibrary_floatTexts wholeLibrary_datesRead feeField
    "12.00 due" [("currency", .str "EUR")] (by decide) (fun h => by cases h)).mpr
      ⟨rfl, Or.inl (by decide)⟩

/-- **The number of an invoice is read back for its amount**: the text that shows it comes
before the amount. -/
theorem invoice_number_is_read_back :
    entryOf (normalizeLangextractValue wholeLibrary.toValueLibrary (some feeField)
        "Invoice 7: $100" [("value", .str "100")]) "amount" = some (.float (.fin 100)) ∧
      entryOf (readBack wholeLibrary feeField "Invoice 7: $100" [("value", .str "100")])
        "amount" = some (.float (.fin 7)) ∧
      ¬ SameReviewed .currency
        (normalizeLangextractValue wholeLibrary.toValueLibrary (some feeField)
          "Invoice 7: $100" [("value", .str "100")])
        (readBack wholeLibrary feeField "Invoice 7: $100" [("value", .str "100")]) := by
  have hvalue : entryOf (normalizeLangextractValue wholeLibrary.toValueLibrary (some feeField)
      "Invoice 7: $100" [("value", .str "100")]) "amount" = some (.float (.fin 100)) := by
    have hfloat : wholeFloat ['1', '0', '0'] = .fin 100 := by decide +kernel
    rw [← hfloat]
    rfl
  have hread : entryOf (readBack wholeLibrary feeField "Invoice 7: $100"
      [("value", .str "100")]) "amount" = some (.float (.fin 7)) := by
    have hfloat : wholeFloat ['7'] = .fin 7 := by decide +kernel
    rw [← hfloat]
    rfl
  refine ⟨hvalue, hread, fun h => ?_⟩
  have hsame := h.1
  rw [hvalue, hread] at hsame
  cases hsame

end ExtractFlow
