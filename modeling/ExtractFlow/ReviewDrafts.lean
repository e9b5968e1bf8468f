import ExtractFlow.Lib.JsValues

/-!
# Drafts of reviewed values

The review form holds a text for every field (`frontend/src/lib/review-draft.ts`).
`getInitialReviewDraft` makes it of the value of the field, and `parseReviewDraft` makes a
value of it again, as the type of the field has it.

A draft that nobody touched is parsed, too.  Its value is the one it was made of only if that
has the very shape which `parseReviewDraft` gives to values of its type.

A value that somebody entered has that shape, and so it comes back after it was saved, with two
exceptions.  JSON has no infinite numbers and writes null for them.  And it has one zero: an
amount of `-0` is shown as `-0.00` when it is entered, but the zero that was saved shows `0.00`.

## Main definitions

* `ReviewField` — a field of a result, as the browser holds it.
* `getInitialReviewDraft`, `parseReviewDraft` — the draft of a field, and the value of a draft.
* `ComesBack` — the values that come back from their drafts.
* `DraftReadable` — the values whose drafts can be parsed.

## Main results

* `draft_comesBack_iff` — which values come back.
* `draft_readable_iff` — which drafts can be parsed.
* `entered_comesBack_iff` — a value that was entered comes back, unless it is an infinite number
  or an amount of negative zero.
-/

namespace ExtractFlow

open JsonText JsObject Js

/-- What the form takes from the browser.  The two zeros are one number here, as they are for
`String` and for JSON; `toLocaleString` tells them apart, so the text a number is read from has
to say when it is the negative one. -/
structure ReviewBrowser (ν : Type) where
  num : JsNumbers ν
  toLowerCase : String → String
  /-- `n.toLocaleString([], ...)` with two digits behind the point, of all but the negative
  zero. -/
  toLocaleString : ν → String
  /-- The same of the negative zero. -/
  negativeZeroText : String
  /-- `Object.is(Number(s), -0)`. -/
  isNegativeZero : String → Bool
  number_negativeZero : ∀ s, isNegativeZero s = true → num.number s = some num.zero
  negativeZeroText_ne : negativeZeroText ≠ toLocaleString num.zero
  /-- `String` writes no sign before a zero. -/
  isNegativeZero_toStr : ∀ n, isNegativeZero (trim (num.toStr n)) = false
  /-- `Number` does not see the white space around a text. -/
  number_trim : ∀ s, num.number (trim s) = num.number s
  number_true : num.number "true" = none
  number_false : num.number "false" = none
  /-- No number is written in brackets. -/
  number_arr : ∀ items, num.number (num.compact (.arr items)) = none
  number_obj : ∀ entries, num.number (num.compact (.obj entries)) = none

/-- `ReviewFieldLike`: its values were read from JSON, so their objects are in order. -/
structure ReviewField (ν : Type) where
  fieldName : String
  label : String
  dataType : Option String
  normalizedValue : Json ν
  extractedValue : Json ν
  normalized_canon : canon normalizedValue = normalizedValue
  extracted_canon : canon extractedValue = extractedValue

/-- `TemplateFieldDefinition`, as far as drafts go: its other properties neither choose the editor
of a field nor take part in reading its draft. -/
structure TemplateFieldDefinition where
  name : String
  type : String
  deriving Repr

section Drafts

variable {ν : Type}

/-- `field.normalized_value ?? field.extracted_value ?? null`. -/
def ReviewField.value (field : ReviewField ν) : Json ν :=
  match field.normalizedValue with
  | .null => field.extractedValue
  | v => v

theorem ReviewField.value_canon (field : ReviewField ν) : canon field.value = field.value := by
  unfold ReviewField.value
  split
  · exact field.extracted_canon
  · exact field.normalized_canon

/-- `STRUCTURED_FIELD_TYPES`. -/
def structuredFieldTypes : List String := ["json_object", "structured_object", "table"]

/-- `typeof value.amount === "number"`, of a record. -/
def recordNumber (key : String) : Json ν → Option ν
  | .obj entries =>
      match get entries key with
      | some (.num n) => some n
      | _ => none
  | _ => none

/-- `typeof value.value === "boolean"`, of a record. -/
def recordBoolean : Json ν → Option Bool
  | .obj entries =>
      match get entries "value" with
      | some (.bool b) => some b
      | _ => none
  | _ => none

/-- `String(b)`. -/
def booleanText (b : Bool) : String := if b then "true" else "false"

/-- The draft of a boolean field that holds one, bare or in a record. -/
def booleanDraft : Json ν → Option String
  | .bool b => some (booleanText b)
  | v => (recordBoolean v).map booleanText

variable (browser : ReviewBrowser ν)

/-- `getReviewFieldType`. -/
def getReviewFieldType (field : ReviewField ν) (definition : Option TemplateFieldDefinition) :
    String :=
  browser.toLowerCase <|
    (field.dataType.or (definition.map TemplateFieldDefinition.type)).getD "text"

/-- `String(value.value)` of a text or a number in a record. -/
def recordText : Json ν → Option String
  | .obj entries =>
      match get entries "value" with
      | some (.str s) => some s
      | some (.num n) => some (browser.num.toStr n)
      | _ => none
  | _ => none

/-- The draft of a text, a number or a boolean; of others, their JSON. -/
def bareDraft : Json ν → String
  | .str s => s
  | .num n => browser.num.toStr n
  | .bool b => booleanText b
  | v => browser.num.compact v

/-- The draft of a value that is there, in a field of that type. -/
def plainDraft (type : String) (value : Json ν) : String :=
  let special :=
    if type = "currency" then (recordNumber "amount" value).map browser.num.toStr
    else if type = "boolean" then booleanDraft value
    else none
  (special.or (recordText browser value)).getD (bareDraft browser value)

/-- `getInitialReviewDraft`: the text the form starts from, which is JSON for a structured field and
what a reader would expect for any other. -/
def getInitialReviewDraft (field : ReviewField ν) (definition : Option TemplateFieldDefinition) :
    String :=
  let type := getReviewFieldType browser field definition
  match field.value with
  | .null => ""
  | value =>
      if type ∈ structuredFieldTypes then browser.num.pretty value
      else plainDraft browser type value

/-- `parseStructuredReviewDraft`. -/
def parseStructuredReviewDraft (fieldLabel raw fieldType : String) : Except String (Json ν) :=
  if trim raw = "" then .ok .null
  else
    match browser.num.parse (trim raw) with
    | none => .error s!"{fieldLabel} must be valid JSON."
    | some (.arr items) => .ok (.arr items)
    | some (.obj entries) =>
        if fieldType = "table" then .error s!"{fieldLabel} must be a JSON array of rows."
        else .ok (.obj entries)
    | some parsed =>
        if fieldType = "table" then .error s!"{fieldLabel} must be a JSON array of rows."
        else if fieldType = "json_object" ∨ fieldType = "structured_object" then
          .error s!"{fieldLabel} must be a JSON object or array."
        else .ok parsed

/-- The currency that the field has, or `USD`. -/
def reviewCurrency (field : ReviewField ν) : String :=
  match field.normalizedValue with
  | .obj entries =>
      match get entries "currency" with
      | some (.str currency) => currency
      | _ => "USD"
  | _ => "USD"

/-- `amount.toLocaleString(...)` of the amount that was read from a text. -/
def amountText (trimmed : String) (amount : ν) : String :=
  if browser.isNegativeZero trimmed then browser.negativeZeroText
  else browser.toLocaleString amount

omit browser in
/-- An amount, as it is saved, with the text it shows. -/
def savedAmount (currency shown : String) (amount : ν) : Json ν :=
  .obj [("amount", .num amount), ("currency", .str currency),
    ("display_value", .str s!"{currency} {shown}")]

/-- `parseReviewDraft`: the value that is saved for a text, or the message for one that cannot be
read. A blank text is no value, for every type. -/
def parseReviewDraft (field : ReviewField ν) (raw : String)
    (definition : Option TemplateFieldDefinition) : Except String (Json ν) :=
  let trimmed := trim raw
  let type := getReviewFieldType browser field definition
  if trimmed = "" then .ok .null
  else if type ∈ structuredFieldTypes then
    parseStructuredReviewDraft browser field.label raw type
  else if type = "currency" then
    match browser.num.number trimmed with
    | none => .error s!"{field.label} must be a valid number."
    | some amount =>
        .ok (savedAmount (reviewCurrency field) (amountText browser trimmed amount) amount)
  else if type = "date" then
    .ok (.obj [("value", .str trimmed), ("display_value", .str trimmed)])
  else if type = "number" then
    match browser.num.number trimmed with
    | none => .error s!"{field.label} must be a valid number."
    | some value => .ok (.obj [("value", .num value)])
  else if type = "boolean" then .ok (.bool (trimmed == "true"))
  else .ok (.obj [("value", .str raw)])

/-! ### The values that come back -/

/-- What a structured field accepts. -/
def IsStructure (type : String) : Json ν → Prop
  | .arr _ => True
  | .obj _ => type ≠ "table"
  | _ => False

/-- The values that `parseReviewDraft` makes, type by type. -/
def HasDraftShape (type currency : String) (value : Json ν) : Prop :=
  if type ∈ structuredFieldTypes then IsStructure type value
  else if type = "currency" then
    ∃ amount, value = savedAmount currency (browser.toLocaleString amount) amount
  else if type = "date" then
    ∃ s, trim s = s ∧ s ≠ "" ∧ value = .obj [("value", .str s), ("display_value", .str s)]
  else if type = "number" then ∃ n, value = .obj [("value", .num n)]
  else if type = "boolean" then ∃ b, value = .bool b
  else ∃ s, trim s ≠ "" ∧ value = .obj [("value", .str s)]

/-- There is no value, or one of the shape that `parseReviewDraft` gives to values of the type. -/
def ComesBack (field : ReviewField ν) (definition : Option TemplateFieldDefinition) : Prop :=
  field.value = .null ∨
    HasDraftShape browser (getReviewFieldType browser field definition) (reviewCurrency field)
      field.value

/-- The text that a field of numbers shows of a value, unless that is its JSON. -/
def numeralText (type : String) (value : Json ν) : Option String :=
  let amount :=
    if type = "currency" then (recordNumber "amount" value).map browser.num.toStr else none
  let bare := match value with
    | .str s => some s
    | .num n => some (browser.num.toStr n)
    | _ => none
  (amount.or (recordText browser value)).or bare

/-- A structured field holds a structure, and a field of numbers shows a numeral. -/
def DraftReadable (field : ReviewField ν) (definition : Option TemplateFieldDefinition) : Prop :=
  let type := getReviewFieldType browser field definition
  field.value = .null ∨
    if type ∈ structuredFieldTypes then IsStructure type field.value
    else if type = "currency" ∨ type = "number" then
      ∃ text, numeralText browser type field.value = some text ∧
        (browser.num.number text).isSome = true
    else True

/-- The field after the value was saved, and read again. -/
def ReviewField.enter (field : ReviewField ν) (value : Json ν) : ReviewField ν where
  fieldName := field.fieldName
  label := field.label
  dataType := field.dataType
  normalizedValue := canon (value.written browser.num.format)
  extractedValue := field.extractedValue
  normalized_canon := canon_canon _
  extracted_canon := field.extracted_canon

/-- The result has the JSON of the value. -/
def Restores (result : Except String (Json ν)) (value : Json ν) : Prop :=
  ∃ parsed, result = .ok parsed ∧ browser.num.compact parsed = browser.num.compact value

end Drafts

section Results

variable {ν : Type} {browser : ReviewBrowser ν}

/-- The text of a number is not blank. -/
theorem trim_toStr_ne (n : ν) : trim (browser.num.toStr n) ≠ "" := by
  intro hblank
  have hzero : browser.num.number (browser.num.toStr n) = some browser.num.zero :=
    browser.num.number_blank _ hblank
  rw [browser.num.number_toStr] at hzero
  obtain rfl := Option.some.inj hzero
  obtain ⟨⟨c, rest, htext, hink⟩, -⟩ :=
    inked_of_isLiteral (browser.num.literal_toStr _ browser.num.isFinite_zero)
  have hspace := trim_eq_empty_iff.mp hblank c (htext ▸ List.mem_cons_self)
  rw [isJsSpace_of_isInk hink] at hspace
  cases hspace

/-- The number of the trimmed text of a number. -/
theorem number_trim_toStr (n : ν) : browser.num.number (trim (browser.num.toStr n)) = some n := by
  rw [browser.number_trim, browser.num.number_toStr]

/-- JSON is not blank. -/
theorem pretty_ne (v : Json ν) : browser.num.pretty v ≠ "" := by
  intro hblank
  have htext : stringify browser.num.format 2 0 v = [] := by
    have := congrArg String.toList hblank
    unfold JsNumbers.pretty at this
    rwa [String.toList_ofList] at this
  obtain ⟨⟨c, rest, hcons, -⟩, -⟩ := inked_stringify browser.num.format 2 0 v
  rw [htext] at hcons
  cases hcons

theorem restores_ok_iff {parsed value : Json ν} :
    Restores browser (.ok parsed) value ↔
      parsed.written browser.num.format = value.written browser.num.format := by
  rw [← JsNumbers.compact_eq_iff]
  constructor
  · rintro ⟨_, hok, hsame⟩
    obtain rfl := Except.ok.inj hok
    exact hsame
  · exact fun h => ⟨_, rfl, h⟩

theorem not_restores_error {message : String} {value : Json ν} :
    ¬ Restores browser (.error message) value := by
  rintro ⟨_, hok, -⟩
  cases hok

/-- Writing a value keeps what it is. -/
theorem isStructure_written_iff (browser : ReviewBrowser ν) {type : String} {v : Json ν} :
    IsStructure type (v.written browser.num.format) ↔ IsStructure type v := by
  cases v with
  | num n =>
    rcases Json.written_num_eq_or browser.num.format n with hn | hn
    · rw [hn]
    · rw [hn]
      exact Iff.rfl
  | null | bool _ | str _ | arr _ | obj _ => exact Iff.rfl

/-- A structured field accepts JSON of its structure, and then it saves what the JSON stands for. -/
theorem parseStructured_ok_iff {label raw type : String} (htype : type ∈ structuredFieldTypes)
    (hraw : trim raw ≠ "") {w parsed : Json ν}
    (hparse : browser.num.parse (trim raw) = some w) :
    parseStructuredReviewDraft browser label raw type = .ok parsed ↔
      parsed = w ∧ IsStructure type w := by
  have hother : type ≠ "table" → type = "json_object" ∨ type = "structured_object" := by
    unfold structuredFieldTypes at htype
    rcases List.mem_cons.mp htype with h | htype
    · exact fun _ => Or.inl h
    · rcases List.mem_cons.mp htype with h | htype
      · exact fun _ => Or.inr h
      · exact fun hne => absurd (List.mem_singleton.mp htype) hne
  -- what is neither an array nor an object is refused by every structured type
  have hscalar : ∀ w : Json ν,
      (if type = "table" then .error s!"{label} must be a JSON array of rows."
        else if type = "json_object" ∨ type = "structured_object" then
          .error s!"{label} must be a JSON object or array."
        else .ok w) ≠ (.ok parsed : Except String (Json ν)) := by
    intro w
    by_cases htable : type = "table"
    · rw [if_pos htable]
      nofun
    · rw [if_neg htable, if_pos (hother htable)]
      nofun
  unfold parseStructuredReviewDraft
  rw [if_neg hraw, hparse]
  cases w with
  | arr items => exact ⟨fun h => ⟨(Except.ok.inj h).symm, trivial⟩, fun h => congrArg _ h.1.symm⟩
  | obj entries =>
    show (if type = "table" then Except.error s!"{label} must be a JSON array of rows."
        else Except.ok (Json.obj entries)) = _ ↔ _ ∧ type ≠ "table"
    by_cases htable : type = "table"
    · rw [if_pos htable]
      exact iff_of_false nofun fun h => h.2 htable
    · rw [if_neg htable]
      exact ⟨fun h => ⟨(Except.ok.inj h).symm, htable⟩, fun h => congrArg _ h.1.symm⟩
  | null => exact iff_of_false (hscalar _) nofun
  | bool b => exact iff_of_false (hscalar _) nofun
  | num n => exact iff_of_false (hscalar _) nofun
  | str s => exact iff_of_false (hscalar _) nofun

/-- The draft of a structured value. -/
theorem parseStructured_pretty_iff {label type : String} (htype : type ∈ structuredFieldTypes)
    {v parsed : Json ν} (hv : canon v = v) :
    parseStructuredReviewDraft browser label (browser.num.pretty v) type = .ok parsed ↔
      parsed = v.written browser.num.format ∧ IsStructure type v := by
  have hraw : trim (browser.num.pretty v) ≠ "" := by
    rw [JsNumbers.trim_pretty]
    exact pretty_ne v
  rw [parseStructured_ok_iff htype hraw (by rw [JsNumbers.trim_pretty, JsNumbers.parse_pretty hv]),
    isStructure_written_iff browser]

/-- A structured value is read again, if the field accepts it. -/
theorem restores_structured_iff {label type : String} (htype : type ∈ structuredFieldTypes)
    {v : Json ν} (hv : canon v = v) :
    Restores browser (parseStructuredReviewDraft browser label (browser.num.pretty v) type) v ↔
      IsStructure type v := by
  unfold Restores
  simp only [parseStructured_pretty_iff htype hv]
  constructor
  · rintro ⟨_, ⟨-, hstructure⟩, -⟩
    exact hstructure
  · exact fun hstructure => ⟨_, ⟨rfl, hstructure⟩, JsNumbers.compact_written v⟩

/-! ### Drafts of plain values -/

theorem plainDraft_num (type : String) (n : ν) :
    plainDraft browser type (.num n) = browser.num.toStr n := by
  unfold plainDraft
  split_ifs <;> rfl

/-- A blank draft is no draft of a value that would be written as null. -/
theorem not_restores_blank {type : String} {v : Json ν} (hne : v ≠ .null)
    (hblank : trim (plainDraft browser type v) = "") : ¬ Restores browser (.ok .null) v := by
  intro h
  have hnull : v.written browser.num.format = .null := (restores_ok_iff.mp h).symm
  rcases Json.null_or_num_of_written hnull with rfl | ⟨n, rfl⟩
  · exact hne rfl
  · rw [plainDraft_num] at hblank
    exact trim_toStr_ne n hblank

/-- An object without a text to show is shown as JSON. -/
theorem plainDraft_obj {type : String} {entries : List (String × Json ν)}
    (hamount : type = "currency" → recordNumber "amount" (.obj entries) = none)
    (hboolean : type ≠ "boolean") (htext : recordText browser (.obj entries) = none) :
    plainDraft browser type (.obj entries) = browser.num.compact (.obj entries) := by
  unfold plainDraft
  rw [htext, if_neg hboolean]
  by_cases hcurrency : type = "currency"
  · rw [if_pos hcurrency, hamount hcurrency]
    rfl
  · rw [if_neg hcurrency]
    rfl

/-- No object shown as JSON is read as a number. -/
theorem number_plainDraft_obj {type : String} {entries : List (String × Json ν)}
    (hamount : type = "currency" → recordNumber "amount" (.obj entries) = none)
    (hboolean : type ≠ "boolean") (htext : recordText browser (.obj entries) = none) :
    browser.num.number (trim (plainDraft browser type (.obj entries))) = none := by
  rw [plainDraft_obj hamount hboolean htext, browser.number_trim, browser.number_obj]

theorem plainDraft_savedAmount (currency shown : String) (amount : ν) :
    plainDraft browser "currency" (savedAmount currency shown amount) =
      browser.num.toStr amount := rfl

/-- The draft of an amount never reads as the negative zero. -/
theorem amountText_toStr (n : ν) :
    amountText browser (trim (browser.num.toStr n)) n = browser.toLocaleString n := by
  rw [amountText, browser.isNegativeZero_toStr, if_neg Bool.false_ne_true]

theorem plainDraft_value_num {type : String} (hcurrency : type ≠ "currency")
    (hboolean : type ≠ "boolean") (n : ν) :
    plainDraft browser type (.obj [("value", .num n)]) = browser.num.toStr n := by
  unfold plainDraft
  rw [if_neg hcurrency, if_neg hboolean]
  rfl

theorem plainDraft_value_str {type s : String} {rest : List (String × Json ν)}
    (hcurrency : type ≠ "currency") (hboolean : type ≠ "boolean") :
    plainDraft browser type (.obj (("value", .str s) :: rest)) = s := by
  unfold plainDraft
  rw [if_neg hcurrency, if_neg hboolean]
  rfl

/-- **An amount comes back** if it is one that the form made. -/
theorem restores_currency_iff {v : Json ν} (hne : v ≠ .null) (label currency : String) :
    Restores browser
        (if trim (plainDraft browser "currency" v) = "" then .ok .null
          else match browser.num.number (trim (plainDraft browser "currency" v)) with
            | none => .error s!"{label} must be a valid number."
            | some amount => .ok (savedAmount currency
                (amountText browser (trim (plainDraft browser "currency" v)) amount) amount)) v ↔
      ∃ amount, v = savedAmount currency (browser.toLocaleString amount) amount := by
  constructor
  · intro h
    by_cases hblank : trim (plainDraft browser "currency" v) = ""
    · rw [if_pos hblank] at h
      exact absurd h (not_restores_blank hne hblank)
    · rw [if_neg hblank] at h
      cases hnumber : browser.num.number (trim (plainDraft browser "currency" v)) with
      | none =>
        rw [hnumber] at h
        exact absurd h not_restores_error
      | some amount =>
        rw [hnumber] at h
        obtain ⟨shown, hshown⟩ : ∃ shown,
            amountText browser (trim (plainDraft browser "currency" v)) amount = shown := ⟨_, rfl⟩
        have hwritten := (restores_ok_iff.mp h).symm
        rw [hshown] at hwritten
        -- the value has the three entries of an amount
        obtain ⟨entries, rfl, hentries⟩ := Json.eq_obj_of_written hwritten
        obtain ⟨x, entries, rfl, hx, hentries⟩ := Json.eq_cons_of_written hentries
        obtain ⟨y, entries, rfl, hy, hentries⟩ := Json.eq_cons_of_written hentries
        obtain ⟨z, entries, rfl, hz, hentries⟩ := Json.eq_cons_of_written hentries
        obtain rfl := List.map_eq_nil_iff.mp hentries
        obtain rfl := Json.eq_str_of_written hy
        obtain rfl := Json.eq_str_of_written hz
        by_cases hnum : ∃ n, x = .num n
        · obtain ⟨n, rfl⟩ := hnum
          have hread : browser.num.number (trim (browser.num.toStr n)) = some amount := hnumber
          rw [number_trim_toStr] at hread
          obtain rfl := Option.some.inj hread
          obtain rfl : browser.toLocaleString n = shown := (amountText_toStr n).symm.trans hshown
          exact ⟨n, rfl⟩
        · -- otherwise the draft is the JSON of the value, and no number
          have hamount : recordNumber "amount" (.obj [("amount", x), ("currency", .str currency),
              ("display_value", .str s!"{currency} {shown}")]) = none := by
            cases x with
            | num n => exact absurd ⟨n, rfl⟩ hnum
            | null | bool _ | str _ | arr _ | obj _ => rfl
          rw [number_plainDraft_obj (fun _ => hamount) (by decide) rfl] at hnumber
          cases hnumber
  · rintro ⟨amount, rfl⟩
    rw [plainDraft_savedAmount, if_neg (trim_toStr_ne amount), number_trim_toStr]
    simp only [amountText_toStr]
    exact restores_ok_iff.mpr rfl

/-- **A date comes back** if it is a text without white space around it, shown as it is. -/
theorem restores_date_iff {v : Json ν} (hne : v ≠ .null) :
    Restores browser
        (if trim (plainDraft browser "date" v) = "" then .ok .null
          else .ok (.obj [("value", .str (trim (plainDraft browser "date" v))),
            ("display_value", .str (trim (plainDraft browser "date" v)))])) v ↔
      ∃ s, trim s = s ∧ s ≠ "" ∧
        v = .obj [("value", .str s), ("display_value", .str s)] := by
  constructor
  · intro h
    by_cases hblank : trim (plainDraft browser "date" v) = ""
    · rw [if_pos hblank] at h
      exact absurd h (not_restores_blank hne hblank)
    · rw [if_neg hblank] at h
      have hwritten := (restores_ok_iff.mp h).symm
      obtain ⟨entries, hv, hentries⟩ := Json.eq_obj_of_written hwritten
      obtain ⟨x, entries, rfl, hx, hentries⟩ := Json.eq_cons_of_written hentries
      obtain ⟨y, entries, rfl, hy, hentries⟩ := Json.eq_cons_of_written hentries
      obtain rfl := List.map_eq_nil_iff.mp hentries
      obtain rfl := Json.eq_str_of_written hx
      obtain rfl := Json.eq_str_of_written hy
      -- the text that was saved is what the draft showed, so trimming it again changes nothing
      have hdraft := congrArg (plainDraft browser "date") hv
      rw [plainDraft_value_str (by decide) (by decide)] at hdraft
      rw [hdraft, trim_trim] at hv hblank
      exact ⟨_, trim_trim _, hblank, hv⟩
  · rintro ⟨s, htrim, hs, rfl⟩
    rw [plainDraft_value_str (by decide) (by decide), htrim, if_neg hs]
    exact restores_ok_iff.mpr rfl

/-- **A number comes back** if it is in a record of its own. -/
theorem restores_number_iff {v : Json ν} (hne : v ≠ .null) (label : String) :
    Restores browser
        (if trim (plainDraft browser "number" v) = "" then .ok .null
          else match browser.num.number (trim (plainDraft browser "number" v)) with
            | none => .error s!"{label} must be a valid number."
            | some value => .ok (.obj [("value", .num value)])) v ↔
      ∃ n, v = .obj [("value", .num n)] := by
  constructor
  · intro h
    by_cases hblank : trim (plainDraft browser "number" v) = ""
    · rw [if_pos hblank] at h
      exact absurd h (not_restores_blank hne hblank)
    · rw [if_neg hblank] at h
      cases hnumber : browser.num.number (trim (plainDraft browser "number" v)) with
      | none =>
        rw [hnumber] at h
        exact absurd h not_restores_error
      | some value =>
        rw [hnumber] at h
        have hwritten := (restores_ok_iff.mp h).symm
        obtain ⟨entries, rfl, hentries⟩ := Json.eq_obj_of_written hwritten
        obtain ⟨x, entries, rfl, hx, hentries⟩ := Json.eq_cons_of_written hentries
        obtain rfl := List.map_eq_nil_iff.mp hentries
        -- without a text of its own the record would be shown as JSON, which is no number
        have hother : recordText browser (.obj [("value", x)]) = none → False := by
          intro htext
          have hnone : browser.num.number
              (trim (plainDraft browser "number" (.obj [("value", x)]))) = none :=
            number_plainDraft_obj (fun h => absurd h (by decide)) (by decide) htext
          rw [hnone] at hnumber
          cases hnumber
        cases x with
        | num n => exact ⟨n, rfl⟩
        | str s =>
          rcases Json.written_num_eq_or browser.num.format value with hn | hn <;>
            rw [hn] at hx <;> cases hx
        | null | bool _ | arr _ | obj _ => exact (hother rfl).elim
  · rintro ⟨n, rfl⟩
    rw [plainDraft_value_num (by decide) (by decide), if_neg (trim_toStr_ne n),
      number_trim_toStr]
    exact restores_ok_iff.mpr rfl

/-- **A boolean comes back** if it is bare. -/
theorem restores_boolean_iff {v : Json ν} (hne : v ≠ .null) :
    Restores browser
        (if trim (plainDraft browser "boolean" v) = "" then .ok .null
          else .ok (.bool (trim (plainDraft browser "boolean" v) == "true"))) v ↔
      ∃ b, v = .bool b := by
  constructor
  · intro h
    by_cases hblank : trim (plainDraft browser "boolean" v) = ""
    · rw [if_pos hblank] at h
      exact absurd h (not_restores_blank hne hblank)
    · rw [if_neg hblank] at h
      exact ⟨_, Json.eq_bool_of_written (restores_ok_iff.mp h).symm⟩
  · rintro ⟨b, rfl⟩
    have hdraft : plainDraft browser "boolean" (.bool b) = booleanText b := rfl
    have hread : trim (booleanText b) ≠ "" ∧ (trim (booleanText b) == "true") = b := by
      cases b <;> decide
    rw [hdraft, if_neg hread.1, hread.2]
    exact restores_ok_iff.mpr rfl

/-- **Other values come back** if they are texts in a record. -/
theorem restores_text_iff {type : String} (hcurrency : type ≠ "currency")
    (hboolean : type ≠ "boolean") {v : Json ν} (hne : v ≠ .null) :
    Restores browser
        (if trim (plainDraft browser type v) = "" then .ok .null
          else .ok (.obj [("value", .str (plainDraft browser type v))])) v ↔
      ∃ s, trim s ≠ "" ∧ v = .obj [("value", .str s)] := by
  constructor
  · intro h
    by_cases hblank : trim (plainDraft browser type v) = ""
    · rw [if_pos hblank] at h
      exact absurd h (not_restores_blank hne hblank)
    · rw [if_neg hblank] at h
      have hwritten := (restores_ok_iff.mp h).symm
      obtain ⟨entries, hv, hentries⟩ := Json.eq_obj_of_written hwritten
      obtain ⟨x, entries, rfl, hx, hentries⟩ := Json.eq_cons_of_written hentries
      obtain rfl := List.map_eq_nil_iff.mp hentries
      obtain rfl := Json.eq_str_of_written hx
      exact ⟨_, hblank, hv⟩
  · rintro ⟨s, hs, rfl⟩
    rw [plainDraft_value_str hcurrency hboolean, if_neg hs]
    exact restores_ok_iff.mpr rfl

/-- The draft of a value that is there. -/
theorem getInitialReviewDraft_of_ne {field : ReviewField ν}
    {definition : Option TemplateFieldDefinition} (hne : field.value ≠ .null) :
    getInitialReviewDraft browser field definition =
      if getReviewFieldType browser field definition ∈ structuredFieldTypes then
        browser.num.pretty field.value
      else plainDraft browser (getReviewFieldType browser field definition) field.value := by
  unfold getInitialReviewDraft
  cases hv : field.value with
  | null => exact absurd hv hne
  | bool _ | num _ | str _ | arr _ | obj _ => rfl

/-- **Which values come back** when their drafts are parsed as they are: no value, and the values of
the shape that parsing gives. -/
theorem draft_comesBack_iff (browser : ReviewBrowser ν) (field : ReviewField ν)
    (definition : Option TemplateFieldDefinition) :
    Restores browser
        (parseReviewDraft browser field (getInitialReviewDraft browser field definition)
          definition) field.value ↔
      ComesBack browser field definition := by
  unfold ComesBack
  by_cases hnull : field.value = .null
  · have hdraft : getInitialReviewDraft browser field definition = "" := by
      unfold getInitialReviewDraft
      rw [hnull]
    rw [hdraft, hnull]
    exact iff_of_true (restores_ok_iff.mpr rfl) (Or.inl rfl)
  rw [or_iff_right hnull, getInitialReviewDraft_of_ne hnull]
  unfold parseReviewDraft HasDraftShape
  dsimp only
  -- one lemma for each type; what follows only selects its branch
  generalize getReviewFieldType browser field definition = type
  by_cases hstructured : type ∈ structuredFieldTypes
  · rw [if_pos hstructured, if_pos hstructured, if_pos hstructured, JsNumbers.trim_pretty,
      if_neg (pretty_ne _)]
    exact restores_structured_iff hstructured field.value_canon
  rw [if_neg hstructured, if_neg hstructured, if_neg hstructured]
  by_cases hcurrency : type = "currency"
  · subst hcurrency
    rw [if_pos rfl, if_pos rfl]
    exact restores_currency_iff hnull _ _
  rw [if_neg hcurrency, if_neg hcurrency]
  by_cases hdate : type = "date"
  · subst hdate
    rw [if_pos rfl, if_pos rfl]
    exact restores_date_iff hnull
  rw [if_neg hdate, if_neg hdate]
  by_cases hnumber : type = "number"
  · subst hnumber
    rw [if_pos rfl, if_pos rfl]
    exact restores_number_iff hnull _
  rw [if_neg hnumber, if_neg hnumber]
  by_cases hboolean : type = "boolean"
  · subst hboolean
    rw [if_pos rfl, if_pos rfl]
    exact restores_boolean_iff hnull
  rw [if_neg hboolean, if_neg hboolean]
  exact restores_text_iff hcurrency hboolean hnull

/-! ### The drafts that can be parsed -/

/-- The draft of a field of numbers is blank or a numeral, if it shows a numeral at all. -/
theorem number_plainDraft_iff {type : String} (htype : type = "currency" ∨ type = "number")
    {v : Json ν} (hne : v ≠ .null) :
    (browser.num.number (trim (plainDraft browser type v))).isSome = true ↔
      ∃ text, numeralText browser type v = some text ∧
        (browser.num.number text).isSome = true := by
  have hboolean : type ≠ "boolean" := by rcases htype with rfl | rfl <;> decide
  have hdraft : plainDraft browser type v =
      (numeralText browser type v).getD (bareDraft browser v) := by
    unfold plainDraft numeralText
    dsimp only
    rw [if_neg hboolean]
    cases (if type = "currency" then (recordNumber "amount" v).map browser.num.toStr else none).or
        (recordText browser v) with
    | some text => rfl
    | none => cases v <;> rfl
  rw [hdraft, browser.number_trim]
  cases htext : numeralText browser type v with
  | some text =>
    simp only [Option.getD_some, Option.some.injEq, exists_eq_left']
  | none =>
    refine iff_of_false ?_ nofun
    rw [Option.getD_none]
    -- without a text of its own the value is shown by its type, and that is never a number
    cases v with
    | null => exact absurd rfl hne
    | bool b => cases b <;> simp [bareDraft, booleanText, browser.number_true, browser.number_false]
    | num n => exact nomatch (Option.or_eq_none_iff.mp htext).2
    | str s => exact nomatch (Option.or_eq_none_iff.mp htext).2
    | arr items => simp [bareDraft, browser.number_arr]
    | obj entries => simp [bareDraft, browser.number_obj]

/-- **Which drafts can be parsed**, of those that were made of values. -/
theorem draft_readable_iff (browser : ReviewBrowser ν) (field : ReviewField ν)
    (definition : Option TemplateFieldDefinition) :
    (∃ parsed, parseReviewDraft browser field (getInitialReviewDraft browser field definition)
        definition = .ok parsed) ↔
      DraftReadable browser field definition := by
  unfold DraftReadable
  dsimp only
  by_cases hnull : field.value = .null
  · have hdraft : getInitialReviewDraft browser field definition = "" := by
      unfold getInitialReviewDraft
      rw [hnull]
    rw [hdraft]
    exact iff_of_true ⟨_, rfl⟩ (Or.inl hnull)
  rw [or_iff_right hnull, getInitialReviewDraft_of_ne hnull]
  unfold parseReviewDraft
  dsimp only
  generalize getReviewFieldType browser field definition = type
  by_cases hstructured : type ∈ structuredFieldTypes
  · rw [if_pos hstructured, if_pos hstructured, if_pos hstructured, JsNumbers.trim_pretty,
      if_neg (pretty_ne _)]
    simp only [parseStructured_pretty_iff hstructured field.value_canon]
    exact ⟨fun h => h.choose_spec.2, fun h => ⟨_, rfl, h⟩⟩
  rw [if_neg hstructured, if_neg hstructured, if_neg hstructured]
  -- amounts and numbers have to be numerals; every other text is accepted
  by_cases hnumeral : type = "currency" ∨ type = "number"
  · rw [if_pos hnumeral, ← number_plainDraft_iff hnumeral hnull]
    generalize plainDraft browser type field.value = draft
    by_cases hblank : trim draft = ""
    · have hzero := browser.num.number_blank (trim draft) (by rw [trim_trim, hblank])
      rw [if_pos hblank, hzero]
      exact iff_of_true ⟨_, rfl⟩ rfl
    rw [if_neg hblank]
    have hdate : ¬ type = "date" := by rcases hnumeral with rfl | rfl <;> decide
    cases browser.num.number (trim draft) with
    | none =>
      refine iff_of_false ?_ nofun
      rcases hnumeral with rfl | rfl
      · rw [if_pos rfl]
        nofun
      · rw [if_neg (by decide), if_neg hdate, if_pos rfl]
        nofun
    | some n =>
      refine iff_of_true ?_ rfl
      rcases hnumeral with rfl | rfl
      · rw [if_pos rfl]
        exact ⟨_, rfl⟩
      · rw [if_neg (by decide), if_neg hdate, if_pos rfl]
        exact ⟨_, rfl⟩
  · rw [if_neg hnumeral]
    rw [not_or] at hnumeral
    refine iff_of_true ?_ trivial
    rw [if_neg hnumeral.1, if_neg hnumeral.2]
    split_ifs <;> exact ⟨_, rfl⟩

/-! ### Values that were entered -/

/-- A saved record, read again. -/
theorem enter_obj {field : ReviewField ν} {entries : List (String × Json ν)}
    (horder : InOrder entries)
    (hplain : ∀ kv ∈ entries, canon (kv.2.written browser.num.format) =
      kv.2.written browser.num.format) :
    (field.enter browser (.obj entries)).normalizedValue =
      .obj (entries.map fun kv => (kv.1, kv.2.written browser.num.format)) := by
  have horder' : InOrder (entries.map fun kv => (kv.1, kv.2.written browser.num.format)) := by
    unfold InOrder
    rw [List.map_map]
    exact horder
  show canon ((Json.obj entries).written browser.num.format) = _
  rw [Json.written, Json.writtenEntries_eq, canon_obj_of_inOrder horder', List.map_map]
  refine congrArg Json.obj (List.map_congr_left fun kv hkv => ?_)
  exact congrArg (Prod.mk kv.1) (hplain kv hkv)

/-- A saved text of a record of one text, read again. -/
theorem enter_text (browser : ReviewBrowser ν) (field : ReviewField ν) (s : String) :
    (field.enter browser (.obj [("value", .str s)])).normalizedValue =
      .obj [("value", .str s)] := by
  refine enter_obj (List.pairwise_singleton _ _) fun kv hkv => ?_
  obtain rfl := List.mem_singleton.mp hkv
  rfl

theorem ReviewField.value_of_ne {field : ReviewField ν} (hne : field.normalizedValue ≠ .null) :
    field.value = field.normalizedValue := by
  unfold ReviewField.value
  cases hv : field.normalizedValue with
  | null => exact absurd hv hne
  | bool _ | num _ | str _ | arr _ | obj _ => rfl

theorem ReviewField.value_of_obj {field : ReviewField ν} {entries : List (String × Json ν)}
    (h : field.normalizedValue = .obj entries) : field.value = .obj entries := by
  rw [value_of_ne (by rw [h]; exact nofun), h]

/-- A number is written as it is if it is finite. -/
theorem written_num_iff (n : ν) :
    (Json.num n).written browser.num.format = .num n ↔ browser.num.isFinite n = true := by
  have htext : (browser.num.format.text n).isSome = browser.num.isFinite n := by
    show (if browser.num.isFinite n then some _ else none : Option _).isSome = _
    cases browser.num.isFinite n <;> rfl
  rw [Json.written, htext]
  cases browser.num.isFinite n with
  | true => exact iff_of_true rfl rfl
  | false => exact iff_of_false nofun nofun

/-- What is written of a number is in order. -/
theorem canon_written_num (n : ν) : canon ((Json.num n).written browser.num.format) =
    (Json.num n).written browser.num.format := by
  rw [canon_written]
  rfl

theorem enter_savedAmount (browser : ReviewBrowser ν) (field : ReviewField ν)
    (currency shown : String) (amount : ν) :
    (field.enter browser (savedAmount currency shown amount)).normalizedValue =
      .obj [("amount", (Json.num amount).written browser.num.format), ("currency", .str currency),
        ("display_value", .str s!"{currency} {shown}")] := by
  have horder : List.Pairwise Before ["amount", "currency", "display_value"] := by
    unfold Before
    decide
  refine enter_obj horder fun kv hkv => ?_
  rcases List.mem_cons.mp hkv with rfl | hkv
  · exact canon_written_num amount
  · rcases List.mem_cons.mp hkv with rfl | hkv
    · rfl
    · obtain rfl := List.mem_singleton.mp hkv
      rfl

theorem enter_number (browser : ReviewBrowser ν) (field : ReviewField ν) (n : ν) :
    (field.enter browser (.obj [("value", .num n)])).normalizedValue =
      .obj [("value", (Json.num n).written browser.num.format)] := by
  refine enter_obj (List.pairwise_singleton _ _) fun kv hkv => ?_
  obtain rfl := List.mem_singleton.mp hkv
  exact canon_written_num n

theorem enter_date (browser : ReviewBrowser ν) (field : ReviewField ν) (s : String) :
    (field.enter browser (.obj [("value", .str s), ("display_value", .str s)])).normalizedValue =
      .obj [("value", .str s), ("display_value", .str s)] := by
  have horder : List.Pairwise Before ["value", "display_value"] := by
    unfold Before
    decide
  refine enter_obj horder fun kv hkv => ?_
  rcases List.mem_cons.mp hkv with rfl | hkv
  · rfl
  · obtain rfl := List.mem_singleton.mp hkv
    rfl

/-- A text that was read as an amount shows what the amount shows, unless it is the negative
zero. -/
theorem amountText_iff {raw : String} {amount : ν} (h : browser.num.number raw = some amount) :
    amountText browser raw amount = browser.toLocaleString amount ↔
      browser.isNegativeZero raw = false := by
  unfold amountText
  cases hzero : browser.isNegativeZero raw with
  | true =>
    rw [browser.number_negativeZero raw hzero] at h
    obtain rfl := Option.some.inj h
    rw [if_pos rfl]
    exact iff_of_false browser.negativeZeroText_ne nofun
  | false =>
    rw [if_neg Bool.false_ne_true]
    exact iff_of_true rfl rfl

/-- An amount that was entered has the shape of one if it is finite, and shows what the zero
shows if it is zero. -/
theorem savedAmount_shape_iff {raw : String} {amount : ν}
    (h : browser.num.number raw = some amount) (currency : String) :
    (∃ amount', Json.obj [("amount", (Json.num amount).written browser.num.format),
        ("currency", .str currency),
        ("display_value", .str s!"{currency} {amountText browser raw amount}")] =
      savedAmount currency (browser.toLocaleString amount') amount') ↔
      browser.num.isFinite amount = true ∧ browser.isNegativeZero raw = false := by
  rw [← written_num_iff, ← amountText_iff h]
  constructor
  · rintro ⟨amount', hshape⟩
    rcases Json.written_num_eq_or browser.num.format amount with hn | hn
    · rw [hn, savedAmount] at hshape
      simp only [Json.obj.injEq, List.cons.injEq, Prod.mk.injEq, Json.num.injEq, Json.str.injEq,
        true_and, and_true] at hshape
      obtain ⟨rfl, hshown⟩ := hshape
      -- the currency in front of the two texts is the same, so the texts are
      have htext : (currency ++ " " ++ amountText browser raw amount).toList =
          (currency ++ " " ++ browser.toLocaleString amount).toList :=
        congrArg String.toList hshown
      simp only [String.toList_append, List.append_cancel_left_eq] at htext
      exact ⟨hn, String.toList_injective htext⟩
    · rw [hn] at hshape
      cases hshape
  · rintro ⟨hfinite, hshown⟩
    rw [hfinite, hshown]
    exact ⟨amount, rfl⟩

/-- So has a number. -/
theorem number_shape_iff (n : ν) :
    (∃ n', Json.obj [("value", (Json.num n).written browser.num.format)] =
      .obj [("value", .num n')]) ↔ browser.num.isFinite n = true := by
  rw [← written_num_iff]
  constructor
  · rintro ⟨n', h⟩
    rcases Json.written_num_eq_or browser.num.format n with hn | hn
    · exact hn
    · rw [hn] at h
      cases h
  · intro hfinite
    rw [hfinite]
    exact ⟨n, rfl⟩

/-- An array or an object that was entered is one the field accepts. -/
theorem entered_isStructure (browser : ReviewBrowser ν) (field : ReviewField ν)
    {label raw type : String} (htype : type ∈ structuredFieldTypes) (hraw : trim raw ≠ "")
    {parsed : Json ν} (h : parseStructuredReviewDraft browser label raw type = .ok parsed) :
    IsStructure type (field.enter browser parsed).value := by
  cases hparse : browser.num.parse (trim raw) with
  | none =>
    unfold parseStructuredReviewDraft at h
    rw [if_neg hraw, hparse] at h
    cases h
  | some w =>
    obtain ⟨rfl, hstructure⟩ := (parseStructured_ok_iff htype hraw hparse).mp h
    -- what was parsed has its keys in order, so it is stored as it was written
    have hvalue : (field.enter browser parsed).normalizedValue =
        parsed.written browser.num.format := by
      show canon (parsed.written browser.num.format) = _
      rw [canon_written, JsNumbers.canon_of_parse hparse]
    rw [← isStructure_written_iff browser, ← hvalue] at hstructure
    rw [ReviewField.value_of_ne]
    · exact hstructure
    · intro hnull
      rw [hnull] at hstructure
      exact hstructure

/-- An amount that was entered comes back if it is finite and not the negative zero, which is
stored as the zero and shown as such. -/
theorem entered_amount_iff (browser : ReviewBrowser ν) (field : ReviewField ν) {raw : String}
    {amount : ν} (hread : browser.num.number raw = some amount) {entered : ReviewField ν}
    (hentered : entered = field.enter browser
      (savedAmount (reviewCurrency field) (amountText browser raw amount) amount)) :
    (entered.value = .null ∨ ∃ amount', entered.value =
      savedAmount (reviewCurrency entered) (browser.toLocaleString amount') amount') ↔
      browser.num.isFinite amount = true ∧ browser.isNegativeZero raw = false := by
  subst hentered
  have hnormalized := enter_savedAmount browser field (reviewCurrency field)
    (amountText browser raw amount) amount
  have hkept : reviewCurrency (field.enter browser (savedAmount (reviewCurrency field)
      (amountText browser raw amount) amount)) = reviewCurrency field := by
    rw [reviewCurrency, hnormalized]
    rfl
  rw [ReviewField.value_of_obj hnormalized, hkept, or_iff_right (fun hnull => by cases hnull),
    savedAmount_shape_iff hread]

/-- A number that was entered comes back if it is finite: JSON has no other numbers. -/
theorem entered_number_iff (browser : ReviewBrowser ν) (field : ReviewField ν) (n : ν) :
    ((field.enter browser (.obj [("value", .num n)])).value = .null ∨
      ∃ n', (field.enter browser (.obj [("value", .num n)])).value = .obj [("value", .num n')]) ↔
      browser.num.isFinite n = true := by
  rw [ReviewField.value_of_obj (enter_number browser field n),
    or_iff_right (fun hnull => by cases hnull), number_shape_iff]

/-- **A value that was entered comes back**, unless it is an infinite number or an amount of
negative zero.  The types are those of `parseReviewDraft`, in its order. -/
theorem entered_comesBack_iff (browser : ReviewBrowser ν) (field : ReviewField ν)
    (definition : Option TemplateFieldDefinition) {raw : String} (hraw : trim raw ≠ "")
    {parsed : Json ν} (h : parseReviewDraft browser field raw definition = .ok parsed) :
    ComesBack browser (field.enter browser parsed) definition ↔
      (getReviewFieldType browser field definition = "currency" ∨
          getReviewFieldType browser field definition = "number" →
        ∀ n, browser.num.number (trim raw) = some n → browser.num.isFinite n = true) ∧
      (getReviewFieldType browser field definition = "currency" →
        browser.isNegativeZero (trim raw) = false) := by
  have htype : getReviewFieldType browser (field.enter browser parsed) definition =
      getReviewFieldType browser field definition := rfl
  unfold ComesBack HasDraftShape
  rw [htype]
  unfold parseReviewDraft at h
  dsimp only at h
  rw [if_neg hraw] at h
  generalize getReviewFieldType browser field definition = type at h ⊢
  by_cases hstructured : type ∈ structuredFieldTypes
  · rw [if_pos hstructured] at h ⊢
    have hplain : ¬ (type = "currency" ∨ type = "number") := by
      rintro (rfl | rfl) <;> exact absurd hstructured (by decide)
    exact iff_of_true (Or.inr (entered_isStructure browser field hstructured hraw h))
      ⟨fun hc => absurd hc hplain, fun hc => absurd (Or.inl hc) hplain⟩
  rw [if_neg hstructured] at h ⊢
  by_cases hcurrency : type = "currency"
  · rw [if_pos hcurrency] at h ⊢
    cases hread : browser.num.number (trim raw) with
    | none =>
      rw [hread] at h
      cases h
    | some amount =>
      rw [hread] at h
      obtain rfl := Except.ok.inj h
      rw [entered_amount_iff browser field hread rfl]
      constructor
      · rintro ⟨hfinite, hzero⟩
        exact ⟨fun _ n hn => Option.some.inj hn ▸ hfinite, fun _ => hzero⟩
      · rintro ⟨hfinite, hzero⟩
        exact ⟨hfinite (Or.inl hcurrency) amount rfl, hzero hcurrency⟩
  rw [if_neg hcurrency] at h ⊢
  by_cases hdate : type = "date"
  · rw [if_pos hdate] at h ⊢
    obtain rfl := Except.ok.inj h
    rw [ReviewField.value_of_obj (enter_date browser field (trim raw))]
    refine iff_of_true (Or.inr ⟨_, trim_trim _, hraw, rfl⟩)
      ⟨fun hc => ?_, fun hc => absurd hc hcurrency⟩
    rcases hc with hc | hc
    · exact absurd hc hcurrency
    · exact absurd (hdate.symm.trans hc) (by decide)
  rw [if_neg hdate] at h ⊢
  by_cases hnumber : type = "number"
  · rw [if_pos hnumber] at h ⊢
    cases hread : browser.num.number (trim raw) with
    | none =>
      rw [hread] at h
      cases h
    | some n =>
      rw [hread] at h
      obtain rfl := Except.ok.inj h
      rw [entered_number_iff]
      exact ⟨fun hfinite =>
          ⟨fun _ m hm => Option.some.inj hm ▸ hfinite, fun hc => absurd hc hcurrency⟩,
        fun hall => hall.1 (Or.inr hnumber) n rfl⟩
  -- a truth value or a text always comes back
  have hplain : ¬ (type = "currency" ∨ type = "number") := not_or.mpr ⟨hcurrency, hnumber⟩
  rw [if_neg hnumber] at h ⊢
  refine iff_of_true (Or.inr ?_) ⟨fun hc => absurd hc hplain, fun hc => absurd hc hcurrency⟩
  by_cases hboolean : type = "boolean"
  · rw [if_pos hboolean] at h ⊢
    obtain rfl := Except.ok.inj h
    exact ⟨_, rfl⟩
  · rw [if_neg hboolean] at h ⊢
    obtain rfl := Except.ok.inj h
    rw [ReviewField.value_of_obj (enter_text browser field raw)]
    exact ⟨raw, hraw, rfl⟩

end Results

/-! ### A browser of digits -/

/-- What begins with anything but a digit is no digit. -/
theorem readDigit_cons {c : Char} {rest : List Char} (h : c.isDigit = false) :
    readDigit (c :: rest) = none := by
  cases rest with
  | nil =>
    have hno : ¬ (c.isDigit = true ∧ c.toNat - 48 < 10) := fun hdigit =>
      Bool.false_ne_true (h.symm.trans hdigit.1)
    exact dif_neg hno
  | cons _ _ => rfl

theorem number_oneDigit (s : String) :
    oneDigit.number s = readDigit (Trim.trim isJsSpace s.toList) := rfl

theorem number_compact_digit {v : Json (Fin 10)} {c : Char} {rest : List Char}
    (hhead : stringify oneDigit.format 0 0 v = c :: rest) (h : c.isDigit = false) :
    oneDigit.number (oneDigit.compact v) = none := by
  rw [number_oneDigit, JsNumbers.compact, String.toList_ofList, trim_stringify, hhead]
  exact readDigit_cons h

/-- A browser whose numbers are the digits. -/
def digitBrowser : ReviewBrowser (Fin 10) where
  num := oneDigit
  toLowerCase := id
  toLocaleString d := oneDigit.toStr d ++ ".00"
  negativeZeroText := "-0.00"
  isNegativeZero _ := false
  number_negativeZero _ h := nomatch h
  negativeZeroText_ne := by decide
  isNegativeZero_toStr _ := rfl
  number_trim s := by
    rw [number_oneDigit, number_oneDigit, toList_trim, Trim.trim_idem]
  number_true := by decide
  number_false := by decide
  number_arr items := by
    cases items with
    | nil => exact number_compact_digit rfl (by decide)
    | cons v vs => exact number_compact_digit rfl (by decide)
  number_obj entries := by
    cases entries with
    | nil => exact number_compact_digit rfl (by decide)
    | cons kv kvs => exact number_compact_digit rfl (by decide)

/-- A field without a value. -/
def emptyField (fieldName dataType : String) : ReviewField (Fin 10) where
  fieldName := fieldName
  label := fieldName
  dataType := some dataType
  normalizedValue := .null
  extractedValue := .null
  normalized_canon := rfl
  extracted_canon := rfl

/-- An amount of seven, entered in an empty field, comes back as it was entered. -/
theorem entered_comesBack_seven :
    ComesBack digitBrowser ((emptyField "total" "currency").enter digitBrowser
      (savedAmount "USD" "7.00" 7)) none :=
  (entered_comesBack_iff digitBrowser (emptyField "total" "currency") none (by decide)
    (show parseReviewDraft digitBrowser (emptyField "total" "currency") "7" none =
      .ok (savedAmount "USD" "7.00" 7) from rfl)).mpr ⟨fun _ _ _ => rfl, fun _ => rfl⟩

end ExtractFlow
