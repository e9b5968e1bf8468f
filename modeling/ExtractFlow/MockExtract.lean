import ExtractFlow.FieldValidation

/-!
# The mock extractor

`mock_extract_fields` (`shared/extraction_core/mock_extract.py`): for each field
of a template the first amount, date or number of the text, or the text itself
when it mentions the field.  The dry run calls it directly, the worker through
the mock adapter.

The regular expressions are written out as matchers on the letters from a
position on.  None of them can match in two ways that the search would tell
apart, except that the fraction of a number is given up where a letter follows
it.

## Main definitions

* `MockLibrary` — the character classes of `re`, and `float`.
* `searchFrom` — `re.search` by a matcher.
* `currencyMatch`, `dateMatch`, `numberMatch` — the patterns of the source.
* `mockExtractField`, `mockExtractFields`.

## Main results

* `mockExtractField_isJson` — a mock result holds JSON values.
* `mockExtractField_note` — its note is one of two.
-/

namespace ExtractFlow

/-! ### Searching -/

/-- What the extractor takes from Python’s tables: two classes of letters, and the value of a
numeral. -/
structure MockLibrary where
  /-- `\d`. -/
  isDecimal : Char → Bool
  /-- `\w`. -/
  isWord : Char → Bool
  /-- `float(s)` of a matched number. -/
  parseFloat : List Char → PyFloat

/-- `re.search`: the first position, from the left, where the matcher succeeds.  A
matcher sees the letter before the position and the text from it on. -/
def searchFrom {α : Type} (matcher : Option Char → List Char → Option α) :
    Option Char → List Char → Option α
  | before, [] => matcher before []
  | before, c :: cs =>
      match matcher before (c :: cs) with
      | some found => some found
      | none => searchFrom matcher (some c) cs

/-- `\b` between two letters, either of which may be missing. -/
def MockLibrary.isBoundary (lib : MockLibrary) (before after : Option Char) : Bool :=
  before.any lib.isWord != after.any lib.isWord

/-- `(?:\.\d{1,2})?`, as far as it goes. -/
def centsOf (lib : MockLibrary) : List Char → List Char
  | '.' :: d :: rest =>
      if lib.isDecimal d then '.' :: d :: (rest.take 1).takeWhile lib.isDecimal else []
  | _ => []

/-- `\$?\s?(\d[\d,]*(?:\.\d{1,2})?)`, matched at a position: the whole match, and the amount
in it. -/
def currencyMatch (lib : MockLibrary) (_before : Option Char) (cs : List Char) :
    Option (List Char × List Char) :=
  let dollar := (cs.take 1).takeWhile (· == '$')
  let rest := cs.drop dollar.length
  let space := (rest.take 1).takeWhile isPySpace
  match rest.drop space.length with
  | d :: tail =>
      if lib.isDecimal d then
        let digits := tail.takeWhile fun c => lib.isDecimal c || c == ','
        let amount := d :: digits ++ centsOf lib (tail.drop digits.length)
        some (dollar ++ space ++ amount, amount)
      else none
  | [] => none

/-- `\b(20\d{2}-\d{2}-\d{2})\b`, matched at a position behind the letter `before`. -/
def dateMatch (lib : MockLibrary) (before : Option Char) (cs : List Char) : Option (List Char) :=
  match cs with
  | '2' :: '0' :: y :: y' :: '-' :: m :: m' :: '-' :: d :: d' :: rest =>
      if lib.isBoundary before (some '2') && [y, y', m, m', d, d'].all lib.isDecimal &&
          lib.isBoundary (some d') rest.head? then
        some ['2', '0', y, y', '-', m, m', '-', d, d']
      else none
  | _ => none

/-- The digits after the point of a number, when there is one. -/
def fractionOf (lib : MockLibrary) : List Char → List Char
  | '.' :: rest => rest.takeWhile lib.isDecimal
  | _ => []

/-- `\b(\d+(?:\.\d+)?)\b`, matched at a position: with its fraction if no letter follows, and
without it otherwise. -/
def numberMatch (lib : MockLibrary) (before : Option Char) (cs : List Char) :
    Option (List Char) :=
  let whole := cs.takeWhile lib.isDecimal
  let rest := cs.drop whole.length
  let fraction := fractionOf lib rest
  if whole.isEmpty || !lib.isBoundary before whole.head? then none
  else if !fraction.isEmpty &&
      lib.isBoundary fraction.getLast? (rest.drop (fraction.length + 1)).head? then
    some (whole ++ '.' :: fraction)
  -- a letter follows the fraction: the match ends before the point
  else if lib.isBoundary whole.getLast? rest.head? then some whole
  else none

/-- `sub in text`. -/
def containsChars (sub : List Char) : List Char → Bool
  | [] => sub.isEmpty
  | c :: cs => sub.isPrefixOf (c :: cs) || containsChars sub cs

/-! ### One field -/

/-- What the extractor finds for a field: two values, the text they were found in, and
a confidence. -/
structure MockEvidence where
  extracted : PyVal := .none
  normalized : PyVal := .none
  source : String := ""
  confidence : PyFloat := .fin (mkRat 3152519739159347 9007199254740992)

/-- The name of a field as words. -/
def nameAsWords (name : String) : List Char :=
  name.toList.map fun c => if c = '_' then ' ' else c

/-- The text, in lower case, mentions the name of the field. -/
def mentionsName (lc : LowerCase) (text : List Char) (field : ExtractionFieldDefinition) : Bool :=
  containsChars (nameAsWords field.name) (lc.lowerChars text)

/-- The text, in lower case, mentions the label or the name of the field. -/
def mentionsField (lc : LowerCase) (text : List Char) (field : ExtractionFieldDefinition) : Bool :=
  containsChars (lc.lowerChars field.label.toList) (lc.lowerChars text) ||
    mentionsName lc text field

/-- `field.validation.currency or "USD"`. -/
def mockCurrency (rule : ValidationRule) : String :=
  let declared := rule.currency.getD ""
  if declared = "" then "USD" else declared

/-- What `mock_extract_field` finds in the text. -/
def mockEvidence (lib : MockLibrary) (lc : LowerCase) (text : List Char)
    (field : ExtractionFieldDefinition) : MockEvidence :=
  match field.type with
  | .currency =>
      match searchFrom (currencyMatch lib) none text with
      | some (whole, amount) =>
          let shown := String.ofList (stripChars whole)
          { extracted := .str shown, source := shown
            normalized := .dict
              [("amount", .float (lib.parseFloat (amount.filter (· != ',')))),
               ("currency", .str (mockCurrency field.validation)), ("display_value", .str shown)]
            confidence := .fin (mkRat 3242591731706757 4503599627370496) }
      | none => {}
  | .date =>
      match searchFrom (dateMatch lib) none text with
      | some date =>
          let shown := String.ofList date
          { extracted := .str shown, source := shown
            normalized := .dict [("value", .str shown), ("display_value", .str shown)]
            confidence := .fin (mkRat 3152519739159347 4503599627370496) }
      | none => {}
  | .boolean =>
      if mentionsName lc text field then
        { extracted := .str "true", normalized := .bool true, source := field.name
          confidence := .fin (mkRat 5404319552844595 9007199254740992) }
      else {}
  | .number =>
      match searchFrom (numberMatch lib) none text with
      | some number =>
          let shown := String.ofList number
          { extracted := .str shown, source := shown
            normalized := .dict [("value", .float (lib.parseFloat number))]
            confidence := .fin (mkRat 5854679515581645 9007199254740992) }
      | none => {}
  | _ =>
      if mentionsField lc text field then
        let shown := String.ofList (stripChars (text.take 240))
        { extracted := .str shown, source := shown
          normalized := .dict [("value", .str shown)]
          confidence := .fin (mkRat 5224175567749775 9007199254740992) }
      else {}

/-- The note on a result with evidence. -/
def mockUsedNote : String := "Mock extraction used."

/-- The note on a result without evidence. -/
def mockMissedNote : String := "No value identified by mock extractor."

/-- `mock_extract_field`: the result for one field, which asks for review when the confidence is
below three quarters. -/
def mockExtractField (lib : MockLibrary) (lc : LowerCase) (text : List Char)
    (field : ExtractionFieldDefinition) : ExtractionFieldResult :=
  let found := mockEvidence lib lc text field
  { fieldName := field.name, label := field.label, dataType := field.type
    extractedValue := found.extracted
    normalizedValue := found.normalized
    confidenceScore := found.confidence
    sourceText := found.source
    pageNumber := if found.source = "" then none else some 1
    locationReference := if found.source = "" then "" else "Page 1"
    extractionNotes := if found.source = "" then mockMissedNote else mockUsedNote
    requiresReview := found.confidence.lt (.fin (mkRat 3 4)) }

/-- `mock_extract_fields`: a result for each extracted field of the template, in its order. -/
def mockExtractFields (lib : MockLibrary) (lc : LowerCase) (text : String)
    (template : ExtractionTemplate) : List ExtractionFieldResult :=
  template.extractedFields.map (mockExtractField lib lc text.toList)

/-! ### The results -/

theorem mockEvidence_isJson (lib : MockLibrary) (lc : LowerCase) (text : List Char)
    (field : ExtractionFieldDefinition) :
    (mockEvidence lib lc text field).extracted.isJson = true ∧
      (mockEvidence lib lc text field).normalized.isJson = true := by
  unfold mockEvidence
  split
  case h_1 => split <;> simp [PyVal.isJson, PyVal.isJsonItems]
  case h_2 => split <;> simp [PyVal.isJson, PyVal.isJsonItems]
  case h_3 => split <;> simp [PyVal.isJson]
  case h_4 => split <;> simp [PyVal.isJson, PyVal.isJsonItems]
  case h_5 => split <;> simp [PyVal.isJson, PyVal.isJsonItems]

/-- **A mock result holds JSON values**, so storing it changes nothing. -/
theorem mockExtractField_isJson (lib : MockLibrary) (lc : LowerCase) (text : List Char)
    (field : ExtractionFieldDefinition) :
    (mockExtractField lib lc text field).extractedValue.isJson = true ∧
      (mockExtractField lib lc text field).normalizedValue.isJson = true :=
  mockEvidence_isJson lib lc text field

/-- The note of a mock result says either that something was found or that nothing was. -/
theorem mockExtractField_note (lib : MockLibrary) (lc : LowerCase) (text : List Char)
    (field : ExtractionFieldDefinition) :
    (mockExtractField lib lc text field).extractionNotes = mockMissedNote ∨
      (mockExtractField lib lc text field).extractionNotes = mockUsedNote := by
  simp only [mockExtractField]
  split
  · exact Or.inl rfl
  · exact Or.inr rfl

end ExtractFlow
