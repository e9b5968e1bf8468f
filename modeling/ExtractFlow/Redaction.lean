import Mathlib.Data.List.Forall2
import ExtractFlow.TemplateContract

/-!
# Redaction of document text

`redact_text` (`worker/app/services/redaction.py`): the spans the recognizers
find for the configured entity types, merged where they touch, and masked letter
by letter.  The recognizers come from a library; which entity types they exist
for is decided here.

## Main definitions

* `mergeSpans`, `maskText`, `redactText`.

## Main results

* `maskText_masked` — masking keeps every letter or replaces it by the mask.
-/

namespace ExtractFlow

/-- `MASK_CHAR`. -/
def maskChar : Char := '*'

/-- A recognized span: the letters from `start` up to `stop`, which is not included, and what they
were recognized as. -/
structure RedactionSpan where
  start : ℕ
  stop : ℕ
  entityType : String
  deriving DecidableEq, Repr, Inhabited

/-- `RedactionResult`: the masked text, and how many spans of each type were masked. -/
structure RedactionResult where
  text : String
  entityCounts : List (String × ℕ)
  spanCount : ℕ
  deriving Repr, Inhabited

/-- The entity types of `_RECOGNIZERS`. -/
def supportedEntityTypes : List String :=
  ["EMAIL_ADDRESS", "PHONE_NUMBER", "CREDIT_CARD", "US_SSN", "IBAN_CODE", "IP_ADDRESS"]

/-! ### Spans -/

/-- The order of `_merge_spans`: by start, longer spans first. -/
def RedactionSpan.before (a b : RedactionSpan) : Bool :=
  if a.start = b.start then b.stop ≤ a.stop else a.start < b.start

/-- One turn of the merging loop; the merged spans are held in reverse. -/
def mergeSpan (merged : List RedactionSpan) (span : RedactionSpan) : List RedactionSpan :=
  match merged with
  | last :: rest =>
      if span.start ≤ last.stop then { last with stop := max last.stop span.stop } :: rest
      else span :: last :: rest
  | [] => [span]

/-- `_merge_spans`: the spans in order of their starts, where those that overlap or touch are made
one. -/
def mergeSpans (spans : List RedactionSpan) : List RedactionSpan :=
  ((spans.mergeSort RedactionSpan.before).foldl mergeSpan []).reverse

/-! ### Masking -/

/-- Mask the letters of one span. -/
def maskSpan (chars : List Char) (span : RedactionSpan) : List Char :=
  chars.zipIdx.map fun (c, i) =>
    if span.start ≤ i ∧ i < span.stop ∧ isPySpace c = false then maskChar else c

/-- `_mask_text`: every letter of a span is replaced by the mask, and no other letter. -/
def maskText (text : String) (spans : List RedactionSpan) : String :=
  String.ofList (spans.foldl maskSpan text.toList)

/-! ### Redaction -/

/-- The spans of the configured entity types. -/
def recognizedSpans (analyze : String → String → List (ℕ × ℕ)) (text : String)
    (entityTypes : List String) : Except PyErr (List RedactionSpan) := do
  let spans ← entityTypes.mapM fun entityType =>
    if entityType ∈ supportedEntityTypes then
      .ok ((analyze entityType text).map fun (start, stop) => ⟨start, stop, entityType⟩)
    else .error (.valueError s!"Unsupported Presidio redaction entity type: {entityType}.")
  return spans.flatten

/-- `redact_text`: the text with the recognized spans masked, and the counts of these by type. -/
def redactText (analyze : String → String → List (ℕ × ℕ)) (text : String)
    (entityTypes : List String) : Except PyErr RedactionResult := do
  let spans ← recognizedSpans analyze text entityTypes
  let merged := mergeSpans spans
  let types := (merged.map RedactionSpan.entityType).reverse.dedup.reverse
  return {
    text := maskText text merged
    entityCounts := types.map fun t => (t, (merged.filter (·.entityType == t)).length)
    spanCount := merged.length }

/-! ### What masking does -/

/-- A letter as masking may leave it. -/
def MaskedAs (c d : Char) : Prop := d = c ∨ d = maskChar

theorem forall₂_maskedAs_self : ∀ cs : List Char, List.Forall₂ MaskedAs cs cs := by
  intro cs
  induction cs with
  | nil => exact .nil
  | cons c cs ih => exact .cons (Or.inl rfl) ih

/-- Masking one more span. -/
theorem maskSpan_masked (span : RedactionSpan) : ∀ {cs ds : List Char} (k : ℕ),
    List.Forall₂ MaskedAs cs ds →
    List.Forall₂ MaskedAs cs ((ds.zipIdx k).map fun (c, i) =>
      if span.start ≤ i ∧ i < span.stop ∧ isPySpace c = false then maskChar else c) := by
  intro cs ds k h
  induction h generalizing k with
  | nil => exact .nil
  | @cons c d cs ds hcd _ ih =>
    refine .cons ?_ (ih (k + 1))
    dsimp only
    split
    · exact Or.inr rfl
    · exact hcd

/-- **Masking keeps every letter or replaces it by the mask**, so offsets into the
text stay what they are. -/
theorem maskText_masked (text : String) (spans : List RedactionSpan) :
    List.Forall₂ MaskedAs text.toList (maskText text spans).toList := by
  have hfold : ∀ (spans : List RedactionSpan) (cs : List Char),
      List.Forall₂ MaskedAs text.toList cs →
      List.Forall₂ MaskedAs text.toList (spans.foldl maskSpan cs) := by
    intro spans
    induction spans with
    | nil => intro cs h; exact h
    | cons span spans ih => intro cs h; exact ih _ (maskSpan_masked span 0 h)
  rw [maskText, String.toList_ofList]
  exact hfold spans _ (forall₂_maskedAs_self _)

end ExtractFlow
