import ExtractFlow.Executor

/-!
# Masks in provider results

`sanitize_redacted_provider_results` (`worker/app/services/executor.py`): what a provider
returned for a redacted text is cleared where its evidence has the mask.  The guard looks at the
cited text and at an extracted value that is itself a text.  A result has two values, and either
may be a list or an object with texts inside.

## Main definitions

* `PyVal.texts` — the texts in a value, at any depth, keys included.
* `ExtractionFieldResult.HasMask` — the mask is in the citation or in a value.
* `Sanitized` — what is promised of a result.

## Main results

* `sanitized_iff` — which results are sanitized.
* `masks_cleared_iff` — when all are.
-/

namespace ExtractFlow

/-! ### Texts inside a value -/

namespace PyVal

mutual

/-- The texts in a value, at any depth of lists and objects; the keys of objects are not
among them. -/
def texts : PyVal → List String
  | .str s => [s]
  | .list xs => textsList xs
  | .tuple xs => textsList xs
  | .dict kvs => textsItems kvs
  | .view _ kvs => textsItems kvs
  | .none => []
  | .bool _ => []
  | .int _ => []
  | .float _ => []
  | .function _ => []
  | .object _ => []

/-- The texts in the items of a list. -/
def textsList : List PyVal → List String
  | [] => []
  | x :: xs => texts x ++ textsList xs

/-- The keys of an object, and the texts in its entries. -/
def textsItems : List (String × PyVal) → List String
  | [] => []
  | (k, x) :: kvs => k :: texts x ++ textsItems kvs

end

variable {s : String}

end PyVal

/-! ### Masks -/

/-- The mask is in the value: some text in it has a masked letter. -/
def PyVal.HasMask (v : PyVal) : Prop := ∃ s ∈ v.texts, maskChar ∈ s.toList

instance (v : PyVal) : Decidable v.HasMask :=
  inferInstanceAs (Decidable (∃ s ∈ v.texts, maskChar ∈ s.toList))

/-- The mask is in the citation, in the extracted value or in the normalized one. -/
def ExtractionFieldResult.HasMask (r : ExtractionFieldResult) : Prop :=
  maskChar ∈ r.sourceText.toList ∨ r.extractedValue.HasMask ∨ r.normalizedValue.HasMask

instance (r : ExtractionFieldResult) : Decidable r.HasMask :=
  inferInstanceAs (Decidable (_ ∨ _ ∨ _))

/-- **What is promised of a result**: one with the mask is cleared and flagged, another one is
kept. -/
def Sanitized (r r' : ExtractionFieldResult) : Prop :=
  (r.HasMask → r'.extractedValue.isNone = true ∧ r'.normalizedValue.isNone = true ∧
    r'.requiresReview = true) ∧
  (¬ r.HasMask → r' = r)

section Sanitizing

variable {r : ExtractionFieldResult}

/-- A value that is none has no mask. -/
theorem not_hasMask_of_isNone {v : PyVal} (h : v.isNone = true) : ¬ v.HasMask := by
  rintro ⟨s, hs, -⟩
  cases v with
  | none => cases hs
  | bool | int | float | str | list | tuple | dict | function | view | object => cases h

/-- The guard sees masks only. -/
theorem hasMask_of_isMasked (h : r.isMasked = true) : r.HasMask := by
  rcases Bool.or_eq_true _ _ |>.mp h with hsource | hvalue
  · exact Or.inl (of_decide_eq_true hsource)
  · refine Or.inr (Or.inl ?_)
    cases hextracted : r.extractedValue with
    | str s =>
      rw [hextracted] at hvalue
      exact ⟨s, List.mem_singleton_self s, of_decide_eq_true hvalue⟩
    | none | bool | int | float | list | tuple | dict | function | view | object =>
      rw [hextracted] at hvalue
      cases hvalue

/-- What the guard does not see is kept. -/
theorem sanitize_of_not_masked (h : ¬ r.isMasked = true) : sanitizeRedactedProviderResult r = r :=
  if_neg h

/-- What it sees is cleared. -/
theorem sanitize_of_masked (h : r.isMasked = true) :
    (sanitizeRedactedProviderResult r).extractedValue = .none ∧
      (sanitizeRedactedProviderResult r).normalizedValue = .none ∧
      (sanitizeRedactedProviderResult r).requiresReview = true := by
  unfold sanitizeRedactedProviderResult
  rw [if_pos h]
  exact ⟨rfl, rfl, rfl⟩

/-- A result that is cleared though the guard does not see it has its mask in the citation,
which the guard sees. -/
theorem isMasked_of_cleared (hmask : r.HasMask) (hextracted : r.extractedValue.isNone = true)
    (hnormalized : r.normalizedValue.isNone = true) : r.isMasked = true := by
  rcases hmask with hsource | hvalue | hvalue
  · exact Bool.or_eq_true _ _ |>.mpr (Or.inl (decide_eq_true hsource))
  · exact absurd hvalue (not_hasMask_of_isNone hextracted)
  · exact absurd hvalue (not_hasMask_of_isNone hnormalized)

/-- **Which results are sanitized**: those whose mask the guard sees, in the cited text or in an
extracted value that is a text. -/
theorem sanitized_iff (r : ExtractionFieldResult) :
    Sanitized r (sanitizeRedactedProviderResult r) ↔ (r.HasMask → r.isMasked = true) := by
  by_cases hmasked : r.isMasked = true
  · obtain ⟨hextracted, hnormalized, hreview⟩ := sanitize_of_masked hmasked
    refine iff_of_true ⟨fun _ => ⟨?_, ?_, hreview⟩, fun h => ?_⟩ fun _ => hmasked
    · rw [hextracted]
      rfl
    · rw [hnormalized]
      rfl
    · exact absurd (hasMask_of_isMasked hmasked) h
  · unfold Sanitized
    rw [sanitize_of_not_masked hmasked, and_iff_left fun _ => rfl]
    constructor
    · intro hcleared hmask
      obtain ⟨hextracted, hnormalized, -⟩ := hcleared hmask
      exact isMasked_of_cleared hmask hextracted hnormalized
    · intro hseen hmask
      exact absurd (hseen hmask) hmasked

end Sanitizing

/-- **When no mask leaks into the data**: when every result with the mask has it in its citation,
or in an extracted value that is a text. -/
theorem masks_cleared_iff (results : List ExtractionFieldResult) :
    List.Forall₂ Sanitized results (results.map sanitizeRedactedProviderResult) ↔
      ∀ r ∈ results, r.HasMask → r.isMasked = true := by
  rw [List.forall₂_map_right_iff, List.forall₂_same]
  exact forall₂_congr fun r _ => sanitized_iff r

/-- A result with the mask inside a list. -/
def maskedOwners : ExtractionFieldResult where
  fieldName := "owners"
  label := "Owners"
  dataType := .list
  extractedValue := .list [.str "****"]
  normalizedValue := .dict [("value", .list [.str "****"])]
  sourceText := "Owners: see the register"

/-- **A mask inside a list leaks**: the result is kept as it is. -/
theorem mask_in_list_leaks :
    maskedOwners.HasMask ∧ (sanitizeRedactedProviderResult maskedOwners).normalizedValue.HasMask ∧
      ¬ List.Forall₂ Sanitized [maskedOwners]
        ([maskedOwners].map sanitizeRedactedProviderResult) := by
  have hmask : maskedOwners.HasMask := by decide
  refine ⟨hmask, by decide, fun h => ?_⟩
  obtain ⟨hsanitized, -⟩ := List.forall₂_cons.mp h
  have hcleared := (hsanitized.1 hmask).1
  cases hcleared

end ExtractFlow
