import ExtractFlow.Lib.FormEncoding
import ExtractFlow.Lib.JsValues

/-!
# The address of the workspace

The page keeps the job, the result and the status filter it shows in the query of its
address (`frontend/src/lib/workspace-url.ts`), and reads them from there when it is
loaded.  `buildWorkspaceSearch` writes them with `URLSearchParams`, leaving out what is
not there; `parseWorkspaceSearch` takes the numbers for what `Number` makes of them.
In between the browser makes an address of what was written, and escapes what may not
stand in a query.

## Main definitions

* `browserBytes` — the bytes `URLSearchParams` leaves as they are.
* `WorkspaceUrlState`, `parseWorkspaceSearch`, `buildWorkspaceSearch`.
* `locationSearch` — the query of the address that the page was given.

## Main results

* `searchParams_build` — the parameters of a written address.
* `locationSearch_build` — the browser leaves a written address as it is.
* `build_comesBack_iff` — which states come back from their address.
-/

namespace ExtractFlow

open Js FormEncoding

/-! ### `URLSearchParams` -/

/-- Letters, digits and `*-._`. -/
def browserSafe (b : ℕ) : Bool :=
  (0x30 ≤ b && b ≤ 0x39) || (0x41 ≤ b && b ≤ 0x5A) || (0x61 ≤ b && b ≤ 0x7A) ||
    b == 0x2A || b == 0x2D || b == 0x2E || b == 0x5F

theorem browserSafe_ascii : ∀ b, browserSafe b = true → b < 0x80 := by
  intro b h
  simp only [browserSafe, Bool.or_eq_true, Bool.and_eq_true, decide_eq_true_eq, beq_iff_eq] at h
  omega

theorem browserSafe_plain : ∀ b, browserSafe b = true →
    b ≠ 0x20 ∧ b ≠ 0x25 ∧ b ≠ 0x26 ∧ b ≠ 0x2B ∧ b ≠ 0x3D := by
  intro b h
  simp only [browserSafe, Bool.or_eq_true, Bool.and_eq_true, decide_eq_true_eq, beq_iff_eq] at h
  omega

/-- The bytes that `URLSearchParams` writes as they are, without an escape. -/
def browserBytes : SafeBytes where
  safe := browserSafe
  ascii := browserSafe_ascii
  plain := browserSafe_plain

/-- A search without its question mark. -/
def dropQuestionMark (search : String) : String :=
  match search.toList with
  | '?' :: rest => String.ofList rest
  | _ => search

/-- `new URLSearchParams(search)`. -/
def searchParams (search : String) : List (String × String) := parse (dropQuestionMark search)

/-- `params.get(name)`. -/
def getParam (params : List (String × String)) (name : String) : Option String :=
  (params.find? fun pair => pair.1 == name).map Prod.snd

/-! ### The address -/

/-- `WorkspaceUrlState`: what the page keeps in its address, each part only if it is set. -/
structure WorkspaceUrlState (ν : Type) where
  jobId : Option ν
  resultId : Option ν
  status : Option String

variable {ν : Type} (num : JsNumbers ν)

/-- A parameter as a number: nothing where it is empty or no number. -/
def numberParam : Option String → Option ν
  | some param => if param = "" then none else num.number param
  | none => none

/-- `parseWorkspaceSearch`: the first parameter of each name, the numbers as `Number` reads them. -/
def parseWorkspaceSearch (search : String) : WorkspaceUrlState ν :=
  let params := searchParams search
  { jobId := numberParam num (getParam params "job")
    resultId := numberParam num (getParam params "result")
    status := getParam params "status" }

/-- An empty status is left out of the address. -/
def shownStatus (status : Option String) : Option String := status.filter (· != "")

/-- The parameters that are set. -/
def workspaceParams (state : WorkspaceUrlState ν) : List (String × String) :=
  (state.jobId.map fun id => ("job", num.toStr id)).toList ++
    (state.resultId.map fun id => ("result", num.toStr id)).toList ++
    ((shownStatus state.status).map fun status => ("status", status)).toList

/-- `buildWorkspaceSearch`: the parameters that are set, or no query at all where none is. -/
def buildWorkspaceSearch (state : WorkspaceUrlState ν) : String :=
  let serialized := serialize browserBytes (workspaceParams num state)
  if serialized.isEmpty then "" else "?" ++ asciiText serialized

/-- A byte that stands for itself in a query. -/
def keptInQuery (b : ℕ) : Bool :=
  0x21 ≤ b && b ≤ 0x7E && b != 0x22 && b != 0x23 && b != 0x27 && b != 0x3C && b != 0x3E

/-- A byte of a query, escaped where it has to be. -/
def queryByte (b : ℕ) : List ℕ :=
  if keptInQuery b then [b] else [0x25, hexDigit (b / 0x10), hexDigit (b % 0x10)]

/-- `window.location.search`, after `history.replaceState` with this search behind the
path: tabs and line breaks go, a fragment is no part of it, and what may not stand in a
query is escaped. -/
def locationSearch (search : String) : String :=
  let query := (search.toList.filter fun c =>
    c.toNat != 0x09 && c.toNat != 0x0A && c.toNat != 0x0D).takeWhile fun c => c.toNat != 0x23
  if query = ['?'] then "" else asciiText ((utf8 query).flatMap queryByte)

@[simp] theorem shownStatus_shownStatus (status : Option String) :
    shownStatus (shownStatus status) = shownStatus status := by
  simp [shownStatus, Option.filter_filter]

/-! ### What is written is read -/

theorem dropQuestionMark_cons (s : String) : dropQuestionMark ("?" ++ s) = s := by
  unfold dropQuestionMark
  rw [String.toList_append]
  exact String.ofList_toList

/-- Nothing is written only for no parameters. -/
theorem serialize_isEmpty {pairs : List (String × String)}
    (h : (serialize browserBytes pairs).isEmpty = true) : pairs = [] := by
  have hread := parse_serialize browserBytes pairs
  rw [List.isEmpty_iff.mp h] at hread
  exact hread.symm

/-- **The parameters of a written address are those that were set**, whatever the
status contains. -/
theorem searchParams_build (state : WorkspaceUrlState ν) :
    searchParams (buildWorkspaceSearch num state) = workspaceParams num state := by
  unfold buildWorkspaceSearch searchParams
  simp only
  split
  · next hempty =>
    rw [serialize_isEmpty hempty]
    rfl
  · rw [dropQuestionMark_cons, parse_serialize]

/-- The text of a number is a number again, and not empty. -/
theorem numberParam_toStr (id : ν) : numberParam num (some (num.toStr id)) = some id := by
  have hne : num.toStr id ≠ "" := by
    intro hempty
    -- the empty text is that of nought, which is not empty
    have hnumber := num.number_toStr id
    rw [hempty, num.number_blank "" rfl, Option.some.injEq] at hnumber
    have hliteral := num.literal_toStr num.zero num.isFinite_zero
    rw [hnumber, hempty] at hliteral
    cases hliteral
  rw [numberParam, if_neg hne, num.number_toStr]

theorem getParam_job (state : WorkspaceUrlState ν) :
    getParam (workspaceParams num state) "job" = state.jobId.map num.toStr := by
  obtain ⟨jobId, resultId, status⟩ := state
  unfold getParam workspaceParams
  cases jobId <;> cases resultId <;> cases shownStatus status <;> simp

theorem getParam_result (state : WorkspaceUrlState ν) :
    getParam (workspaceParams num state) "result" = state.resultId.map num.toStr := by
  obtain ⟨jobId, resultId, status⟩ := state
  unfold getParam workspaceParams
  cases jobId <;> cases resultId <;> cases shownStatus status <;> simp

theorem getParam_status (state : WorkspaceUrlState ν) :
    getParam (workspaceParams num state) "status" = shownStatus state.status := by
  obtain ⟨jobId, resultId, status⟩ := state
  unfold getParam workspaceParams
  cases jobId <;> cases resultId <;> cases shownStatus status <;> simp

theorem numberParam_map_toStr (id : Option ν) :
    numberParam num (id.map num.toStr) = id := by
  cases id with
  | none => rfl
  | some id => exact numberParam_toStr num id

/-- **The address of a state read again**: only an empty status is lost. -/
theorem parse_build (state : WorkspaceUrlState ν) :
    parseWorkspaceSearch num (buildWorkspaceSearch num state) =
      { state with status := shownStatus state.status } := by
  unfold parseWorkspaceSearch
  simp only [searchParams_build, getParam_job, getParam_result, getParam_status,
    numberParam_map_toStr]

theorem flatMap_queryByte {bs : List ℕ} (h : ∀ b ∈ bs, keptInQuery b = true) :
    bs.flatMap queryByte = bs := by
  induction bs with
  | nil => rfl
  | cons b bs ih =>
    rw [List.flatMap_cons, ih fun x hx => h x (List.mem_cons_of_mem b hx), queryByte,
      if_pos (h b List.mem_cons_self), List.singleton_append]

/-- An address of bytes that stand for themselves is left as it is. -/
theorem locationSearch_asciiText {bs : List ℕ} (h : ∀ b ∈ bs, keptInQuery b = true)
    (hmark : bs ≠ [0x3F]) : locationSearch (asciiText bs) = asciiText bs := by
  have hbounds : ∀ b ∈ bs, 0x21 ≤ b ∧ b < 0x7F ∧ b ≠ 0x23 := by
    intro b hb
    have hkept := h b hb
    simp only [keptInQuery, Bool.and_eq_true, decide_eq_true_eq, bne_iff_ne, ne_eq] at hkept
    omega
  have hchars : ∀ c ∈ bs.map Char.ofNat, 0x21 ≤ c.toNat ∧ c.toNat ≠ 0x23 := by
    intro c hc
    obtain ⟨b, hb, rfl⟩ := List.mem_map.mp hc
    have hb := hbounds b hb
    rw [toNat_ofNat (by omega)]
    omega
  -- Nothing is cut off and no white space is dropped, so every byte goes through the escape, which
  -- keeps it.
  have hclean : ((asciiText bs).toList.filter fun c =>
      c.toNat != 0x09 && c.toNat != 0x0A && c.toNat != 0x0D).takeWhile
        (fun c => c.toNat != 0x23) = (asciiText bs).toList := by
    rw [asciiText, String.toList_ofList, List.filter_eq_self.mpr, List.takeWhile_eq_self_iff.mpr]
    · intro c hc
      have hc := hchars c hc
      simp only [bne_iff_ne, ne_eq]
      omega
    · intro c hc
      have hc := hchars c hc
      simp only [Bool.and_eq_true, bne_iff_ne, ne_eq]
      omega
  have hne : (asciiText bs).toList ≠ ['?'] := by
    intro heq
    have hbytes := utf8_asciiText fun b hb => (hbounds b hb).2.1.trans (by omega : 0x7F < 0x80)
    rw [heq] at hbytes
    exact hmark hbytes.symm
  unfold locationSearch
  rw [hclean]
  simp only
  rw [if_neg hne, utf8_asciiText fun b hb => (hbounds b hb).2.1.trans (by omega : 0x7F < 0x80),
    flatMap_queryByte h]

/-- A written address is of bytes that stand for themselves. -/
theorem keptInQuery_serialize {pairs : List (String × String)} {b : ℕ}
    (h : b ∈ serialize browserBytes pairs) : keptInQuery b = true := by
  have hkept : 0x21 ≤ b ∧ b ≤ 0x7E ∧ b ≠ 0x22 ∧ b ≠ 0x23 ∧ b ≠ 0x27 ∧ b ≠ 0x3C ∧ b ≠ 0x3E := by
    rcases mem_serialize browserBytes h with rfl | rfl | rfl | rfl | hsafe | ⟨d, hd, rfl⟩
    · omega
    · omega
    · omega
    · omega
    · simp only [browserBytes, browserSafe, Bool.or_eq_true, Bool.and_eq_true, decide_eq_true_eq,
        beq_iff_eq] at hsafe
      omega
    · have hdigit := hexDigit_bounds hd
      omega
  simp only [keptInQuery, Bool.and_eq_true, decide_eq_true_eq, bne_iff_ne, ne_eq]
  omega

theorem questionMark_asciiText (bs : List ℕ) : "?" ++ asciiText bs = asciiText (0x3F :: bs) := by
  apply String.toList_injective
  simp only [asciiText, String.toList_append, String.toList_ofList, List.map_cons]
  rfl

/-- **The browser leaves a written address as it is**: the encoding has escaped whatever the browser
would. -/
theorem locationSearch_build (state : WorkspaceUrlState ν) :
    locationSearch (buildWorkspaceSearch num state) = buildWorkspaceSearch num state := by
  unfold buildWorkspaceSearch
  simp only
  split
  · rfl
  · next hne =>
    rw [questionMark_asciiText, locationSearch_asciiText]
    · intro b hb
      rcases List.mem_cons.mp hb with rfl | hb
      · rfl
      · exact keptInQuery_serialize hb
    · intro heq
      rw [List.cons_eq_cons] at heq
      rw [heq.2] at hne
      exact hne rfl

theorem shownStatus_eq_self_iff {status : Option String} :
    shownStatus status = status ↔ status ≠ some "" := by
  unfold shownStatus
  cases status with
  | none => simp
  | some s => simp [Option.filter_eq_some_iff]

/-- **A state comes back from the address of the page unless its status is the empty
text**: the job and the result come back as they are, whatever numbers they are and
whatever characters the status has. -/
theorem build_comesBack_iff (state : WorkspaceUrlState ν) :
    parseWorkspaceSearch num (locationSearch (buildWorkspaceSearch num state)) = state ↔
      state.status ≠ some "" := by
  rw [locationSearch_build, parse_build, ← shownStatus_eq_self_iff]
  obtain ⟨jobId, resultId, status⟩ := state
  simp

-- pages use the results above; to unfold an address is costly and tells them nothing
attribute [irreducible] parseWorkspaceSearch buildWorkspaceSearch locationSearch

end ExtractFlow
