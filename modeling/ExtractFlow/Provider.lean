import ExtractFlow.TemplateContract

/-!
# Providers

`ExtractionProvider.extract` (`worker/app/services/provider.py`): the first
adapter that supports the settings gets the text, in chunks unless it windows
the text itself.  What an adapter returns for one chunk comes from outside: the
OpenAI and Azure adapters post the text to `base_url`, LangExtract runs a local
model, and the mock reads the text.

## Main definitions

* `ProviderAdapter`, `adapterOf` — the adapters, and the dispatch.
* `splitTextIntoChunks` — the chunks of a text.
* `providerExtract`.

## Main results

* `adapterOf_posts` — settings that send the text out select an adapter that posts it.
-/

namespace ExtractFlow

/-! ### Adapters -/

/-- The adapters, in the order they are asked whether they support the settings. -/
inductive ProviderAdapter where
  | mock | langExtract | azureOpenAI | openAICompatible
  deriving DecidableEq, Repr, Inhabited

/-- `supports`. -/
def ProviderAdapter.supports (settings : LLMProviderSettings) : ProviderAdapter → Bool
  | .mock => settings.providerType == "mock" || settings.apiStyle == .mock
  | .langExtract => usesLangextractProvider settings.providerType settings.apiStyle
  | .azureOpenAI => settings.apiStyle == .azureOpenai
  | .openAICompatible => settings.apiStyle == .openaiCompatible

/-- The first adapter that supports the settings, if there is one. -/
def adapterOf (settings : LLMProviderSettings) : Option ProviderAdapter :=
  [ProviderAdapter.mock, .langExtract, .azureOpenAI, .openAICompatible].find?
    (ProviderAdapter.supports settings)

/-- The adapters that post the document text to `base_url`. -/
def ProviderAdapter.postsText : ProviderAdapter → Bool
  | .azureOpenAI | .openAICompatible => true
  | .mock | .langExtract => false

/-- The settings send the text out: cloud mode, an API style that posts, and not
the mock. -/
structure SendsTextOut (settings : LLMProviderSettings) : Prop where
  cloud : settings.mode = .cloud
  style : settings.apiStyle = .openaiCompatible ∨ settings.apiStyle = .azureOpenai
  notMock : settings.providerType ≠ "mock"

/-- Such settings are not those of LangExtract, which are local. -/
theorem SendsTextOut.plain {settings : LLMProviderSettings} (h : SendsTextOut settings) :
    usesLangextractProvider settings.providerType settings.apiStyle = false := by
  by_contra hlang
  have hlocal := (settings.langextractConstraints (by simpa using hlang)).2.2.1
  rw [h.cloud] at hlocal
  cases hlocal

/-- **Such settings select an adapter that posts the text**, and no earlier one takes the text away
from it. -/
theorem adapterOf_posts {settings : LLMProviderSettings} (h : SendsTextOut settings) :
    ∃ adapter, adapterOf settings = some adapter ∧ adapter.postsText = true := by
  have hplain := h.plain
  have htype := h.notMock
  rcases h.style with hstyle | hstyle
  · rw [hstyle] at hplain
    exact ⟨.openAICompatible,
      by simp [adapterOf, ProviderAdapter.supports, hstyle, htype, hplain], rfl⟩
  · rw [hstyle] at hplain
    exact ⟨.azureOpenAI, by simp [adapterOf, ProviderAdapter.supports, hstyle, htype, hplain], rfl⟩

/-! ### Chunks -/

/-- `cs.rfind(sub, lo, hi)`. -/
def lastIndexIn (cs sub : List Char) (lo hi : ℕ) : ℤ :=
  match (List.range' lo (hi - lo)).reverse.find? fun i =>
      decide (i + sub.length ≤ hi) && (cs.drop i).take sub.length == sub with
  | some i => i
  | none => -1

/-- The end of the chunk that starts at `start`: at a break in its second half,
if there is one. -/
def chunkEnd (cs : List Char) (chunkSize start : ℕ) : ℕ :=
  let stop := min (start + chunkSize) cs.length
  if stop < cs.length then
    let lastBreak := max (max (lastIndexIn cs ['\n', '\n'] start stop)
      (lastIndexIn cs ['\n'] start stop)) (lastIndexIn cs [' '] start stop)
    if ((start + chunkSize / 2 : ℕ) : ℤ) < lastBreak then lastBreak.toNat else stop
  else stop

/-- The loop of `split_text_into_chunks`, from `start`; every turn moves `start`
on, so the length of the text bounds their number. -/
def chunksFrom (cs : List Char) (chunkSize : ℕ) (overlap : ℤ) : ℕ → ℕ → List (List Char)
  | 0, _ => []
  | fuel + 1, start =>
      if start < cs.length then
        let stop := chunkEnd cs chunkSize start
        let chunk := stripChars ((cs.drop start).take (stop - start))
        let kept := if chunk.isEmpty then [] else [chunk]
        if cs.length ≤ stop then kept
        else kept ++ chunksFrom cs chunkSize overlap fuel
          (max ((stop : ℤ) - overlap) (start + 1)).toNat
      else []

/-- `split_text_into_chunks`: the windows of a text that is longer than a chunk, and otherwise the
whole text, stripped. -/
def splitTextIntoChunks (text : String) (chunkSize : ℤ) (overlap : ℤ := 500) : List String :=
  let normalized := stripChars text.toList
  if normalized.isEmpty then [""]
  else if chunkSize ≤ 0 ∨ (normalized.length : ℤ) ≤ chunkSize then [String.ofList normalized]
  else
    let chunks := chunksFrom normalized chunkSize.toNat overlap normalized.length 0
    if chunks.isEmpty then [String.ofList normalized] else chunks.map String.ofList

/-! ### Extraction -/

/-- What the adapters answer: the results of one chunk. -/
abbrev AdapterRun :=
  ProviderAdapter → String → ExtractionTemplate → LLMProviderSettings →
    Except PyErr (List ExtractionFieldResult)

/-- The note on the chunk a result came from. -/
def noteChunk (index count : ℕ) (result : ExtractionFieldResult) : ExtractionFieldResult :=
  let current := result.extractionNotes
  { result with
    extractionNotes :=
      if current = "" then s!"Chunk {index}/{count}."
      else s!"{current} Chunk {index}/{count}." }

/-- The value of an API style. -/
def ApiStyle.value : ApiStyle → String
  | .mock => "mock"
  | .openaiCompatible => "openai_compatible"
  | .azureOpenai => "azure_openai"
  | .langextract => "langextract"

/-- The error of settings no adapter supports. -/
def unsupportedProviderMessage (settings : LLMProviderSettings) : String :=
  let providerType := settings.providerType
  let style := settings.apiStyle.value
  s!"Unsupported provider configuration: {providerType} ({style})"

/-- `ExtractionProvider.extract`: the results of the selected adapter, for every chunk one after the
other; the first chunk that fails ends it. -/
def providerExtract (run : AdapterRun) (text : String) (template : ExtractionTemplate)
    (settings : LLMProviderSettings) : Except PyErr (List ExtractionFieldResult) :=
  match adapterOf settings with
  | none => .error (.valueError (unsupportedProviderMessage settings))
  | some adapter =>
      if usesLangextractProvider settings.providerType settings.apiStyle then
        run adapter text template settings
      else do
        let chunks := splitTextIntoChunks text settings.chunkSize
        let results ← (chunks.zipIdx 1).mapM fun (chunk, index) => do
          let chunkResults ← run adapter chunk template settings
          return chunkResults.map (noteChunk index chunks.length)
        return results.flatten

end ExtractFlow
