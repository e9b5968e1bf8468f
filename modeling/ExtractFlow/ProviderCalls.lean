import ExtractFlow.Executor
import ExtractFlow.Lib.FormEncoding
import ExtractFlow.Lib.Retrying
import ExtractFlow.RoutePermissions

/-!
# Calls of a provider

The OpenAI and the Azure adapter (`worker/app/services/provider.py`) post a chunk of the
text with a prompt and read the fields from the reply.  A post that fails is repeated, as
often as the settings say: for the errors of the HTTP client and for every `ValueError`,
so also for a reply without the fields.  Whatever else is raised ends the extraction.  The
chunks are posted one after the other, each when the one before was read.

What answers the posts is outside: the `n`th post of an extraction gets the `n`th reply,
and nothing is assumed of the replies.

## Main definitions

* `Reply`, `CallError` — what answers a post, and what a post may raise.
* `ChatWorld` — the environment, the replies, and what reads them.
* `parseExtractionFieldResults`, `openAIEndpoint`, `azureEndpoint`, `buildPrompt`.
* `providerExtractOn`, `executeExtractionOn` — an extraction with the posts it makes.

## Main results

* `providerExtractOn_posting` — the chunks are calls in turn.
* `executeExtractionOn_local` — an adapter that posts nothing asks for no replies.
* `extraction_posts` — the posts of an extraction, and what it makes of the replies.
-/

namespace ExtractFlow

open Retrying FormEncoding

/-! ### Replies -/

/-- What a post and the reading of its reply may raise; the first two are caught and lead to another
post. -/
inductive CallError where
  /-- `httpx.HTTPError`: no connection, a timeout, or a status that is no success. -/
  | httpError (text : String)
  /-- `ValueError`, with `JSONDecodeError` and pydantic's `ValidationError`. -/
  | valueError (text : String)
  | other (err : PyErr)

/-- The exceptions after which the adapters post again.  `KeyError` and `IndexError` are
caught, too, and never get there. -/
def CallError.caught : CallError → Bool
  | .httpError _ | .valueError _ => true
  | .other _ => false

/-- `str(exc)`. -/
def CallError.text : CallError → String
  | .httpError text | .valueError text => text
  | .other _ => ""

/-- The exception, where it is not caught. -/
def CallError.raised : CallError → PyErr
  | .httpError text | .valueError text => .valueError text
  | .other err => err

/-- What answers a post: an error, or a body that the adapter has to read. -/
inductive Reply where
  /-- The post or its status raises. -/
  | fails (err : CallError)
  /-- A body of JSON. -/
  | payload (body : PyVal)

/-- The settings of a chat that no other part of the program reads. -/
structure ChatOptions where
  temperature : PyFloat
  maxTokens : ℤ
  supportsJsonMode : Bool

/-- The environment of the adapters: what they read, and what answers them. -/
structure ChatWorld where
  /-- `os.getenv`. -/
  env : String → Option String
  /-- `json.loads`. -/
  loads : String → Except CallError PyVal
  /-- `ExtractionFieldResult.model_validate`, with the text of its error. -/
  validate : PyVal → Except String ExtractionFieldResult
  /-- `json.dumps(template.model_dump(mode="json"), indent=2)`. -/
  dumpTemplate : ExtractionTemplate → String
  options : LLMProviderSettings → ChatOptions
  /-- What answers the posts of an extraction, in order. -/
  replies : ℕ → Reply

/-- `v[key]` of a JSON value, where it does not raise. -/
def PyVal.item? (key : String) : PyVal → Option PyVal
  | .dict items => PyVal.dictGet items key
  | _ => Option.none

/-- `v[0]` of a JSON value, where it does not raise. -/
def PyVal.first? : PyVal → Option PyVal
  | .list items => items.head?
  | .str s => s.toList.head?.map fun c => .str (String.ofList [c])
  | _ => Option.none

/-- `response_payload["choices"][0]["message"]["content"]`. -/
def responseContent (body : PyVal) : Option PyVal :=
  (((body.item? "choices").bind PyVal.first?).bind (PyVal.item? "message")).bind
    (PyVal.item? "content")

/-- The fields of what was read as JSON; `get` is a method of dictionaries only. -/
def extractedFieldsOf (validate : PyVal → Except String ExtractionFieldResult) :
    PyVal → Except CallError (List ExtractionFieldResult)
  | .dict items =>
      match PyVal.dictGet items "extracted_fields" with
      | some (.list fields) =>
          fields.mapM fun item =>
            match validate item with
            | .ok result => .ok result
            | .error text => .error (.valueError text)
      | _ => .error (.valueError "Provider response must include an extracted_fields list.")
  | _ => .error (.other (.other "AttributeError"))

/-- `parse_extraction_field_results`: the fields in the content of the reply’s first choice, which
is JSON as a text or as an object. -/
def parseExtractionFieldResults (w : ChatWorld) (body : PyVal) :
    Except CallError (List ExtractionFieldResult) :=
  match responseContent body with
  | none =>
      .error (.valueError "Provider response did not include choices[0].message.content.")
  | some (.str content) => (w.loads content).bind (extractedFieldsOf w.validate)
  | some (.dict items) => extractedFieldsOf w.validate (.dict items)
  | some _ => .error (.valueError "Provider response content must be a JSON string or object.")

/-- What the `n`th post comes to. -/
def ChatWorld.answer (w : ChatWorld) (n : ℕ) : Except CallError (List ExtractionFieldResult) :=
  match w.replies n with
  | .fails err => .error err
  | .payload body => parseExtractionFieldResults w body

/-! ### Requests -/

/-- A post, with all that the adapter puts into it. -/
structure ChatRequest where
  url : String
  headers : List (String × String)
  model : Option String
  prompt : String
  temperature : PyFloat
  maxTokens : ℤ
  responseFormat : Option String

/-- Where an adapter posts to, and as whom; all chunks of an extraction go to the same one. -/
structure ChatEndpoint where
  url : String
  headers : List (String × String)
  model : Option String

/-- `not value` of an optional text. -/
def isUnset (value : Option String) : Bool := value.getD "" == ""

/-- `read_api_key`. -/
def readApiKey (w : ChatWorld) (settings : LLMProviderSettings) : Except PyErr String :=
  let providerType := settings.providerType
  match settings.apiKeyEnvVar.filter (· != "") with
  | none =>
      .error (.valueError s!"Provider {providerType} requires api_key_env_var to be configured.")
  | some envVar =>
      match (w.env envVar).filter (· != "") with
      | none =>
          .error (.valueError s!"Provider {providerType} requires environment variable {envVar}.")
      | some token => .ok token

/-- The base URL without slashes at its end. -/
def baseUrlStem (settings : LLMProviderSettings) : String :=
  String.ofList (rstripSlash (settings.baseUrl.getD ""))

/-- Letters, digits and `_.-~`. -/
def urlencodeSafe (b : ℕ) : Bool :=
  (0x30 ≤ b && b ≤ 0x39) || (0x41 ≤ b && b ≤ 0x5A) || (0x61 ≤ b && b ≤ 0x7A) ||
    b == 0x5F || b == 0x2E || b == 0x2D || b == 0x7E

theorem urlencodeSafe_ascii : ∀ b, urlencodeSafe b = true → b < 0x80 := by
  intro b h
  simp only [urlencodeSafe, Bool.or_eq_true, Bool.and_eq_true, decide_eq_true_eq, beq_iff_eq] at h
  omega

theorem urlencodeSafe_plain : ∀ b, urlencodeSafe b = true →
    b ≠ 0x20 ∧ b ≠ 0x25 ∧ b ≠ 0x26 ∧ b ≠ 0x2B ∧ b ≠ 0x3D := by
  intro b h
  simp only [urlencodeSafe, Bool.or_eq_true, Bool.and_eq_true, decide_eq_true_eq, beq_iff_eq] at h
  omega

/-- The bytes `urlencode` leaves as they are. -/
def urlencodeBytes : SafeBytes where
  safe := urlencodeSafe
  ascii := urlencodeSafe_ascii
  plain := urlencodeSafe_plain

/-- The endpoint of `OpenAICompatibleAdapter`, which needs a base URL, and a key only where the
settings require one. -/
def openAIEndpoint (w : ChatWorld) (settings : LLMProviderSettings) : Except PyErr ChatEndpoint :=
  let providerType := settings.providerType
  if isUnset settings.baseUrl then
    .error (.valueError s!"Provider {providerType} requires a base URL.")
  else do
    let authorization ← if settings.apiKeyRequired then do
        let token ← readApiKey w settings
        pure [("Authorization", s!"Bearer {token}")]
      else pure []
    let stem := baseUrlStem settings
    return {
      url := s!"{stem}/chat/completions"
      headers := ("Content-Type", "application/json") :: authorization
      model := some settings.model }

/-- The endpoint of `AzureOpenAIAdapter`, which needs a base URL, a deployment, an API version and a
key. -/
def azureEndpoint (w : ChatWorld) (settings : LLMProviderSettings) : Except PyErr ChatEndpoint :=
  if isUnset settings.baseUrl then
    .error (.valueError "Azure OpenAI provider requires a base URL.")
  else if isUnset settings.deployment then
    .error (.valueError "Azure OpenAI provider requires a deployment name.")
  else if isUnset settings.apiVersion then
    .error (.valueError "Azure OpenAI provider requires an API version.")
  else do
    let token ← readApiKey w settings
    let stem := baseUrlStem settings
    let deployment := settings.deployment.getD ""
    let query := asciiText
      (serialize urlencodeBytes [("api-version", settings.apiVersion.getD "")])
    return {
      url := s!"{stem}/openai/deployments/{deployment}/chat/completions?{query}"
      headers := [("Content-Type", "application/json"), ("api-key", token)]
      model := none }

/-- `build_prompt`: the instructions, the text of the chunk, and the template as JSON. -/
def buildPrompt (w : ChatWorld) (text : String) (template : ExtractionTemplate) : String :=
  "You are an expert document extraction engine.\n\n" ++
    "Return only valid JSON. Do not calculate formula fields.\n\n" ++
    "Document:\n" ++ text ++ "\n\nExtraction Template:\n" ++ w.dumpTemplate template ++ "\n"

/-- The post of a chunk. -/
def chatRequest (w : ChatWorld) (template : ExtractionTemplate) (settings : LLMProviderSettings)
    (endpoint : ChatEndpoint) (chunk : String) : ChatRequest :=
  let options := w.options settings
  { url := endpoint.url
    headers := endpoint.headers
    model := endpoint.model
    prompt := buildPrompt w chunk template
    temperature := options.temperature
    maxTokens := options.maxTokens
    responseFormat := if options.supportsJsonMode then some "json_object" else none }

/-! ### Extraction -/

/-- The posts of a chunk: `range(retry_count + 1)` has no turns below nought. -/
def callTries (settings : LLMProviderSettings) : ℕ := (settings.retryCount + 1).toNat

/-- What the posts of a chunk come to. -/
def callOutcome (settings : LLMProviderSettings) :
    Ending CallError (List ExtractionFieldResult) → Except PyErr (List ExtractionFieldResult)
  | .answered results => .ok results
  | .stopped err => .error err.raised
  | .exhausted last =>
      let providerType := settings.providerType
      let text := (last.map CallError.text).getD "None"
      .error (.runtimeError s!"Provider call failed for {providerType}: {text}")

/-- The posts of an adapter for a chunk, behind those in the log. -/
def chatExtract (w : ChatWorld) (template : ExtractionTemplate) (settings : LLMProviderSettings)
    (endpoint : Except PyErr ChatEndpoint) (chunk : String) (log : List ChatRequest) :
    Except PyErr (List ExtractionFieldResult) × List ChatRequest :=
  match endpoint with
  | .error err => (.error err, log)
  | .ok endpoint =>
      let call := attempts CallError.caught w.answer
        (chatRequest w template settings endpoint chunk) (callTries settings) none log
      (callOutcome settings call.1, call.2)

/-- `extract` of an adapter; the mock and LangExtract post nothing. -/
def adapterExtract (w : ChatWorld) (runLocally : AdapterRun) (template : ExtractionTemplate)
    (settings : LLMProviderSettings) (chunk : String) (log : List ChatRequest) :
    ProviderAdapter → Except PyErr (List ExtractionFieldResult) × List ChatRequest
  | .openAICompatible => chatExtract w template settings (openAIEndpoint w settings) chunk log
  | .azureOpenAI => chatExtract w template settings (azureEndpoint w settings) chunk log
  | adapter => (runLocally adapter chunk template settings, log)

/-- The loop over the chunks, with their numbers. -/
def extractChunks
    (run : String → List ChatRequest → Except PyErr (List ExtractionFieldResult) × List ChatRequest)
    (count : ℕ) : List (String × ℕ) → List ChatRequest →
      Except PyErr (List ExtractionFieldResult) × List ChatRequest
  | [], log => (.ok [], log)
  | (chunk, index) :: chunks, log =>
      match run chunk log with
      | (.error err, log) => (.error err, log)
      | (.ok chunkResults, log) =>
          let rest := extractChunks run count chunks log
          (rest.1.map fun results => chunkResults.map (noteChunk index count) ++ results, rest.2)

/-- `ExtractionProvider.extract`, with the posts it makes in the order in which it makes them. -/
def providerExtractOn (w : ChatWorld) (runLocally : AdapterRun) (text : String)
    (template : ExtractionTemplate) (settings : LLMProviderSettings) :
    Except PyErr (List ExtractionFieldResult) × List ChatRequest :=
  match adapterOf settings with
  | none => (.error (.valueError (unsupportedProviderMessage settings)), [])
  | some adapter =>
      let run := fun chunk log => adapterExtract w runLocally template settings chunk log adapter
      if usesLangextractProvider settings.providerType settings.apiStyle then run text []
      else
        let chunks := splitTextIntoChunks text settings.chunkSize
        extractChunks run chunks.length (chunks.zipIdx 1) []

/-- `execute_extraction` behind `provider.extract`. -/
def finishExtraction (w : ExtractionWorld) (deployment : DeploymentSettings) (documentId : ℕ)
    (template : ExtractionTemplate) (prepared : PreparedExtraction)
    (results : List ExtractionFieldResult) : Except PyErr ExtractionValidationSummary := do
  let (extracted, notes) ← reconcileExtractedFields w.fields w.rt.num template.confidenceRule
    template.extractedFields (sanitizeIfRedacted deployment prepared.settings results)
  let calculated ← evaluateCalculatedFields w.rt.engine w.rt.num template.calculatedFields extracted
  (extractionSummary documentId template prepared.settings extracted calculated
    (notes ++ prepared.redactionNote.toList)).modelDump

/-- `execute_extraction`, with the posts it makes on the way. -/
def executeExtractionOn (w : ExtractionWorld) (chat : ChatWorld) (deployment : DeploymentSettings)
    (documentPath : String) (documentId : ℕ) (template : ExtractionTemplate)
    (override : Option LLMProviderSettings) (parsedText : Option String) :
    Except PyErr ExtractionValidationSummary × List ChatRequest :=
  match prepareExtraction w deployment documentPath template override parsedText with
  | .error err => (.error err, [])
  | .ok prepared =>
      let call := providerExtractOn chat w.run prepared.text template prepared.settings
      (call.1.bind (finishExtraction w deployment documentId template prepared), call.2)

/-! ### Extractions that post -/

section Posting

variable {w : ChatWorld} {runLocally : AdapterRun} {template : ExtractionTemplate}
  {settings : LLMProviderSettings}

/-- The settings select an adapter that posts, and this is where to. -/
inductive PostsTo (w : ChatWorld) (settings : LLMProviderSettings) (endpoint : ChatEndpoint) : Prop
  | openAI : adapterOf settings = some .openAICompatible →
      openAIEndpoint w settings = .ok endpoint → PostsTo w settings endpoint
  | azure : adapterOf settings = some .azureOpenAI →
      azureEndpoint w settings = .ok endpoint → PostsTo w settings endpoint

/-- What `find?` selects behind LangExtract is not for LangExtract. -/
theorem adapterOf_plain {adapter : ProviderAdapter} (h : adapterOf settings = some adapter)
    (hposts : adapter.postsText = true) :
    usesLangextractProvider settings.providerType settings.apiStyle = false := by
  by_contra hlang
  rw [Bool.not_eq_false] at hlang
  -- only the mock is asked before LangExtract
  have hselected : ∃ first, adapterOf settings = some first ∧ first.postsText = false := by
    unfold adapterOf
    by_cases hmock : ProviderAdapter.supports settings .mock = true
    · exact ⟨.mock, List.find?_cons_of_pos hmock, rfl⟩
    · rw [List.find?_cons_of_neg hmock]
      exact ⟨.langExtract, List.find?_cons_of_pos (p := ProviderAdapter.supports settings) hlang,
        rfl⟩
  obtain ⟨first, hfirst, hquiet⟩ := hselected
  rw [hfirst] at h
  obtain rfl := Option.some.inj h
  rw [hposts] at hquiet
  cases hquiet

/-- The results of the chunks, each with the number of its chunk. -/
def notedResults (count : ℕ) (answers : List (List ExtractionFieldResult)) (index : ℕ) :
    List ExtractionFieldResult :=
  (answers.zipIdx index).flatMap fun answer => answer.1.map (noteChunk answer.2 count)

/-- What an extraction makes of its calls. -/
def callsOutcome (settings : LLMProviderSettings) (count : ℕ)
    (answers : List (List ExtractionFieldResult)) (index : ℕ) :
    Option (Ending CallError (List ExtractionFieldResult)) →
      Except PyErr (List ExtractionFieldResult)
  | none => .ok (notedResults count answers index)
  | some ending => callOutcome settings ending

/-- **The chunks are calls in turn.** -/
theorem extractChunks_eq_calls {endpoint : ChatEndpoint} (count : ℕ) :
    ∀ (chunks : List String) (index : ℕ) (log : List ChatRequest),
      extractChunks (chatExtract w template settings (.ok endpoint)) count (chunks.zipIdx index)
          log =
        let turn := calls CallError.caught w.answer (callTries settings)
          (chunks.map (chatRequest w template settings endpoint)) log
        (callsOutcome settings count turn.1 index turn.2.1, turn.2.2) := by
  intro chunks
  induction chunks with
  | nil => exact fun index log => rfl
  | cons chunk chunks ih =>
    intro index log
    rw [List.zipIdx_cons, List.map_cons, extractChunks, calls, chatExtract]
    rcases hcall : attempts CallError.caught w.answer
      (chatRequest w template settings endpoint chunk) (callTries settings) none log
      with ⟨ending, log'⟩
    cases ending with
    | answered results =>
      simp only [callOutcome]
      obtain ⟨answers, failure, asked, hcalls, hwent⟩ := calls_went CallError.caught w.answer
        (callTries settings) (chunks.map (chatRequest w template settings endpoint)) log'
      rw [ih (index + 1) log', hcalls]
      -- the rest was answered, too, or its error is that of the whole
      cases failure with
      | none =>
        simp only [callsOutcome, notedResults, List.zipIdx_cons, List.flatMap_cons]
        rfl
      | some failed =>
        obtain ⟨-, -, -, -, -, -, hnot⟩ := hwent.failed failed rfl
        cases failed with
        | answered a => exact absurd rfl (hnot a)
        | stopped err => rfl
        | exhausted last => rfl
    | stopped err => rfl
    | exhausted last => rfl

/-- An extraction that posts: a call for each chunk, each tried as often as the settings say. -/
theorem providerExtractOn_posting {endpoint : ChatEndpoint} (h : PostsTo w settings endpoint)
    (runLocally : AdapterRun) (text : String) (template : ExtractionTemplate) :
    providerExtractOn w runLocally text template settings =
      let chunks := splitTextIntoChunks text settings.chunkSize
      let turn := calls CallError.caught w.answer (callTries settings)
        (chunks.map (chatRequest w template settings endpoint)) []
      (callsOutcome settings chunks.length turn.1 1 turn.2.1, turn.2.2) := by
  have hrun : ∀ adapter, adapterOf settings = some adapter → adapter.postsText = true →
      (fun chunk log => adapterExtract w runLocally template settings chunk log adapter) =
        chatExtract w template settings (.ok endpoint) →
      providerExtractOn w runLocally text template settings =
        let chunks := splitTextIntoChunks text settings.chunkSize
        extractChunks (chatExtract w template settings (.ok endpoint)) chunks.length
          (chunks.zipIdx 1) [] := by
    intro adapter hadapter hposts hextract
    unfold providerExtractOn
    rw [hadapter]
    simp only [adapterOf_plain hadapter hposts, hextract]
    rfl
  cases h with
  | openAI hadapter hendpoint | azure hadapter hendpoint =>
    rw [hrun _ hadapter rfl (by rw [← hendpoint]; rfl)]
    exact extractChunks_eq_calls _ _ _ _

/-- How the posts of the chunks went, and what came of them. -/
structure ChunksPosted (w : ChatWorld) (template : ExtractionTemplate)
    (settings : LLMProviderSettings) (endpoint : ChatEndpoint) (chunks : List String)
    (posts : List ChatRequest) (outcome : Except PyErr (List ExtractionFieldResult)) : Prop where
  /-- Each post is of the first chunk whose reply was not yet read. -/
  turn : ∀ i < posts.length, posts[i]? =
    (chunks[(accepted w.answer 0 i).length]?).map (chatRequest w template settings endpoint)
  bound : posts.length ≤ chunks.length * callTries settings
  /-- Every chunk was read, or the posts of one came to nothing. -/
  came : (accepted w.answer 0 posts.length).length = chunks.length ∧
      outcome = .ok (notedResults chunks.length (accepted w.answer 0 posts.length) 1) ∨
    (accepted w.answer 0 posts.length).length < chunks.length ∧ ∃ j k ending,
      j + k = posts.length ∧ accepted w.answer 0 j = accepted w.answer 0 posts.length ∧
      Ended CallError.caught w.answer j (callTries settings) none ending k ∧
      (∀ results, ending ≠ .answered results) ∧ outcome = callOutcome settings ending

/-- The posts of an extraction are posts of its chunks. -/
theorem providerExtractOn_posted {endpoint : ChatEndpoint} (h : PostsTo w settings endpoint)
    (runLocally : AdapterRun) (text : String) (template : ExtractionTemplate) :
    ChunksPosted w template settings endpoint (splitTextIntoChunks text settings.chunkSize)
      (providerExtractOn w runLocally text template settings).2
      (providerExtractOn w runLocally text template settings).1 := by
  rw [providerExtractOn_posting h]
  obtain ⟨answers, failure, asked, hcalls, hwent⟩ := calls_went CallError.caught w.answer
    (callTries settings)
    ((splitTextIntoChunks text settings.chunkSize).map
      (chatRequest w template settings endpoint)) []
  simp only [hcalls, List.nil_append]
  have hread := hwent.read
  refine ⟨fun i hi => ?_, ?_, ?_⟩
  · rw [hwent.turn i hi, List.getElem?_map]
    rfl
  · simpa using hwent.bound
  · cases hfailure : failure with
    | none =>
      have hdone := hwent.done hfailure
      rw [hread, List.length_map] at hdone
      exact Or.inl ⟨hdone, by rw [hread]; rfl⟩
    | some ending =>
      obtain ⟨hlt, j, k, hsum, haccepted, hended, hnot⟩ := hwent.failed ending hfailure
      rw [List.length_map, hread] at hlt
      rw [List.length_nil, Nat.zero_add] at hended
      exact Or.inr ⟨hlt, j, k, ending, hsum, haccepted.trans hread, hended, hnot, rfl⟩

/-! ### Extractions that do not -/

/-- Chunks that post nothing leave the log alone. -/
theorem extractChunks_log
    {run : String → List ChatRequest →
      Except PyErr (List ExtractionFieldResult) × List ChatRequest}
    (hrun : ∀ chunk log, (run chunk log).2 = log) (count : ℕ) :
    ∀ (chunks : List (String × ℕ)) (log : List ChatRequest),
      (extractChunks run count chunks log).2 = log := by
  intro chunks
  induction chunks with
  | nil => exact fun log => rfl
  | cons head chunks ih =>
    intro log
    have hhead := hrun head.1 log
    rw [extractChunks]
    rcases hcall : run head.1 log with ⟨outcome, log'⟩
    rw [hcall] at hhead
    obtain rfl : log' = log := hhead
    cases outcome with
    | error err => rfl
    | ok results => exact ih log'

/-- Without an endpoint nothing is posted. -/
theorem providerExtractOn_quiet (h : ∀ endpoint, ¬ PostsTo w settings endpoint)
    (runLocally : AdapterRun) (text : String) (template : ExtractionTemplate) :
    (providerExtractOn w runLocally text template settings).2 = [] := by
  unfold providerExtractOn
  cases hadapter : adapterOf settings with
  | none => rfl
  | some adapter =>
    have hlog : ∀ chunk log,
        (adapterExtract w runLocally template settings chunk log adapter).2 = log := by
      intro chunk log
      cases adapter with
      | mock | langExtract => rfl
      | azureOpenAI =>
        cases hendpoint : azureEndpoint w settings with
        | ok endpoint => exact absurd (.azure hadapter hendpoint) (h endpoint)
        | error err => simp only [adapterExtract, hendpoint, chatExtract]
      | openAICompatible =>
        cases hendpoint : openAIEndpoint w settings with
        | ok endpoint => exact absurd (.openAI hadapter hendpoint) (h endpoint)
        | error err => simp only [adapterExtract, hendpoint, chatExtract]
    simp only
    split
    · exact hlog text []
    · exact extractChunks_log hlog _ _ []

/-- Chunks that post nothing are those of the plain loop. -/
theorem extractChunks_eq_mapM (run : String → Except PyErr (List ExtractionFieldResult))
    (count : ℕ) : ∀ (chunks : List (String × ℕ)) (log : List ChatRequest),
      extractChunks (fun chunk log => (run chunk, log)) count chunks log =
        ((chunks.mapM fun chunk : String × ℕ => do
            let chunkResults ← run chunk.1
            return chunkResults.map (noteChunk chunk.2 count)).map List.flatten, log) := by
  intro chunks
  induction chunks with
  | nil => exact fun log => rfl
  | cons head chunks ih =>
    intro log
    rw [extractChunks, List.mapM_cons]
    cases hrun : run head.1 with
    | error err => rfl
    | ok results =>
      simp only
      rw [ih log]
      -- an error of the rest is that of the whole
      cases chunks.mapM fun chunk : String × ℕ => do
          let chunkResults ← run chunk.1
          return chunkResults.map (noteChunk chunk.2 count) with
      | error err => rfl
      | ok rest => rfl

/-- **With an adapter that posts nothing the extraction is the one without replies.** -/
theorem executeExtractionOn_local {world : ExtractionWorld} {chat : ChatWorld}
    {deployment : DeploymentSettings} {documentPath : String} {documentId : ℕ}
    {override : Option LLMProviderSettings} {parsedText : Option String}
    (h : ∀ adapter, adapterOf (effectiveSettings template override) = some adapter →
      adapter.postsText = false) :
    executeExtractionOn world chat deployment documentPath documentId template override
        parsedText =
      (executeExtraction world deployment documentPath documentId template override parsedText,
        []) := by
  unfold executeExtractionOn executeExtraction
  cases hprepared : prepareExtraction world deployment documentPath template override
      parsedText with
  | error err => rfl
  | ok prepared =>
    rw [← (prepareExtraction_checks hprepared).2.1] at h
    -- such an adapter asks nobody, so the log stays empty
    have hextract : providerExtractOn chat world.run prepared.text template prepared.settings =
        (providerExtract world.run prepared.text template prepared.settings, []) := by
      unfold providerExtractOn providerExtract
      cases hadapter : adapterOf prepared.settings with
      | none => rfl
      | some adapter =>
        have hrun : (fun chunk log =>
            adapterExtract chat world.run template prepared.settings chunk log adapter) =
              fun chunk log => (world.run adapter chunk template prepared.settings, log) := by
          have hposts := h adapter hadapter
          cases adapter with
          | mock | langExtract => rfl
          | azureOpenAI | openAICompatible => cases hposts
        simp only [hrun]
        split
        · exact congrFun (congrFun hrun prepared.text) []
        · rw [extractChunks_eq_mapM]
          rfl
    simp only [hextract]
    rfl

/-! ### The posts of an extraction -/

/-- Where no redaction is required the text stays as it is. -/
theorem redactForProvider_plain {world : ExtractionWorld} {deployment : DeploymentSettings}
    {documentPath text out : String} {note : Option String}
    (h : redactForProvider world deployment settings documentPath text = .ok (out, note))
    (hplain : needsRedaction deployment settings = false) : out = text := by
  unfold redactForProvider at h
  rw [if_neg (by simp [hplain])] at h
  exact (Prod.mk.inj (Except.ok.inj h)).1.symm

/-- With a redaction required, the text is the redacted one, and of no spreadsheet. -/
theorem redactForProvider_masked {world : ExtractionWorld} {deployment : DeploymentSettings}
    {documentPath text out : String} {note : Option String}
    (h : redactForProvider world deployment settings documentPath text = .ok (out, note))
    (hneeds : needsRedaction deployment settings = true) :
    lowerEndsWith world.fields.lowerCase documentPath executorSpreadsheetSuffixes = false ∧
      ∃ redaction, redactText world.analyze text deployment.configuredRedactionEntities =
        .ok redaction ∧ redaction.text = out := by
  unfold redactForProvider at h
  rw [if_pos hneeds] at h
  split at h
  · cases h
  · next hsheet =>
    obtain ⟨redaction, hredact, hreturn⟩ := Failing.bind_ok.mp h
    obtain ⟨rfl, -⟩ := Prod.mk.inj (Except.ok.inj hreturn)
    exact ⟨by simpa using hsheet, redaction, hredact, rfl⟩

/-- **The posts of an extraction.**  Without an adapter that posts there are none.  Otherwise
the policy of the deployment was passed, and what is posted are the chunks of the document's
text, or of its redaction where one is required; the replies decide how often each chunk is
posted and what comes of it, and the rest of the extraction goes on from there. -/
theorem extraction_posts (world : ExtractionWorld) (chat : ChatWorld)
    (deployment : DeploymentSettings) (documentPath : String) (documentId : ℕ)
    (template : ExtractionTemplate) (override : Option LLMProviderSettings)
    (parsedText : Option String) :
    ((∀ prepared endpoint, prepareExtraction world deployment documentPath template override
        parsedText = .ok prepared → ¬ PostsTo chat prepared.settings endpoint) →
      (executeExtractionOn world chat deployment documentPath documentId template override
        parsedText).2 = []) ∧
    ∀ prepared endpoint, prepareExtraction world deployment documentPath template override
        parsedText = .ok prepared → PostsTo chat prepared.settings endpoint →
      externalProcessingViolation deployment prepared.settings = none ∧
      (∃ text, loadText world deployment documentPath parsedText = .ok text ∧
        (needsRedaction deployment prepared.settings = false → prepared.text = text) ∧
        (needsRedaction deployment prepared.settings = true → ∃ redaction,
          redactText world.analyze text deployment.configuredRedactionEntities = .ok redaction ∧
          prepared.text = redaction.text)) ∧
      ∃ outcome,
        (executeExtractionOn world chat deployment documentPath documentId template override
            parsedText).1 =
          outcome.bind (finishExtraction world deployment documentId template prepared) ∧
        ChunksPosted chat template prepared.settings endpoint
          (splitTextIntoChunks prepared.text prepared.settings.chunkSize)
          (executeExtractionOn world chat deployment documentPath documentId template override
            parsedText).2 outcome := by
  unfold executeExtractionOn
  constructor
  · intro hquiet
    cases hprepared : prepareExtraction world deployment documentPath template override
        parsedText with
    | error err => rfl
    | ok prepared =>
      exact providerExtractOn_quiet (fun endpoint => hquiet prepared endpoint hprepared) _ _ _
  · intro prepared endpoint hprepared hposts
    refine ⟨(prepareExtraction_checks hprepared).2.2, ?_, ?_⟩
    · -- the text of the document is loaded, and what is posted is made of it
      unfold prepareExtraction at hprepared
      obtain ⟨-, -, hprepared⟩ := Failing.bind_ok.mp hprepared
      obtain ⟨-, -, hprepared⟩ := Failing.bind_ok.mp hprepared
      obtain ⟨text, htext, hprepared⟩ := Failing.bind_ok.mp hprepared
      obtain ⟨⟨posted, note⟩, hredact, hreturn⟩ := Failing.bind_ok.mp hprepared
      obtain rfl := Except.ok.inj hreturn
      refine ⟨text, htext, fun hplain => redactForProvider_plain hredact hplain, fun hneeds => ?_⟩
      obtain ⟨-, redaction, hredacted, hout⟩ := redactForProvider_masked hredact hneeds
      exact ⟨redaction, hredacted, hout.symm⟩
    · rw [hprepared]
      exact ⟨_, rfl, providerExtractOn_posted hposts world.run prepared.text template⟩

end Posting

/-! ### A gateway that fails once -/

/-- Settings of an external gateway that asks for no key, for chunks of fifteen letters. -/
def openGateway : LLMProviderSettings where
  providerType := "gateway"
  apiStyle := .openaiCompatible
  baseUrl := some "http://gateway/v1/"
  apiKeyRequired := false
  allowExternalProcessing := true
  chunkSize := 15

/-- Where it is posted to. -/
def openGatewayEndpoint : ChatEndpoint where
  url := "http://gateway/v1/chat/completions"
  headers := [("Content-Type", "application/json")]
  model := some openGateway.model

/-- A deployment that redacts what goes outside. -/
def maskingDeployment : DeploymentSettings := { requireRedactionForExternalProcessing := true }

/-- A recognizer that finds a telephone number behind the first word. -/
def phoneWorld : ExtractionWorld :=
  { silentWorld with
    analyze := fun entityType _ => if entityType = "PHONE_NUMBER" then [(5, 12)] else [] }

/-- The redaction of the document. -/
def phoneRedaction : RedactionResult where
  text := "call ******* now"
  entityCounts := [("PHONE_NUMBER", 1)]
  spanCount := 1

/-- What is prepared for the gateway. -/
def phonePrepared : PreparedExtraction where
  settings := openGateway
  text := phoneRedaction.text
  redactionNote := some (redactionNote phoneRedaction)

/-- The field of a reply. -/
def vendorResult : ExtractionFieldResult where
  fieldName := "vendor"
  label := "Vendor"
  dataType := .text

/-- A gateway whose first reply does not come, and whose others hold the vendor. -/
def flakyChat : ChatWorld where
  env := fun _ => none
  loads := fun _ => .ok (.dict [("extracted_fields", .list [.dict []])])
  validate := fun _ => .ok vendorResult
  dumpTemplate := fun _ => "\x7b\x7d"
  options := fun _ => { temperature := .fin 0, maxTokens := 4096, supportsJsonMode := true }
  replies := fun n =>
    if n = 0 then .fails (.httpError "timed out")
    else .payload (.dict [("choices", .list [
      .dict [("message", .dict [("content", .str "\x7b\x7d")])]])])

theorem redactText_phone : redactText phoneWorld.analyze "call 5551234 now"
    maskingDeployment.configuredRedactionEntities = .ok phoneRedaction := by
  have hspans : recognizedSpans phoneWorld.analyze "call 5551234 now"
      maskingDeployment.configuredRedactionEntities = .ok [⟨5, 12, "PHONE_NUMBER"⟩] := rfl
  have hmerged : mergeSpans [⟨5, 12, "PHONE_NUMBER"⟩] = [⟨5, 12, "PHONE_NUMBER"⟩] := by
    rw [mergeSpans, List.mergeSort_singleton]
    rfl
  unfold redactText
  rw [hspans, Failing.bind_of_ok rfl, hmerged]
  rfl

theorem prepareExtraction_phone : prepareExtraction phoneWorld maskingDeployment "a.txt"
    invoiceTemplate (some openGateway) (some "call 5551234 now") = .ok phonePrepared := by
  have hredacted : redactForProvider phoneWorld maskingDeployment openGateway "a.txt"
      "call 5551234 now" = .ok (phonePrepared.text, phonePrepared.redactionNote) := by
    unfold redactForProvider
    rw [redactText_phone]
    rfl
  have hsettings : effectiveSettings invoiceTemplate (some openGateway) = openGateway := rfl
  have hloaded : loadText phoneWorld maskingDeployment "a.txt" (some "call 5551234 now") =
      .ok "call 5551234 now" := rfl
  unfold prepareExtraction
  rw [Failing.bind_of_ok (show validateTemplate phoneWorld.rt.engine phoneWorld.rt.checkSchema
      invoiceTemplate = .ok () from rfl), hsettings,
    Failing.bind_of_ok (show checkExternalProcessing maskingDeployment openGateway = .ok () from
      rfl), hloaded, Failing.bind_of_ok rfl, hredacted]
  rfl

/-- The theorem on it: the redacted text has two chunks.  The first is posted twice, and the
vendor of each is noted with its chunk. -/
theorem extraction_posts_flaky :
    ∃ posts outcome, (executeExtractionOn phoneWorld flakyChat maskingDeployment "a.txt" 1
        invoiceTemplate (some openGateway) (some "call 5551234 now")).2 = posts ∧
      posts.length = 3 ∧
      (∃ redaction, redactText phoneWorld.analyze "call 5551234 now"
          maskingDeployment.configuredRedactionEntities = .ok redaction ∧
        phonePrepared.text = redaction.text) ∧
      ChunksPosted flakyChat invoiceTemplate openGateway openGatewayEndpoint
        ["call *******", "all ******* now"] posts outcome ∧
      outcome = .ok [{ vendorResult with extractionNotes := "Chunk 1/2." },
        { vendorResult with extractionNotes := "Chunk 2/2." }] := by
  obtain ⟨-, ⟨text, hloaded, -, hredacted⟩, outcome, -, hposted⟩ :=
    (extraction_posts phoneWorld flakyChat maskingDeployment "a.txt" 1 invoiceTemplate
      (some openGateway) (some "call 5551234 now")).2 phonePrepared openGatewayEndpoint
      prepareExtraction_phone (.openAI rfl rfl)
  obtain rfl : "call 5551234 now" = text := Except.ok.inj hloaded
  have hposts : (executeExtractionOn phoneWorld flakyChat maskingDeployment "a.txt" 1
      invoiceTemplate (some openGateway) (some "call 5551234 now")).2.length = 3 := by
    unfold executeExtractionOn
    rw [prepareExtraction_phone]
    rfl
  refine ⟨_, outcome, rfl, hposts, hredacted rfl, hposted, ?_⟩
  -- Of the three posts the first was refused, so two replies were read.
  have hread : accepted flakyChat.answer 0 3 = [[vendorResult], [vendorResult]] := rfl
  rcases hposted.came with ⟨-, houtcome⟩ | ⟨hfewer, -⟩
  · rw [houtcome, hposts, hread]
    rfl
  · rw [hposts, hread] at hfewer
    exact absurd hfewer (by decide)

end ExtractFlow
