import Mathlib.Data.List.DropRight
import ExtractFlow.ProviderProfiles

/-!
# Probes and fresh verifications

`backend/app/services/provider_probe.py` and the endpoints that save a custom
provider profile.  A profile is saved after its provider was probed, and the probe
is recorded on it: the time and the status word.  Activation asks for a recent
record whose word is "reachable".

Whether a probe succeeds is a flag beside the word.  The probe of an endpoint writes
"reachable" with the flag; the mock provider sets the flag and writes "ready".

## Main definitions

* `probeProvider` — the probe, given what the network answers.
* `ProfileVerification`, `verifyProfile` — creating, updating and reverifying a profile.
* `checkActivation` — the check of a profile read from the list.

## Main results

* `probeProvider_reachable` — the word of a probe that succeeds.
* `verifyProfile_recorded` — what a verification leaves on the profile.
* `verifyProfile_run` — it is a request alone in the system of profile requests.
* `fresh_verification_iff` — a fresh verification allows activation just in case the
  provider is not the mock.
-/

namespace ExtractFlow

/-! ### Probing -/

/-- What a request to an endpoint comes to, as far as the probe tells the cases apart. -/
inductive HttpOutcome where
  /-- A response: its status, its body as JSON, if it is JSON, and as text. -/
  | response (statusCode : ℕ) (json : Option PyVal) (text : String)
  /-- `httpx.HTTPError`. -/
  | httpError (detail : String)
  /-- Any other exception. -/
  | raises (e : PyErr)

/-- What `probe_provider` reads besides the settings: the environment, and what endpoints answer. -/
structure ProbeMachine where
  getenv : String → Option String := fun _ => none
  /-- `urlencode({"api-version": version})`. -/
  urlencode : String → String
  send : String → HttpOutcome

/-- What `probe_provider` returns: the outcome, and which endpoint was asked. -/
structure ProviderProbe extends ProbeResult where
  providerType : String
  endpoint : Option String := none
  statusCode : Option ℕ := none
  deriving Repr

/-- `url.rstrip("/")`. -/
def rstripUrl (url : String) : List Char := url.toList.rdropWhile (· == '/')

/-- `normalize_langextract_base_url`. -/
def normalizeLangextractBaseUrl (baseUrl : String) : String :=
  let normalized := rstripUrl baseUrl
  if "/v1".toList.isSuffixOf normalized then
    String.ofList (normalized.take (normalized.length - 3))
  else String.ofList normalized

/-- `_failure`. -/
def probeFailure (settings : LLMProviderSettings) (detail : String) : ProviderProbe where
  providerType := settings.providerType
  reachable := false
  status := "not_ready"
  detail := detail

/-- `not s`, for an optional string. -/
def isBlank (s : Option String) : Bool := s.getD "" == ""

/-- `_missing_api_key`. -/
def missingApiKey (machine : ProbeMachine) (settings : LLMProviderSettings) : Option String :=
  match settings.apiKeyEnvVar with
  | none => some "unset api_key_env_var"
  | some envVar =>
      if envVar = "" then some "unset api_key_env_var"
      else if isBlank (machine.getenv envVar) then some envVar
      else none

/-- The statuses that count as an answer of the endpoint. -/
def reachableStatusCodes : List ℕ := [200, 204, 400, 401, 403, 404, 405]

/-- The result for an `httpx.HTTPError`. -/
def probeError (settings : LLMProviderSettings) (endpoint detail : String) : ProviderProbe where
  providerType := settings.providerType
  reachable := false
  status := "error"
  detail := detail
  endpoint := some endpoint

/-- `_probe_endpoint`. -/
def probeEndpoint (machine : ProbeMachine) (settings : LLMProviderSettings) (endpoint : String) :
    Except PyErr ProviderProbe :=
  match machine.send endpoint with
  | .response statusCode _ _ =>
      let reachable := reachableStatusCodes.contains statusCode
      .ok
        { providerType := settings.providerType
          reachable := reachable
          status := if reachable then "reachable" else "unreachable"
          detail :=
            if reachable then s!"Endpoint responded with HTTP {statusCode}."
            else s!"Unexpected HTTP {statusCode} from probe endpoint."
          endpoint := some endpoint
          statusCode := some statusCode }
  | .httpError detail => .ok (probeError settings endpoint detail)
  | .raises e => .error e

/-- `_extract_langextract_probe_error`. -/
def extractLangextractProbeError (json : Option PyVal) (text : String) : Option String :=
  let error := match json with
    | some (.dict payload) => PyVal.dictGet payload "error"
    | _ => none
  match error with
  | some (.str message) =>
      if pyStrip message ≠ "" then some (pyStrip message)
      else if pyStrip text ≠ "" then some (pyStrip text)
      else none
  | _ => if pyStrip text ≠ "" then some (pyStrip text) else none

/-- `_probe_langextract_endpoint`. -/
def probeLangextractEndpoint (machine : ProbeMachine) (settings : LLMProviderSettings)
    (endpoint : String) : Except PyErr ProviderProbe :=
  match machine.send endpoint with
  | .response statusCode json text =>
      if statusCode ≠ 200 then
        .ok
          { providerType := settings.providerType
            reachable := false
            status := "not_ready"
            detail := (extractLangextractProbeError json text).getD
              s!"Ollama generate endpoint responded with HTTP {statusCode}."
            endpoint := some endpoint
            statusCode := some statusCode }
      else
        let model := settings.model
        .ok
          { providerType := settings.providerType
            reachable := true
            status := "reachable"
            detail := s!"Ollama runtime accepted a minimal generation request for model '{model}'."
            endpoint := some endpoint
            statusCode := some statusCode }
  | .httpError detail => .ok (probeError settings endpoint detail)
  | .raises e => .error e

/-- The probe of a provider with a base URL that is neither the mock nor LangExtract. -/
def probeRemote (machine : ProbeMachine) (settings : LLMProviderSettings) (baseUrl : String) :
    Except PyErr ProviderProbe :=
  let base := String.ofList (rstripUrl baseUrl)
  match if settings.apiKeyRequired then missingApiKey machine settings else none with
  | some missingKey => .ok (probeFailure settings s!"Missing environment variable {missingKey}.")
  | none =>
      if settings.apiStyle = .azureOpenai then
        if isBlank settings.deployment then
          .ok (probeFailure settings "Azure deployment name is required before probing.")
        else if isBlank settings.apiVersion then
          .ok (probeFailure settings "Azure API version is required before probing.")
        else
          let deployment := settings.deployment.getD ""
          let query := machine.urlencode (settings.apiVersion.getD "")
          probeEndpoint machine settings
            s!"{base}/openai/deployments/{deployment}/chat/completions?{query}"
      else probeEndpoint machine settings s!"{base}/models"

/-- `probe_provider`: the mock is always available, LangExtract must be local, and any other
provider is asked at its endpoint. -/
def probeProvider (machine : ProbeMachine) (settings : LLMProviderSettings) :
    Except PyErr ProviderProbe :=
  if settings.apiStyle = .mock then
    .ok
      { providerType := settings.providerType
        reachable := true
        status := "ready"
        detail := "Mock provider is always available for bootstrap runs." }
  else if usesLangextractProvider settings.providerType settings.apiStyle then
    if settings.mode ≠ .local then
      .ok (probeFailure settings "LangExtract is only supported in local mode.")
    else if settings.allowExternalProcessing then
      .ok (probeFailure settings
        "LangExtract v1 requires allow_external_processing to stay disabled.")
    else if isBlank settings.baseUrl then
      .ok (probeFailure settings "Base URL is required before probing.")
    else
      let base := String.ofList
        (rstripUrl (normalizeLangextractBaseUrl (settings.baseUrl.getD "")))
      probeLangextractEndpoint machine settings s!"{base}/api/generate"
  else if isBlank settings.baseUrl then
    .ok (probeFailure settings "Base URL is required before probing.")
  else probeRemote machine settings (settings.baseUrl.getD "")

/-- `require_reachable_provider`: the probe, when it succeeds. -/
def requiredProbe (machine : ProbeMachine) (settings : LLMProviderSettings) (action : String) :
    Except PyErr ProbeResult := do
  let result ← probeProvider machine settings
  requireReachableProvider result.toProbeResult action
  return result.toProbeResult

/-! ### Saving a verified profile -/

/-- The requests that probe a profile and record the probe on it. -/
inductive ProfileVerification where
  | create (uuid name : String) (settings : LLMProviderSettings)
  | update (profileId name : String) (settings : LLMProviderSettings)
  | reverify (profileId : String)

/-- The endpoints of `backend/app/api/routes.py`: the profile they return and the list
they save.  `now` is the clock when the profile is written, `at_` when the probe is
recorded. -/
def verifyProfile (site : ProfileSite) (machine : ProbeMachine)
    (profiles : List CustomProviderProfile) (now at_ : ℕ) :
    ProfileVerification → Except PyErr (CustomProviderProfile × List CustomProviderProfile)
  | .create uuid name settings => do
      enforceProviderPolicy site.deployment settings
      let probe ← requiredProbe machine settings "Custom provider save"
      let (profile, saved) ← createCustomProviderProfile profiles uuid name settings now
      recordCustomProviderProfileProbe saved profile.id probe.status probe.detail at_
  | .update profileId name settings => do
      enforceProviderPolicy site.deployment settings
      let probe ← requiredProbe machine settings "Custom provider save"
      let (_, saved) ← updateCustomProviderProfile profiles profileId name settings now
      recordCustomProviderProfileProbe saved profileId probe.status probe.detail at_
  | .reverify profileId => do
      let profile ← getCustomProviderProfile profiles profileId
      let probe ← requiredProbe machine profile.settings "Custom provider reverification"
      recordCustomProviderProfileProbe profiles profileId probe.status probe.detail at_

/-- What activation asks of the profile it reads from the list: a record of a probe that
is fresh. -/
def checkActivation (site : ProfileSite) (now : ℕ) (profiles : List CustomProviderProfile)
    (profileId : String) : Except PyErr Unit := do
  let profile ← getCustomProviderProfile profiles profileId
  requireFreshCustomProviderProfileProbe site now profile

/-! ### The word of a probe -/

section Probe

variable {machine : ProbeMachine} {settings : LLMProviderSettings} {endpoint : String}
  {result : ProviderProbe}

theorem probeEndpoint_reachable (h : probeEndpoint machine settings endpoint = .ok result)
    (hreachable : result.reachable = true) : result.status = "reachable" := by
  unfold probeEndpoint at h
  split at h
  · next statusCode _ _ _ =>
    obtain rfl := Except.ok.inj h
    exact if_pos hreachable
  · obtain rfl := Except.ok.inj h
    cases hreachable
  · cases h

theorem probeLangextractEndpoint_reachable
    (h : probeLangextractEndpoint machine settings endpoint = .ok result)
    (hreachable : result.reachable = true) : result.status = "reachable" := by
  unfold probeLangextractEndpoint at h
  split at h
  · split at h
    · obtain rfl := Except.ok.inj h
      cases hreachable
    · obtain rfl := Except.ok.inj h
      rfl
  · obtain rfl := Except.ok.inj h
    cases hreachable
  · cases h

/-- A probe that fails before the network is asked. -/
theorem probeFailure_unreachable {detail : String}
    (h : Except.ok (probeFailure settings detail) = (.ok result : Except PyErr ProviderProbe))
    (hreachable : result.reachable = true) : False := by
  obtain rfl := Except.ok.inj h
  cases hreachable

/-- **The word of a probe that succeeds** is "ready" for the mock and "reachable" for all others. -/
theorem probeProvider_reachable (h : probeProvider machine settings = .ok result)
    (hreachable : result.reachable = true) :
    result.status = if settings.apiStyle = .mock then "ready" else "reachable" := by
  unfold probeProvider at h
  split at h
  · next hmock =>
    obtain rfl := Except.ok.inj h
    rw [if_pos hmock]
  -- every other branch either fails or comes to a response that says "reachable"
  · next hmock =>
    rw [if_neg hmock]
    split at h
    · split at h
      · exact (probeFailure_unreachable h hreachable).elim
      · split at h
        · exact (probeFailure_unreachable h hreachable).elim
        · split at h
          · exact (probeFailure_unreachable h hreachable).elim
          · exact probeLangextractEndpoint_reachable h hreachable
    · split at h
      · exact (probeFailure_unreachable h hreachable).elim
      · unfold probeRemote at h
        dsimp only at h
        split at h
        · exact (probeFailure_unreachable h hreachable).elim
        · split at h
          · split at h
            · exact (probeFailure_unreachable h hreachable).elim
            · split at h
              · exact (probeFailure_unreachable h hreachable).elim
              · exact probeEndpoint_reachable h hreachable
          · exact probeEndpoint_reachable h hreachable

/-- A probe a save is made with passes the check for it. -/
theorem requiredProbe_require {action : String} {probe : ProbeResult}
    (h : requiredProbe machine settings action = .ok probe) :
    requireReachableProvider probe action = .ok () := by
  unfold requiredProbe at h
  obtain ⟨result, -, h⟩ := Failing.bind_ok.mp h
  obtain ⟨_, hrequire, h⟩ := Failing.bind_ok.mp h
  obtain rfl := Except.ok.inj h
  exact hrequire

/-- The word of a probe a save is made with. -/
theorem requiredProbe_status {action : String} {probe : ProbeResult}
    (h : requiredProbe machine settings action = .ok probe) :
    probe.status = if settings.apiStyle = .mock then "ready" else "reachable" := by
  unfold requiredProbe at h
  obtain ⟨result, hprobe, h⟩ := Failing.bind_ok.mp h
  obtain ⟨_, hrequire, h⟩ := Failing.bind_ok.mp h
  obtain rfl := Except.ok.inj h
  refine probeProvider_reachable hprobe ?_
  unfold requireReachableProvider at hrequire
  split at hrequire
  · next hreachable => exact hreachable
  · cases hrequire

end Probe

/-! ### What a verification leaves -/

section Verify

variable {site : ProfileSite} {machine : ProbeMachine}
  {profiles saved later : List CustomProviderProfile} {profile : CustomProviderProfile}
  {profileId status detail : String} {now at_ : ℕ} {verification : ProfileVerification}

/-- A profile put in the place of its identifier is read there. -/
theorem getCustomProviderProfile_replaceProfile (h : ∃ p ∈ profiles, p.id = profile.id) :
    getCustomProviderProfile (replaceProfile profiles profile) profile.id = .ok profile := by
  have hfind : (replaceProfile profiles profile).find? (fun p => p.id == profile.id) =
      some profile := by
    unfold replaceProfile
    induction profiles with
    | nil =>
      obtain ⟨p, hp, -⟩ := h
      cases hp
    | cons q rest ih =>
      rw [List.map_cons]
      by_cases hq : q.id = profile.id
      · rw [if_pos hq, List.find?_cons_of_pos (by simp)]
      · obtain ⟨p, hp, hid⟩ := h
        have hrest : p ∈ rest := (List.mem_cons.mp hp).resolve_left fun heq => hq (heq ▸ hid)
        rw [if_neg hq, List.find?_cons_of_neg (by simpa using hq)]
        exact ih ⟨p, hrest, hid⟩
  unfold getCustomProviderProfile
  rw [hfind]

/-- The profile a record returns, and the list it can be read from. -/
theorem recordCustomProviderProfileProbe_ok
    (h : recordCustomProviderProfileProbe profiles profileId status detail at_ =
      .ok (profile, saved)) :
    ∃ target, getCustomProviderProfile profiles profileId = .ok target ∧
      profile = { target with
        lastProbeAt := some at_
        lastProbeStatus := some status
        lastProbeDetail := some detail
        updatedAt := at_ } ∧
      getCustomProviderProfile saved profile.id = .ok profile := by
  unfold recordCustomProviderProfileProbe at h
  obtain ⟨target, htarget, h⟩ := Failing.bind_ok.mp h
  obtain ⟨rfl, rfl⟩ := Prod.mk.inj (Except.ok.inj h)
  obtain ⟨hmem, -⟩ := getCustomProviderProfile_ok htarget
  exact ⟨target, htarget, rfl, getCustomProviderProfile_replaceProfile ⟨target, hmem, rfl⟩⟩

/-- The identifier of a new profile is new: `uuid4` never repeats one. -/
def ProfileVerification.Fresh (profiles : List CustomProviderProfile) : ProfileVerification → Prop
  | .create uuid _ _ => ∀ p ∈ profiles, p.id ≠ uuid
  | _ => True

/-- **What a verification leaves on the profile**: the time, the word of the probe of
its settings, and the profile in the list. -/
theorem verifyProfile_recorded (hfresh : verification.Fresh profiles)
    (h : verifyProfile site machine profiles now at_ verification = .ok (profile, saved)) :
    getCustomProviderProfile saved profile.id = .ok profile ∧
      profile.lastProbeAt = some at_ ∧
      profile.lastProbeStatus =
        some (if profile.settings.apiStyle = .mock then "ready" else "reachable") := by
  cases verification with
  | create uuid name settings =>
    obtain ⟨_, -, h⟩ := Failing.bind_ok.mp h
    obtain ⟨probe, hprobe, h⟩ := Failing.bind_ok.mp h
    obtain ⟨⟨created, list⟩, hcreate, h⟩ := Failing.bind_ok.mp h
    obtain ⟨target, htarget, rfl, hread⟩ := recordCustomProviderProfileProbe_ok h
    unfold createCustomProviderProfile at hcreate
    split at hcreate
    · cases hcreate
    · obtain ⟨rfl, rfl⟩ := Prod.mk.inj (Except.ok.inj hcreate)
      obtain ⟨hmem, hid⟩ := getCustomProviderProfile_ok htarget
      -- the probe is recorded on the new profile, since no old one has its identifier
      rcases List.mem_append.mp hmem with hold | hnew
      · exact absurd hid (hfresh target hold)
      · obtain rfl := List.mem_singleton.mp hnew
        exact ⟨hread, rfl, congrArg some (requiredProbe_status hprobe)⟩
  | update profileId name settings =>
    obtain ⟨_, -, h⟩ := Failing.bind_ok.mp h
    obtain ⟨probe, hprobe, h⟩ := Failing.bind_ok.mp h
    obtain ⟨⟨updated, list⟩, hupdate, h⟩ := Failing.bind_ok.mp h
    obtain ⟨target, htarget, rfl, hread⟩ := recordCustomProviderProfileProbe_ok h
    unfold updateCustomProviderProfile at hupdate
    obtain ⟨old, hold, hupdate⟩ := Failing.bind_ok.mp hupdate
    obtain ⟨hmem, rfl⟩ := getCustomProviderProfile_ok hold
    split at hupdate
    · cases hupdate
    · obtain ⟨rfl, rfl⟩ := Prod.mk.inj (Except.ok.inj hupdate)
      have hreplaced : getCustomProviderProfile (replaceProfile profiles
          { old with name := name, settings := settings, updatedAt := now }) old.id =
            .ok { old with name := name, settings := settings, updatedAt := now } :=
        getCustomProviderProfile_replaceProfile ⟨old, hmem, rfl⟩
      obtain rfl := Except.ok.inj (hreplaced.symm.trans htarget)
      exact ⟨hread, rfl, congrArg some (requiredProbe_status hprobe)⟩
  | reverify profileId =>
    obtain ⟨old, hold, h⟩ := Failing.bind_ok.mp h
    obtain ⟨probe, hprobe, h⟩ := Failing.bind_ok.mp h
    obtain ⟨target, htarget, rfl, hread⟩ := recordCustomProviderProfileProbe_ok h
    obtain rfl := Except.ok.inj (hold.symm.trans htarget)
    exact ⟨hread, rfl, congrArg some (requiredProbe_status hprobe)⟩

/-! ### A request alone

A verification is what a request leaves when no other request takes a step. -/

section Alone

open Transition

variable {r : ℕ} {s : ProfileState} {probe : ProbeResult}

/-- A computed rewrite is committed. -/
theorem saving_run (site : ProfileSite) {loaded payload : List CustomProviderProfile}
    {change : SavedChange} (hr : s.requests r = .saving loaded payload change probe) :
    ∃ t, Run (profileStep site) (fun _ _ => True) s [.find r, .commit r] t ∧
      t.profiles = payload ∧ t.requests r = committedPhase change probe := by
  have hfind : profileStep site s (.find r) =
      some (s.setRequest r (.writing loaded payload change probe s.row.isSome)) := by
    simp only [profileStep, hr]
  have hcommit : profileStep site
      (s.setRequest r (.writing loaded payload change probe s.row.isSome)) (.commit r) =
        some ({ s.setRequest r (.writing loaded payload change probe s.row.isSome) with
          row := some payload }.setRequest r (committedPhase change probe)) := by
    simp [profileStep, ProfileState.setRequest]
  exact ⟨_, .cons hfind trivial (.cons hcommit trivial (.nil _)), rfl, Function.update_self ..⟩

/-- A request about to record its probe records it. -/
theorem recording_run (site : ProfileSite) (hr : s.requests r = .recording profileId probe)
    (hrecord : recordCustomProviderProfileProbe s.profiles profileId probe.status probe.detail
      at_ = .ok (profile, saved)) :
    ∃ t, Run (profileStep site) (fun _ _ => True) s [.record r at_, .find r, .commit r] t ∧
      t.profiles = saved ∧ t.succeeded r = true := by
  have hstep : profileStep site s (.record r at_) =
      some (s.setRequest r (.saving s.profiles saved (.probed profile) probe)) := by
    simp only [profileStep, hr, hrecord]
    rfl
  have hsaving : (s.setRequest r (.saving s.profiles saved (.probed profile) probe)).requests r =
      .saving s.profiles saved (.probed profile) probe := Function.update_self ..
  obtain ⟨t, hrun, hsaved, hdone⟩ := saving_run site hsaving
  refine ⟨t, .cons hstep trivial hrun, hsaved, ?_⟩
  unfold ProfileState.succeeded
  rw [hdone]
  rfl

/-- The probe a save is made with passes the check of the request. -/
theorem checkProfilePayload_ok {settings : LLMProviderSettings}
    (hpolicy : enforceProviderPolicy site.deployment settings = .ok ())
    (hprobe : requiredProbe machine settings "Custom provider save" = .ok probe) :
    checkProfilePayload site settings probe = .ok () := by
  exact Failing.bind_ok.mpr ⟨(), hpolicy, requiredProbe_require hprobe⟩

/-- A request whose first rewrite is computed commits it and records its probe. -/
theorem first_run (site : ProfileSite) {request : ProfileRequest} {uuid : String}
    {change : SavedChange} {list : List CustomProviderProfile}
    (hr : s.requests r = .absent) (hfresh : uuid ∉ s.issued)
    (harrive : arrive site probe request = .started request probe)
    (hread : readPhase site s.profiles uuid now probe request =
      .saving s.profiles list change probe)
    (hchange : committedPhase change probe = .recording profileId probe)
    (hrecord : recordCustomProviderProfileProbe list profileId probe.status probe.detail at_ =
      .ok (profile, saved)) :
    ∃ acts t, Run (profileStep site) (fun _ _ => True) s acts t ∧ t.profiles = saved ∧
      t.succeeded r = true := by
  have hrequest : profileStep site s (.request r request probe) =
      some (s.setRequest r (.started request probe)) := by
    simp only [profileStep, hr, harrive]
  have hstep : profileStep site (s.setRequest r (.started request probe)) (.read r uuid now) =
      some ({ s.setRequest r (.started request probe) with
        issued := uuid :: s.issued }.setRequest r (.saving s.profiles list change probe)) := by
    rw [← hread]
    simp [profileStep, ProfileState.setRequest, ProfileState.profiles, hfresh]
  have hsaving : ({ s.setRequest r (.started request probe) with
      issued := uuid :: s.issued }.setRequest r
        (.saving s.profiles list change probe)).requests r =
      .saving s.profiles list change probe := Function.update_self ..
  -- Find the row, commit the rewrite, and then record the probe over the new list.
  obtain ⟨u, hrun, hlist, hphase⟩ := saving_run site hsaving
  obtain ⟨t, hrest, hsaved, hdone⟩ :=
    recording_run site (hphase.trans hchange) (hlist.symm ▸ hrecord)
  exact ⟨_, t, .cons hrequest trivial (.cons hstep trivial (hrun.append hrest)), hsaved, hdone⟩

/-- **A verification is a request alone**: the same list is left by a request that no
other request interrupts. -/
theorem verifyProfile_run {spare : String} (hr : s.requests r = .absent)
    (hissued : ∀ uuid name settings, verification = .create uuid name settings →
      uuid ∉ s.issued) (hspare : spare ∉ s.issued)
    (h : verifyProfile site machine s.profiles now at_ verification = .ok (profile, saved)) :
    ∃ acts t, Run (profileStep site) (fun _ _ => True) s acts t ∧ t.profiles = saved ∧
      t.succeeded r = true := by
  cases verification with
  | create uuid name settings =>
    obtain ⟨_, hpolicy, h⟩ := Failing.bind_ok.mp h
    obtain ⟨probe, hprobe, h⟩ := Failing.bind_ok.mp h
    obtain ⟨⟨created, list⟩, hcreate, hrecord⟩ := Failing.bind_ok.mp h
    have harrive : arrive site probe (.create name settings) =
        .started (.create name settings) probe := by
      rw [arrive, checkProfilePayload_ok hpolicy hprobe]
    have hread : readPhase site s.profiles uuid now probe (.create name settings) =
        .saving s.profiles list (.created created) probe := by
      rw [readPhase, hcreate]
      rfl
    exact first_run site hr (hissued uuid name settings rfl) harrive hread rfl hrecord
  | update profileId name settings =>
    obtain ⟨_, hpolicy, h⟩ := Failing.bind_ok.mp h
    obtain ⟨probe, hprobe, h⟩ := Failing.bind_ok.mp h
    obtain ⟨⟨updated, list⟩, hupdate, hrecord⟩ := Failing.bind_ok.mp h
    have hid : updated.id = profileId := by
      unfold updateCustomProviderProfile at hupdate
      obtain ⟨old, hold, hupdate⟩ := Failing.bind_ok.mp hupdate
      split at hupdate
      · cases hupdate
      · obtain ⟨rfl, -⟩ := Prod.mk.inj (Except.ok.inj hupdate)
        exact (getCustomProviderProfile_ok hold).2
    have harrive : arrive site probe (.update profileId name settings) =
        .started (.update profileId name settings) probe := by
      rw [arrive, checkProfilePayload_ok hpolicy hprobe]
    have hread : readPhase site s.profiles spare now probe (.update profileId name settings) =
        .saving s.profiles list (.updated updated) probe := by
      rw [readPhase, hupdate]
      rfl
    have hchange : committedPhase (.updated updated) probe = .recording profileId probe :=
      hid ▸ rfl
    exact first_run site hr hspare harrive hread hchange hrecord
  | reverify profileId =>
    obtain ⟨old, hold, h⟩ := Failing.bind_ok.mp h
    obtain ⟨probe, hprobe, hrecord⟩ := Failing.bind_ok.mp h
    obtain ⟨-, rfl⟩ := getCustomProviderProfile_ok hold
    -- a reverification reads the list twice: for the probe, and to record it
    let s₁ := s.setRequest r (.started (.reverify old.id) probe)
    let s₂ := { s₁ with issued := spare :: s.issued }.setRequest r (.probing old false)
    have hrequest : profileStep site s (.request r (.reverify old.id) probe) = some s₁ := by
      simp only [profileStep, hr]
      rfl
    have hread : profileStep site s₁ (.read r spare now) = some s₂ := by
      have hphase : readPhase site s.profiles spare now probe (.reverify old.id) =
          .probing old false := by
        rw [readPhase, hold]
      simp [s₁, s₂, ← hphase, profileStep, ProfileState.setRequest, ProfileState.profiles, hspare]
    have hprobed : profileStep site s₂ (.probe r probe) =
        some (s₂.setRequest r (.recording old.id probe)) := by
      have hphase : probePhase old false probe = .recording old.id probe := by
        unfold probePhase
        simp [requiredProbe_require hprobe]
      simp [s₂, ← hphase, profileStep, ProfileState.setRequest]
    obtain ⟨t, hrest, hsaved, hdone⟩ := recording_run site
      (s := s₂.setRequest r (.recording old.id probe)) (Function.update_self ..) hrecord
    exact ⟨_, t, .cons hrequest trivial (.cons hread trivial (.cons hprobed trivial hrest)), hsaved,
      hdone⟩

end Alone

/-- The check of a profile with a record: its word, and its age. -/
theorem requireFresh_iff {word : String} (hat : profile.lastProbeAt = some at_)
    (hstatus : profile.lastProbeStatus = some word) :
    requireFreshCustomProviderProfileProbe site now profile = .ok () ↔
      word = "reachable" ∧
        now - at_ ≤ site.customProviderProbeMaxAgeHours * microsecondsPerHour := by
  have hstale : customProviderProfileProbeIsStale site now profile = false ↔
      word = "reachable" ∧
        now - at_ ≤ site.customProviderProbeMaxAgeHours * microsecondsPerHour := by
    unfold customProviderProfileProbeIsStale
    rw [hat, hstatus]
    simp
  rw [← hstale]
  unfold requireFreshCustomProviderProfileProbe
  cases customProviderProfileProbeIsStale site now profile with
  | false => simp
  | true =>
    simp only [if_true]
    split <;> simp

end Verify

/-- **A fresh verification allows activation just in case the provider is not the
mock.**  Where it is not, activation is allowed as long as the profile is as it was
saved and the record is not too old, and refused afterwards. -/
theorem fresh_verification_iff {site : ProfileSite} {machine : ProbeMachine}
    {profiles saved : List CustomProviderProfile} {profile : CustomProviderProfile} {now at_ : ℕ}
    {verification : ProfileVerification} (hfresh : verification.Fresh profiles)
    (h : verifyProfile site machine profiles now at_ verification = .ok (profile, saved)) :
    (∀ later, getCustomProviderProfile later profile.id =
        getCustomProviderProfile saved profile.id →
      ∀ t, at_ ≤ t → (checkActivation site t later profile.id = .ok () ↔
        t - at_ ≤ site.customProviderProbeMaxAgeHours * microsecondsPerHour)) ↔
      profile.settings.apiStyle ≠ .mock := by
  obtain ⟨hread, hat, hstatus⟩ := verifyProfile_recorded hfresh h
  have hcheck : ∀ later, getCustomProviderProfile later profile.id =
      getCustomProviderProfile saved profile.id → ∀ t,
        (checkActivation site t later profile.id = .ok () ↔
          (if profile.settings.apiStyle = .mock then "ready" else "reachable") = "reachable" ∧
            t - at_ ≤ site.customProviderProbeMaxAgeHours * microsecondsPerHour) := by
    intro later hlater t
    unfold checkActivation
    rw [Failing.bind_of_ok (hlater.trans hread)]
    exact requireFresh_iff hat hstatus
  constructor
  -- The record of the mock is not `reachable`, so it is refused at the very time of the probe.
  · intro hholds hmock
    have hnow := (hcheck saved rfl at_).mp ((hholds saved rfl at_ le_rfl).mpr (by simp))
    rw [if_pos hmock] at hnow
    exact absurd hnow.1 (by decide)
  · intro hplain later hlater t _
    rw [hcheck later hlater t, if_neg hplain]
    exact and_iff_right rfl

/-! ### A gateway and the mock -/

/-- A gateway that answers every probe. -/
def answeringMachine : ProbeMachine where
  urlencode version := "api-version=" ++ version
  send _ := .response 200 none ""

def gatewaySettings : LLMProviderSettings :=
  { providerType := "private_gateway", apiStyle := .openaiCompatible
    baseUrl := some "http://gateway" }

/-- The theorem on the gateway: a day later activation is allowed, a microsecond after
that it is not. -/
theorem fresh_verification_gateway :
    ∃ profile saved, verifyProfile {} answeringMachine [] 0 1
        (.create "a" "Gateway" gatewaySettings) = .ok (profile, saved) ∧
      checkActivation {} 86400000001 saved profile.id = .ok () ∧
      checkActivation {} 86400000002 saved profile.id ≠ .ok () := by
  obtain ⟨profile, saved, hverify, hstyle⟩ : ∃ profile saved,
      verifyProfile {} answeringMachine [] 0 1 (.create "a" "Gateway" gatewaySettings) =
        .ok (profile, saved) ∧ profile.settings.apiStyle = .openaiCompatible :=
    ⟨_, _, rfl, rfl⟩
  have hplain : profile.settings.apiStyle ≠ .mock := by
    rw [hstyle]
    decide
  have hfresh : (ProfileVerification.create "a" "Gateway" gatewaySettings).Fresh [] :=
    List.forall_mem_nil _
  have hcheck := (fresh_verification_iff hfresh hverify).mpr hplain saved rfl
  refine ⟨profile, saved, hverify, ?_, ?_⟩
  · exact (hcheck 86400000001 (by decide)).mpr (by decide)
  · intro hallowed
    exact absurd ((hcheck 86400000002 (by decide)).mp hallowed) (by decide)

/-- **A verified mock profile cannot be activated**, however fresh its record is. -/
theorem mock_verification_refused :
    ¬ ∀ (site : ProfileSite) (machine : ProbeMachine) (profiles saved : List CustomProviderProfile)
        (profile : CustomProviderProfile) (now at_ : ℕ) (verification : ProfileVerification),
      verification.Fresh profiles →
      verifyProfile site machine profiles now at_ verification = .ok (profile, saved) →
      ∀ t, at_ ≤ t → (checkActivation site t saved profile.id = .ok () ↔
        t - at_ ≤ site.customProviderProbeMaxAgeHours * microsecondsPerHour) := by
  intro h
  have hallowed := h {} answeringMachine [] _ _ 0 1 (.create "m" "Mock" {})
    (List.forall_mem_nil _) rfl 1 le_rfl
  cases hallowed.mpr (by decide)

end ExtractFlow
