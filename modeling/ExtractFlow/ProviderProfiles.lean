import ExtractFlow.Lib.Transition
import ExtractFlow.ProviderPolicy

/-!
# Custom provider profiles

The saved provider profiles of a tenant (`backend/app/services/provider_profiles.py`)
are one JSON list in one row of the settings.  Every request on them reads the
list, computes another and writes the row; nothing compares the row with what was
read.  Creating and updating a profile does so twice, the second time to record
the probe of the endpoint.

The state is the row, the default provider and the point each request is at; an
action is one statement of one request, so a list of actions is an interleaving.
A rewrite and its commit are one action: until the commit nobody else sees the
row or writes it.

## Main definitions

* `createCustomProviderProfile`, `updateCustomProviderProfile`,
  `deleteCustomProviderProfile`, `recordCustomProviderProfileProbe` — the lists they save.
* `SavedChange` — what a rewrite changes; `ProfilePhase` — where a request is.
* `ProfileState`, `ProfileAct`, `profileStep` — the system.

## Main results

* `createCustomProviderProfile_spec` and the lemmas beside it — a request that passes its
  checks saves a fitting change of the list it read.
* `profileMove_of_step` — the system takes only the steps of `ProfileMove`.
-/

namespace ExtractFlow

/-! ### Profiles -/

/-- A saved profile: a name, provider settings, and the record of the last probe of them. -/
structure CustomProviderProfile where
  id : String
  name : String
  settings : LLMProviderSettings
  /-- Clock readings are in microseconds. -/
  lastProbeAt : Option ℕ := none
  lastProbeStatus : Option String := none
  lastProbeDetail : Option String := none
  createdAt : ℕ
  updatedAt : ℕ
  deriving Repr, Inhabited

/-- The response to a name in use. -/
def profileNameTaken : PyErr := .httpException 409 "Custom provider profile name already exists."

/-- The response to an unknown identifier. -/
def profileNotFound : PyErr := .httpException 404 "Custom provider profile not found."

/-- `next(profile for profile in profiles if profile.id == profile_id)`, or the 404. -/
def getCustomProviderProfile (profiles : List CustomProviderProfile) (profileId : String) :
    Except PyErr CustomProviderProfile :=
  match profiles.find? fun p => p.id == profileId with
  | some target => .ok target
  | none => .error profileNotFound

/-- `[updated if profile.id == profile_id else profile for profile in profiles]`. -/
def replaceProfile (profiles : List CustomProviderProfile) (updated : CustomProviderProfile) :
    List CustomProviderProfile :=
  profiles.map fun p => if p.id = updated.id then updated else p

/-- `create_custom_provider_profile`: the profile, and the list it saves; a name that is taken is
refused. -/
def createCustomProviderProfile (profiles : List CustomProviderProfile) (uuid name : String)
    (settings : LLMProviderSettings) (now : ℕ) :
    Except PyErr (CustomProviderProfile × List CustomProviderProfile) :=
  if profiles.any fun p => p.name == name then .error profileNameTaken
  else
    let profile : CustomProviderProfile :=
      { id := uuid, name := name, settings := settings, createdAt := now, updatedAt := now }
    .ok (profile, profiles ++ [profile])

/-- `update_custom_provider_profile`: the profile with its new name and settings, in the place of
the old one. -/
def updateCustomProviderProfile (profiles : List CustomProviderProfile) (profileId name : String)
    (settings : LLMProviderSettings) (now : ℕ) :
    Except PyErr (CustomProviderProfile × List CustomProviderProfile) := do
  let target ← getCustomProviderProfile profiles profileId
  if profiles.any fun p => p.name == name && p.id != profileId then throw profileNameTaken
  let updated := { target with name := name, settings := settings, updatedAt := now }
  return (updated, replaceProfile profiles updated)

/-- `delete_custom_provider_profile`: the list it saves, without the profile. -/
def deleteCustomProviderProfile (profiles : List CustomProviderProfile) (profileId : String) :
    Except PyErr (List CustomProviderProfile) :=
  if profiles.any fun p => p.id == profileId then .ok (profiles.filter fun p => p.id != profileId)
  else .error profileNotFound

/-- `record_custom_provider_profile_probe`: the profile with the time and the outcome of a probe. -/
def recordCustomProviderProfileProbe (profiles : List CustomProviderProfile) (profileId : String)
    (status detail : String) (now : ℕ) :
    Except PyErr (CustomProviderProfile × List CustomProviderProfile) := do
  let target ← getCustomProviderProfile profiles profileId
  let updated :=
    { target with
      lastProbeAt := some now
      lastProbeStatus := some status
      lastProbeDetail := some detail
      updatedAt := now }
  return (updated, replaceProfile profiles updated)

/-- What the deployment says about profiles: its policy, and for how long a probe counts. -/
structure ProfileSite where
  deployment : DeploymentSettings := {}
  customProviderProbeMaxAgeHours : ℕ := 24

/-- The microseconds of an hour. -/
def microsecondsPerHour : ℕ := 3600000000

/-- `custom_provider_profile_probe_is_stale`. -/
def customProviderProfileProbeIsStale (site : ProfileSite) (now : ℕ)
    (profile : CustomProviderProfile) : Bool :=
  match profile.lastProbeAt with
  | none => true
  | some at_ =>
      profile.lastProbeStatus != some "reachable" ||
        decide (site.customProviderProbeMaxAgeHours * microsecondsPerHour < now - at_)

/-- `require_fresh_custom_provider_profile_probe`. -/
def requireFreshCustomProviderProfileProbe (site : ProfileSite) (now : ℕ)
    (profile : CustomProviderProfile) : Except PyErr Unit :=
  if customProviderProfileProbeIsStale site now profile then
    if profile.lastProbeAt.isNone then
      .error <| .httpException 400 <| "Custom provider activation blocked until the saved profile " ++
        "is reverified. No successful probe is recorded."
    else
      let hours := site.customProviderProbeMaxAgeHours
      .error <| .httpException 400 <| "Custom provider activation blocked until the saved profile " ++
        s!"is reverified. Last successful probe is older than {hours} hours."
  else .ok ()

/-! ### Requests -/

/-- What `probe_provider` answers: whether the endpoint can be used, a word for it, and
a sentence. -/
structure ProbeResult where
  reachable : Bool
  status : String
  detail : String
  deriving Repr, Inhabited

/-- `require_reachable_provider`. -/
def requireReachableProvider (result : ProbeResult) (action : String) : Except PyErr Unit :=
  if result.reachable then .ok ()
  else
    let detail := result.detail
    .error <| .httpException 400 s!"{action} blocked until provider probe succeeds. {detail}"

/-- A request on the profiles, as the API receives it. -/
inductive ProfileRequest where
  | create (name : String) (settings : LLMProviderSettings)
  | update (profileId name : String) (settings : LLMProviderSettings)
  | delete (profileId : String)
  | reverify (profileId : String)
  | activate (profileId : String)

/-- What a rewrite of the list changes; everything else in the list it writes is what it read. -/
inductive SavedChange where
  | created (profile : CustomProviderProfile)
  | updated (profile : CustomProviderProfile)
  | deleted (profileId : String)
  | probed (profile : CustomProviderProfile)

/-- Where a request is: what it has read and computed, and which statement comes next. -/
inductive ProfilePhase where
  | absent
  /-- Past the checks of its payload, with the probe of it: about to read the list. -/
  | started (request : ProfileRequest) (probe : ProbeResult)
  /-- In `_save_profiles`, about to look the row up: it read `loaded` and saves `payload`. -/
  | saving (loaded payload : List CustomProviderProfile) (change : SavedChange)
      (probe : ProbeResult)
  /-- About to write and commit; `hasRow` tells whether the row was there. -/
  | writing (loaded payload : List CustomProviderProfile) (change : SavedChange)
      (probe : ProbeResult) (hasRow : Bool)
  /-- Reverification or activation, with the profile read: about to probe. -/
  | probing (profile : CustomProviderProfile) (activation : Bool)
  /-- About to commit the default provider. -/
  | activating (profile : CustomProviderProfile) (probe : ProbeResult)
  /-- About to read the list again, to record the probe. -/
  | recording (profileId : String) (probe : ProbeResult)
  | done (response : Except PyErr Unit)

structure ProfileState where
  /-- The row `custom_provider_profiles` of the tenant. -/
  row : Option (List CustomProviderProfile) := none
  /-- The row `default_provider` of the tenant. -/
  defaultProvider : Option LLMProviderSettings := none
  /-- The identifiers given out so far: `uuid4` never repeats one. -/
  issued : List String := []
  requests : ℕ → ProfilePhase := fun _ => .absent

/-- `list_custom_provider_profiles`. -/
def ProfileState.profiles (s : ProfileState) : List CustomProviderProfile := s.row.getD []

def ProfileState.setRequest (s : ProfileState) (r : ℕ) (ph : ProfilePhase) : ProfileState :=
  { s with requests := Function.update s.requests r ph }

/-- The response of a request that is finished was a success. -/
def ProfileState.succeeded (s : ProfileState) (r : ℕ) : Bool :=
  match s.requests r with
  | .done (.ok ()) => true
  | _ => false

/-- One statement of a request; the requests of an interleaving are told apart by a number. -/
inductive ProfileAct where
  /-- Request `r` arrives; `probe` is the probe of its payload, when it has one. -/
  | request (r : ℕ) (request : ProfileRequest) (probe : ProbeResult)
  /-- It reads the list and computes; `uuid` is what `uuid4` returns. -/
  | read (r : ℕ) (uuid : String) (now : ℕ)
  /-- It looks the row up. -/
  | find (r : ℕ)
  /-- It writes the row and commits. -/
  | commit (r : ℕ)
  /-- It probes the endpoint of the profile it read. -/
  | probe (r : ℕ) (result : ProbeResult)
  /-- It commits the default provider. -/
  | activate (r : ℕ)
  /-- It reads the list again and computes. -/
  | record (r : ℕ) (now : ℕ)
  /-- It raises before its first rewrite. -/
  | fail (r : ℕ) (e : PyErr)

/-- The checks a payload passes before the list is read. -/
def checkProfilePayload (site : ProfileSite) (settings : LLMProviderSettings)
    (probe : ProbeResult) : Except PyErr Unit := do
  enforceProviderPolicy site.deployment settings
  requireReachableProvider probe "Custom provider save"

/-- Where a request goes when it arrives. -/
def arrive (site : ProfileSite) (probe : ProbeResult) (request : ProfileRequest) : ProfilePhase :=
  match request with
  | .create _ settings | .update _ _ settings =>
      match checkProfilePayload site settings probe with
      | .ok () => .started request probe
      | .error e => .done (.error e)
  | _ => .started request probe

/-- The phase after a computation that either saves a list or ends the request. -/
def savePhase (loaded : List CustomProviderProfile) (probe : ProbeResult)
    (outcome : Except PyErr (SavedChange × List CustomProviderProfile)) : ProfilePhase :=
  match outcome with
  | .ok (change, payload) => .saving loaded payload change probe
  | .error e => .done (.error e)

/-- The phase after the first read of the list. -/
def readPhase (site : ProfileSite) (profiles : List CustomProviderProfile) (uuid : String)
    (now : ℕ) (probe : ProbeResult) (request : ProfileRequest) : ProfilePhase :=
  match request with
  | .create name settings =>
      savePhase profiles probe <| (createCustomProviderProfile profiles uuid name settings now).map
        fun saved => (.created saved.1, saved.2)
  | .update profileId name settings =>
      savePhase profiles probe <|
        (updateCustomProviderProfile profiles profileId name settings now).map
          fun saved => (.updated saved.1, saved.2)
  | .delete profileId =>
      savePhase profiles probe <| (deleteCustomProviderProfile profiles profileId).map
        fun saved => (.deleted profileId, saved)
  | .reverify profileId =>
      match getCustomProviderProfile profiles profileId with
      | .ok profile => .probing profile false
      | .error e => .done (.error e)
  | .activate profileId =>
      match (do
        let profile ← getCustomProviderProfile profiles profileId
        enforceProviderPolicy site.deployment profile.settings
        requireFreshCustomProviderProfileProbe site now profile
        return profile) with
      | .ok profile => .probing profile true
      | .error e => .done (.error e)

/-- The phase after the probe of a saved profile. -/
def probePhase (profile : CustomProviderProfile) (activation : Bool) (result : ProbeResult) :
    ProfilePhase :=
  let action := if activation then "Custom provider activation"
    else "Custom provider reverification"
  match requireReachableProvider result action with
  | .ok () => if activation then .activating profile result else .recording profile.id result
  | .error e => .done (.error e)

/-- The phase after the commit of a rewrite. -/
def committedPhase (change : SavedChange) (probe : ProbeResult) : ProfilePhase :=
  match change with
  | .created profile | .updated profile => .recording profile.id probe
  | .deleted _ | .probed _ => .done (.ok ())

/-- One step of the system: the statement of one request, in the state that all of them share. -/
def profileStep (site : ProfileSite) (s : ProfileState) : ProfileAct → Option ProfileState
  | .request r request probe =>
      match s.requests r with
      | .absent => some (s.setRequest r (arrive site probe request))
      | _ => none
  | .read r uuid now =>
      match s.requests r with
      | .started request probe =>
          if uuid ∈ s.issued then none
          else some ({ s with issued := uuid :: s.issued }.setRequest r
            (readPhase site s.profiles uuid now probe request))
      | _ => none
  | .find r =>
      match s.requests r with
      | .saving loaded payload change probe =>
          some (s.setRequest r (.writing loaded payload change probe s.row.isSome))
      | _ => none
  | .commit r =>
      match s.requests r with
      | .writing _ payload change probe hasRow =>
          -- the key of a setting is unique: a second insert of it fails
          if !hasRow && s.row.isSome then
            some (s.setRequest r (.done (.error (.other "IntegrityError"))))
          else some ({ s with row := some payload }.setRequest r (committedPhase change probe))
      | _ => none
  | .probe r result =>
      match s.requests r with
      | .probing profile activation =>
          some (s.setRequest r (probePhase profile activation result))
      | _ => none
  | .activate r =>
      match s.requests r with
      | .activating profile probe =>
          some ({ s with defaultProvider := some profile.settings }.setRequest r
            (.recording profile.id probe))
      | _ => none
  | .record r now =>
      match s.requests r with
      | .recording profileId probe =>
          some (s.setRequest r (savePhase s.profiles probe
            ((recordCustomProviderProfileProbe s.profiles profileId probe.status probe.detail
              now).map fun saved => (.probed saved.1, saved.2))))
      | _ => none
  | .fail r e =>
      match s.requests r with
      | .started _ _ | .probing _ _ | .activating _ _ => some (s.setRequest r (.done (.error e)))
      | _ => none

/-! ### What a rewrite changes -/

/-- The list after a change. -/
def SavedChange.apply (profiles : List CustomProviderProfile) :
    SavedChange → List CustomProviderProfile
  | .created profile => profiles ++ [profile]
  | .updated profile | .probed profile => replaceProfile profiles profile
  | .deleted profileId => profiles.filter fun p => p.id != profileId

/-- The identifier a change is about. -/
def SavedChange.profileId : SavedChange → String
  | .created profile | .updated profile | .probed profile => profile.id
  | .deleted profileId => profileId

/-- The list passes the checks of the change. -/
def SavedChange.Fits (profiles : List CustomProviderProfile) : SavedChange → Prop
  | .created profile => ∀ p ∈ profiles, p.name ≠ profile.name
  | .updated profile => (∃ p ∈ profiles, p.id = profile.id) ∧
      ∀ p ∈ profiles, p.name = profile.name → p.id = profile.id
  | .deleted profileId => ∃ p ∈ profiles, p.id = profileId
  | .probed profile => ∃ p ∈ profiles, p.id = profile.id ∧ p.name = profile.name ∧
      p.settings = profile.settings

section Saved

variable {profiles payload : List CustomProviderProfile} {profile : CustomProviderProfile}
  {profileId name uuid : String} {settings : LLMProviderSettings} {now : ℕ}

theorem getCustomProviderProfile_ok (h : getCustomProviderProfile profiles profileId = .ok profile) :
    profile ∈ profiles ∧ profile.id = profileId := by
  unfold getCustomProviderProfile at h
  split at h
  · next target hfind =>
    obtain rfl := Except.ok.inj h
    exact ⟨List.mem_of_find?_eq_some hfind, by simpa using List.find?_some hfind⟩
  · cases h

theorem getCustomProviderProfile_error {e : PyErr}
    (h : getCustomProviderProfile profiles profileId = .error e) :
    ∀ p ∈ profiles, p.id ≠ profileId := by
  unfold getCustomProviderProfile at h
  split at h
  · cases h
  · next hnone => simpa using hnone

/-- **A profile is created under a free name**: the list it saves is what it read, with the profile
behind it. -/
theorem createCustomProviderProfile_spec
    (h : createCustomProviderProfile profiles uuid name settings now = .ok (profile, payload)) :
    profile.id = uuid ∧ (SavedChange.created profile).Fits profiles ∧
      payload = (SavedChange.created profile).apply profiles := by
  unfold createCustomProviderProfile at h
  split at h
  · cases h
  · next hfree =>
    obtain ⟨rfl, rfl⟩ := Prod.mk.inj (Except.ok.inj h)
    exact ⟨rfl, by simpa [SavedChange.Fits] using hfree, rfl⟩

/-- **A profile is updated where it is**, under a name no other profile has. -/
theorem updateCustomProviderProfile_spec
    (h : updateCustomProviderProfile profiles profileId name settings now =
      .ok (profile, payload)) :
    (SavedChange.updated profile).Fits profiles ∧
      payload = (SavedChange.updated profile).apply profiles := by
  unfold updateCustomProviderProfile at h
  obtain ⟨target, htarget, h⟩ := Failing.bind_ok.mp h
  obtain ⟨hmem, hid⟩ := getCustomProviderProfile_ok htarget
  split at h
  · cases h
  · next hfree =>
    obtain ⟨rfl, rfl⟩ := Prod.mk.inj (Except.ok.inj h)
    refine ⟨⟨⟨target, hmem, rfl⟩, ?_⟩, rfl⟩
    intro p hp hname
    by_contra hne
    refine hfree (List.any_eq_true.mpr ⟨p, hp, ?_⟩)
    rw [hid] at hne
    simpa using ⟨hname, hne⟩

/-- **A profile is deleted where it is.** -/
theorem deleteCustomProviderProfile_spec
    (h : deleteCustomProviderProfile profiles profileId = .ok payload) :
    (SavedChange.deleted profileId).Fits profiles ∧
      payload = (SavedChange.deleted profileId).apply profiles := by
  unfold deleteCustomProviderProfile at h
  split at h
  · next hthere =>
    obtain rfl := Except.ok.inj h
    exact ⟨by simpa [SavedChange.Fits] using hthere, rfl⟩
  · cases h

/-- **A probe is recorded on the profile as it is.** -/
theorem recordCustomProviderProfileProbe_spec {status detail : String}
    (h : recordCustomProviderProfileProbe profiles profileId status detail now =
      .ok (profile, payload)) :
    profile.id = profileId ∧ (SavedChange.probed profile).Fits profiles ∧
      payload = (SavedChange.probed profile).apply profiles := by
  unfold recordCustomProviderProfileProbe at h
  obtain ⟨target, htarget, h⟩ := Failing.bind_ok.mp h
  obtain ⟨hmem, hid⟩ := getCustomProviderProfile_ok htarget
  obtain ⟨rfl, rfl⟩ := Prod.mk.inj (Except.ok.inj h)
  exact ⟨hid, ⟨target, hmem, rfl, rfl, rfl⟩, rfl⟩

/-- A probe that is not recorded found no profile. -/
theorem recordCustomProviderProfileProbe_error {status detail : String} {e : PyErr}
    (h : recordCustomProviderProfileProbe profiles profileId status detail now = .error e) :
    ∀ p ∈ profiles, p.id ≠ profileId := by
  unfold recordCustomProviderProfileProbe at h
  rcases Failing.bind_error.mp h with h | ⟨target, -, h⟩
  · exact getCustomProviderProfile_error h
  · cases h

end Saved

/-! ### The steps, one by one -/

/-- No rewrite of the request is computed yet. -/
def ProfilePhase.early : ProfilePhase → Bool
  | .absent | .started _ _ | .probing _ _ | .activating _ _ => true
  | _ => false

/-- The rewrite a request has computed and not committed: the list it read, the list
it saves and the change. -/
def ProfilePhase.pending :
    ProfilePhase → Option (List CustomProviderProfile × List CustomProviderProfile × SavedChange)
  | .saving loaded payload change _ | .writing loaded payload change _ _ =>
      some (loaded, payload, change)
  | _ => none

/-- Where a request may be after a step that computes no rewrite: early, failed, or
about to record a probe. -/
def ProfilePhase.quiet : ProfilePhase → Bool
  | .absent | .started _ _ | .probing _ _ | .activating _ _ | .recording _ _
  | .done (.error _) => true
  | _ => false

/-- The first rewrite of a request: a creation under the identifier it was given, an
update or a deletion. -/
def SavedChange.isFirst (uuid : String) : SavedChange → Prop
  | .created profile => profile.id = uuid
  | .updated _ | .deleted _ => True
  | .probed _ => False

/-- The steps of the requests, sorted by what they do to the list: compute a rewrite, commit one, or
neither. -/
inductive ProfileMove (s : ProfileState) : ProfileAct → ProfileState → Prop
  /-- Nothing is computed or committed. -/
  | quiet (a r) (ph : ProfilePhase) (issued default) : (s.requests r).early = true → ph.quiet = true →
      s.issued ⊆ issued → (∀ r', a ≠ .commit r') →
      ProfileMove s a ({ s with issued := issued, defaultProvider := default }.setRequest r ph)
  /-- The first rewrite is computed. -/
  | read (r uuid now) (change : SavedChange) (probe) : (s.requests r).early = true → uuid ∉ s.issued →
      change.isFirst uuid → change.Fits s.profiles →
      ProfileMove s (.read r uuid now) ({ s with issued := uuid :: s.issued }.setRequest r
        (.saving s.profiles (change.apply s.profiles) change probe))
  | find (r loaded payload change probe) : s.requests r = .saving loaded payload change probe →
      ProfileMove s (.find r) (s.setRequest r (.writing loaded payload change probe s.row.isSome))
  /-- The row was inserted by somebody else. -/
  | clash (r loaded payload change probe e) :
      s.requests r = .writing loaded payload change probe false → s.row.isSome = true →
      ProfileMove s (.commit r) (s.setRequest r (.done (.error e)))
  | commit (r loaded payload change probe hasRow) :
      s.requests r = .writing loaded payload change probe hasRow →
      (!hasRow && s.row.isSome) = false →
      ProfileMove s (.commit r)
        ({ s with row := some payload }.setRequest r (committedPhase change probe))
  /-- The profile to record the probe on is gone. -/
  | gone (r now profileId probe e) : s.requests r = .recording profileId probe →
      (∀ p ∈ s.profiles, p.id ≠ profileId) →
      ProfileMove s (.record r now) (s.setRequest r (.done (.error e)))
  | record (r now) (profile : CustomProviderProfile) (probe) : s.requests r = .recording profile.id probe →
      (SavedChange.probed profile).Fits s.profiles →
      ProfileMove s (.record r now) (s.setRequest r (.saving s.profiles
        ((SavedChange.probed profile).apply s.profiles) (.probed profile) probe))

theorem arrive_quiet (site : ProfileSite) (probe : ProbeResult) (request : ProfileRequest) :
    (arrive site probe request).quiet = true := by
  unfold arrive
  split
  · split <;> rfl
  · split <;> rfl
  · rfl

theorem probePhase_quiet (profile : CustomProviderProfile) (activation : Bool)
    (result : ProbeResult) : (probePhase profile activation result).quiet = true := by
  unfold probePhase
  dsimp only
  split
  · split <;> rfl
  · rfl

/-- After the first read a request has its first rewrite computed, or none yet. -/
theorem readPhase_spec (site : ProfileSite) (profiles : List CustomProviderProfile) (uuid : String)
    (now : ℕ) (probe : ProbeResult) (request : ProfileRequest) :
    (readPhase site profiles uuid now probe request).quiet = true ∨
      ∃ change, change.isFirst uuid ∧ change.Fits profiles ∧
        readPhase site profiles uuid now probe request =
          .saving profiles (change.apply profiles) change probe := by
  cases request with
  | create name settings =>
    simp only [readPhase]
    cases h : createCustomProviderProfile profiles uuid name settings now with
    | error e => exact Or.inl rfl
    | ok saved =>
      obtain ⟨hid, hfits, hpayload⟩ := createCustomProviderProfile_spec h
      exact Or.inr ⟨.created saved.1, hid, hfits, by rw [← hpayload]; rfl⟩
  | update profileId name settings =>
    simp only [readPhase]
    cases h : updateCustomProviderProfile profiles profileId name settings now with
    | error e => exact Or.inl rfl
    | ok saved =>
      obtain ⟨hfits, hpayload⟩ := updateCustomProviderProfile_spec h
      exact Or.inr ⟨.updated saved.1, trivial, hfits, by rw [← hpayload]; rfl⟩
  | delete profileId =>
    simp only [readPhase]
    cases h : deleteCustomProviderProfile profiles profileId with
    | error e => exact Or.inl rfl
    | ok saved =>
      obtain ⟨hfits, hpayload⟩ := deleteCustomProviderProfile_spec h
      exact Or.inr ⟨.deleted profileId, trivial, hfits, by rw [← hpayload]; rfl⟩
  -- These two probe first and compute no rewrite yet.
  | reverify profileId =>
    simp only [readPhase]
    split <;> exact Or.inl rfl
  | activate profileId =>
    simp only [readPhase]
    split <;> exact Or.inl rfl

/-- **The system takes only these steps.** -/
theorem profileMove_of_step {site : ProfileSite} {s t : ProfileState} {a : ProfileAct}
    (h : profileStep site s a = some t) : ProfileMove s a t := by
  cases a with
  | request r request probe =>
    simp only [profileStep] at h
    split at h
    · next hr =>
      obtain rfl := Option.some.inj h
      exact .quiet _ r _ s.issued s.defaultProvider (by rw [hr]; rfl)
        (arrive_quiet site probe request) (List.Subset.refl _) (by simp)
    · cases h
  | read r uuid now =>
    simp only [profileStep] at h
    split at h
    · next request probe hr =>
      split at h
      · cases h
      · next hfresh =>
        obtain rfl := Option.some.inj h
        have hearly : (s.requests r).early = true := by rw [hr]; rfl
        -- The request has read the list, and computes its rewrite from it at once.
        rcases readPhase_spec site s.profiles uuid now probe request with
          hquiet | ⟨change, hfirst, hfits, hphase⟩
        · exact .quiet _ r _ (uuid :: s.issued) s.defaultProvider hearly hquiet
            (List.subset_cons_self _ _) (by simp)
        · rw [hphase]
          exact .read r uuid now change probe hearly hfresh hfirst hfits
    · cases h
  | find r =>
    simp only [profileStep] at h
    split at h
    · next loaded payload change probe hr =>
      obtain rfl := Option.some.inj h
      exact .find r loaded payload change probe hr
    · cases h
  | commit r =>
    simp only [profileStep] at h
    split at h
    · next loaded payload change probe hasRow hr =>
      split at h
      -- An insert of a row that another request has inserted in the meantime.
      · next hclash =>
        obtain rfl := Option.some.inj h
        rw [Bool.and_eq_true, Bool.not_eq_true'] at hclash
        rw [hclash.1] at hr
        exact .clash r loaded payload change probe _ hr hclash.2
      · next hfree =>
        obtain rfl := Option.some.inj h
        exact .commit r loaded payload change probe hasRow hr (by simpa using hfree)
    · cases h
  | probe r result =>
    simp only [profileStep] at h
    split at h
    · next profile activation hr =>
      obtain rfl := Option.some.inj h
      exact .quiet _ r _ s.issued s.defaultProvider (by rw [hr]; rfl)
        (probePhase_quiet profile activation result) (List.Subset.refl _) (by simp)
    · cases h
  | activate r =>
    simp only [profileStep] at h
    split at h
    · next profile probe hr =>
      obtain rfl := Option.some.inj h
      exact .quiet _ r (.recording profile.id probe) s.issued (some profile.settings)
        (by rw [hr]; rfl) rfl (List.Subset.refl _) (by simp)
    · cases h
  | record r now =>
    simp only [profileStep] at h
    split at h
    · next profileId probe hr =>
      obtain rfl := Option.some.inj h
      cases hrec : recordCustomProviderProfileProbe s.profiles profileId probe.status probe.detail
        now with
      | error e =>
        exact .gone r now profileId probe e hr (recordCustomProviderProfileProbe_error hrec)
      | ok saved =>
        obtain ⟨rfl, hfits, hpayload⟩ := recordCustomProviderProfileProbe_spec hrec
        have hmove := ProfileMove.record r now saved.1 probe hr hfits
        rw [← hpayload] at hmove
        exact hmove
    · cases h
  | fail r e =>
    simp only [profileStep] at h
    split at h
    case h_4 => cases h
    all_goals
      next hr =>
        obtain rfl := Option.some.inj h
        exact .quiet _ r (.done (.error e)) s.issued s.defaultProvider (by rw [hr]; rfl) rfl
          (List.Subset.refl _) (by simp)

end ExtractFlow
