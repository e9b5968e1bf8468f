import ExtractFlow.Lib.Replay
import ExtractFlow.ProviderProfiles

/-!
# Lost provider profiles

A rewrite of the profile list that is committed after somebody else's, from a
list read before it, undoes it: a created profile vanishes, a deleted one comes
back.  Where every rewrite is committed over the list it was computed from, the
list is at every moment what the committed changes make of the first one.

The invariant behind that half follows a request through its second cycle.  The
profile it created or updated is there until somebody deletes it, so recording the
probe fails only for a deleted profile; and an identifier is given out once, so a
deleted profile stays away.

## Main definitions

* `changes s as` — the rewrites committed in a run, with their requests.
* `CycleIsolated` — a rewrite is committed over the list its request read.
* `ProfilesKept` — no profile lost, none revived, no name twice.
* `ProfileInv` — the invariant.

## Main results

* `profileInv_step` — a step that keeps to the discipline keeps the invariant.
* `profiles_kept` — no profile is lost in a run of such steps.
* `profile_lost` — one is, without the discipline.
-/

namespace ExtractFlow

open Transition

/-! ### What a run commits -/

/-- The rewrite a statement commits, with its request. -/
def ProfileState.committed (s : ProfileState) : ProfileAct → Option (ℕ × SavedChange)
  | .commit r =>
      match s.requests r with
      | .writing _ _ change _ hasRow =>
          if !hasRow && s.row.isSome then none else some (r, change)
      | _ => none
  | _ => none

/-- The rewrites committed in a run, in order, each with the request that committed it. -/
def changes (site : ProfileSite) (s : ProfileState) (as : List ProfileAct) :
    List (ℕ × SavedChange) :=
  outputs (profileStep site) ProfileState.committed s as

/-- A profile's name and settings. -/
abbrev ProfileSetting : Type := String × LLMProviderSettings

/-- What a change stores about a profile, or that it erases it. -/
def SavedChange.write : SavedChange → Option (String × Option ProfileSetting)
  | .created profile | .updated profile => some (profile.id, some (profile.name, profile.settings))
  | .deleted profileId => some (profileId, none)
  | .probed _ => none

/-- The writes of a list of changes. -/
def writes (cs : List (ℕ × SavedChange)) : List (String × Option ProfileSetting) :=
  cs.filterMap fun c => c.2.write

/-- The name and the settings a list of profiles has under an identifier. -/
def settingOf (profiles : List CustomProviderProfile) (profileId : String) :
    Option ProfileSetting :=
  (profiles.find? fun p => p.id == profileId).map fun p => (p.name, p.settings)

/-! ### The claim about a run -/

/-- Nobody is in the middle of anything, identifiers and names are distinct, and the
identifiers in use have been given out. -/
structure ProfileState.Idle (s : ProfileState) : Prop where
  requests : ∀ r, s.requests r = .absent
  ids : (s.profiles.map CustomProviderProfile.id).Nodup
  names : (s.profiles.map CustomProviderProfile.name).Nodup
  issued : ∀ p ∈ s.profiles, p.id ∈ s.issued

/-- Every request has finished. -/
def ProfileState.Settled (s : ProfileState) : Prop :=
  ∀ r, s.requests r = .absent ∨ ∃ response, s.requests r = .done response

/-- The name and the settings that the successful requests stored last for a profile. -/
def ProfileState.lastSetting (s : ProfileState) (cs : List (ℕ × SavedChange))
    (profileId : String) : Option ProfileSetting :=
  Replay.lastStored (writes (cs.filter fun c => s.succeeded c.1)) profileId

/-- No successful request deletes the profile. -/
def ProfileState.NotDeleted (s : ProfileState) (cs : List (ℕ × SavedChange))
    (profileId : String) : Prop :=
  ∀ r, (r, .deleted profileId) ∈ cs → s.succeeded r = false

/-- No profile is lost: in the state `t`, in which the changes `cs` to the list of
`s` are committed and every request has finished. -/
structure ProfilesKept (s : ProfileState) (cs : List (ℕ × SavedChange)) (t : ProfileState) :
    Prop where
  /-- A profile whose creation succeeded is there, as the successful requests set it last. -/
  created : ∀ r profile, (r, .created profile) ∈ cs → t.succeeded r = true →
    t.NotDeleted cs profile.id →
    ∃ p ∈ t.profiles, p.id = profile.id ∧
      t.lastSetting cs profile.id = some (p.name, p.settings)
  /-- A profile that was there is there, as the successful requests set it last. -/
  there : ∀ profile ∈ s.profiles, t.NotDeleted cs profile.id →
    ∃ p ∈ t.profiles, p.id = profile.id ∧
      (t.lastSetting cs profile.id).getD (profile.name, profile.settings) = (p.name, p.settings)
  /-- A deleted profile is not. -/
  deleted : ∀ r profileId, (r, .deleted profileId) ∈ cs → t.succeeded r = true →
    ∀ p ∈ t.profiles, p.id ≠ profileId
  names : (t.profiles.map CustomProviderProfile.name).Nodup

/-- A rewrite is committed while the stored list is still the one its request read. -/
def CycleIsolated (s : ProfileState) : ProfileAct → Prop
  | .commit r => ∀ loaded payload change probe hasRow,
      s.requests r = .writing loaded payload change probe hasRow → s.profiles = loaded
  | _ => True

/-! ### Lists of profiles -/

section Lists

variable {profiles : List CustomProviderProfile} {profile : CustomProviderProfile}
  {profileId : String}

theorem settingOf_eq_none_iff : settingOf profiles profileId = none ↔
    ∀ p ∈ profiles, p.id ≠ profileId := by
  simp [settingOf]

/-- What is read under an identifier is the setting of a profile of that identifier. -/
theorem exists_of_settingOf {v : ProfileSetting} (h : settingOf profiles profileId = some v) :
    ∃ p ∈ profiles, p.id = profileId ∧ v = (p.name, p.settings) := by
  obtain ⟨p, hp, rfl⟩ := Option.map_eq_some_iff.mp h
  exact ⟨p, List.mem_of_find?_eq_some hp, by simpa using List.find?_some hp, rfl⟩

/-- Identifiers being distinct, a profile is what its identifier reads. -/
theorem settingOf_of_mem (hids : (profiles.map CustomProviderProfile.id).Nodup)
    (h : profile ∈ profiles) :
    settingOf profiles profile.id = some (profile.name, profile.settings) := by
  obtain ⟨v, hv⟩ : ∃ v, settingOf profiles profile.id = some v := by
    refine Option.ne_none_iff_exists'.mp fun hnone => ?_
    exact settingOf_eq_none_iff.mp hnone profile h rfl
  obtain ⟨p, hp, hid, rfl⟩ := exists_of_settingOf hv
  obtain rfl : p = profile := List.inj_on_of_nodup_map hids hp h hid
  exact hv

theorem map_id_replaceProfile :
    (replaceProfile profiles profile).map CustomProviderProfile.id =
      profiles.map CustomProviderProfile.id := by
  rw [replaceProfile, List.map_map]
  refine List.map_congr_left fun p _ => ?_
  simp only [Function.comp_apply]
  split
  · next h => exact h.symm
  · rfl

/-- A replacement is read under its identifier, and changes nothing elsewhere. -/
theorem settingOf_replaceProfile (h : ∃ p ∈ profiles, p.id = profile.id) :
    settingOf (replaceProfile profiles profile) =
      Function.update (settingOf profiles) profile.id (some (profile.name, profile.settings)) := by
  funext profileId
  induction profiles with
  | nil => simp at h
  | cons q rest ih =>
    have hcons : ∀ (q : CustomProviderProfile) (rest : List CustomProviderProfile),
        settingOf (q :: rest) profileId =
          if q.id = profileId then some (q.name, q.settings) else settingOf rest profileId := by
      intro q rest
      unfold settingOf
      rw [List.find?_cons]
      by_cases hq : q.id = profileId
      · simp [hq]
      · have hne : (q.id == profileId) = false := by simpa using hq
        rw [if_neg hq, hne]
    have hhead : replaceProfile (q :: rest) profile =
        (if q.id = profile.id then profile else q) :: replaceProfile rest profile := rfl
    rw [hhead, hcons]
    -- the head is replaced, or the replacement is further down
    by_cases hq : q.id = profile.id
    · rw [if_pos hq]
      by_cases hid : profile.id = profileId
      · subst hid
        rw [if_pos rfl, Function.update_self]
      · -- below the head nothing else is read
        rw [if_neg hid, Function.update_of_ne (Ne.symm hid), hcons, if_neg (hq ▸ hid)]
        by_cases hrest : ∃ p ∈ rest, p.id = profile.id
        · rw [ih hrest, Function.update_of_ne (Ne.symm hid)]
        · have hsame : replaceProfile rest profile = rest := by
            unfold replaceProfile
            refine (List.map_congr_left fun p hp => ?_).trans (List.map_id _)
            exact if_neg fun hpid => hrest ⟨p, hp, hpid⟩
          rw [hsame]
    · have hrest : ∃ p ∈ rest, p.id = profile.id := by
        obtain ⟨p, hp, hpid⟩ := h
        rcases List.mem_cons.mp hp with rfl | hp
        · exact absurd hpid hq
        · exact ⟨p, hp, hpid⟩
      rw [if_neg hq, ih hrest]
      by_cases hid : profile.id = profileId
      · subst hid
        rw [if_neg hq, Function.update_self, Function.update_self]
      · rw [Function.update_of_ne (Ne.symm hid), Function.update_of_ne (Ne.symm hid), hcons]

/-- Replacing a profile under a name no other has keeps the names distinct. -/
theorem nodup_names_replaceProfile (hids : (profiles.map CustomProviderProfile.id).Nodup)
    (hnames : (profiles.map CustomProviderProfile.name).Nodup)
    (hfree : ∀ p ∈ profiles, p.name = profile.name → p.id = profile.id) :
    ((replaceProfile profiles profile).map CustomProviderProfile.name).Nodup := by
  have hprofiles : profiles.Nodup := List.Nodup.of_map _ hids
  rw [replaceProfile, List.map_map]
  refine (List.nodup_map_iff_inj_on hprofiles).mpr ?_
  intro p hp q hq hpq
  simp only [Function.comp_apply] at hpq
  by_cases hpid : p.id = profile.id <;> by_cases hqid : q.id = profile.id
  · exact List.inj_on_of_nodup_map hids hp hq (hpid.trans hqid.symm)
  · rw [if_pos hpid, if_neg hqid] at hpq
    exact absurd (hfree q hq hpq.symm) hqid
  · rw [if_neg hpid, if_pos hqid] at hpq
    exact absurd (hfree p hp hpq) hpid
  · rw [if_neg hpid, if_neg hqid] at hpq
    exact List.inj_on_of_nodup_map hnames hp hq hpq

/-- The identifier of a creation is new. -/
def SavedChange.Fresh (profiles : List CustomProviderProfile) : SavedChange → Prop
  | .created profile => ∀ p ∈ profiles, p.id ≠ profile.id
  | _ => True

/-- **A fitting change writes what it says**, and leaves the settings of all other profiles. -/
theorem settingOf_apply {change : SavedChange}
    (hids : (profiles.map CustomProviderProfile.id).Nodup) (hfits : change.Fits profiles)
    (hfresh : change.Fresh profiles) :
    settingOf (change.apply profiles) =
      Replay.replay (settingOf profiles) change.write.toList := by
  cases change with
  | created profile =>
    show _ = Function.update (settingOf profiles) profile.id (some (profile.name, profile.settings))
    funext profileId
    simp only [settingOf, SavedChange.apply, List.find?_append]
    by_cases hid : profile.id = profileId
    · subst hid
      have hnone : (profiles.find? fun p => p.id == profile.id) = none := by
        simpa [SavedChange.Fresh] using hfresh
      rw [hnone, Function.update_self]
      simp
    · have hne : (profile.id == profileId) = false := by simpa using hid
      rw [Function.update_of_ne (Ne.symm hid), List.find?_cons, hne, List.find?_nil, Option.or_none]
      rfl
  | updated profile => exact settingOf_replaceProfile hfits.1
  -- The deleted profile is not found any more, and every other one is found as before.
  | deleted profileId =>
    show _ = Function.update (settingOf profiles) profileId none
    funext other
    by_cases hid : other = profileId
    · subst hid
      rw [Function.update_self, settingOf_eq_none_iff]
      intro p hp
      simpa using (List.mem_filter.mp hp).2
    · rw [Function.update_of_ne hid]
      unfold settingOf SavedChange.apply
      rw [List.find?_filter]
      congr 2
      funext p
      by_cases hp : p.id = other
      · simp [hp, hid]
      · simp [hp]
  | probed profile =>
    obtain ⟨p, hp, hid, hname, hsettings⟩ := hfits
    show settingOf (replaceProfile profiles profile) = settingOf profiles
    -- A probe changes neither the name nor the settings.
    have hkeep : settingOf profiles profile.id = some (profile.name, profile.settings) := by
      rw [← hid, settingOf_of_mem hids hp, hname, hsettings]
    rw [settingOf_replaceProfile ⟨p, hp, hid⟩, ← hkeep, Function.update_eq_self]

/-- **A fitting change keeps identifiers and names distinct**, so each still stands for
one profile. -/
theorem nodup_apply {change : SavedChange} (hids : (profiles.map CustomProviderProfile.id).Nodup)
    (hnames : (profiles.map CustomProviderProfile.name).Nodup) (hfits : change.Fits profiles)
    (hfresh : change.Fresh profiles) :
    ((change.apply profiles).map CustomProviderProfile.id).Nodup ∧
      ((change.apply profiles).map CustomProviderProfile.name).Nodup := by
  cases change with
  | created profile =>
    simp only [SavedChange.apply, List.map_append, List.map_cons, List.map_nil]
    -- The identifier is new, and so is the name, or the service would have refused it.
    constructor <;> refine List.nodup_append.mpr ⟨‹_›, List.nodup_singleton _, ?_⟩
    · rintro _ hp _ hq rfl
      obtain ⟨p, hp, hid⟩ := List.mem_map.mp hp
      exact hfresh p hp (hid.trans (List.mem_singleton.mp hq))
    · rintro _ hp _ hq rfl
      obtain ⟨p, hp, hname⟩ := List.mem_map.mp hp
      exact hfits p hp (hname.trans (List.mem_singleton.mp hq))
  | updated profile =>
    refine ⟨?_, nodup_names_replaceProfile hids hnames hfits.2⟩
    rw [SavedChange.apply, map_id_replaceProfile]
    exact hids
  | deleted profileId =>
    exact ⟨hids.sublist (List.filter_sublist.map _), hnames.sublist (List.filter_sublist.map _)⟩
  | probed profile =>
    obtain ⟨q, hq, hid, hname, -⟩ := hfits
    refine ⟨?_, nodup_names_replaceProfile hids hnames ?_⟩
    · rw [SavedChange.apply, map_id_replaceProfile]
      exact hids
    · intro p hp hpname
      rw [List.inj_on_of_nodup_map hnames hp hq (hpname.trans hname.symm), hid]

/-- The identifiers of a changed list are those of the list, and the change's own. -/
theorem mem_apply {change : SavedChange} {p : CustomProviderProfile}
    (hp : p ∈ change.apply profiles) : p ∈ profiles ∨ p.id = change.profileId := by
  cases change with
  | created profile =>
    rcases List.mem_append.mp hp with hp | hp
    · exact Or.inl hp
    · exact Or.inr (congrArg CustomProviderProfile.id (List.mem_singleton.mp hp))
  | updated profile | probed profile =>
    obtain ⟨q, hq, rfl⟩ := List.mem_map.mp hp
    split
    · exact Or.inr rfl
    · exact Or.inl hq
  | deleted profileId => exact Or.inl (List.mem_filter.mp hp).1

end Lists

/-! ### The invariant -/

section Accessors

variable (s : ProfileState) (r : ℕ) (ph : ProfilePhase)

@[simp] theorem setRequest_row : (s.setRequest r ph).row = s.row := rfl
@[simp] theorem setRequest_profiles : (s.setRequest r ph).profiles = s.profiles := rfl
@[simp] theorem setRequest_issued : (s.setRequest r ph).issued = s.issued := rfl

@[simp] theorem profile_setRequest_self : (s.setRequest r ph).requests r = ph := by
  simp [ProfileState.setRequest]

theorem profile_setRequest_ne {r' : ℕ} (h : r' ≠ r) :
    (s.setRequest r ph).requests r' = s.requests r' := by
  simp [ProfileState.setRequest, h]

end Accessors

/-- The request is about to record the probe of the profile. -/
def ProfilePhase.recordsOn (profileId : String) (ph : ProfilePhase) : Prop :=
  (∃ probe, ph = .recording profileId probe) ∨
    ∃ loaded payload profile, ph.pending = some (loaded, payload, .probed profile) ∧
      profile.id = profileId

/-- What has become of a request that committed a change: one that stored a profile
records its probe, has done so, or found the profile gone; one that deleted a
profile is done, and the profile is gone. -/
def ProfilePhase.Follows (profiles : List CustomProviderProfile) (ph : ProfilePhase) :
    SavedChange → Prop
  | .created profile | .updated profile =>
      ph.recordsOn profile.id ∨ ph = .done (.ok ()) ∨
        ((∃ e, ph = .done (.error e)) ∧ ∀ p ∈ profiles, p.id ≠ profile.id)
  | .deleted profileId => ph = .done (.ok ()) ∧ ∀ p ∈ profiles, p.id ≠ profileId
  | .probed _ => True

/-- The state `t`, in which the changes `cs` to the list of `s` are committed. -/
structure ProfileInv (s : ProfileState) (cs : List (ℕ × SavedChange)) (t : ProfileState) :
    Prop where
  ids : (t.profiles.map CustomProviderProfile.id).Nodup
  names : (t.profiles.map CustomProviderProfile.name).Nodup
  issued : ∀ p ∈ t.profiles, p.id ∈ t.issued
  known : ∀ c ∈ cs, c.2.profileId ∈ t.issued
  /-- The list is what the changes make of the first one. -/
  view : settingOf t.profiles = Replay.replay (settingOf s.profiles) (writes cs)
  /-- A list to be saved is a fitting change of the list read. -/
  pending : ∀ r loaded payload change,
    (t.requests r).pending = some (loaded, payload, change) →
      payload = change.apply loaded ∧ change.Fits loaded ∧ (loaded ≠ [] → t.row.isSome = true)
  hasRow : ∀ r loaded payload change probe hasRow,
    t.requests r = .writing loaded payload change probe hasRow → loaded ≠ [] → hasRow = true
  /-- The identifier of a creation not yet committed is in use nowhere. -/
  fresh : ∀ r loaded payload profile,
    (t.requests r).pending = some (loaded, payload, .created profile) →
      profile.id ∈ t.issued ∧ (∀ p ∈ t.profiles, p.id ≠ profile.id) ∧
        ∀ c ∈ cs, c.2.profileId ≠ profile.id
  apart : ∀ r r' loaded loaded' payload payload' profile profile',
    (t.requests r).pending = some (loaded, payload, .created profile) →
      (t.requests r').pending = some (loaded', payload', .created profile') →
        profile.id = profile'.id → r = r'
  follows : ∀ r change, (r, change) ∈ cs → (t.requests r).Follows t.profiles change

theorem profileInv_of_idle {s : ProfileState} (h : s.Idle) : ProfileInv s [] s where
  ids := h.ids
  names := h.names
  issued := h.issued
  known := by simp
  view := rfl
  pending r loaded payload change hr := by
    rw [h.requests r] at hr
    cases hr
  hasRow r loaded payload change probe hasRow hr := by
    rw [h.requests r] at hr
    cases hr
  fresh r loaded payload profile hr := by
    rw [h.requests r] at hr
    cases hr
  apart r r' loaded loaded' payload payload' profile profile' hr := by
    rw [h.requests r] at hr
    cases hr
  follows := by simp

section Preservation

variable {s t u : ProfileState} {cs : List (ℕ × SavedChange)} {r : ℕ}

/-- A step of the request `r` that leaves the row alone. -/
theorem profileInv_setRequest (ht : ProfileInv s cs t) {ph : ProfilePhase} (issued : List String)
    (default : Option LLMProviderSettings) (hissued : t.issued ⊆ issued)
    (hpending : ∀ loaded payload change, ph.pending = some (loaded, payload, change) →
      payload = change.apply loaded ∧ change.Fits loaded ∧ (loaded ≠ [] → t.row.isSome = true))
    (hhasRow : ∀ loaded payload change probe hasRow,
      ph = .writing loaded payload change probe hasRow → loaded ≠ [] → hasRow = true)
    (hfresh : ∀ loaded payload profile, ph.pending = some (loaded, payload, .created profile) →
      (profile.id ∈ issued ∧ (∀ p ∈ t.profiles, p.id ≠ profile.id) ∧
        ∀ c ∈ cs, c.2.profileId ≠ profile.id) ∧
      ∀ r' loaded' payload' profile',
        (t.requests r').pending = some (loaded', payload', .created profile') →
          profile'.id = profile.id → r' = r)
    (hfollows : ∀ change, (r, change) ∈ cs → ph.Follows t.profiles change) :
    ProfileInv s cs ({ t with issued := issued, defaultProvider := default }.setRequest r ph) := by
  have hsame : ({ t with issued := issued, defaultProvider := default }.setRequest r ph).profiles =
      t.profiles := rfl
  refine ⟨ht.ids, ht.names, fun p hp => hissued (ht.issued p hp),
    fun c hc => hissued (ht.known c hc), ht.view, ?_, ?_, ?_, ?_, ?_⟩
  · intro r' loaded payload change hr'
    by_cases hne : r' = r
    · subst hne
      rw [profile_setRequest_self] at hr'
      exact hpending loaded payload change hr'
    · rw [profile_setRequest_ne _ _ _ hne] at hr'
      exact ht.pending r' loaded payload change hr'
  · intro r' loaded payload change probe hasRow hr'
    by_cases hne : r' = r
    · subst hne
      rw [profile_setRequest_self] at hr'
      exact hhasRow loaded payload change probe hasRow hr'
    · rw [profile_setRequest_ne _ _ _ hne] at hr'
      exact ht.hasRow r' loaded payload change probe hasRow hr'
  · intro r' loaded payload profile hr'
    by_cases hne : r' = r
    · subst hne
      rw [profile_setRequest_self] at hr'
      exact (hfresh loaded payload profile hr').1
    · rw [profile_setRequest_ne _ _ _ hne] at hr'
      obtain ⟨hmem, hlist, hcs⟩ := ht.fresh r' loaded payload profile hr'
      exact ⟨hissued hmem, hlist, hcs⟩
  -- Two requests that both create: at most one of them is the one that moved.
  · intro r₁ r₂ loaded loaded' payload payload' profile profile' h₁ h₂ hid
    by_cases hne₁ : r₁ = r <;> by_cases hne₂ : r₂ = r
    · rw [hne₁, hne₂]
    · subst hne₁
      rw [profile_setRequest_self] at h₁
      rw [profile_setRequest_ne _ _ _ hne₂] at h₂
      exact ((hfresh _ _ _ h₁).2 r₂ _ _ _ h₂ hid.symm).symm
    · subst hne₂
      rw [profile_setRequest_ne _ _ _ hne₁] at h₁
      rw [profile_setRequest_self] at h₂
      exact (hfresh _ _ _ h₂).2 r₁ _ _ _ h₁ hid
    · rw [profile_setRequest_ne _ _ _ hne₁] at h₁
      rw [profile_setRequest_ne _ _ _ hne₂] at h₂
      exact ht.apart r₁ r₂ _ _ _ _ _ _ h₁ h₂ hid
  · intro r' change hc
    rw [hsame]
    by_cases hne : r' = r
    · subst hne
      rw [profile_setRequest_self]
      exact hfollows change hc
    · rw [profile_setRequest_ne _ _ _ hne]
      exact ht.follows r' change hc

/-- A step of `r` to a phase with nothing computed. -/
theorem profileInv_quiet (ht : ProfileInv s cs t) {ph : ProfilePhase} (issued : List String)
    (default : Option LLMProviderSettings) (hissued : t.issued ⊆ issued) (hph : ph.pending = none)
    (hfollows : ∀ change, (r, change) ∈ cs → ph.Follows t.profiles change) :
    ProfileInv s cs ({ t with issued := issued, defaultProvider := default }.setRequest r ph) := by
  refine profileInv_setRequest ht issued default hissued ?_ ?_ ?_ hfollows
  · intro loaded payload change h
    rw [hph] at h
    cases h
  · rintro loaded payload change probe hasRow rfl
    cases hph
  · intro loaded payload profile h
    rw [hph] at h
    cases h

/-- A request that has committed a change is no longer early. -/
theorem not_early_of_follows {profiles : List CustomProviderProfile} {ph : ProfilePhase}
    {change : SavedChange} (h : ph.Follows profiles change) (hne : ∀ p, change ≠ .probed p) :
    ph.early = false := by
  have hrecords : ∀ profileId, ph.recordsOn profileId → ph.early = false := by
    rintro profileId (⟨probe, rfl⟩ | ⟨loaded, payload, profile, hp, -⟩)
    · rfl
    · cases ph <;> first | rfl | cases hp
  cases change with
  | created profile | updated profile =>
    rcases h with h | rfl | ⟨⟨e, rfl⟩, -⟩
    · exact hrecords _ h
    · rfl
    · rfl
  | deleted profileId =>
    obtain ⟨rfl, -⟩ := h
    rfl
  | probed profile => exact absurd rfl (hne profile)

/-- Before its first commit a request has nothing to follow. -/
theorem follows_of_early (ht : ProfileInv s cs t) (hearly : (t.requests r).early = true)
    (ph : ProfilePhase) : ∀ change, (r, change) ∈ cs → ph.Follows t.profiles change := by
  intro change hc
  have hfollows := ht.follows r change hc
  cases change with
  | probed profile => trivial
  | created profile | updated profile | deleted profileId =>
    have hlate := not_early_of_follows hfollows (by simp)
    rw [hearly] at hlate
    cases hlate

/-- A request about to record the probe of a profile has committed nothing but a change
to that profile. -/
theorem recordsOn_of_follows {profiles : List CustomProviderProfile} {ph : ProfilePhase}
    {change : SavedChange} (h : ph.Follows profiles change) (hne : ∀ p, change ≠ .probed p)
    (hdone : ∀ response, ph ≠ .done response) : ph.recordsOn change.profileId := by
  cases change with
  | created profile | updated profile =>
    rcases h with h | h | ⟨⟨e, h⟩, -⟩
    · exact h
    · exact absurd h (hdone _)
    · exact absurd h (hdone _)
  | deleted profileId => exact absurd h.1 (hdone _)
  | probed profile => exact absurd rfl (hne profile)

/-- A request about to record a probe still follows its changes. -/
theorem follows_of_recordsOn {profiles : List CustomProviderProfile} {ph ph' : ProfilePhase}
    {change : SavedChange} (h : ph.Follows profiles change) (hdone : ∀ response, ph ≠ .done response)
    (hrecords : ∀ profileId, ph.recordsOn profileId → ph'.recordsOn profileId) :
    ph'.Follows profiles change := by
  cases change with
  | created profile | updated profile =>
    exact Or.inl (hrecords _ (recordsOn_of_follows h (by simp) hdone))
  | deleted profileId => exact absurd h.1 (hdone _)
  | probed profile => trivial

/-- The request computes no rewrite. -/
theorem profileInv_early (ht : ProfileInv s cs t) {ph : ProfilePhase} {issued : List String}
    {default : Option LLMProviderSettings} (hearly : (t.requests r).early = true)
    (hquiet : ph.quiet = true) (hissued : t.issued ⊆ issued) :
    ProfileInv s cs ({ t with issued := issued, defaultProvider := default }.setRequest r ph) := by
  refine profileInv_quiet ht issued default hissued ?_ (follows_of_early ht hearly ph)
  cases ph <;> first | rfl | cases hquiet

/-- The list has a row when it has a profile. -/
theorem row_isSome_of_profiles (h : t.profiles ≠ []) : t.row.isSome = true := by
  unfold ProfileState.profiles at h
  cases hrow : t.row with
  | none => exact absurd (by rw [hrow]; rfl) h
  | some profiles => rfl

/-- The request computes its first rewrite of the list it has just read, which fits it. -/
theorem profileInv_read (ht : ProfileInv s cs t) {uuid : String} {change : SavedChange}
    {probe : ProbeResult} (hearly : (t.requests r).early = true) (huuid : uuid ∉ t.issued)
    (hfirst : change.isFirst uuid) (hfits : change.Fits t.profiles) :
    ProfileInv s cs ({ t with issued := uuid :: t.issued }.setRequest r
      (.saving t.profiles (change.apply t.profiles) change probe)) := by
  refine profileInv_setRequest ht _ t.defaultProvider (List.subset_cons_self _ _) ?_ ?_ ?_
    (follows_of_early ht hearly _)
  · intro loaded payload change' h
    obtain ⟨rfl, rfl, rfl⟩ : t.profiles = loaded ∧ change.apply t.profiles = payload ∧
        change = change' := by simpa [ProfilePhase.pending] using h
    exact ⟨rfl, hfits, row_isSome_of_profiles⟩
  · intro loaded payload change' probe' hasRow h
    cases h
  · -- the new identifier was given out to nobody before
    intro loaded payload profile h
    obtain ⟨-, -, rfl⟩ : t.profiles = loaded ∧ change.apply t.profiles = payload ∧
        change = .created profile := by simpa [ProfilePhase.pending] using h
    have hid : profile.id = uuid := hfirst
    rw [hid]
    refine ⟨⟨List.mem_cons_self, ?_, ?_⟩, ?_⟩
    · rintro p hp rfl
      exact huuid (ht.issued p hp)
    · rintro c hc rfl
      exact huuid (ht.known c hc)
    · rintro r' loaded' payload' profile' hr' rfl
      exact absurd (ht.fresh r' loaded' payload' profile' hr').1 huuid

/-- The request looks the row up. -/
theorem profileInv_find (ht : ProfileInv s cs t) {loaded payload : List CustomProviderProfile}
    {change : SavedChange} {probe : ProbeResult}
    (hr : t.requests r = .saving loaded payload change probe) :
    ProfileInv s cs (t.setRequest r (.writing loaded payload change probe t.row.isSome)) := by
  have hpending : (t.requests r).pending = some (loaded, payload, change) := by rw [hr]; rfl
  refine profileInv_setRequest ht t.issued t.defaultProvider (List.Subset.refl _) ?_ ?_ ?_ ?_
  · intro loaded' payload' change' h
    exact ht.pending r loaded' payload' change' (hpending.trans h)
  · intro loaded' payload' change' probe' hasRow h hloaded
    obtain ⟨rfl, -, -, -, rfl⟩ : loaded = loaded' ∧ payload = payload' ∧ change = change' ∧
        probe = probe' ∧ t.row.isSome = hasRow := by simpa using h
    exact (ht.pending r loaded payload change hpending).2.2 hloaded
  · intro loaded' payload' profile h
    have hprofile := hpending.trans h
    refine ⟨ht.fresh r loaded' payload' profile hprofile, fun r' loaded₂ payload₂ profile' h' hid => ?_⟩
    exact ht.apart r' r _ _ _ _ _ _ h' hprofile hid
  · intro change' hc
    refine follows_of_recordsOn (ht.follows r change' hc) (by simp [hr]) ?_
    rintro profileId (⟨probe', h⟩ | ⟨loaded', payload', profile, h, hid⟩)
    · rw [hr] at h
      cases h
    · exact Or.inr ⟨loaded', payload', profile, hpending.symm.trans h, hid⟩

/-- An insertion fails only for a request that has committed nothing: a list with a
profile in it has a row. -/
theorem profileInv_clash (ht : ProfileInv s cs t) {loaded payload : List CustomProviderProfile}
    {change : SavedChange} {probe : ProbeResult} {e : PyErr}
    (hr : t.requests r = .writing loaded payload change probe false) :
    ProfileInv s cs (t.setRequest r (.done (.error e))) := by
  have hpending : (t.requests r).pending = some (loaded, payload, change) := by rw [hr]; rfl
  refine profileInv_quiet ht t.issued t.defaultProvider (List.Subset.refl _) rfl fun change' hc => ?_
  have hno : ∀ profileId, ¬(t.requests r).recordsOn profileId := by
    rintro profileId (⟨probe', h⟩ | ⟨loaded', payload', profile, h, -⟩)
    · rw [hr] at h
      cases h
    · obtain ⟨rfl, rfl, rfl⟩ : loaded = loaded' ∧ payload = payload' ∧ change = .probed profile := by
        simpa using hpending.symm.trans h
      obtain ⟨q, hq, -⟩ := (ht.pending r loaded payload _ h).2.1
      have hrow := ht.hasRow r loaded payload _ probe false hr (List.ne_nil_of_mem hq)
      cases hrow
  refine follows_of_recordsOn (ht.follows r change' hc) (by simp [hr]) fun profileId h => ?_
  exact absurd h (hno profileId)

/-- The profile to record the probe on is gone. -/
theorem profileInv_gone (ht : ProfileInv s cs t) {profileId : String} {probe : ProbeResult}
    {e : PyErr} (hr : t.requests r = .recording profileId probe)
    (hgone : ∀ p ∈ t.profiles, p.id ≠ profileId) :
    ProfileInv s cs (t.setRequest r (.done (.error e))) := by
  refine profileInv_quiet ht t.issued t.defaultProvider (List.Subset.refl _) rfl fun change hc => ?_
  have hfollows := ht.follows r change hc
  have hid : ∀ profileId', (t.requests r).recordsOn profileId' → profileId = profileId' := by
    rintro profileId' (⟨probe', h⟩ | ⟨loaded, payload, profile, h, -⟩)
    · rw [hr] at h
      exact (ProfilePhase.recording.inj h).1
    · rw [hr] at h
      cases h
  cases change with
  | created profile | updated profile =>
    have hsame : profileId = profile.id :=
      hid _ (recordsOn_of_follows hfollows (by simp) (by simp [hr]))
    exact Or.inr (Or.inr ⟨⟨e, rfl⟩, fun p hp => hsame ▸ hgone p hp⟩)
  | deleted profileId' =>
    obtain ⟨hdone, -⟩ := hfollows
    rw [hr] at hdone
    cases hdone
  | probed profile => trivial

/-- The request computes the rewrite that records the probe. -/
theorem profileInv_record (ht : ProfileInv s cs t) {profile : CustomProviderProfile}
    {probe : ProbeResult} (hr : t.requests r = .recording profile.id probe)
    (hfits : (SavedChange.probed profile).Fits t.profiles) :
    ProfileInv s cs (t.setRequest r (.saving t.profiles
      ((SavedChange.probed profile).apply t.profiles) (.probed profile) probe)) := by
  refine profileInv_setRequest ht t.issued t.defaultProvider (List.Subset.refl _) ?_ ?_ ?_ ?_
  · intro loaded payload change h
    obtain ⟨rfl, rfl, rfl⟩ : t.profiles = loaded ∧
        (SavedChange.probed profile).apply t.profiles = payload ∧
        SavedChange.probed profile = change := by simpa [ProfilePhase.pending] using h
    exact ⟨rfl, hfits, row_isSome_of_profiles⟩
  · intro loaded payload change probe' hasRow h
    cases h
  · intro loaded payload profile' h
    simp [ProfilePhase.pending] at h
  · intro change hc
    refine follows_of_recordsOn (ht.follows r change hc) (by simp [hr]) ?_
    rintro profileId (⟨probe', h⟩ | ⟨loaded, payload, profile', h, -⟩)
    · rw [hr] at h
      exact Or.inr ⟨_, _, profile, rfl, (ProfilePhase.recording.inj h).1⟩
    · rw [hr] at h
      cases h

/-- A change to be committed is about an identifier given out. -/
theorem profileId_issued (ht : ProfileInv s cs t) {payload : List CustomProviderProfile}
    {change : SavedChange} (h : (t.requests r).pending = some (t.profiles, payload, change)) :
    change.profileId ∈ t.issued := by
  have hfits := (ht.pending r _ _ _ h).2.1
  have hthere : ∀ profileId, (∃ p ∈ t.profiles, p.id = profileId) → profileId ∈ t.issued := by
    rintro _ ⟨p, hp, rfl⟩
    exact ht.issued p hp
  cases change with
  | created profile => exact (ht.fresh r _ _ _ h).1
  | updated profile => exact hthere _ hfits.1
  | deleted profileId => exact hthere _ hfits
  | probed profile =>
    obtain ⟨p, hp, hid, -⟩ := hfits
    exact hthere _ ⟨p, hp, hid⟩

/-- A change to be committed, other than the creation of that very profile, is not
about a profile that is not there. -/
theorem absent_apply {profiles : List CustomProviderProfile} {change : SavedChange}
    {profileId : String} (hfits : change.Fits profiles) (habsent : ∀ p ∈ profiles, p.id ≠ profileId)
    (hcreated : ∀ profile, change = .created profile → profile.id ≠ profileId) :
    change.profileId ≠ profileId ∧ ∀ p ∈ change.apply profiles, p.id ≠ profileId := by
  have hne : change.profileId ≠ profileId := by
    cases change with
    | created profile => exact hcreated profile rfl
    | updated profile =>
      obtain ⟨p, hp, hid⟩ := hfits.1
      exact fun h => habsent p hp (hid.trans h)
    | deleted profileId' =>
      obtain ⟨p, hp, hid⟩ := hfits
      exact fun h => habsent p hp (hid.trans h)
    | probed profile =>
      obtain ⟨p, hp, hid, -⟩ := hfits
      exact fun h => habsent p hp (hid.trans h)
  refine ⟨hne, fun p hp => ?_⟩
  rcases mem_apply hp with hp | hid
  · exact habsent p hp
  · rwa [hid]

/-- The phase after a commit follows the change, and the changes of the request before. -/
theorem follows_committedPhase {profiles : List CustomProviderProfile} {change : SavedChange}
    {probe : ProbeResult} :
    (committedPhase change probe).Follows (change.apply profiles) change := by
  cases change with
  | created profile | updated profile => exact Or.inl (Or.inl ⟨probe, rfl⟩)
  | deleted profileId => exact ⟨rfl, fun p hp => by simpa using (List.mem_filter.mp hp).2⟩
  | probed profile => trivial

theorem committedPhase_pending (change : SavedChange) (probe : ProbeResult) :
    (committedPhase change probe).pending = none := by
  cases change <;> rfl

/-- An absent profile stays away from what a request follows. -/
theorem follows_mono {profiles profiles' : List CustomProviderProfile} {ph : ProfilePhase}
    {change : SavedChange} (h : ph.Follows profiles change)
    (habsent : (∀ p ∈ profiles, p.id ≠ change.profileId) → ∀ p ∈ profiles', p.id ≠ change.profileId) :
    ph.Follows profiles' change := by
  cases change with
  | created profile | updated profile =>
    rcases h with h | h | ⟨he, h⟩
    · exact Or.inl h
    · exact Or.inr (Or.inl h)
    · exact Or.inr (Or.inr ⟨he, habsent h⟩)
  | deleted profileId => exact ⟨h.1, habsent h.2⟩
  | probed profile => trivial

/-- After the commit every request follows its changes, the new one included. -/
theorem follows_commit (ht : ProfileInv s cs t) {payload : List CustomProviderProfile}
    {change : SavedChange} {probe : ProbeResult} {hasRow : Bool}
    (hr : t.requests r = .writing t.profiles payload change probe hasRow) :
    ∀ r' change', (r', change') ∈ cs ++ [(r, change)] →
      (({ t with row := some payload }.setRequest r (committedPhase change probe)).requests
        r').Follows payload change' := by
  have hpending : (t.requests r).pending = some (t.profiles, payload, change) := by rw [hr]; rfl
  obtain ⟨rfl, hfits, -⟩ := ht.pending r _ _ _ hpending
  intro r' change' hc
  by_cases hnew : (r', change') = (r, change)
  · obtain ⟨rfl, rfl⟩ := Prod.mk.inj hnew
    rw [profile_setRequest_self]
    exact follows_committedPhase
  have hold : (r', change') ∈ cs := by
    rcases List.mem_append.mp hc with hc | hc
    · exact hc
    · exact absurd (List.mem_singleton.mp hc) hnew
  have hfollows := ht.follows r' change' hold
  by_cases hne : r' = r
  · -- it has recorded the probe of the profile it stored
    subst hne
    rw [profile_setRequest_self]
    by_cases hprobed : ∃ p, change' = .probed p
    · obtain ⟨p, rfl⟩ := hprobed
      trivial
    rcases recordsOn_of_follows hfollows (fun p h => hprobed ⟨p, h⟩) (by simp [hr]) with
      ⟨probe', h⟩ | ⟨loaded', payload', profile, h, -⟩
    · rw [hr] at h
      cases h
    obtain ⟨-, -, rfl⟩ : t.profiles = loaded' ∧ change.apply t.profiles = payload' ∧
        change = .probed profile := by simpa using hpending.symm.trans h
    cases change' with
    | created p | updated p => exact Or.inr (Or.inl rfl)
    | deleted profileId =>
      obtain ⟨hdone, -⟩ := hfollows
      rw [hr] at hdone
      cases hdone
    | probed p => trivial
  · rw [profile_setRequest_ne _ _ _ hne]
    refine follows_mono hfollows fun habsent => (absent_apply hfits habsent ?_).2
    rintro profile rfl hid
    exact (ht.fresh r _ _ _ hpending).2.2 _ hold hid.symm

/-- **A rewrite committed over the list it was computed from** keeps the invariant. -/
theorem profileInv_commit (ht : ProfileInv s cs t) {payload : List CustomProviderProfile}
    {change : SavedChange} {probe : ProbeResult} {hasRow : Bool}
    (hr : t.requests r = .writing t.profiles payload change probe hasRow) :
    ProfileInv s (cs ++ [(r, change)])
      ({ t with row := some payload }.setRequest r (committedPhase change probe)) := by
  have hpending : (t.requests r).pending = some (t.profiles, payload, change) := by rw [hr]; rfl
  obtain ⟨rfl, hfits, -⟩ := ht.pending r _ _ _ hpending
  have hfresh : change.Fresh t.profiles := by
    cases change with
    | created profile => exact (ht.fresh r _ _ _ hpending).2.1
    | updated profile | deleted profileId | probed profile => trivial
  have hissued := profileId_issued ht hpending
  obtain ⟨hids, hnames⟩ := nodup_apply ht.ids ht.names hfits hfresh
  -- a profile created by a request still to commit stays away
  have hother : ∀ r' loaded payload profile, r' ≠ r →
      (t.requests r').pending = some (loaded, payload, .created profile) →
        change.profileId ≠ profile.id ∧ ∀ p ∈ change.apply t.profiles, p.id ≠ profile.id := by
    intro r' loaded payload profile hne hr'
    refine absent_apply hfits (ht.fresh r' _ _ _ hr').2.1 ?_
    rintro mine rfl hid
    exact hne (ht.apart r r' _ _ _ _ _ _ hpending hr' hid).symm
  refine ⟨hids, hnames, ?_, ?_, ?_, ?_, ?_, ?_, ?_, ?_⟩
  · intro p hp
    rcases mem_apply hp with hp | hid
    · exact ht.issued p hp
    · rw [hid]
      exact hissued
  · intro c hc
    rcases List.mem_append.mp hc with hc | hc
    · exact ht.known c hc
    · rw [List.mem_singleton.mp hc]
      exact hissued
  · have hwrites : writes (cs ++ [(r, change)]) = writes cs ++ change.write.toList := by
      unfold writes
      rw [List.filterMap_append]
      cases h : change.write <;> simp [h]
    show settingOf (change.apply t.profiles) = _
    rw [hwrites, Replay.replay_append, ← ht.view, settingOf_apply ht.ids hfits hfresh]
  · intro r' loaded payload change' hr'
    by_cases hne : r' = r
    · subst hne
      rw [profile_setRequest_self, committedPhase_pending] at hr'
      cases hr'
    · rw [profile_setRequest_ne _ _ _ hne] at hr'
      obtain ⟨hpayload, hfits', -⟩ := ht.pending r' loaded payload change' hr'
      exact ⟨hpayload, hfits', fun _ => rfl⟩
  · intro r' loaded payload change' probe' hasRow' hr'
    by_cases hne : r' = r
    · subst hne
      rw [profile_setRequest_self] at hr'
      cases change <;> cases hr'
    · rw [profile_setRequest_ne _ _ _ hne] at hr'
      exact ht.hasRow r' loaded payload change' probe' hasRow' hr'
  · intro r' loaded payload profile hr'
    by_cases hne : r' = r
    · subst hne
      rw [profile_setRequest_self, committedPhase_pending] at hr'
      cases hr'
    · rw [profile_setRequest_ne _ _ _ hne] at hr'
      obtain ⟨hmem, -, hcs⟩ := ht.fresh r' loaded payload profile hr'
      obtain ⟨hid, hlist⟩ := hother r' loaded payload profile hne hr'
      refine ⟨hmem, hlist, fun c hc => ?_⟩
      rcases List.mem_append.mp hc with hc | hc
      · exact hcs c hc
      · rw [List.mem_singleton.mp hc]
        exact hid
  · intro r₁ r₂ loaded loaded' payload payload' profile profile' h₁ h₂
    have hne₁ : r₁ ≠ r := by
      rintro rfl
      rw [profile_setRequest_self, committedPhase_pending] at h₁
      cases h₁
    have hne₂ : r₂ ≠ r := by
      rintro rfl
      rw [profile_setRequest_self, committedPhase_pending] at h₂
      cases h₂
    rw [profile_setRequest_ne _ _ _ hne₁] at h₁
    rw [profile_setRequest_ne _ _ _ hne₂] at h₂
    exact ht.apart r₁ r₂ _ _ _ _ _ _ h₁ h₂
  · exact fun r' change' hc => follows_commit ht hr r' change' hc

variable {site : ProfileSite} {a : ProfileAct}

/-- **A step that commits its rewrite over the list it was computed from** keeps the
invariant. -/
theorem profileInv_step (ht : ProfileInv s cs t) (hok : CycleIsolated t a)
    (h : profileStep site t a = some u) : ProfileInv s (cs ++ (t.committed a).toList) u := by
  have hquiet : t.committed a = none → ProfileInv s cs u →
      ProfileInv s (cs ++ (t.committed a).toList) u := by
    intro hnone hu
    rw [hnone, Option.toList_none, List.append_nil]
    exact hu
  cases profileMove_of_step h with
  | quiet _ r ph issued default hearly hph hissued hno =>
    refine hquiet ?_ (profileInv_early ht hearly hph hissued)
    cases a with
    | commit r' => exact absurd rfl (hno r')
    | request | read | find | probe | activate | record | fail => rfl
  | read r uuid now change probe hearly huuid hfirst hfits =>
    exact hquiet rfl (profileInv_read ht hearly huuid hfirst hfits)
  | find r loaded payload change probe hr => exact hquiet rfl (profileInv_find ht hr)
  | clash r loaded payload change probe e hr hrow =>
    refine hquiet ?_ (profileInv_clash ht hr)
    simp only [ProfileState.committed, hr, hrow]
    rfl
  | commit r loaded payload change probe hasRow hr hfree =>
    -- Here the condition is needed: the list is still the one the rewrite was computed from.
    obtain rfl := hok loaded payload change probe hasRow hr
    have hcommitted : t.committed (.commit r) = some (r, change) := by
      simp only [ProfileState.committed, hr, hfree]
      rfl
    rw [hcommitted]
    exact profileInv_commit ht hr
  | gone r now profileId probe e hr hgone => exact hquiet rfl (profileInv_gone ht hr hgone)
  | record r now profile probe hr hfits => exact hquiet rfl (profileInv_record ht hr hfits)

/-- The invariant holds along a run of such steps. -/
theorem profileInv_run {as : List ProfileAct} (hidle : s.Idle)
    (h : Run (profileStep site) CycleIsolated s as t) : ProfileInv s (changes site s as) t := by
  have hrun : Run (profileStep site) CycleIsolated s as t ∧ ProfileInv s (changes site s as) t := by
    refine h.trace_invariant (I := fun pre u => Run (profileStep site) CycleIsolated s pre u ∧
      ProfileInv s (changes site s pre) u) ?_ [] ⟨.nil s, profileInv_of_idle hidle⟩
    rintro pre v a u ⟨hpre, hv⟩ hok hst
    refine ⟨hpre.snoc hst hok, ?_⟩
    have hchanges : changes site s (pre ++ [a]) = changes site s pre ++ (v.committed a).toList :=
      hpre.outputs_snoc a
    rw [hchanges]
    exact profileInv_step hv hok hst
  exact hrun.2

end Preservation

/-! ### No profile lost -/

section Kept

variable {s t : ProfileState} {cs : List (ℕ × SavedChange)} {profileId : String}

/-- In a settled state a request that stored a profile succeeded, unless the profile
is gone; a request that deleted one succeeded, and it is gone. -/
theorem succeeded_of_settled (ht : ProfileInv s cs t) (hsettled : t.Settled) {r : ℕ}
    {change : SavedChange} (hc : (r, change) ∈ cs) :
    match change with
    | .created profile | .updated profile =>
        t.succeeded r = true ∨ ∀ p ∈ t.profiles, p.id ≠ profile.id
    | .deleted profileId => t.succeeded r = true ∧ ∀ p ∈ t.profiles, p.id ≠ profileId
    | .probed _ => True := by
  have hfollows := ht.follows r change hc
  have hno : ∀ profileId, ¬(t.requests r).recordsOn profileId := by
    rintro profileId (⟨probe, h⟩ | ⟨loaded, payload, profile, h, -⟩)
    all_goals
      rcases hsettled r with hr | ⟨response, hr⟩ <;> rw [hr] at h <;> cases h
  cases change with
  | created profile | updated profile =>
    rcases hfollows with h | h | ⟨-, h⟩
    · exact absurd h (hno _)
    · exact Or.inl (by simp only [ProfileState.succeeded, h])
    · exact Or.inr h
  | deleted profileId =>
    obtain ⟨h, habsent⟩ := hfollows
    exact ⟨by simp only [ProfileState.succeeded, h], habsent⟩
  | probed profile => trivial

/-- A profile nobody deleted is not erased. -/
theorem not_erased_of_notDeleted (ht : ProfileInv s cs t) (hsettled : t.Settled)
    (hkeep : t.NotDeleted cs profileId) : ∀ w ∈ writes cs, w.1 = profileId → w.2 ≠ none := by
  rintro w hw rfl hnone
  obtain ⟨⟨r, change⟩, hc, hwrite⟩ := List.mem_filterMap.mp hw
  cases change with
  | created profile | updated profile =>
    obtain rfl := Option.some.inj hwrite
    cases hnone
  | deleted profileId =>
    obtain rfl := Option.some.inj hwrite
    have hsuccess := (succeeded_of_settled ht hsettled hc).1
    rw [hkeep r hc] at hsuccess
    cases hsuccess
  | probed profile => cases hwrite

/-- For a profile that is there, all that stored it succeeded. -/
theorem lastSetting_of_mem (ht : ProfileInv s cs t) (hsettled : t.Settled)
    {p : CustomProviderProfile} (hp : p ∈ t.profiles) :
    t.lastSetting cs p.id = Replay.lastStored (writes cs) p.id := by
  unfold ProfileState.lastSetting
  refine Replay.lastStored_filter (fun c : ℕ × SavedChange => c.2.write) fun c hc w hw hid hstored => ?_
  obtain ⟨r, change⟩ := c
  have hsettle := succeeded_of_settled ht hsettled hc
  cases change with
  | created profile | updated profile =>
    obtain rfl := Option.some.inj hw
    rcases hsettle with hsuccess | habsent
    · exact hsuccess
    · exact absurd hid.symm (habsent p hp)
  | deleted profileId => exact hsettle.1
  | probed profile => cases hw

/-- What a profile nobody deleted reads at the end. -/
theorem settingOf_of_notDeleted (ht : ProfileInv s cs t) (hsettled : t.Settled)
    (hkeep : t.NotDeleted cs profileId) {v : ProfileSetting}
    (h : (Replay.lastStored (writes cs) profileId).or (settingOf s.profiles profileId) = some v) :
    ∃ p ∈ t.profiles, p.id = profileId ∧ v = (p.name, p.settings) := by
  refine exists_of_settingOf ?_
  rw [ht.view, Replay.replay_of_not_erased (not_erased_of_notDeleted ht hsettled hkeep), h]

/-- **No profile is lost** in a run whose every rewrite is committed over the list its
request read. -/
theorem profiles_kept {site : ProfileSite} {as : List ProfileAct} (hidle : s.Idle)
    (hrun : Run (profileStep site) CycleIsolated s as t) (hsettled : t.Settled) :
    ProfilesKept s (changes site s as) t := by
  have ht := profileInv_run hidle hrun
  refine ⟨?_, ?_, ?_, ht.names⟩
  · intro r profile hc _ hkeep
    have hstored : (profile.id, some (profile.name, profile.settings)) ∈
        writes (changes site s as) := List.mem_filterMap.mpr ⟨_, hc, rfl⟩
    obtain ⟨v, hv⟩ := Option.isSome_iff_exists.mp (Replay.lastStored_isSome hstored)
    obtain ⟨p, hp, hid, rfl⟩ := settingOf_of_notDeleted ht hsettled hkeep (by rw [hv]; rfl)
    refine ⟨p, hp, hid, ?_⟩
    rw [← hid, lastSetting_of_mem ht hsettled hp, hid, hv]
  · intro profile hmem hkeep
    have hfirst := settingOf_of_mem hidle.ids hmem
    -- No rewrite stored the profile, or the last one that did is what is there.
    cases hlast : Replay.lastStored (writes (changes site s as)) profile.id with
    | none =>
      obtain ⟨p, hp, hid, hv⟩ := settingOf_of_notDeleted ht hsettled hkeep
        (by rw [hlast, hfirst]; rfl)
      refine ⟨p, hp, hid, ?_⟩
      rw [← hid, lastSetting_of_mem ht hsettled hp, hid, hlast]
      exact hv
    | some v =>
      obtain ⟨p, hp, hid, hv⟩ := settingOf_of_notDeleted ht hsettled hkeep (by rw [hlast]; rfl)
      refine ⟨p, hp, hid, ?_⟩
      rw [← hid, lastSetting_of_mem ht hsettled hp, hid, hlast]
      exact hv
  · intro r profileId hc _
    exact (succeeded_of_settled ht hsettled hc).2

end Kept

/-- The probe of an endpoint that answers. -/
def reachableProbe : ProbeResult := { reachable := true, status := "reachable", detail := "ok" }

/-- Two creations, each cycle of one between two of the other. -/
def alternatingCreations : List ProfileAct :=
  [.request 0 (.create "A" {}) reachableProbe, .request 1 (.create "B" {}) reachableProbe,
    .read 0 "a" 0, .find 0, .commit 0, .read 1 "b" 1, .find 1, .commit 1,
    .record 0 2, .find 0, .commit 0, .record 1 3, .find 1, .commit 1]

/-- Two creations, the second of which commits a list it read before the first. -/
def overlappingCreations : List ProfileAct :=
  [.request 0 (.create "A" {}) reachableProbe, .request 1 (.create "B" {}) reachableProbe,
    .read 1 "b" 0, .read 0 "a" 1, .find 0, .commit 0, .record 0 2, .find 0, .commit 0,
    .find 1, .commit 1, .record 1 3, .find 1, .commit 1]

theorem idle_start : ProfileState.Idle {} :=
  ⟨fun _ => rfl, List.nodup_nil, List.nodup_nil, fun _ hp => absurd hp List.not_mem_nil⟩

/-- Two creations whose cycles alternate, each committed over what it read, keep both profiles. -/
theorem profiles_kept_alternating :
    ∃ t, exec (profileStep {}) {} alternatingCreations = some t ∧
      t.profiles.map CustomProviderProfile.name = ["A", "B"] ∧
      ProfilesKept {} (changes {} {} alternatingCreations) t := by
  obtain ⟨t, hrun, hnames, hsettled⟩ : ∃ t,
      Run (profileStep {}) CycleIsolated {} alternatingCreations t ∧
      t.profiles.map CustomProviderProfile.name = ["A", "B"] ∧ t.Settled := by
    refine ⟨_, .cons rfl ?_ (.cons rfl ?_ (.cons rfl ?_ (.cons rfl ?_ (.cons rfl ?_ (.cons rfl ?_
      (.cons rfl ?_ (.cons rfl ?_ (.cons rfl ?_ (.cons rfl ?_ (.cons rfl ?_ (.cons rfl ?_
      (.cons rfl ?_ (.cons rfl ?_ (.nil _)))))))))))))), rfl, ?_⟩
    case refine_15 =>
      rintro (_ | _ | r)
      · exact Or.inr ⟨_, rfl⟩
      · exact Or.inr ⟨_, rfl⟩
      · exact Or.inl rfl
    -- the commits
    case refine_5 | refine_8 | refine_11 | refine_14 =>
      rintro _ _ _ _ _ ⟨⟩
      rfl
    all_goals trivial
  exact ⟨t, hrun.exec_eq, hnames, profiles_kept idle_start hrun hsettled⟩

/-- **A created profile is lost** when another request commits a list it read before. -/
theorem profile_lost :
    ¬∀ (site : ProfileSite) (s t : ProfileState) (as : List ProfileAct), s.Idle →
      Run (profileStep site) (fun _ _ => True) s as t → t.Settled →
        ProfilesKept s (changes site s as) t := by
  intro hall
  have hkept := hall {} {} _ overlappingCreations idle_start (run_of_exec _ _ _ rfl) (by
    rintro (_ | _ | r)
    · exact Or.inr ⟨_, rfl⟩
    · exact Or.inr ⟨_, rfl⟩
    · exact Or.inl rfl)
  let lost : CustomProviderProfile :=
    { id := "a", name := "A", settings := {}, createdAt := 1, updatedAt := 1 }
  have hnone : (changes {} {} overlappingCreations).all (fun c => c.2.write.all fun w =>
      w.2.isSome) = true := rfl
  have hkeep : ∀ r, (r, SavedChange.deleted lost.id) ∉ changes {} {} overlappingCreations :=
    fun r hr => absurd (List.all_eq_true.mp hnone _ hr) (by simp [SavedChange.write])
  obtain ⟨p, hp, hid, -⟩ := hkept.created 0 lost (List.mem_cons_self ..) rfl
    fun r hr => absurd hr (hkeep r)
  obtain rfl := List.mem_singleton.mp hp
  exact absurd hid (by decide)

end ExtractFlow
