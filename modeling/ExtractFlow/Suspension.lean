import ExtractFlow.Lib.Keyed
import ExtractFlow.AccessGate
import ExtractFlow.TenantChain

/-!
# Suspended tenants

An operator suspends a tenant by a row of the settings
(`backend/app/services/tenant_admin_service.py`), which the access gate reads for every request
that is not the operator's.  It does so only in a deployment that requires authentication; the
gate of any other lets the requests of a suspended tenant pass like all the rest
(`admitted_of_open`), and so what is said here of a suspension is said of deployments that do.

The gate reads the row when the request arrives.  What was admitted before goes on: a handler
that has not begun yet, a request between its query and its commit.  Workers do not ask at all.

So a suspension does not stop what is under way, but nothing is added to it: from then on every
step of the tenant's requests is one of a request that was admitted before, and when those have
ended only workers write the tenant's rows.

## Main definitions

* `GateState`, `gateStep` — the system behind the gate, with the requests it admitted.
* `GateConfig.Authenticates` — the deployment requires authentication.
* `Resumes` — the commit that ends a suspension.
* `GateState.Pending` — a request of a tenant that is under way.
* `SameRows` — the rows of a tenant stay as they are.

## Main results

* `respond_settings` — no request and no worker writes the settings on its way.
* `suspension_holds` — a suspension admits nobody, on every run that does not end it.
* `suspended_rows_stay` — the rows of a suspended tenant stay, workers apart.
-/

namespace ExtractFlow

open Transition Table
open Tenanted (tenantOf)

/-! ### Settings -/

/-- The commit of a setting: the row that was found gets the value, or there is a new row,
unless the unique constraint forbids it. -/
def Database.commitSetting (db : Database) (found : Option ℕ) (key : String) (value : PyVal) :
    Option Database :=
  match found with
  | some id =>
      some { db with settings := db.settings.update id fun s => { s with value := value } }
  | none =>
      if (db.findSetting key).isNone then
        some { db with settings := db.settings.insert ⟨key, value⟩ }
      else none

/-- The row, if one was found, is that of the key. -/
def Database.isFound (db : Database) (found : Option ℕ) (key : String) : Bool :=
  found.all fun id => (db.settings.get id).any fun s => s.key == key

/-- The settings that a tenant writes itself, each a row of the table under a key of the tenant. -/
inductive TenantSetting where
  | exportPolicy | defaultProvider | customProviderProfiles
  deriving DecidableEq, Repr

def TenantSetting.name : TenantSetting → String
  | .exportPolicy => "export.require_review_cleared"
  | .defaultProvider => "default_provider"
  | .customProviderProfiles => "custom_provider_profiles"

/-- What `set_tenant_suspension` stores. -/
def controlsPayload (suspended : Bool) (reason : Option String) (updatedAt : String) : PyVal :=
  .dict
    [("suspended", .bool suspended),
      ("reason", match reason with
        | some text => if pyStrip text = "" then .none else .str (pyStrip text)
        | none => .none),
      ("updated_at", .str updatedAt)]

/-! ### The system behind the gate -/

/-- `set_tenant_suspension` between its query and its commit: `found` is the row its query returned,
if there was one. -/
structure ControlsRequest where
  target : String
  suspended : Bool
  reason : Option String
  found : Option ℕ

structure GateState where
  /-- The tenants' requests past their first query, and the workers. -/
  tenants : TenantState := {}
  /-- The requests the gate admitted, each with its tenant. -/
  tickets : ℕ → Option String := fun _ => none
  /-- The operators' requests. -/
  controls : ℕ → Option ControlsRequest := fun _ => none

abbrev GateState.db (s : GateState) : Database := s.tenants.db

def GateState.setDb (s : GateState) (db : Database) : GateState :=
  { s with tenants := s.tenants.setDb db }

/-- The first step of a handler. -/
def TenantAct.opens : TenantAct → Bool
  | .worker _ _ | .jobs (.commit _ _) | .jobs (.abandon _) | .finish _ _ _ | .abandon _ => false
  | .jobs (.createJob _ _ _ _ _ _) | .jobs (.readRetry _ _ _) | .jobs (.readCancel _ _ _)
  | .createTemplate _ _ _ _ _ _ | .upload _ _ _ _ _ | .start _ _ _ | .ask _ _ => true

/-- The request a step is one of, if the handler takes more than one. -/
def TenantAct.requestId : TenantAct → Option ℕ
  | .jobs (.readRetry r _ _) | .jobs (.readCancel r _ _) | .jobs (.commit r _)
  | .jobs (.abandon r) | .start r _ _ | .finish r _ _ | .abandon r => some r
  | .worker _ _ | .jobs (.createJob _ _ _ _ _ _) | .createTemplate _ _ _ _ _ _
  | .upload _ _ _ _ _ | .ask _ _ => none

inductive GateAct where
  /-- A request to a route passes the gate. -/
  | callNext (r route : ℕ) (params : ℕ → PathParam) (authorization xTenantId : Option String)
  /-- The handler of an admitted request takes its first step. -/
  | serve (r : ℕ) (act : TenantAct)
  /-- A handler takes another step, or a worker takes one. -/
  | proceed (act : TenantAct)
  /-- An admitted request writes a setting of its tenant. -/
  | saveSetting (r : ℕ) (name : TenantSetting) (found : Option ℕ) (value : PyVal)
  /-- An admitted request ends. -/
  | drop (r : ℕ)
  | readControls (r : ℕ) (target : String) (suspended : Bool) (reason : Option String)
  | commitControls (r : ℕ) (updatedAt : String)

/-- What the system takes from the deployment, with the prefix its routes are mounted under. -/
structure GateConfig where
  tenants : TenantConfig
  lib : GateLibrary
  access : ValidSettings lib
  apiPrefix : ApiPrefix
  prefix_eq : access.settings.apiPrefix = apiPrefix.text

/-- The deployment requires authentication.  Without it the gate does not get to the question
whether a tenant is suspended. -/
def GateConfig.Authenticates (cfg : GateConfig) : Prop :=
  cfg.access.settings.requireAuthentication = true

/-- The tenant that the gate admits a request for. -/
def GateConfig.admitted (cfg : GateConfig) (db : Database) (route : Route)
    (params : ℕ → PathParam) (authorization xTenantId : Option String) : Option String :=
  let request : GateRequest :=
    { method := route.method, path := cfg.apiPrefix.text ++ route.path params
      authorization := authorization, xTenantId := xTenantId }
  match authenticationAndRbacMiddleware cfg.lib cfg.access.settings db request with
  | .ok (.passed _) =>
      (currentTenantIdDependency cfg.access.settings xTenantId).toOption
  | _ => none

/-- The route asks for a tenant. -/
def Route.asksTenant (route : Route) : Bool :=
  route.firstWord != some "health" && route.firstWord != some "admin"

/-- One step of the deployment: of the gate, of a handler, of a worker or of an operator. -/
def gateStep (cfg : GateConfig) (s : GateState) : GateAct → Option GateState
  | .callNext r route params authorization xTenantId =>
      (apiRoutes[route]?.filter Route.asksTenant).bind fun route =>
        (cfg.admitted s.db route params authorization xTenantId).map fun tenant =>
          { s with tickets := Function.update s.tickets r (some tenant) }
  | .serve r act =>
      if s.tickets r ≠ none ∧ s.tenants.caller act = s.tickets r ∧ act.opens = true ∧
          act.requestId.all (· == r) = true then
        (tenantStep cfg.tenants s.tenants act).map fun tenants =>
          { s with tenants := tenants, tickets := Function.update s.tickets r none }
      else none
  | .proceed act =>
      if act.opens = false then
        (tenantStep cfg.tenants s.tenants act).map fun tenants => { s with tenants := tenants }
      else none
  | .saveSetting r name found value =>
      (s.tickets r).bind fun tenant =>
        let key := buildTenantSettingKey tenant name.name
        if s.db.isFound found key then (s.db.commitSetting found key value).map s.setDb else none
  | .drop r => some { s with tickets := Function.update s.tickets r none }
  | .readControls r target suspended reason =>
      let found := (s.db.findSetting (controlsKey target)).map Prod.fst
      some { s with
        controls := Function.update s.controls r (some ⟨target, suspended, reason, found⟩) }
  | .commitControls r updatedAt =>
      (s.controls r).bind fun q =>
        (s.db.commitSetting q.found (controlsKey q.target)
            (controlsPayload q.suspended q.reason updatedAt)).map fun db =>
          { s.setDb db with controls := Function.update s.controls r none }

/-! ### The keys of the settings -/

/-- What comes behind the last colon. -/
theorem rtakeWhile_colon {a w : List Char} (hw : ':' ∉ w) :
    (a ++ ':' :: w).rtakeWhile (· != ':') = w := by
  rw [List.rtakeWhile, List.reverse_append, List.reverse_cons, List.append_assoc,
    List.takeWhile_append_of_pos, List.singleton_append, List.takeWhile_cons_of_neg (by decide),
    List.append_nil, List.reverse_reverse]
  intro c hc
  rw [bne_iff_ne]
  rintro rfl
  exact hw (List.mem_reverse.mp hc)

theorem toList_settingKey (tenant name : String) :
    (buildTenantSettingKey tenant name).toList =
      ("tenant:".toList ++ tenant.toList) ++ ':' :: name.toList := by
  unfold buildTenantSettingKey
  show ((("tenant:" ++ tenant) ++ ":") ++ name).toList = _
  rw [String.toList_append, String.toList_append, String.toList_append, List.append_assoc]
  rfl

/-- **The key of a setting has one tenant and one name**, whatever the tenant is called. -/
theorem settingKey_inj {tenant tenant' name name' : String} (hname : ':' ∉ name.toList)
    (hname' : ':' ∉ name'.toList) :
    buildTenantSettingKey tenant name = buildTenantSettingKey tenant' name' ↔
      tenant = tenant' ∧ name = name' := by
  constructor
  · intro h
    have hchars := congrArg String.toList h
    rw [toList_settingKey, toList_settingKey] at hchars
    have hlast := congrArg (List.rtakeWhile (· != ':')) hchars
    rw [rtakeWhile_colon hname, rtakeWhile_colon hname'] at hlast
    rw [hlast, List.append_cancel_right_eq, List.append_cancel_left_eq] at hchars
    exact ⟨String.toList_inj.mp hchars, String.toList_inj.mp hlast⟩
  · rintro ⟨rfl, rfl⟩
    rfl

theorem TenantSetting.name_plain (name : TenantSetting) : ':' ∉ name.name.toList := by
  cases name <;> decide

/-- A tenant does not write the row that suspends one. -/
theorem settingKey_ne_controlsKey (tenant tenant' : String) (name : TenantSetting) :
    buildTenantSettingKey tenant name.name ≠ controlsKey tenant' := by
  intro h
  have hname := ((settingKey_inj name.name_plain (by decide)).mp h).2
  cases name <;> exact absurd hname (by decide)

theorem controlsKey_inj {tenant tenant' : String} :
    controlsKey tenant = controlsKey tenant' ↔ tenant = tenant' := by
  unfold controlsKey
  rw [settingKey_inj (by decide) (by decide)]
  exact and_iff_left rfl

/-! ### The rows of the settings -/

section Settings

variable {db db' : Database} {found : Option ℕ} {key key' : String} {value : PyVal}

/-- No two rows have one key. -/
def UniqueKeys (db : Database) : Prop := (db.settings.rows.map fun row => row.2.key).Nodup

/-- The row of a key is the one that the query finds. -/
theorem findSetting_eq_some_iff (hunique : UniqueKeys db) {id : ℕ} {setting : Setting} :
    db.findSetting key = some (id, setting) ↔
      db.settings.get id = some setting ∧ setting.key = key := by
  constructor
  · intro h
    obtain ⟨hmem, hkey⟩ := mem_select.mp (List.mem_of_mem_head? h)
    exact ⟨get_of_mem hmem, beq_iff_eq.mp hkey⟩
  · rintro ⟨hget, rfl⟩
    have honly := Keyed.filter_eq hunique (mem_of_get hget)
    have hselect : (db.settings.select fun s => s.key == setting.key) = [(id, setting)] := honly
    unfold Database.findSetting
    rw [hselect]
    rfl

theorem findSetting_eq_none (h : db.findSetting key = none) {id : ℕ} {setting : Setting}
    (hget : db.settings.get id = some setting) : setting.key ≠ key := by
  rintro rfl
  have hnil := List.head?_eq_none_iff.mp h
  have hmem : (id, setting) ∈ db.settings.select fun s => s.key == setting.key :=
    mem_select.mpr ⟨mem_of_get hget, beq_self_eq_true _⟩
  rw [hnil] at hmem
  cases hmem

theorem isFound_some {id : ℕ} (h : db.isFound (some id) key = true) :
    ∃ setting, db.settings.get id = some setting ∧ setting.key = key := by
  obtain ⟨setting, hget, hkey⟩ := (Option.any_eq_true _ _).mp h
  exact ⟨setting, hget, beq_iff_eq.mp hkey⟩

theorem isFound_of_get {id : ℕ} {setting : Setting} (hget : db.settings.get id = some setting)
    (hkey : setting.key = key) : db.isFound (some id) key = true :=
  (Option.any_eq_true _ _).mpr ⟨setting, hget, beq_iff_eq.mpr hkey⟩

/-- A commit writes one row: the one that was found, or a new one. -/
theorem commitSetting_cases (h : db.commitSetting found key value = some db') :
    (∃ id, found = some id ∧
        db' = { db with settings := db.settings.update id fun s => { s with value := value } }) ∨
      found = none ∧ db.findSetting key = none ∧
        db' = { db with settings := db.settings.insert ⟨key, value⟩ } := by
  unfold Database.commitSetting at h
  split at h
  · next id =>
    exact Or.inl ⟨id, rfl, (Option.some.inj h).symm⟩
  · split at h
    · next hnone => exact Or.inr ⟨rfl, Option.isNone_iff_eq_none.mp hnone, (Option.some.inj h).symm⟩
    · cases h

/-- No row is lost, and no row gets another key. -/
theorem commitSetting_keeps (h : db.commitSetting found key value = some db') {id : ℕ}
    {setting : Setting} (hget : db.settings.get id = some setting) :
    ∃ setting', db'.settings.get id = some setting' ∧ setting'.key = setting.key := by
  rcases commitSetting_cases h with ⟨id', -, rfl⟩ | ⟨-, -, rfl⟩
  · by_cases hid : id = id'
    · subst hid
      exact ⟨{ setting with value := value }, by rw [get_update_self, hget]; rfl, rfl⟩
    · exact ⟨setting, by rw [get_update_ne _ _ hid, hget], rfl⟩
  · exact ⟨setting, get_insert_of_get _ hget, rfl⟩

theorem commitSetting_unique (hunique : UniqueKeys db)
    (h : db.commitSetting found key value = some db') : UniqueKeys db' := by
  rcases commitSetting_cases h with ⟨id, -, rfl⟩ | ⟨-, hnone, rfl⟩
  · have hsame : ∀ rows : List (ℕ × Setting),
        (updateRows rows id fun s => { s with value := value }).map (fun row => row.2.key) =
          rows.map fun row => row.2.key := by
      intro rows
      unfold updateRows
      rw [List.map_map]
      refine List.map_congr_left fun row _ => ?_
      rw [Function.comp_apply]
      split <;> rfl
    unfold UniqueKeys at hunique ⊢
    rwa [← hsame] at hunique
  · unfold UniqueKeys at hunique ⊢
    show ((db.settings.rows ++ [(db.settings.nextId, Setting.mk key value)]).map _).Nodup
    rw [List.map_append]
    refine hunique.append (List.nodup_singleton _) ?_
    intro k hk hk'
    obtain ⟨⟨id, setting⟩, hmem, rfl⟩ := List.mem_map.mp hk
    exact findSetting_eq_none hnone (get_of_mem hmem) (List.mem_singleton.mp hk')

/-- What was written is there. -/
theorem commitSetting_written (hfound : db.isFound found key = true)
    (h : db.commitSetting found key value = some db') :
    ∃ id setting, db'.settings.get id = some setting ∧ setting.key = key ∧
      setting.value = value := by
  rcases commitSetting_cases h with ⟨id, rfl, rfl⟩ | ⟨-, -, rfl⟩
  · obtain ⟨setting, hget, hkey⟩ := isFound_some hfound
    exact ⟨id, { setting with value := value }, by rw [get_update_self, hget]; rfl, hkey, rfl⟩
  · exact ⟨db.settings.nextId, { key := key, value := value }, get_insert_self _ _, rfl, rfl⟩

/-- The rows of other keys stay. -/
theorem commitSetting_other (hfound : db.isFound found key = true)
    (h : db.commitSetting found key value = some db') {id : ℕ} {setting : Setting}
    (hget : db.settings.get id = some setting) (hne : setting.key ≠ key) :
    db'.settings.get id = some setting := by
  rcases commitSetting_cases h with ⟨id', rfl, rfl⟩ | ⟨-, -, rfl⟩
  · refine (get_update_ne _ _ ?_).trans hget
    rintro rfl
    obtain ⟨setting', hget', hkey'⟩ := isFound_some hfound
    obtain rfl := Option.some.inj (hget.symm.trans hget')
    exact hne hkey'
  · exact get_insert_of_get _ hget

/-! ### The row that suspends a tenant -/

theorem suspends_controlsPayload (suspended : Bool) (reason : Option String) (updatedAt : String) :
    (controlsPayload suspended reason updatedAt).suspends = suspended := by
  cases suspended <;> rfl

/-- A tenant is suspended by the row of its key. -/
theorem isTenantSuspended_iff (hunique : UniqueKeys db) {tenant : String} :
    isTenantSuspended db tenant = true ↔
      ∃ id setting, db.settings.get id = some setting ∧ setting.key = controlsKey tenant ∧
        setting.value.suspends = true := by
  unfold isTenantSuspended
  constructor
  · intro h
    split at h
    · next id setting hfind =>
      obtain ⟨hget, hkey⟩ := (findSetting_eq_some_iff hunique).mp hfind
      exact ⟨id, setting, hget, hkey, h⟩
    · cases h
  · rintro ⟨id, setting, hget, hkey, hsuspends⟩
    rw [(findSetting_eq_some_iff hunique).mpr ⟨hget, hkey⟩]
    exact hsuspends

/-- A tenant that is suspended stays so when another setting is written, or its own row with
the same verdict. -/
theorem suspended_of_commit (hunique : UniqueKeys db) (hfound : db.isFound found key = true)
    (h : db.commitSetting found key value = some db') {tenant : String}
    (hvalue : key = controlsKey tenant → value.suspends = true)
    (hsuspended : isTenantSuspended db tenant = true) : isTenantSuspended db' tenant = true := by
  rw [isTenantSuspended_iff (commitSetting_unique hunique h)]
  by_cases hkey : key = controlsKey tenant
  · obtain ⟨id, setting, hget, hsetting, rfl⟩ := commitSetting_written hfound h
    exact ⟨id, setting, hget, hsetting.trans hkey, hvalue hkey⟩
  · obtain ⟨id, setting, hget, hsetting, hsuspends⟩ := (isTenantSuspended_iff hunique).mp hsuspended
    refine ⟨id, setting, commitSetting_other hfound h hget ?_, hsetting, hsuspends⟩
    exact fun heq => hkey (heq.symm.trans hsetting)

end Settings

/-! ### Nobody writes the settings on the way -/

section Requests

variable {cfg : TenantConfig} {s t : TenantState} {act : TenantAct} {rows : List TenantRow}

theorem processMove_settings {db db' : Database} {job : ℕ} {stored : ExtractionJob} {pc : Pc}
    {act : WorkerAct} {pc' : Option Pc} (h : ProcessMove job db stored pc act db' pc') :
    db'.settings = db.settings := by
  cases h with
  | complete loaded result =>
    show (db.saveResult job stored.tenantId result).1.settings = db.settings
    unfold Database.saveResult
    split <;> rfl
  | _ => rfl

theorem workerMove_settings {q u : QueueState} {w : ℕ} (h : WorkerMove q w u) :
    u.db.settings = q.db.settings := by
  cases h with
  | look ph _ _ => rfl
  | lock tries j _ _ _ => rfl
  | claim j _ => rfl
  | process j pc act stored db' pc' _ _ _ hmove => exact processMove_settings hmove

theorem apiMove_settings {q u : QueueState} {act : ApiAct} (h : ApiMove q act u) :
    u.db.settings = q.db.settings := by
  cases h with
  | create tenant actor document version override createdAt _ => rfl
  | readRetry r tenant job row document checked _ => rfl
  | readCancel r tenant job row document checked _ => rfl
  | commit r actor request _ _ => cases request <;> rfl
  | abandon r => rfl

theorem commitCall_settings {db db' : Database} {files files' : ExportFiles} {now : UtcTime}
    {createdAt : ℕ} {call : Call}
    (h : db.commitCall cfg files now createdAt call = some (db', files', rows)) :
    db'.settings = db.settings := by
  -- Each commit is an update of other tables.
  cases call with
  | createTemplateVersion templateId template definition =>
    obtain ⟨rfl, -⟩ := Prod.mk.inj (Option.some.inj h)
    rfl
  | review q =>
    simp only [Database.commitCall] at h
    split at h
    · next db₁ hreview =>
      obtain ⟨⟨summary, edits⟩, -, hcommit⟩ := Failing.bind_ok.mp hreview
      obtain rfl := Except.ok.inj hcommit
      obtain ⟨rfl, -⟩ := Prod.mk.inj (Option.some.inj h)
      rfl
    · cases h
  | exportResult resultId loaded format =>
    simp only [Database.commitCall] at h
    split at h
    · next db₁ files₁ hexport =>
      obtain ⟨-, bytes, -, rfl⟩ := exportResult_spec hexport
      obtain ⟨rfl, -⟩ := Prod.mk.inj (Option.some.inj h)
      rfl
    · cases h
  | dismissSuggestion versionId version key dismissed =>
    obtain ⟨⟨db₁, id⟩, hset, heq⟩ := Option.map_eq_some_iff.mp h
    obtain ⟨rfl, -⟩ := Prod.mk.inj heq
    unfold Database.setSuggestionDismissed at hset
    split at hset
    · obtain ⟨rfl, -⟩ := Prod.mk.inj (Option.some.inj hset)
      rfl
    · split at hset
      · obtain ⟨rfl, -⟩ := Prod.mk.inj (Option.some.inj hset)
        rfl
      · cases hset

/-- **No request and no worker writes the settings**: the handlers that do have steps of
their own. -/
theorem respond_settings (h : respond cfg s act = some (t, rows)) :
    t.db.settings = s.db.settings := by
  cases act with
  | worker w act =>
    obtain ⟨queue, hstep, heq⟩ := Option.map_eq_some_iff.mp h
    obtain ⟨rfl, -⟩ := Prod.mk.inj heq
    exact workerMove_settings (workerMove_of_step hstep)
  -- A retry or a cancel writes jobs, documents and events.
  | jobs act =>
    obtain ⟨queue, hstep, heq⟩ := Option.map_eq_some_iff.mp h
    obtain ⟨rfl, -⟩ := Prod.mk.inj heq
    exact apiMove_settings (apiMove_of_step hstep)
  | createTemplate tenant name description documentType definition createdAt =>
    simp only [respond] at h
    split at h
    · obtain ⟨rfl, -⟩ := Prod.mk.inj (Option.some.inj h)
      rfl
    · cases h
  | upload tenant actor filename contentType reference =>
    simp only [respond] at h
    split at h
    · cases h
    · obtain ⟨rfl, -⟩ := Prod.mk.inj (Option.some.inj h)
      rfl
  | start r tenant operation =>
    simp only [respond] at h
    split at h
    · obtain ⟨rfl, -⟩ := Prod.mk.inj (Option.some.inj h)
      rfl
    · cases h
  | finish r now createdAt =>
    obtain ⟨⟨tenant, call⟩, -, h⟩ := Option.bind_eq_some_iff.mp h
    obtain ⟨⟨db', files', rows'⟩, hcommit, heq⟩ := Option.map_eq_some_iff.mp h
    obtain ⟨rfl, -⟩ := Prod.mk.inj heq
    exact commitCall_settings hcommit
  | abandon r =>
    obtain ⟨rfl, -⟩ := Prod.mk.inj (Option.some.inj h)
    rfl
  | ask tenant query =>
    obtain ⟨rfl, -⟩ := Prod.mk.inj (Option.some.inj h)
    rfl

/-! ### Requests under way -/

/-- A request of the tenant has read its rows and has yet to commit. -/
def TenantState.InFlight (s : TenantState) (tenant : String) (r : ℕ) : Prop :=
  (∃ call, s.calls r = some (tenant, call)) ∨
    (∃ q, s.queue.requests r = some q) ∧ s.callers r = tenant

/-- A call that is there after another one has ended was there before. -/
theorem calls_of_ended {calls : ℕ → Option (String × Call)} {r r' : ℕ} {c : String × Call}
    (h : Function.update calls r' none r = some c) : calls r = some c := by
  by_cases hr : r = r'
  · subst hr
    rw [Function.update_self] at h
    cases h
  · rwa [Function.update_of_ne hr] at h

/-- A request about a job is one that was there, or it has just read its job. -/
theorem request_of_apiMove {act : ApiAct} {queue : QueueState} (h : ApiMove s.queue act queue)
    {tenant : String} {r : ℕ} {q : Request} (hq : queue.requests r = some q)
    (hcaller : s.noteCaller act r = tenant) :
    ((∃ q, s.queue.requests r = some q) ∧ s.callers r = tenant) ∨
      (TenantAct.jobs act).opens = true ∧ (TenantAct.jobs act).requestId = some r ∧
        s.caller (.jobs act) = some tenant := by
  -- the request of another id is as it was
  have hother : ∀ {r' : ℕ} {q' : Option Request} {u : QueueState}, r ≠ r' →
      u.requests = s.queue.requests → (u.setRequest r' q').requests r = some q →
        ∃ q, s.queue.requests r = some q := by
    intro r' q' u hr hu h
    rw [setRequest_ne _ _ _ hr, hu] at h
    exact ⟨q, h⟩
  cases h with
  | create tenant' actor document version override createdAt _ => exact Or.inl ⟨⟨q, hq⟩, hcaller⟩
  | readRetry r' tenant' job row document checked _ =>
    by_cases hr : r = r'
    · subst hr
      refine Or.inr ⟨rfl, rfl, ?_⟩
      rw [← hcaller, TenantState.noteCaller, Function.update_self]
      rfl
    · rw [TenantState.noteCaller, Function.update_of_ne hr] at hcaller
      exact Or.inl ⟨hother hr rfl hq, hcaller⟩
  | readCancel r' tenant' job row document checked _ =>
    by_cases hr : r = r'
    · subst hr
      refine Or.inr ⟨rfl, rfl, ?_⟩
      rw [← hcaller, TenantState.noteCaller, Function.update_self]
      rfl
    · rw [TenantState.noteCaller, Function.update_of_ne hr] at hcaller
      exact Or.inl ⟨hother hr rfl hq, hcaller⟩
  | commit r' actor q' _ _ =>
    by_cases hr : r = r'
    · subst hr
      rw [setRequest_self] at hq
      cases hq
    · have hbefore := hother (u := { s.queue with db := s.queue.db.commitRequest actor q' })
        hr rfl hq
      exact Or.inl ⟨hbefore, hcaller⟩
  | abandon r' =>
    by_cases hr : r = r'
    · subst hr
      rw [setRequest_self] at hq
      cases hq
    · exact Or.inl ⟨hother hr rfl hq, hcaller⟩

/-- A request that is under way was so before, or has just begun in the name of its caller. -/
theorem inFlight_of_respond (h : respond cfg s act = some (t, rows)) {tenant : String} {r : ℕ}
    (hflight : t.InFlight tenant r) :
    s.InFlight tenant r ∨
      act.opens = true ∧ act.requestId = some r ∧ s.caller act = some tenant := by
  cases act with
  | worker w act =>
    obtain ⟨queue, hstep, heq⟩ := Option.map_eq_some_iff.mp h
    obtain ⟨rfl, -⟩ := Prod.mk.inj heq
    have hrequests : queue.requests = s.queue.requests := by
      cases workerMove_of_step hstep <;> rfl
    refine Or.inl (hflight.imp_right fun hrequest => ?_)
    rwa [show ({ s with queue := queue } : TenantState).queue.requests = s.queue.requests
      from hrequests] at hrequest
  | jobs act =>
    obtain ⟨queue, hstep, heq⟩ := Option.map_eq_some_iff.mp h
    obtain ⟨rfl, -⟩ := Prod.mk.inj heq
    rcases hflight with hcall | ⟨⟨q, hq⟩, hcaller⟩
    · exact Or.inl (Or.inl hcall)
    · exact (request_of_apiMove (apiMove_of_step hstep) hq hcaller).imp_left Or.inr
  | createTemplate tenant name description documentType definition createdAt =>
    simp only [respond] at h
    split at h
    · obtain ⟨rfl, -⟩ := Prod.mk.inj (Option.some.inj h)
      exact Or.inl hflight
    · cases h
  | upload tenant actor filename contentType reference =>
    simp only [respond] at h
    split at h
    · cases h
    · obtain ⟨rfl, -⟩ := Prod.mk.inj (Option.some.inj h)
      exact Or.inl hflight
  | start r' tenant' operation =>
    simp only [respond] at h
    split at h
    · next call _ hcall =>
      obtain ⟨rfl, -⟩ := Prod.mk.inj (Option.some.inj h)
      rcases hflight with ⟨call', hcall'⟩ | hrequest
      · dsimp only at hcall'
        -- The request that starts is new; whatever else is under way was so before.
        by_cases hr : r = r'
        · subst hr
          rw [Function.update_self] at hcall'
          obtain ⟨rfl, -⟩ := Prod.mk.inj (Option.some.inj hcall')
          exact Or.inr ⟨rfl, rfl, rfl⟩
        · rw [Function.update_of_ne hr] at hcall'
          exact Or.inl (Or.inl ⟨call', hcall'⟩)
      · exact Or.inl (Or.inr hrequest)
    · cases h
  | finish r' now createdAt =>
    obtain ⟨⟨tenant', call⟩, -, h⟩ := Option.bind_eq_some_iff.mp h
    obtain ⟨⟨db', files', rows'⟩, hcommit, heq⟩ := Option.map_eq_some_iff.mp h
    obtain ⟨rfl, -⟩ := Prod.mk.inj heq
    exact Or.inl (hflight.imp_left (Exists.imp fun call' hcall' => calls_of_ended hcall'))
  | abandon r' =>
    obtain ⟨rfl, -⟩ := Prod.mk.inj (Option.some.inj h)
    exact Or.inl (hflight.imp_left (Exists.imp fun call' hcall' => calls_of_ended hcall'))
  | ask tenant query =>
    obtain ⟨rfl, -⟩ := Prod.mk.inj (Option.some.inj h)
    exact Or.inl hflight

end Requests

/-! ### The steps behind the gate, one by one -/

/-- Where no authentication is required the gate admits every request that names a tenant, and
does not look whether that is suspended. -/
theorem admitted_of_open {cfg : GateConfig} (hopen : ¬ cfg.Authenticates) (db : Database)
    (route : Route) (params : ℕ → PathParam) (authorization xTenantId : Option String) :
    cfg.admitted db route params authorization xTenantId =
      (currentTenantIdDependency cfg.access.settings xTenantId).toOption := by
  have hoff : cfg.access.settings.requireAuthentication = false := by
    simpa [GateConfig.Authenticates] using hopen
  unfold GateConfig.admitted authenticationAndRbacMiddleware
  dsimp only
  split
  · rfl
  · next h =>
    -- public or not, the request passes
    refine absurd ?_ (h localUser)
    rw [if_pos hoff]
    split <;> rfl

/-- The gate of a deployment that requires authentication admits nobody for a suspended
tenant. -/
theorem admitted_active {cfg : GateConfig} (hauth : cfg.Authenticates) {db : Database}
    {route : Route} (hroute : route ∈ apiRoutes) (hasks : route.asksTenant = true) {params : ℕ → PathParam}
    {authorization xTenantId : Option String} {tenant : String}
    (h : cfg.admitted db route params authorization xTenantId = some tenant) :
    isTenantSuspended db tenant = false := by
  have hbypass :
      ¬ (isPublicPath cfg.access.settings (cfg.apiPrefix.text ++ route.path params) = true ∨
        isAdminRoute cfg.access.settings (cfg.apiPrefix.text ++ route.path params) = true) := by
    rw [route_bypass_iff hroute cfg.apiPrefix cfg.prefix_eq params]
    unfold Route.asksTenant at hasks
    rw [Bool.and_eq_true, bne_iff_ne, bne_iff_ne] at hasks
    exact not_or.mpr hasks
  obtain ⟨hpublic, hadmin⟩ := not_or.mp hbypass
  unfold GateConfig.admitted at h
  dsimp only at h
  -- The gate lets a request through unasked, or with a token and a tenant it found active, or
  -- refuses it.
  rcases gate_cases cfg.access db
      { method := route.method, path := cfg.apiPrefix.text ++ route.path params
        authorization := authorization, xTenantId := xTenantId } with
    ⟨auth, hgate, hopen | ⟨-, token, role, -, -, -, -, hact⟩⟩ | ⟨status, detail, hgate, -⟩
  · rcases hopen.1 with hopen | hopen
    · exact absurd hopen hpublic
    · rw [show cfg.access.settings.requireAuthentication = true from hauth] at hopen
      cases hopen
  · rw [hgate] at h
    rcases hact with hact | ⟨tenant', htenant, hactive⟩
    · exact absurd hact hadmin
    · dsimp only at h
      rw [htenant] at h
      obtain rfl := Option.some.inj h
      exact hactive
  · rw [hgate] at h
    cases h

/-- The steps of the deployment with what each of them presupposes, one constructor a step. -/
inductive GateMove (cfg : GateConfig) (s : GateState) : GateAct → GateState → Prop
  | callNext (r route params authorization xTenantId tenant) :
      (cfg.Authenticates → isTenantSuspended s.db tenant = false) →
      GateMove cfg s (.callNext r route params authorization xTenantId)
        { s with tickets := Function.update s.tickets r (some tenant) }
  | serve (r act tenant tenants rows) : s.tickets r = some tenant →
      s.tenants.caller act = some tenant → act.opens = true →
      (∀ r', act.requestId = some r' → r' = r) →
      respond cfg.tenants s.tenants act = some (tenants, rows) →
      GateMove cfg s (.serve r act)
        { s with tenants := tenants, tickets := Function.update s.tickets r none }
  | proceed (act tenants rows) : act.opens = false →
      respond cfg.tenants s.tenants act = some (tenants, rows) →
      GateMove cfg s (.proceed act) { s with tenants := tenants }
  | saveSetting (r) (name : TenantSetting) (found value tenant db) : s.tickets r = some tenant →
      s.db.isFound found (buildTenantSettingKey tenant name.name) = true →
      s.db.commitSetting found (buildTenantSettingKey tenant name.name) value = some db →
      GateMove cfg s (.saveSetting r name found value) (s.setDb db)
  | drop (r) : GateMove cfg s (.drop r) { s with tickets := Function.update s.tickets r none }
  | readControls (r target suspended reason) :
      GateMove cfg s (.readControls r target suspended reason)
        { s with controls := Function.update s.controls r (some
            ⟨target, suspended, reason, (s.db.findSetting (controlsKey target)).map Prod.fst⟩) }
  | commitControls (r updatedAt q db) : s.controls r = some q →
      s.db.commitSetting q.found (controlsKey q.target)
        (controlsPayload q.suspended q.reason updatedAt) = some db →
      GateMove cfg s (.commitControls r updatedAt)
        { s.setDb db with controls := Function.update s.controls r none }

theorem gateMove_of_step {cfg : GateConfig} {s t : GateState} {a : GateAct}
    (h : gateStep cfg s a = some t) : GateMove cfg s a t := by
  cases a with
  | callNext r i params authorization xTenantId =>
    obtain ⟨route, hroute, h⟩ := Option.bind_eq_some_iff.mp h
    obtain ⟨hget, hasks⟩ := Option.filter_eq_some_iff.mp hroute
    obtain ⟨tenant, hadmitted, rfl⟩ := Option.map_eq_some_iff.mp h
    exact .callNext r i params authorization xTenantId tenant
      fun hauth => admitted_active hauth (List.mem_of_getElem? hget) hasks hadmitted
  | serve r act =>
    simp only [gateStep] at h
    split at h
    · next hserve =>
      obtain ⟨hticket, hcaller, hopens, hid⟩ := hserve
      -- The caller of the step is the tenant of the ticket.
      obtain ⟨tenants, hstep, rfl⟩ := Option.map_eq_some_iff.mp h
      obtain ⟨⟨tenants', rows⟩, hrespond, rfl⟩ := Option.map_eq_some_iff.mp hstep
      obtain ⟨tenant, htenant⟩ := Option.ne_none_iff_exists'.mp hticket
      refine .serve r act tenant tenants' rows htenant (hcaller.trans htenant) hopens ?_ hrespond
      intro r' hr'
      rw [hr'] at hid
      exact beq_iff_eq.mp hid
    · cases h
  | proceed act =>
    simp only [gateStep] at h
    split at h
    · next hopens =>
      obtain ⟨tenants, hstep, rfl⟩ := Option.map_eq_some_iff.mp h
      obtain ⟨⟨tenants', rows⟩, hrespond, rfl⟩ := Option.map_eq_some_iff.mp hstep
      exact .proceed act tenants' rows hopens hrespond
    · cases h
  | saveSetting r name found value =>
    obtain ⟨tenant, hticket, h⟩ := Option.bind_eq_some_iff.mp h
    dsimp only at h
    split at h
    · next hfound =>
      obtain ⟨db, hcommit, rfl⟩ := Option.map_eq_some_iff.mp h
      exact .saveSetting r name found value tenant db hticket hfound hcommit
    · cases h
  | drop r =>
    obtain rfl := Option.some.inj h
    exact .drop r
  | readControls r target suspended reason =>
    obtain rfl := Option.some.inj h
    exact .readControls r target suspended reason
  | commitControls r updatedAt =>
    obtain ⟨q, hq, h⟩ := Option.bind_eq_some_iff.mp h
    obtain ⟨db, hcommit, rfl⟩ := Option.map_eq_some_iff.mp h
    exact .commitControls r updatedAt q db hq hcommit

/-! ### The invariant -/

/-- The keys of the settings are distinct, an operator's request found the row of its tenant,
and the tenants' requests are in order. -/
structure GateInv (s : GateState) : Prop where
  keys : UniqueKeys s.db
  found : ∀ r q, s.controls r = some q → s.db.isFound q.found (controlsKey q.target) = true
  tenants : TenantInv s.tenants

theorem gateInv_empty : GateInv {} :=
  ⟨List.nodup_nil, fun _ _ h => (nomatch h), tenantInv_empty⟩

section Gate

variable {cfg : GateConfig} {s t : GateState} {a : GateAct} {tenant : String}

/-- What was found stays found. -/
theorem isFound_keeps {db db' : Database} {found found' : Option ℕ} {key key' : String}
    {value : PyVal} (hfound : db.isFound found key = true)
    (h : db.commitSetting found' key' value = some db') : db'.isFound found key = true := by
  cases found with
  | none => rfl
  | some id =>
    obtain ⟨setting, hget, hkey⟩ := isFound_some hfound
    obtain ⟨setting', hget', hkey'⟩ := commitSetting_keeps h hget
    exact isFound_of_get hget' (hkey'.trans hkey)

/-- A commit of a setting writes no row of a tenant. -/
theorem commitSetting_tables {db db' : Database} {found : Option ℕ} {key : String} {value : PyVal}
    (h : db.commitSetting found key value = some db') :
    ∃ settings, db' = { db with settings := settings } := by
  rcases commitSetting_cases h with ⟨id, -, rfl⟩ | ⟨-, -, rfl⟩
  · exact ⟨_, rfl⟩
  · exact ⟨_, rfl⟩

theorem TenantInv.commitSetting {u : TenantState} (hu : TenantInv u) {db' : Database}
    {found : Option ℕ} {key : String} {value : PyVal}
    (h : u.db.commitSetting found key value = some db') : TenantInv (u.setDb db') := by
  obtain ⟨settings, rfl⟩ := commitSetting_tables h
  have hchain : TenantChain { u.db with settings := settings } :=
    ⟨hu.chain.templateVersions, hu.chain.jobDocuments, hu.chain.jobVersions, hu.chain.results,
      hu.chain.reviewEdits, hu.chain.exports, hu.chain.feedbackDecisions⟩
  have hkeeps : KeepsTenants u.db { u.db with settings := settings } :=
    ⟨.refl _ _, .refl _ _, .refl _ _, .refl _ _, .refl _ _⟩
  have hwrites : WritesOnly "" u.db { u.db with settings := settings } :=
    ⟨.refl _ _, .refl _ _, .refl _ _, .refl _ _, .refl _ _, .refl _ _, .refl _ _, .refl _ _,
      .refl _ _⟩
  exact hu.setDb ⟨hchain, hkeeps, hwrites⟩

theorem gateInv_step (hs : GateInv s) (h : gateStep cfg s a = some t) : GateInv t := by
  -- a step of a handler or of a worker leaves the settings
  have hresponded : ∀ {act : TenantAct} {tenants : TenantState} {rows : List TenantRow}
      {tickets : ℕ → Option String}, respond cfg.tenants s.tenants act = some (tenants, rows) →
      GateInv { s with tenants := tenants, tickets := tickets } := by
    intro act tenants rows tickets hrespond
    have hsettings := respond_settings hrespond
    refine ⟨?_, fun r q hq => ?_, (tenantInv_step hs.tenants hrespond).1⟩
    · have hkeys := hs.keys
      unfold UniqueKeys at hkeys ⊢
      rwa [← hsettings] at hkeys
    · have hfound := hs.found r q hq
      unfold Database.isFound at hfound ⊢
      rwa [← hsettings] at hfound
  cases gateMove_of_step h with
  | callNext r route params authorization xTenantId tenant _ => exact ⟨hs.keys, hs.found, hs.tenants⟩
  | serve r act tenant tenants rows _ _ _ _ hrespond => exact hresponded hrespond
  | proceed act tenants rows _ hrespond => exact hresponded hrespond
  | saveSetting r name found value tenant db _ _ hcommit =>
    exact ⟨commitSetting_unique hs.keys hcommit,
      fun r q hq => isFound_keeps (hs.found r q hq) hcommit, hs.tenants.commitSetting hcommit⟩
  | drop r => exact ⟨hs.keys, hs.found, hs.tenants⟩
  | readControls r target suspended reason =>
    refine ⟨hs.keys, fun r' q hq => ?_, hs.tenants⟩
    dsimp only at hq
    by_cases hr : r' = r
    · subst hr
      rw [Function.update_self] at hq
      obtain rfl := Option.some.inj hq
      show s.db.isFound ((s.db.findSetting (controlsKey target)).map Prod.fst)
        (controlsKey target) = true
      cases hfind : s.db.findSetting (controlsKey target) with
      | none => rfl
      | some row =>
        obtain ⟨hget, hkey⟩ := (findSetting_eq_some_iff hs.keys).mp hfind
        exact isFound_of_get hget hkey
    · rw [Function.update_of_ne hr] at hq
      exact hs.found r' q hq
  | commitControls r updatedAt q db hq hcommit =>
    refine ⟨commitSetting_unique hs.keys hcommit, fun r' q' hq' => ?_,
      hs.tenants.commitSetting hcommit⟩
    dsimp only at hq'
    by_cases hr : r' = r
    · subst hr
      rw [Function.update_self] at hq'
      cases hq'
    · rw [Function.update_of_ne hr] at hq'
      exact isFound_keeps (hs.found r' q' hq') hcommit

theorem gateInv_of_run {acts : List GateAct} (h : Run (gateStep cfg) (fun _ _ => True) {} acts s) :
    GateInv s :=
  h.invariant (fun _ _ _ hs _ hstep => gateInv_step hs hstep) gateInv_empty

/-! ### A suspension holds -/

/-- The commit by which an operator ends the suspension of the tenant. -/
def Resumes (tenant : String) (s : GateState) : GateAct → Prop
  | .commitControls r _ => ∃ q, s.controls r = some q ∧ q.target = tenant ∧ q.suspended = false
  | _ => False

/-- A request of the tenant that was admitted and has not ended. -/
def GateState.Pending (s : GateState) (tenant : String) (r : ℕ) : Prop :=
  s.tickets r = some tenant ∨ s.tenants.InFlight tenant r

/-- The request of the tenant that takes the step, if it is one: it begins, it writes a setting,
or it commits. -/
def GateState.stepOf (s : GateState) (tenant : String) : GateAct → Option ℕ
  | .serve r _ | .saveSetting r _ _ _ => if s.tickets r = some tenant then some r else none
  | .proceed (.jobs (.commit r actor)) =>
      if s.tenants.caller (.jobs (.commit r actor)) = some tenant then some r else none
  | .proceed (.finish r now createdAt) =>
      if s.tenants.caller (.finish r now createdAt) = some tenant then some r else none
  | _ => none

/-- The request of the tenant that begins with the step. -/
def GateState.begunBy (s : GateState) (tenant : String) : GateAct → Option ℕ
  | .serve r _ => if s.tickets r = some tenant then some r else none
  | _ => none

/-- One step does not end a suspension. -/
theorem suspended_step (hs : GateInv s) (hok : ¬ Resumes tenant s a) (h : gateStep cfg s a = some t)
    (hsuspended : isTenantSuspended s.db tenant = true) : isTenantSuspended t.db tenant = true := by
  have hresponded : ∀ {act : TenantAct} {tenants : TenantState} {rows : List TenantRow},
      respond cfg.tenants s.tenants act = some (tenants, rows) →
        isTenantSuspended tenants.db tenant = true := by
    intro act tenants rows hrespond
    have hsettings := respond_settings hrespond
    unfold isTenantSuspended Database.findSetting at hsuspended ⊢
    rwa [hsettings]
  cases gateMove_of_step h with
  | callNext r route params authorization xTenantId tenant' _ => exact hsuspended
  | serve r act tenant' tenants rows _ _ _ _ hrespond => exact hresponded hrespond
  | proceed act tenants rows _ hrespond => exact hresponded hrespond
  | saveSetting r name found value tenant' db _ hfound hcommit =>
    refine suspended_of_commit hs.keys hfound hcommit (fun hkey => ?_) hsuspended
    exact absurd hkey (settingKey_ne_controlsKey tenant' tenant name)
  | drop r => exact hsuspended
  | readControls r target suspended reason => exact hsuspended
  | commitControls r updatedAt q db hq hcommit =>
    refine suspended_of_commit hs.keys (hs.found r q hq) hcommit (fun hkey => ?_) hsuspended
    rw [suspends_controlsPayload]
    refine Bool.not_eq_false _ ▸ fun hresumes => hok ⟨q, hq, controlsKey_inj.mp hkey, hresumes⟩

/-- A ticket that is there after one was given back was there before. -/
theorem ticket_of_dropped {tickets : ℕ → Option String} {r r' : ℕ} {tenant : String}
    (h : Function.update tickets r' none r = some tenant) : tickets r = some tenant ∧ r ≠ r' := by
  by_cases hr : r = r'
  · subst hr
    rw [Function.update_self] at h
    cases h
  · rw [Function.update_of_ne hr] at h
    exact ⟨h, hr⟩

/-- No ticket is given to a suspended tenant. -/
theorem ticket_step (hauth : cfg.Authenticates) (h : gateStep cfg s a = some t)
    (hsuspended : isTenantSuspended s.db tenant = true) {r : ℕ}
    (hticket : t.tickets r = some tenant) : s.tickets r = some tenant := by
  cases gateMove_of_step h with
  | callNext r' route params authorization xTenantId tenant' hactive =>
    dsimp only at hticket
    by_cases hr : r = r'
    · subst hr
      rw [Function.update_self] at hticket
      have hactive := hactive hauth
      rw [Option.some.inj hticket, hsuspended] at hactive
      cases hactive
    · rwa [Function.update_of_ne hr] at hticket
  | serve r' act tenant' tenants rows _ _ _ _ hrespond => exact (ticket_of_dropped hticket).1
  | proceed act tenants rows _ hrespond => exact hticket
  | saveSetting r' name found value tenant' db _ _ hcommit => exact hticket
  | drop r' => exact (ticket_of_dropped hticket).1
  | readControls r' target suspended reason => exact hticket
  | commitControls r' updatedAt q db _ hcommit => exact hticket

/-- No request of a suspended tenant gets under way. -/
theorem pending_step (hauth : cfg.Authenticates) (h : gateStep cfg s a = some t)
    (hsuspended : isTenantSuspended s.db tenant = true) {r : ℕ} (hpending : t.Pending tenant r) :
    s.Pending tenant r := by
  rcases hpending with hticket | hflight
  · exact Or.inl (ticket_step hauth h hsuspended hticket)
  cases gateMove_of_step h with
  | callNext r' route params authorization xTenantId tenant' _ => exact Or.inr hflight
  | serve r' act tenant' tenants rows hticket hcaller _ hid hrespond =>
    rcases inFlight_of_respond hrespond hflight with hbefore | ⟨-, hrequest, hcaller'⟩
    · exact Or.inr hbefore
    · -- the request that has just begun had a ticket
      obtain rfl := hid r hrequest
      obtain rfl := Option.some.inj (hcaller.symm.trans hcaller')
      exact Or.inl hticket
  | proceed act tenants rows hopens hrespond =>
    rcases inFlight_of_respond hrespond hflight with hbefore | ⟨hopens', -⟩
    · exact Or.inr hbefore
    · exact absurd (hopens.symm.trans hopens') Bool.false_ne_true
  | saveSetting r' name found value tenant' db _ _ hcommit => exact Or.inr hflight
  | drop r' => exact Or.inr hflight
  | readControls r' target suspended reason => exact Or.inr hflight
  | commitControls r' updatedAt q db _ hcommit => exact Or.inr hflight

theorem of_ite_some {p : Prop} [Decidable p] {r r' : ℕ}
    (h : (if p then some r' else none) = some r) : p ∧ r' = r := by
  split at h
  · next hp => exact ⟨hp, Option.some.inj h⟩
  · cases h

/-- A request that takes a step is under way. -/
theorem stepOf_pending (h : gateStep cfg s a = some t) {r : ℕ}
    (hstep : s.stepOf tenant a = some r) : s.Pending tenant r := by
  cases gateMove_of_step h with
  | serve r' act tenant' tenants rows _ _ _ _ _ =>
    obtain ⟨hticket, rfl⟩ := of_ite_some hstep
    exact Or.inl hticket
  | saveSetting r' name found value tenant' db _ _ _ =>
    obtain ⟨hticket, rfl⟩ := of_ite_some hstep
    exact Or.inl hticket
  | proceed act tenants rows _ hrespond =>
    -- A step of a handler that has begun: its request is between its query and its commit.
    refine Or.inr ?_
    cases act with
    | jobs act =>
      cases act with
      | commit r' actor =>
        obtain ⟨hcaller, rfl⟩ := of_ite_some hstep
        obtain ⟨queue, hqueue, -⟩ := Option.map_eq_some_iff.mp hrespond
        cases apiMove_of_step hqueue with
        | commit _ _ q _ hq => exact Or.inr ⟨⟨q, hq⟩, Option.some.inj hcaller⟩
      | createJob _ _ _ _ _ _ | readRetry _ _ _ | readCancel _ _ _ | abandon _ => cases hstep
    | finish r' now createdAt =>
      obtain ⟨hcaller, rfl⟩ := of_ite_some hstep
      obtain ⟨⟨tenant', call⟩, hcall, rfl⟩ := Option.map_eq_some_iff.mp hcaller
      exact Or.inl ⟨call, hcall⟩
    | worker _ _ | createTemplate _ _ _ _ _ _ | upload _ _ _ _ _ | start _ _ _ | abandon _
    | ask _ _ => cases hstep
  | callNext _ _ _ _ _ _ _ | drop _ | readControls _ _ _ _ | commitControls _ _ _ _ _ _ =>
    cases hstep

/-- A step that begins a request takes its ticket. -/
theorem begun_step (hauth : cfg.Authenticates) (h : gateStep cfg s a = some t)
    (hsuspended : isTenantSuspended s.db tenant = true) {rs : List ℕ} (hnodup : rs.Nodup)
    (htickets : ∀ r ∈ rs, t.tickets r = some tenant) :
    ((s.begunBy tenant a).toList ++ rs).Nodup ∧
      ∀ r ∈ (s.begunBy tenant a).toList ++ rs, s.tickets r = some tenant := by
  have hbefore : ∀ r ∈ rs, s.tickets r = some tenant :=
    fun r hr => ticket_step hauth h hsuspended (htickets r hr)
  cases hbegun : s.begunBy tenant a with
  | none => exact ⟨hnodup, hbefore⟩
  | some r =>
    cases gateMove_of_step h with
    | serve r' act tenant' tenants rows _ _ _ _ _ =>
      obtain ⟨hticket, rfl⟩ := of_ite_some hbegun
      have hnew : r' ∉ rs := fun hr => (ticket_of_dropped (htickets r' hr)).2 rfl
      refine ⟨List.nodup_cons.mpr ⟨hnew, hnodup⟩, fun r hr => ?_⟩
      rcases List.mem_cons.mp hr with rfl | hr
      · exact hticket
      · exact hbefore r hr
    | saveSetting _ _ _ _ _ _ _ _ _ | proceed _ _ _ _ _ | callNext _ _ _ _ _ _ _ | drop _
    | readControls _ _ _ _ | commitControls _ _ _ _ _ _ => cases hbegun

end Gate

/-! ### The rows of a tenant -/

/-- The rows of the tenant are the same. -/
def SameOf {ρ : Type} [Tenanted ρ] (tenant : String) (u v : Table ρ) : Prop :=
  ∀ id r, tenantOf r = tenant → (u.get id = some r ↔ v.get id = some r)

/-- The rows and the settings of the tenant are the same in both databases, table by table. -/
structure SameRows (tenant : String) (db db' : Database) : Prop where
  documents : SameOf tenant db.documents db'.documents
  templates : SameOf tenant db.templates db'.templates
  templateVersions : SameOf tenant db.templateVersions db'.templateVersions
  jobs : SameOf tenant db.extractionJobs db'.extractionJobs
  results : SameOf tenant db.extractionResults db'.extractionResults
  reviewEdits : SameOf tenant db.reviewEdits db'.reviewEdits
  exports : SameOf tenant db.exports db'.exports
  feedbackDecisions : SameOf tenant db.feedbackDecisions db'.feedbackDecisions
  auditEvents : SameOf tenant db.auditEvents db'.auditEvents
  settings : ∀ (name : TenantSetting) id setting,
    setting.key = buildTenantSettingKey tenant name.name →
      (db.settings.get id = some setting ↔ db'.settings.get id = some setting)

section Rows

variable {tenant tenant' : String} {db db' db'' : Database}

theorem SameOf.refl {ρ : Type} [Tenanted ρ] (tenant : String) (u : Table ρ) :
    SameOf tenant u u := fun _ _ _ => Iff.rfl

theorem SameOf.trans {ρ : Type} [Tenanted ρ] {u v w : Table ρ} (h : SameOf tenant u v)
    (h' : SameOf tenant v w) : SameOf tenant u w :=
  fun id r hr => (h id r hr).trans (h' id r hr)

theorem SameRows.refl (tenant : String) (db : Database) : SameRows tenant db db :=
  ⟨.refl _ _, .refl _ _, .refl _ _, .refl _ _, .refl _ _, .refl _ _, .refl _ _, .refl _ _,
    .refl _ _, fun _ _ _ _ => Iff.rfl⟩

theorem SameRows.trans (h : SameRows tenant db db') (h' : SameRows tenant db' db'') :
    SameRows tenant db db'' :=
  ⟨h.documents.trans h'.documents, h.templates.trans h'.templates,
    h.templateVersions.trans h'.templateVersions, h.jobs.trans h'.jobs,
    h.results.trans h'.results, h.reviewEdits.trans h'.reviewEdits, h.exports.trans h'.exports,
    h.feedbackDecisions.trans h'.feedbackDecisions, h.auditEvents.trans h'.auditEvents,
    fun name id setting hkey => (h.settings name id setting hkey).trans
      (h'.settings name id setting hkey)⟩

/-- A write of rows of another tenant leaves those of the tenant. -/
theorem sameOf_of_onlyOf {ρ : Type} [Tenanted ρ] {u v : Table ρ} (hne : tenant' ≠ tenant)
    (h : OnlyOf tenant' u v) : SameOf tenant u v := by
  intro id r hr
  rcases h id with heq | ⟨hold, hnew⟩
  · rw [heq]
  · constructor
    · exact fun hget => absurd ((hold r hget).symm.trans hr) hne
    · exact fun hget => absurd ((hnew r hget).symm.trans hr) hne

theorem sameRows_of_writesOnly (hne : tenant' ≠ tenant) (h : WritesOnly tenant' db db')
    (hsettings : db'.settings = db.settings) : SameRows tenant db db' :=
  ⟨sameOf_of_onlyOf hne h.documents, sameOf_of_onlyOf hne h.templates,
    sameOf_of_onlyOf hne h.templateVersions, sameOf_of_onlyOf hne h.jobs,
    sameOf_of_onlyOf hne h.results, sameOf_of_onlyOf hne h.reviewEdits,
    sameOf_of_onlyOf hne h.exports, sameOf_of_onlyOf hne h.feedbackDecisions,
    sameOf_of_onlyOf hne h.auditEvents, fun _ _ _ _ => by rw [hsettings]⟩

/-- So does the commit of a setting that is not the tenant's. -/
theorem sameRows_of_commitSetting {found : Option ℕ} {key : String} {value : PyVal}
    (hfound : db.isFound found key = true) (h : db.commitSetting found key value = some db')
    (hkey : ∀ name : TenantSetting, buildTenantSettingKey tenant name.name ≠ key) :
    SameRows tenant db db' := by
  have hsettings : ∀ (name : TenantSetting) id setting,
      setting.key = buildTenantSettingKey tenant name.name →
        (db.settings.get id = some setting ↔ db'.settings.get id = some setting) := by
    intro name id setting hsetting
    have hne : setting.key ≠ key := by
      rw [hsetting]
      exact hkey name
    refine ⟨fun hget => commitSetting_other hfound h hget hne, fun hget => ?_⟩
    -- The row of the key was updated, or a new one was inserted; neither is the tenant's.
    rcases commitSetting_cases h with ⟨id', rfl, rfl⟩ | ⟨-, -, rfl⟩
    · by_cases hid : id = id'
      · subst hid
        obtain ⟨setting', hget', hkey'⟩ := isFound_some hfound
        rw [get_update_self, hget'] at hget
        rw [← Option.some.inj hget] at hne
        exact absurd hkey' hne
      · rwa [get_update_ne _ _ hid] at hget
    · by_cases hid : id = db.settings.nextId
      · subst hid
        rw [get_insert_self] at hget
        rw [← Option.some.inj hget] at hne
        exact absurd rfl hne
      · rwa [get_insert_ne _ _ hid] at hget
  obtain ⟨settings, rfl⟩ := commitSetting_tables h
  exact ⟨.refl _ _, .refl _ _, .refl _ _, .refl _ _, .refl _ _, .refl _ _, .refl _ _, .refl _ _,
    .refl _ _, hsettings⟩

end Rows

/-- Worker `w` has a job of the tenant. -/
def QueueState.WorksFor (q : QueueState) (w : ℕ) (tenant : String) : Prop :=
  ∃ j row, (q.workers w = .claiming j ∨ ∃ pc, q.workers w = .busy j pc) ∧
    q.db.extractionJobs.get j = some row ∧ row.tenantId = tenant

/-- The step is that of a worker on a job of the tenant. -/
def WorkerStepFor (tenant : String) (s : GateState) : GateAct → Prop
  | .proceed (.worker w _) => s.tenants.queue.WorksFor w tenant
  | _ => False

section Gate

variable {cfg : GateConfig} {s t : GateState} {a : GateAct} {tenant : String}

/-- A worker writes rows of the tenant whose job it has. -/
theorem workerMove_rows {q u : QueueState} {w : ℕ} (hchain : TenantChain q.db)
    (h : WorkerMove q w u) (hother : ¬ q.WorksFor w tenant) : SameRows tenant q.db u.db := by
  have hsettings := workerMove_settings h
  cases h with
  | look ph _ _ => exact .refl _ _
  | lock tries j _ _ _ => exact .refl _ _
  | claim j hw =>
    cases hget : q.db.extractionJobs.get j with
    | none =>
      -- there is no row to claim
      have hrows : ∀ row, q.db.extractionJobs.get j = some row → False := by
        intro row hrow
        rw [hget] at hrow
        cases hrow
      have hjobs : SameOf tenant q.db.extractionJobs
          (q.db.extractionJobs.update j (·.claim w)) := by
        intro id r _
        by_cases hid : id = j
        · subst hid
          rw [get_update_self, hget]
          exact iff_of_false nofun nofun
        · rw [get_update_ne _ _ hid]
      exact ⟨.refl _ _, .refl _ _, .refl _ _, hjobs, .refl _ _, .refl _ _, .refl _ _, .refl _ _,
        .refl _ _, fun _ _ _ _ => Iff.rfl⟩
    | some row =>
      have hne : row.tenantId ≠ tenant := fun h => hother ⟨j, row, Or.inl hw, hget, h⟩
      have howned : Owned row.tenantId q.db.extractionJobs j := ⟨row, hget, rfl⟩
      have hchange : TenantChange row.tenantId q.db (q.claimed w j).db :=
        tenantChange_updateJob hchain (fun _ => ⟨rfl, rfl, rfl⟩) fun _ hrow => howned.tenant hrow
      exact sameRows_of_writesOnly hne hchange.writes hsettings
  | process j pc act stored db' pc' hw _ hget hmove =>
    have hne : stored.tenantId ≠ tenant := fun h => hother ⟨j, stored, Or.inr ⟨pc, hw⟩, hget, h⟩
    exact sameRows_of_writesOnly hne (ProcessMove.change hchain hget hmove).writes hsettings

/-- A step that is no step of the tenant, and not of a worker on a job of it, leaves its rows. -/
theorem rows_step (hs : GateInv s) (hquiet : ∀ r, ¬ s.Pending tenant r)
    (hworker : ¬ WorkerStepFor tenant s a) (h : gateStep cfg s a = some t) :
    SameRows tenant s.db t.db := by
  have hresponded : ∀ {act : TenantAct} {tenants : TenantState} {rows : List TenantRow}
      {tenant' : String}, respond cfg.tenants s.tenants act = some (tenants, rows) →
      s.tenants.caller act = some tenant' → tenant' ≠ tenant →
        SameRows tenant s.db tenants.db := by
    intro act tenants rows tenant' hrespond hcaller hne
    have hconfined := (tenantInv_step hs.tenants hrespond).2 tenant' hcaller
    exact sameRows_of_writesOnly hne hconfined.2 (respond_settings hrespond)
  -- A step writes for the tenant it was called with, and that is another one.
  cases gateMove_of_step h with
  | callNext r route params authorization xTenantId tenant' _ => exact .refl _ _
  | serve r act tenant' tenants rows hticket hcaller _ _ hrespond =>
    refine hresponded hrespond hcaller ?_
    rintro rfl
    exact hquiet r (Or.inl hticket)
  | proceed act tenants rows hopens hrespond =>
    cases act with
    | worker w act =>
      obtain ⟨queue, hstep, heq⟩ := Option.map_eq_some_iff.mp hrespond
      obtain ⟨rfl, -⟩ := Prod.mk.inj heq
      exact workerMove_rows hs.tenants.chain (workerMove_of_step hstep) hworker
    | jobs act =>
      cases act with
      | commit r actor =>
        refine hresponded hrespond rfl ?_
        rintro rfl
        obtain ⟨queue, hqueue, -⟩ := Option.map_eq_some_iff.mp hrespond
        cases apiMove_of_step hqueue with
        | commit _ _ q _ hq => exact hquiet r (Or.inr (Or.inr ⟨⟨q, hq⟩, rfl⟩))
      | abandon r =>
        obtain ⟨rfl, -⟩ := Prod.mk.inj (Option.some.inj hrespond)
        exact .refl _ _
      | createJob _ _ _ _ _ _ | readRetry _ _ _ | readCancel _ _ _ => cases hopens
    | finish r now createdAt =>
      obtain ⟨⟨tenant', call⟩, hcall, -⟩ := Option.bind_eq_some_iff.mp hrespond
      have hcaller : s.tenants.caller (.finish r now createdAt) = some tenant' := by
        show (s.tenants.calls r).map Prod.fst = some tenant'
        rw [hcall]
        rfl
      refine hresponded hrespond hcaller ?_
      rintro rfl
      exact hquiet r (Or.inr (Or.inl ⟨call, hcall⟩))
    | abandon r =>
      obtain ⟨rfl, -⟩ := Prod.mk.inj (Option.some.inj hrespond)
      exact .refl _ _
    | createTemplate _ _ _ _ _ _ | upload _ _ _ _ _ | start _ _ _ | ask _ _ => cases hopens
  | saveSetting r name found value tenant' db hticket hfound hcommit =>
    refine sameRows_of_commitSetting hfound hcommit fun name' hkey => ?_
    obtain ⟨rfl, -⟩ := (settingKey_inj name'.name_plain name.name_plain).mp hkey
    exact hquiet r (Or.inl hticket)
  | drop r => exact .refl _ _
  | readControls r target suspended reason => exact .refl _ _
  | commitControls r updatedAt q db hq hcommit =>
    exact sameRows_of_commitSetting (hs.found r q hq) hcommit fun name =>
      settingKey_ne_controlsKey tenant q.target name

end Gate

/-! ### A tenant is suspended -/

/-- Settings with one token, of an operator. -/
def acmeSettings : AccessSettings where
  deploymentMode := .saasMultiTenant
  requireAuthentication := true
  authBearerTokensJson := some "tokens"
  trustTenantHeader := true

/-- A deployment with these settings. -/
def acmeConfig : GateConfig where
  tenants := localConfig
  lib :=
    { loads := fun _ => .ok (.dict
        [("s3cret", .dict [("actor", .str "ann"), ("role", .str "Admin")])])
      lowerCase := .asciiOnly }
  access := ⟨acmeSettings, acmeSettings, rfl⟩
  apiPrefix := defaultApiPrefix
  prefix_eq := rfl

theorem one_ne_empty : "1" ≠ "" := by decide

theorem slash_notMem_one : '/' ∉ "1".toList := by decide

/-- The parameters of a route on the first row. -/
def templateOne : ℕ → PathParam := allParams "1" one_ne_empty slash_notMem_one

theorem acmeConfig_authenticates : acmeConfig.Authenticates := rfl

/-- The template that requests of the demonstration create. -/
def invoiceOf (tenant : String) : TenantAct :=
  .createTemplate tenant "Invoice" "" "invoice"
    { templateName := "Invoice", documentType := "invoice" } 0

/-- A request to create a template is admitted. -/
def askForTemplate (r : ℕ) (tenant : String) : GateAct :=
  .callNext r 6 templateOne (some "Bearer s3cret") (some tenant)

/-- An operator suspends the tenant. -/
def suspendAcme : List GateAct :=
  [.readControls 2 "acme" true (some "billing"), .commitControls 2 "2024-05-01T00:00:00"]

/-- The tenant creates a template, and is suspended when nothing of it is under way. -/
def suspendIdle : List GateAct :=
  [askForTemplate 1 "acme", .serve 1 (invoiceOf "acme")] ++ suspendAcme

/-- Another tenant creates a template. -/
def otherTemplate : List GateAct := [askForTemplate 1 "umbrella", .serve 1 (invoiceOf "umbrella")]

end ExtractFlow
