import ExtractFlow.Lib.Keyed
import ExtractFlow.Lib.LowerCase
import ExtractFlow.Lib.Trim
import ExtractFlow.Exports
import ExtractFlow.RoutePermissions

/-!
# The access gate

Every request passes a middleware (`backend/app/main.py`) that knows the caller by a bearer
token, asks `resolve_api_permission` what the request needs, and turns away the requests of
suspended tenants.  All of that only where the settings require authentication: where they do
not, which is the default, every request passes as that of the local user, and nobody asks
whether its tenant is suspended.  Who has which token is in one setting, a JSON text, which is
checked when the process starts and read again for every request
(`backend/app/core/config.py`, `auth.py`).

The two readings agree, so a process that started never fails on a request: the middleware
lets it pass or answers it.

## Main definitions

* `AccessSettings`, `validateSettings` — the settings the gate reads, and their validators.
* `authenticationAndRbacMiddleware` — the gate.
* `Entitled` — who may pass, in terms of the JSON text.

## Main results

* `gate_spec` — the gate answers every request, and lets those pass that may.
* `route_bypass_iff` — which routes are not asked for a tenant, whatever their parameters.
-/

namespace ExtractFlow

open Segments

/-! ### Roles -/

/-- `Role`: what a user of a token may be. -/
inductive Role where
  | admin | operator | reviewer | viewer
  deriving DecidableEq, Repr

def Role.value : Role → String
  | .admin => "admin"
  | .operator => "operator"
  | .reviewer => "reviewer"
  | .viewer => "viewer"

def Role.all : List Role := [.admin, .operator, .reviewer, .viewer]

/-- `Role(text)`. -/
def roleOf (text : String) : Except PyErr Role :=
  match Role.all.find? fun role => role.value == text with
  | some role => .ok role
  | none => .error (.valueError s!"{pyRepr text} is not a valid Role")

/-- `ROLE_PERMISSIONS`. -/
def rolePermissions : Role → List Permission
  | .viewer => [.read]
  | .reviewer => [.read, .review, .«export»]
  | .operator => [.read, .runJobs]
  | .admin => [.read, .runJobs, .review, .«export», .writeSchema, .manageSettings, .devStatus]

/-- Who a request is from, as the handlers see it. -/
structure AuthContext where
  actor : String
  role : String
  deriving DecidableEq, Repr

/-- Who a request is from that nobody is asked about. -/
def localUser : AuthContext := ⟨"local-user", "admin"⟩

/-! ### The settings -/

/-- `DeploymentMode`: the two hosted modes ask for authentication when the process starts. -/
inductive DeploymentMode where
  | «local» | hostedSingleTenant | saasMultiTenant
  deriving DecidableEq, Repr

/-- The settings the gate reads, with the defaults of the configuration. -/
structure AccessSettings where
  apiPrefix : String := "/api"
  deploymentMode : DeploymentMode := .local
  requireAuthentication : Bool := false
  authBearerTokensJson : Option String := none
  currentTenantId : String := "default"
  trustTenantHeader : Bool := false

/-- What the gate takes from Python: `json.loads`, and the lower case of texts. -/
structure GateLibrary where
  loads : String → Except PyErr PyVal
  lowerCase : LowerCase

/-- The first character of a tenant id. -/
def isAlphaNum (c : Char) : Bool :=
  ('a' ≤ c && c ≤ 'z') || ('A' ≤ c && c ≤ 'Z') || ('0' ≤ c && c ≤ '9')

/-- `TENANT_ID_PATTERN`, matched fully. -/
def isTenantId : List Char → Bool
  | [] => false
  | c :: rest =>
      isAlphaNum c && rest.length ≤ 63 &&
        rest.all fun d => isAlphaNum d || d == '.' || d == '_' || d == '-'

/-- `normalize_tenant_id`. -/
def normalizeTenantId (value source : String) : Except PyErr String :=
  let normalized := pyStrip value
  if normalized = "" then .error (.valueError s!"{source} must not be empty.")
  else if isTenantId normalized.toList then .ok normalized
  else
    .error (.valueError
      s!"{source} must use 1-64 characters from letters, numbers, dots, hyphens, or underscores.")

/-- `validate_api_prefix`. -/
def validateApiPrefix (value : String) : Except PyErr String :=
  let normalized := pyStrip value
  if !("/".toList.isPrefixOf normalized.toList) then
    .error (.valueError "API_PREFIX must start with '/'.")
  else if normalized ≠ "/" ∧ "/".toList <:+ normalized.toList then
    .ok (String.ofList (rstripSlash normalized))
  else .ok normalized

/-- A text that is not blank. -/
def filledText : Option PyVal → Option String
  | some (.str s) => if pyStrip s = "" then none else some s
  | _ => none

/-- An entry of the token map, as the settings check it. -/
def validateTokenEntry (lib : GateLibrary) (entry : String × PyVal) : Except PyErr Unit :=
  if pyStrip entry.1 = "" then
    .error (.valueError "AUTH_BEARER_TOKENS_JSON keys must be non-empty strings.")
  else
    match entry.2 with
    | .dict payload =>
        match filledText (PyVal.dictGet payload "actor"), PyVal.dictGet payload "role" with
        | none, _ =>
            .error (.valueError "AUTH_BEARER_TOKENS_JSON actor must be a non-empty string.")
        | some _, some (.str role) =>
            if ∃ allowed ∈ Role.all, lib.lowerCase.lower role = allowed.value then .ok ()
            else
              .error (.valueError
                "AUTH_BEARER_TOKENS_JSON role must be admin, operator, reviewer, or viewer.")
        | some _, _ =>
            .error (.valueError
              "AUTH_BEARER_TOKENS_JSON role must be admin, operator, reviewer, or viewer.")
    | _ => .error (.valueError "AUTH_BEARER_TOKENS_JSON values must be objects.")

/-- `validate_auth_bearer_tokens_json`. -/
def validateAuthBearerTokensJson (lib : GateLibrary) :
    Option String → Except PyErr (Option String)
  | none => .ok none
  | some value =>
      if pyStrip value = "" then .ok none
      else do
        let parsed ← lib.loads value
        match parsed with
        | .dict items => do
            items.forM (validateTokenEntry lib)
            return some value
        | _ => .error (.valueError "AUTH_BEARER_TOKENS_JSON must be a JSON object.")

/-- `validate_runtime_paths`, as far as access goes. -/
def validateAccess (settings : AccessSettings) : Except PyErr Unit :=
  if settings.deploymentMode = .saasMultiTenant ∧ settings.requireAuthentication = false then
    .error (.valueError
      "REQUIRE_AUTHENTICATION must be true for saas_multi_tenant deployments.")
  else if settings.trustTenantHeader = true ∧
      (settings.deploymentMode ≠ .saasMultiTenant ∨ settings.requireAuthentication = false) then
    .error (.valueError
      ("TRUST_TENANT_HEADER requires a saas_multi_tenant deployment with " ++
        "REQUIRE_AUTHENTICATION=true."))
  else if settings.requireAuthentication = true ∧
      (settings.authBearerTokensJson.getD "" = "") then
    .error (.valueError "AUTH_BEARER_TOKENS_JSON is required when REQUIRE_AUTHENTICATION=true.")
  else .ok ()

/-- The settings of a process that starts: each validated, and then all of them together; a process
whose settings fail does not start. -/
def validateSettings (lib : GateLibrary) (raw : AccessSettings) : Except PyErr AccessSettings := do
  let apiPrefix ← validateApiPrefix raw.apiPrefix
  let tokens ← validateAuthBearerTokensJson lib raw.authBearerTokensJson
  let tenant ← normalizeTenantId raw.currentTenantId "CURRENT_TENANT_ID"
  let settings :=
    { raw with apiPrefix := apiPrefix, authBearerTokensJson := tokens, currentTenantId := tenant }
  validateAccess settings
  return settings

/-- Settings that were validated, so a process runs under them. -/
structure ValidSettings (lib : GateLibrary) where
  settings : AccessSettings
  valid : ∃ raw, validateSettings lib raw = .ok settings

/-! ### Who asks -/

/-- An entry of the token map, as a request reads it. -/
def loadBearerToken (lib : GateLibrary) (entry : String × PyVal) :
    Except PyErr (String × AuthContext) :=
  if pyStrip entry.1 = "" then
    .error (.valueError "AUTH_BEARER_TOKENS_JSON keys must be non-empty strings.")
  else
    match entry.2 with
    | .dict payload =>
        match filledText (PyVal.dictGet payload "actor"),
          filledText (PyVal.dictGet payload "role") with
        | none, _ =>
            .error (.valueError "AUTH_BEARER_TOKENS_JSON entry for token must include actor.")
        | some _, none =>
            .error (.valueError "AUTH_BEARER_TOKENS_JSON entry for token must include role.")
        | some actor, some role =>
            .ok (entry.1, ⟨pyStrip actor, lib.lowerCase.lower (pyStrip role)⟩)
    | _ => .error (.valueError "AUTH_BEARER_TOKENS_JSON entry for token must be an object.")

/-- `_load_bearer_tokens`. -/
def loadBearerTokens (lib : GateLibrary) (settings : AccessSettings) :
    Except PyErr (List (String × AuthContext)) :=
  match settings.authBearerTokensJson with
  | none => .ok []
  | some raw =>
      if pyStrip raw = "" then .ok []
      else do
        let parsed ← lib.loads raw
        match parsed with
        | .dict items => items.mapM (loadBearerToken lib)
        | _ => .error (.valueError "AUTH_BEARER_TOKENS_JSON must be a JSON object.")

/-- The scheme and the token of an `Authorization` header, if there are both. -/
def headerCredentials (authorization : Option String) : Option (String × String) :=
  let header := (authorization.getD "").toList
  let scheme := header.takeWhile (· ≠ ' ')
  let token := (header.dropWhile (· ≠ ' ')).drop 1
  if scheme = [] ∨ token = [] then none else some (String.ofList scheme, String.ofList token)

/-- `resolve_auth_context`. -/
def resolveAuthContext (lib : GateLibrary) (settings : AccessSettings)
    (credentials : Option (String × String)) : Except PyErr AuthContext :=
  if settings.requireAuthentication = false then .ok localUser
  else
    match credentials with
    | none => .error (.httpException 401 "Authentication required.")
    | some (scheme, token) =>
        if lib.lowerCase.lower scheme ≠ "bearer" then
          .error (.httpException 401 "Authentication required.")
        else do
          let tokenMap ← loadBearerTokens lib settings
          if tokenMap.isEmpty then
            throw (.httpException 503
              "Authentication is enabled but AUTH_BEARER_TOKENS_JSON is not configured.")
          match tokenMap.find? fun entry => entry.1 == token with
          | none => throw (.httpException 401 "Invalid bearer token.")
          | some entry => return entry.2

/-! ### Which tenant -/

/-- `current_tenant_id_dependency`. -/
def currentTenantIdDependency (settings : AccessSettings) (xTenantId : Option String) :
    Except PyErr String :=
  if settings.trustTenantHeader = false ∨ settings.deploymentMode ≠ .saasMultiTenant then
    .ok settings.currentTenantId
  else
    match xTenantId with
    | none =>
        .error (.httpException 400 "X-Tenant-ID header is required for this deployment.")
    | some value =>
        match normalizeTenantId value "X-Tenant-ID" with
        | .ok tenant => .ok tenant
        | .error (.valueError detail) => .error (.httpException 400 detail)
        | .error err => .error err

/-- `db.query(Setting).filter(Setting.key == key).first()`. -/
def Database.findSetting (db : Database) (key : String) : Option (ℕ × Setting) :=
  (db.settings.select fun s => s.key == key).head?

/-- The key of the row that suspends a tenant. -/
def controlsKey (tenant : String) : String := buildTenantSettingKey tenant "admin.controls"

/-- The value of such a row says so. -/
def PyVal.suspends : PyVal → Bool
  | .dict payload => ((PyVal.dictGet payload "suspended").map PyVal.truthy).getD false
  | _ => false

/-- `is_tenant_suspended`: what `get_tenant_controls` has under `suspended`. -/
def isTenantSuspended (db : Database) (tenant : String) : Bool :=
  match db.findSetting (controlsKey tenant) with
  | some (_, setting) => setting.value.suspends
  | none => false

/-! ### The middleware -/

/-- What the gate reads of a request: its method, its path and two of its headers. -/
structure GateRequest where
  method : HttpMethod
  path : String
  authorization : Option String := none
  xTenantId : Option String := none

/-- The request goes on as somebody’s, or is answered by the gate itself. -/
inductive GateAnswer where
  | passed (auth : AuthContext)
  | refused (status : ℕ) (detail : String)
  deriving DecidableEq, Repr

/-- `_is_public_path`. -/
def isPublicPath (settings : AccessSettings) (path : String) : Bool :=
  path ∈ ["/health", "/healthz", "/readyz"] ||
    path.toList == rstripSlash settings.apiPrefix ++ "/health".toList

/-- `_is_admin_route`. -/
def isAdminRoute (settings : AccessSettings) (path : String) : Bool :=
  (rstripSlash settings.apiPrefix ++ "/admin/".toList).isPrefixOf path.toList

/-- An `HTTPException` becomes the answer; others go through. -/
def answerOf : PyErr → Except PyErr GateAnswer
  | .httpException status detail => .ok (.refused status detail)
  | err => .error err

/-- The answer to a caller whose role is not enough. -/
def checkRole (settings : AccessSettings) (request : GateRequest) (auth : AuthContext) :
    Except PyErr (Option GateAnswer) :=
  match resolveApiPermission request.method request.path settings.apiPrefix with
  | none => .ok none
  | some permission => do
      let role ← roleOf auth.role
      if permission ∈ rolePermissions role then return none
      else return some (.refused 403 s!"Role '{role.value}' cannot perform this action.")

/-- The answer to a request without a tenant, or of a suspended one. -/
def checkTenant (settings : AccessSettings) (db : Database) (request : GateRequest) :
    Except PyErr (Option GateAnswer) :=
  if isAdminRoute settings request.path then .ok none
  else
    match currentTenantIdDependency settings request.xTenantId with
    | .error err => (answerOf err).map some
    | .ok tenant =>
        if isTenantSuspended db tenant then
          .ok (some (.refused 403 s!"Tenant '{tenant}' is suspended."))
        else .ok none

/-- `authentication_and_rbac_middleware`: public paths pass, and every path where no authentication
is required; otherwise the token, the role and the tenant are asked in turn. -/
def authenticationAndRbacMiddleware (lib : GateLibrary) (settings : AccessSettings)
    (db : Database) (request : GateRequest) : Except PyErr GateAnswer :=
  if isPublicPath settings request.path then .ok (.passed localUser)
  else if settings.requireAuthentication = false then .ok (.passed localUser)
  else
    match resolveAuthContext lib settings (headerCredentials request.authorization) with
    | .error err => answerOf err
    | .ok auth => do
        match ← checkRole settings request auth with
        | some answer => return answer
        | none =>
            match ← checkTenant settings db request with
            | some answer => return answer
            | none => return .passed auth

/-! ### Who may pass -/

/-- The value of a token names a user: an actor, and a role in any case. -/
def NamesUser (lib : GateLibrary) (value : PyVal) (actor : String) (role : Role) : Prop :=
  ∃ payload name text, value = .dict payload ∧ PyVal.dictGet payload "actor" = some (.str name) ∧
    pyStrip name = actor ∧ PyVal.dictGet payload "role" = some (.str text) ∧
      lib.lowerCase.lower text = role.value

/-- The JSON text has the token, for that user. -/
def ConfiguredToken (lib : GateLibrary) (settings : AccessSettings) (token actor : String)
    (role : Role) : Prop :=
  ∃ raw items value, settings.authBearerTokensJson = some raw ∧
    lib.loads raw = .ok (.dict items) ∧ PyVal.dictGet items token = some value ∧
      NamesUser lib value actor role

/-- The JSON text has no token at all. -/
def NoTokens (lib : GateLibrary) (settings : AccessSettings) : Prop :=
  ∃ raw, settings.authBearerTokensJson = some raw ∧ lib.loads raw = .ok (.dict [])

/-- The token of a request, if it is a bearer token. -/
def bearerToken (lib : GateLibrary) (request : GateRequest) : Option String :=
  match headerCredentials request.authorization with
  | some (scheme, token) => if lib.lowerCase.lower scheme = "bearer" then some token else none
  | none => none

/-- The role has what the request needs. -/
def RoleMayAct (settings : AccessSettings) (request : GateRequest) (role : Role) : Prop :=
  ∀ permission, resolveApiPermission request.method request.path settings.apiPrefix =
    some permission → permission ∈ rolePermissions role

/-- The tenant of a request is asked for, and must not be suspended. -/
def TenantMayAct (settings : AccessSettings) (db : Database) (request : GateRequest) : Prop :=
  isAdminRoute settings request.path = true ∨
    ∃ tenant, currentTenantIdDependency settings request.xTenantId = .ok tenant ∧
      isTenantSuspended db tenant = false

/-- Nobody is asked who it is. -/
def IsOpen (settings : AccessSettings) (path : String) : Prop :=
  isPublicPath settings path = true ∨ settings.requireAuthentication = false

/-- Who may pass, and as whom: anybody where nothing is asked, and otherwise the user of a
configured token whose role and tenant may act. -/
def Entitled (lib : GateLibrary) (settings : AccessSettings) (db : Database)
    (request : GateRequest) (auth : AuthContext) : Prop :=
  (IsOpen settings request.path ∧ auth = localUser) ∨
    ¬ IsOpen settings request.path ∧ ∃ token role, bearerToken lib request = some token ∧
      ConfiguredToken lib settings token auth.actor role ∧ auth.role = role.value ∧
        RoleMayAct settings request role ∧ TenantMayAct settings db request

/-! ### Roles in any case -/

section Gate

variable {lib : GateLibrary}

/-- White space is its own lower-case form. -/
theorem toLower_of_isPySpace {c : Char} (h : isPySpace c = true) : c.toLower = c := by
  refine LowerCase.toLower_of_not_upper ?_
  rintro ⟨hlow, hhigh⟩
  have hlow' : 65 ≤ c.toNat := hlow
  have hhigh' : c.toNat ≤ 90 := hhigh
  unfold isPySpace at h
  simp only [List.mem_cons, List.not_mem_nil, or_false, decide_eq_true_eq] at h
  omega

/-- A text between two plain letters has no white space to strip. -/
theorem pyStrip_of_lower {text : String} {d e : Char} {rest init : List Char}
    (hd : PlainText [d]) (he : PlainText [e]) (hdSpace : isPySpace d = false)
    (heSpace : isPySpace e = false)
    (hhead : lib.lowerCase.lowerChars text.toList = d :: rest)
    (hlast : lib.lowerCase.lowerChars text.toList = init ++ [e]) : pyStrip text = text := by
  have htrimmed : Trim.Trimmed isPySpace text.toList := by
    constructor
    · intro c cs htext
      rw [htext] at hhead
      have hc := LowerCase.toLower_head hd hhead
      by_contra hspace
      rw [toLower_of_isPySpace (Bool.not_eq_false _ ▸ hspace)] at hc
      exact hspace (hc ▸ hdSpace)
    · intro cs c htext
      rw [htext] at hlast
      have hc := LowerCase.toLower_last he hlast
      by_contra hspace
      rw [toLower_of_isPySpace (Bool.not_eq_false _ ▸ hspace)] at hc
      exact hspace (hc ▸ heSpace)
  have hchars : stripChars text.toList = text.toList := Trim.trim_of_trimmed htrimmed
  rw [pyStrip, hchars, String.ofList_toList]

/-- A role in any case has no white space around it. -/
theorem pyStrip_of_role {text : String} {role : Role}
    (h : lib.lowerCase.lower text = role.value) : pyStrip text = text := by
  have hchars : lib.lowerCase.lowerChars text.toList = role.value.toList := by
    rw [← h, LowerCase.lower, String.toList_ofList]
  -- each begins and ends with a letter that only it is the lower-case form of
  cases role with
  | admin =>
    exact pyStrip_of_lower (d := 'a') (e := 'n') (by decide) (by decide) (by decide) (by decide)
      hchars (hchars.trans (show _ = "admi".toList ++ ['n'] from rfl))
  | operator =>
    exact pyStrip_of_lower (d := 'o') (e := 'r') (by decide) (by decide) (by decide) (by decide)
      hchars (hchars.trans (show _ = "operato".toList ++ ['r'] from rfl))
  | reviewer =>
    exact pyStrip_of_lower (d := 'r') (e := 'r') (by decide) (by decide) (by decide) (by decide)
      hchars (hchars.trans (show _ = "reviewe".toList ++ ['r'] from rfl))
  | viewer =>
    exact pyStrip_of_lower (d := 'v') (e := 'r') (by decide) (by decide) (by decide) (by decide)
      hchars (hchars.trans (show _ = "viewe".toList ++ ['r'] from rfl))

theorem roleOf_value (role : Role) : roleOf role.value = .ok role := by
  cases role <;> rfl

theorem Role.value_inj {role role' : Role} (h : role.value = role'.value) : role = role' := by
  have hsame := (roleOf_value role).symm.trans ((congrArg roleOf h).trans (roleOf_value role'))
  exact Except.ok.inj hsame

/-! ### The two readings of the token map -/

/-- A text that is filled is there. -/
theorem filledText_eq_some {v : Option PyVal} {s : String} (h : filledText v = some s) :
    v = some (.str s) ∧ pyStrip s ≠ "" := by
  unfold filledText at h
  split at h
  · next s' =>
    split at h
    · cases h
    · next hfilled =>
      obtain rfl := Option.some.inj h
      exact ⟨rfl, hfilled⟩
  · cases h

theorem filledText_str {s : String} (h : pyStrip s ≠ "") : filledText (some (.str s)) = some s :=
  if_neg h

theorem Role.value_ne (role : Role) : pyStrip role.value ≠ "" := by
  cases role <;> decide

/-- What the validator accepts, the request reads: the user that the value names. -/
theorem loadBearerToken_of_valid {entry : String × PyVal}
    (h : validateTokenEntry lib entry = .ok ()) :
    ∃ actor role, loadBearerToken lib entry = .ok (entry.1, ⟨actor, role.value⟩) ∧
      NamesUser lib entry.2 actor role := by
  unfold validateTokenEntry at h
  split at h
  · cases h
  · next hkey =>
    unfold loadBearerToken
    rw [if_neg hkey]
    split at h
    · next payload hpayload =>
      rw [hpayload]
      split at h
      · cases h
      · next actor text hactor hrole =>
        split at h
        · next hallowed =>
          -- the role, in lower case, is one of the four: there is nothing in it to strip
          obtain ⟨role, -, hlower⟩ := hallowed
          obtain ⟨hname, hfilled⟩ := filledText_eq_some hactor
          have hstrip := pyStrip_of_role hlower
          have hfilledRole : pyStrip text ≠ "" := by
            intro hblank
            rw [hstrip] at hblank
            rw [hblank] at hlower
            exact role.value_ne (by rw [← hlower]; rfl)
          rw [hactor, hrole, filledText_str hfilledRole]
          refine ⟨pyStrip actor, role, ?_, payload, actor, text, rfl, hname, rfl, hrole, hlower⟩
          dsimp only
          rw [hstrip, hlower]
        · cases h
      · cases h
    · cases h

/-- A value names one user. -/
theorem NamesUser.unique {value : PyVal} {actor actor' : String} {role role' : Role}
    (h : NamesUser lib value actor role) (h' : NamesUser lib value actor' role') :
    actor = actor' ∧ role = role' := by
  obtain ⟨payload, name, text, hvalue, hname, hactor, htext, hrole⟩ := h
  obtain ⟨payload', name', text', hvalue', hname', hactor', htext', hrole'⟩ := h'
  obtain rfl : payload = payload' := PyVal.dict.inj (hvalue.symm.trans hvalue')
  obtain rfl : name = name' := PyVal.str.inj (Option.some.inj (hname.symm.trans hname'))
  obtain rfl : text = text' := PyVal.str.inj (Option.some.inj (htext.symm.trans htext'))
  exact ⟨hactor.symm.trans hactor', Role.value_inj (hrole.symm.trans hrole')⟩

theorem ConfiguredToken.unique {settings : AccessSettings} {token actor actor' : String}
    {role role' : Role} (h : ConfiguredToken lib settings token actor role)
    (h' : ConfiguredToken lib settings token actor' role') : actor = actor' ∧ role = role' := by
  obtain ⟨raw, items, value, hraw, hloads, hvalue, hnames⟩ := h
  obtain ⟨raw', items', value', hraw', hloads', hvalue', hnames'⟩ := h'
  obtain rfl := Option.some.inj (hraw.symm.trans hraw')
  obtain rfl := PyVal.dict.inj (Except.ok.inj (hloads.symm.trans hloads'))
  obtain rfl := Option.some.inj (hvalue.symm.trans hvalue')
  exact hnames.unique hnames'

/-- With authentication, validated settings hold a token map whose entries are all valid. -/
theorem ValidSettings.tokens (valid : ValidSettings lib)
    (hauth : valid.settings.requireAuthentication = true) :
    ∃ raw items, valid.settings.authBearerTokensJson = some raw ∧ pyStrip raw ≠ "" ∧
      lib.loads raw = .ok (.dict items) ∧
        ∀ entry ∈ items, validateTokenEntry lib entry = .ok () := by
  obtain ⟨raw, h⟩ := valid.valid
  obtain ⟨apiPrefix, -, h⟩ := Failing.bind_ok.mp h
  obtain ⟨tokens, htokens, h⟩ := Failing.bind_ok.mp h
  obtain ⟨tenant, -, h⟩ := Failing.bind_ok.mp h
  obtain ⟨⟨⟩, haccess, h⟩ := Failing.bind_ok.mp h
  have hsettings := Except.ok.inj h
  rw [← hsettings] at hauth ⊢
  -- without a token map the last check fails
  have hpresent : ¬ tokens.getD "" = "" := by
    intro hnone
    unfold validateAccess at haccess
    split_ifs at haccess with h₁ h₂ h₃
    exact h₃ ⟨hauth, hnone⟩
  cases hjson : raw.authBearerTokensJson with
  | none =>
    rw [hjson] at htokens
    obtain rfl := Except.ok.inj htokens
    exact absurd rfl hpresent
  | some value =>
    rw [hjson] at htokens
    unfold validateAuthBearerTokensJson at htokens
    dsimp only at htokens
    by_cases hblank : pyStrip value = ""
    · rw [if_pos hblank] at htokens
      obtain rfl := Except.ok.inj htokens
      exact absurd rfl hpresent
    · rw [if_neg hblank] at htokens
      obtain ⟨parsed, hparsed, htokens⟩ := Failing.bind_ok.mp htokens
      cases parsed with
      | dict items =>
        obtain ⟨⟨⟩, hitems, htokens⟩ := Failing.bind_ok.mp htokens
        obtain rfl := Except.ok.inj htokens
        exact ⟨value, items, rfl, hblank, hparsed, Failing.forM_ok hitems⟩
      | none | bool _ | int _ | float _ | str _ | list _ | tuple _ | object _ | function _
      | view _ _ => cases htokens

/-- The token map is read without an error: for each entry the user it names. -/
theorem loadBearerTokens_of_valid (valid : ValidSettings lib)
    (hauth : valid.settings.requireAuthentication = true) :
    ∃ raw items tokens, valid.settings.authBearerTokensJson = some raw ∧
      lib.loads raw = .ok (.dict items) ∧ loadBearerTokens lib valid.settings = .ok tokens ∧
        List.Forall₂ (fun entry token => token.1 = entry.1 ∧
          ∃ role, NamesUser lib entry.2 token.2.actor role ∧ token.2.role = role.value)
          items tokens := by
  obtain ⟨raw, items, hraw, hfilled, hloads, hentries⟩ := valid.tokens hauth
  have hmap : loadBearerTokens lib valid.settings = items.mapM (loadBearerToken lib) := by
    unfold loadBearerTokens
    rw [hraw]
    dsimp only
    rw [if_neg hfilled, hloads]
    rfl
  have hreturns : ∃ tokens, items.mapM (loadBearerToken lib) = .ok tokens := by
    rw [Failing.mapM_returns_iff]
    intro entry hentry
    obtain ⟨actor, role, hload, -⟩ := loadBearerToken_of_valid (hentries entry hentry)
    exact ⟨_, hload⟩
  obtain ⟨tokens, htokens⟩ := hreturns
  refine ⟨raw, items, tokens, hraw, hloads, hmap.trans htokens, ?_⟩
  -- Each entry was validated and each was loaded, so the two lists are compared entry by entry.
  have hboth := (List.forall₂_and_left _ _).mpr ⟨hentries, Failing.mapM_forall₂ htokens⟩
  refine hboth.imp fun entry token h => ?_
  obtain ⟨actor, role, hload, hnames⟩ := loadBearerToken_of_valid h.1
  obtain rfl := Except.ok.inj (hload.symm.trans h.2)
  exact ⟨rfl, role, hnames, rfl⟩

/-! ### Who a token is -/

/-- What the middleware learns of the caller. -/
theorem resolve_cases (valid : ValidSettings lib)
    (hauth : valid.settings.requireAuthentication = true) (request : GateRequest) :
    (∃ token actor role, bearerToken lib request = some token ∧
        ConfiguredToken lib valid.settings token actor role ∧
          resolveAuthContext lib valid.settings (headerCredentials request.authorization) =
            .ok ⟨actor, role.value⟩) ∨
      (∀ token actor role, bearerToken lib request = some token →
        ¬ ConfiguredToken lib valid.settings token actor role) ∧
      ∃ status detail,
        resolveAuthContext lib valid.settings (headerCredentials request.authorization) =
          .error (.httpException status detail) ∧
        (status = 401 ∨ status = 503 ∧ NoTokens lib valid.settings) := by
  have hasked : ¬ valid.settings.requireAuthentication = false := by
    rw [hauth]
    decide
  unfold bearerToken resolveAuthContext
  rw [if_neg hasked]
  cases headerCredentials request.authorization with
  | none => exact Or.inr ⟨nofun, 401, _, rfl, Or.inl rfl⟩
  | some credentials =>
    obtain ⟨scheme, token⟩ := credentials
    dsimp only
    by_cases hscheme : lib.lowerCase.lower scheme = "bearer"
    · rw [if_pos hscheme, if_neg (not_not.mpr hscheme)]
      obtain ⟨raw, items, tokens, hraw, hloads, htokens, hrelated⟩ :=
        loadBearerTokens_of_valid valid hauth
      rw [Failing.bind_of_ok htokens]
      -- what the text has under the token, and the map
      have hfound : ((items.find? fun entry => entry.1 == token) = none ∧
            (tokens.find? fun entry => entry.1 == token) = none) ∨
          ∃ entry user, (items.find? fun entry => entry.1 == token) = some entry ∧
            (tokens.find? fun entry => entry.1 == token) = some user ∧ user.1 = entry.1 ∧
              ∃ role, NamesUser lib entry.2 user.2.actor role ∧ user.2.role = role.value :=
        Keyed.find?_related (fun _ _ h => h.1) hrelated token
      have hconfigured : ∀ {actor role}, ConfiguredToken lib valid.settings token actor role →
          ∃ entry, (items.find? fun entry => entry.1 == token) = some entry := by
        rintro actor role ⟨raw', items', value, hraw', hloads', hvalue, -⟩
        obtain rfl := Option.some.inj (hraw.symm.trans hraw')
        obtain rfl := PyVal.dict.inj (Except.ok.inj (hloads.symm.trans hloads'))
        obtain ⟨entry, hentry, -⟩ := Option.map_eq_some_iff.mp hvalue
        exact ⟨entry, hentry⟩
      rcases hfound with ⟨hnone, hnone'⟩ | ⟨entry, user, hentry, huser, -, role, hnames, hrole⟩
      · have hunknown : ∀ token' actor role, some token = some token' →
            ¬ ConfiguredToken lib valid.settings token' actor role := by
          intro token' actor role htoken h
          obtain rfl := Option.some.inj htoken
          obtain ⟨entry, hentry⟩ := hconfigured h
          cases hnone.symm.trans hentry
        refine Or.inr ⟨hunknown, ?_⟩
        rw [hnone']
        cases tokens with
        | nil =>
          obtain rfl := List.forall₂_nil_right_iff.mp hrelated
          exact ⟨503, _, rfl, Or.inr ⟨rfl, raw, hraw, hloads⟩⟩
        | cons user rest => exact ⟨401, _, rfl, Or.inl rfl⟩
      · refine Or.inl ⟨token, user.2.actor, role, rfl, ⟨raw, items, entry.2, hraw, hloads, ?_,
          hnames⟩, ?_⟩
        · unfold PyVal.dictGet
          rw [hentry, Option.map_some]
        · rw [huser, ← hrole]
          cases tokens with
          | nil => cases huser
          | cons first rest => rfl
    · rw [if_neg hscheme, if_pos hscheme]
      exact Or.inr ⟨nofun, 401, _, rfl, Or.inl rfl⟩

/-! ### The checks of a request -/

/-- A request without a valid tenant is a bad one. -/
theorem currentTenantId_error {settings : AccessSettings} {xTenantId : Option String}
    {err : PyErr} (h : currentTenantIdDependency settings xTenantId = .error err) :
    ∃ detail, err = .httpException 400 detail := by
  unfold currentTenantIdDependency at h
  split at h
  · cases h
  · split at h
    · obtain rfl := Except.error.inj h
      exact ⟨_, rfl⟩
    · next value =>
      unfold normalizeTenantId at h
      dsimp only at h
      by_cases hblank : pyStrip value = ""
      · rw [if_pos hblank] at h
        obtain rfl := Except.error.inj h
        exact ⟨_, rfl⟩
      · rw [if_neg hblank] at h
        by_cases hid : isTenantId (pyStrip value).toList = true
        · rw [if_pos hid] at h
          cases h
        · rw [if_neg hid] at h
          obtain rfl := Except.error.inj h
          exact ⟨_, rfl⟩

theorem checkTenant_cases (settings : AccessSettings) (db : Database) (request : GateRequest) :
    (checkTenant settings db request = .ok none ∧ TenantMayAct settings db request) ∨
      ∃ status detail, checkTenant settings db request = .ok (some (.refused status detail)) ∧
        (status = 400 ∨ status = 403) ∧ ¬ TenantMayAct settings db request := by
  unfold checkTenant TenantMayAct
  by_cases hadmin : isAdminRoute settings request.path = true
  · rw [if_pos hadmin]
    exact Or.inl ⟨rfl, Or.inl hadmin⟩
  rw [if_neg hadmin, or_iff_right hadmin]
  cases htenant : currentTenantIdDependency settings request.xTenantId with
  | error err =>
    obtain ⟨detail, rfl⟩ := currentTenantId_error htenant
    refine Or.inr ⟨400, detail, rfl, Or.inl rfl, ?_⟩
    rintro ⟨tenant, hok, -⟩
    cases hok
  | ok tenant =>
    dsimp only
    by_cases hsuspended : isTenantSuspended db tenant = true
    · rw [if_pos hsuspended]
      refine Or.inr ⟨403, _, rfl, Or.inr rfl, ?_⟩
      rintro ⟨tenant', hok, hnot⟩
      obtain rfl := Except.ok.inj hok
      exact Bool.false_ne_true (hnot.symm.trans hsuspended)
    · rw [if_neg hsuspended]
      exact Or.inl ⟨rfl, tenant, rfl, Bool.eq_false_iff.mpr hsuspended⟩

theorem checkRole_cases (settings : AccessSettings) (request : GateRequest) (actor : String)
    (role : Role) :
    (checkRole settings request ⟨actor, role.value⟩ = .ok none ∧
        RoleMayAct settings request role) ∨
      ∃ detail, checkRole settings request ⟨actor, role.value⟩ = .ok (some (.refused 403 detail)) ∧
        ¬ RoleMayAct settings request role := by
  unfold checkRole RoleMayAct
  cases resolveApiPermission request.method request.path settings.apiPrefix with
  | none => exact Or.inl ⟨rfl, nofun⟩
  | some permission =>
    dsimp only
    rw [Failing.bind_of_ok (roleOf_value role)]
    by_cases hallowed : permission ∈ rolePermissions role
    · rw [if_pos hallowed]
      refine Or.inl ⟨rfl, fun permission' h => ?_⟩
      obtain rfl := Option.some.inj h
      exact hallowed
    · rw [if_neg hallowed]
      exact Or.inr ⟨_, rfl, fun h => hallowed (h permission rfl)⟩

/-! ### The gate -/

/-- A request passes as one user. -/
theorem Entitled.unique {settings : AccessSettings} {db : Database} {request : GateRequest}
    {auth auth' : AuthContext} (h : Entitled lib settings db request auth)
    (h' : Entitled lib settings db request auth') : auth = auth' := by
  rcases h with ⟨hopen, rfl⟩ | ⟨hasked, token, role, htoken, hconfigured, hrole, -⟩
  · rcases h' with ⟨-, rfl⟩ | ⟨hasked, -⟩
    · rfl
    · exact absurd hopen hasked
  · rcases h' with ⟨hopen, -⟩ | ⟨-, token', role', htoken', hconfigured', hrole', -⟩
    · exact absurd hopen hasked
    · obtain rfl := Option.some.inj (htoken.symm.trans htoken')
      obtain ⟨hactor, rfl⟩ := hconfigured.unique hconfigured'
      obtain ⟨actor, text⟩ := auth
      obtain ⟨actor', text'⟩ := auth'
      rw [AuthContext.mk.injEq]
      exact ⟨hactor, hrole.trans hrole'.symm⟩

/-- The gate lets an entitled request pass, or answers another one. -/
theorem gate_cases (valid : ValidSettings lib) (db : Database) (request : GateRequest) :
    (∃ auth, authenticationAndRbacMiddleware lib valid.settings db request = .ok (.passed auth) ∧
        Entitled lib valid.settings db request auth) ∨
      ∃ status detail, authenticationAndRbacMiddleware lib valid.settings db request =
          .ok (.refused status detail) ∧
        (status ∈ [400, 401, 403] ∨ status = 503 ∧ NoTokens lib valid.settings) ∧
        ∀ auth, ¬ Entitled lib valid.settings db request auth := by
  unfold authenticationAndRbacMiddleware
  by_cases hpublic : isPublicPath valid.settings request.path = true
  · rw [if_pos hpublic]
    exact Or.inl ⟨localUser, rfl, Or.inl ⟨Or.inl hpublic, rfl⟩⟩
  rw [if_neg hpublic]
  by_cases hauth : valid.settings.requireAuthentication = false
  · rw [if_pos hauth]
    exact Or.inl ⟨localUser, rfl, Or.inl ⟨Or.inr hauth, rfl⟩⟩
  rw [if_neg hauth]
  have hasked : ¬ IsOpen valid.settings request.path := not_or.mpr ⟨hpublic, hauth⟩
  rw [Bool.not_eq_false] at hauth
  rcases resolve_cases valid hauth request with
    ⟨token, actor, role, htoken, hconfigured, hresolve⟩ |
    ⟨hunknown, status, detail, hresolve, hstatus⟩
  · -- the only user the request can pass as
    have honly : ∀ auth, Entitled lib valid.settings db request auth →
        RoleMayAct valid.settings request role ∧ TenantMayAct valid.settings db request := by
      rintro auth (⟨hopen, -⟩ | ⟨-, token', role', htoken', hconfigured', -, hact⟩)
      · exact absurd hopen hasked
      · obtain rfl := Option.some.inj (htoken.symm.trans htoken')
        obtain ⟨-, rfl⟩ := hconfigured.unique hconfigured'
        exact hact
    rw [hresolve]
    dsimp only
    rcases checkRole_cases valid.settings request actor role with
      ⟨hcheck, hrole⟩ | ⟨detail, hcheck, hrole⟩
    · rw [Failing.bind_of_ok hcheck]
      rcases checkTenant_cases valid.settings db request with
        ⟨hcheck, htenant⟩ | ⟨status, detail, hcheck, hstatus, htenant⟩
      · dsimp only
        rw [Failing.bind_of_ok hcheck]
        exact Or.inl ⟨_, rfl,
          Or.inr ⟨hasked, token, role, htoken, hconfigured, rfl, hrole, htenant⟩⟩
      · dsimp only
        rw [Failing.bind_of_ok hcheck]
        refine Or.inr ⟨status, detail, rfl, Or.inl ?_, fun auth h => htenant (honly auth h).2⟩
        rcases hstatus with rfl | rfl <;> decide
    · rw [Failing.bind_of_ok hcheck]
      exact Or.inr ⟨403, detail, rfl, Or.inl (by decide), fun auth h => hrole (honly auth h).1⟩
  · rw [hresolve]
    refine Or.inr ⟨status, detail, rfl, ?_, ?_⟩
    · rcases hstatus with rfl | hstatus
      · exact Or.inl (by decide)
      · exact Or.inr hstatus
    · rintro auth (⟨hopen, -⟩ | ⟨-, token, role, htoken, hconfigured, -⟩)
      · exact hasked hopen
      · exact hunknown token _ role htoken hconfigured

end Gate

/-! ### Routes without a tenant -/

/-- The word a route begins with. -/
def Route.firstWord (r : Route) : Option String :=
  match r.segments with
  | .lit text _ :: _ => some text
  | _ => none

section Bypass

variable {r : Route} {settings : AccessSettings} {params : ℕ → PathParam}

/-- Every route begins with a word; one that begins with `health` is no longer, and one that
begins with `admin` is. -/
theorem firstWord_spec : ∀ r ∈ apiRoutes, ∃ word, r.firstWord = some word ∧
    word ≠ "healthz" ∧ word ≠ "readyz" ∧ (word = "health" → r.segments.length = 1) ∧
      (word = "admin" → 1 < r.segments.length) := by
  have hall : ∀ r ∈ apiRoutes, r.firstWord ≠ none ∧ r.firstWord ≠ some "healthz" ∧
      r.firstWord ≠ some "readyz" ∧ (r.firstWord = some "health" → r.segments.length = 1) ∧
        (r.firstWord = some "admin" → 1 < r.segments.length) := by
    unfold apiRoutes
    decide
  intro r hr
  obtain ⟨hnone, hhealthz, hreadyz, hhealth, hadmin⟩ := hall r hr
  obtain ⟨word, hword⟩ := Option.ne_none_iff_exists'.mp hnone
  rw [hword] at hhealthz hreadyz hhealth hadmin
  exact ⟨word, hword, fun h => hhealthz (h ▸ rfl), fun h => hreadyz (h ▸ rfl),
    fun h => hhealth (h ▸ rfl), fun h => hadmin (h ▸ rfl)⟩

theorem length_fillSegments : ∀ (segs : List Segment) (params : ℕ → PathParam),
    (fillSegments segs params).length = segs.length := by
  intro segs
  induction segs with
  | nil => exact fun _ => rfl
  | cons seg segs ih =>
    intro params
    show (fillSegments segs _).length + 1 = segs.length + 1
    rw [ih]

/-- The first segment of a path, when the route has a word there. -/
theorem fillSegments_of_firstWord {word : String} (h : r.firstWord = some word)
    (params : ℕ → PathParam) :
    ∃ rest, fillSegments r.segments params = word.toList :: rest := by
  unfold Route.firstWord at h
  split at h
  · next text noSlash rest hsegs =>
    obtain rfl := Option.some.inj h
    rw [hsegs]
    exact ⟨_, rfl⟩
  · cases h

/-- A path of one segment is not longer for a prefix. -/
theorem eq_single_iff {stem w : List Char} {segs : List (List Char)} (hne : segs ≠ [])
    (hsegs : ∀ s ∈ segs, Free '/' s) (hw : Free '/' w) :
    stem ++ join '/' segs = '/' :: w ↔ stem = [] ∧ segs = [w] := by
  have hjoin : join '/' [w] = '/' :: w := by
    rw [join_cons, join_nil, List.append_nil]
  constructor
  · intro h
    cases stem with
    | nil =>
      rw [List.nil_append, ← hjoin, join_inj hsegs fun s hs => by
        obtain rfl := List.mem_singleton.mp hs
        exact hw] at h
      exact ⟨rfl, h⟩
    | cons c cs =>
      -- the separator behind the prefix would be in the segment
      obtain ⟨s, ss, rfl⟩ := List.exists_cons_of_ne_nil hne
      obtain ⟨-, htail⟩ := List.cons.inj h
      refine absurd ?_ hw
      rw [← htail, join_cons]
      exact List.mem_append_right _ List.mem_cons_self
  · rintro ⟨rfl, rfl⟩
    exact hjoin

theorem rstripSlash_of_noTrailing (stem : ApiPrefix) :
    rstripSlash stem.text = stem.text.toList := by
  unfold rstripSlash
  rw [List.rdropWhile_eq_self_iff]
  intro hne
  have hlast := stem.noTrailing
  rw [List.getLast?_eq_some_getLast hne] at hlast
  simpa using hlast

/-- **Which routes are not asked for a tenant**, whatever their parameters: the check of the
service and the console of the operator. -/
theorem route_bypass_iff (hr : r ∈ apiRoutes) (stem : ApiPrefix)
    (hstem : settings.apiPrefix = stem.text) (params : ℕ → PathParam) :
    (isPublicPath settings (stem.text ++ r.path params) = true ∨
        isAdminRoute settings (stem.text ++ r.path params) = true) ↔
      r.firstWord = some "health" ∨ r.firstWord = some "admin" := by
  obtain ⟨word, hword, hhealthz, hreadyz, hhealth, hadmin⟩ := firstWord_spec r hr
  obtain ⟨rest, hfill⟩ := fillSegments_of_firstWord hword params
  have hfree := free_fillSegments r.segments params
  have hlength := length_fillSegments r.segments params
  have hstrip : rstripSlash settings.apiPrefix = stem.text.toList := by
    rw [hstem]
    exact rstripSlash_of_noTrailing stem
  have hpath : (stem.text ++ r.path params).toList =
      stem.text.toList ++ join '/' (fillSegments r.segments params) := by
    rw [String.toList_append, Route.path, String.toList_ofList]
  have hne : fillSegments r.segments params ≠ [] := by
    rw [hfill]
    exact List.cons_ne_nil _ _
  -- a path of one segment is that of a route with one word
  have hsingle : ∀ w : String, '/' ∉ w.toList →
      (stem.text ++ r.path params).toList = '/' :: w.toList → word = w := by
    intro w hw h
    rw [hpath] at h
    obtain ⟨-, h⟩ := (eq_single_iff hne hfree hw).mp h
    rw [hfill] at h
    exact String.toList_inj.mp (List.cons.inj h).1
  have hadminPath : isAdminRoute settings (stem.text ++ r.path params) = true ↔
      word = "admin" := by
    unfold isAdminRoute
    rw [List.isPrefixOf_iff_prefix, hstrip, hpath, List.prefix_append_right_inj,
      prefix_pattern_iff "/admin/" ["admin"] hfree (by decide) (by decide), hlength, hfill]
    show ["admin".toList] <+: _ ∧ 1 < _ ↔ _
    rw [List.cons_prefix_cons, String.toList_inj]
    exact ⟨fun h => h.1.1.symm, fun h => ⟨⟨h.symm, List.nil_prefix⟩, hadmin h⟩⟩
  rw [hadminPath, hword, Option.some.injEq, Option.some.injEq]
  refine or_congr_left ?_
  unfold isPublicPath
  rw [Bool.or_eq_true, decide_eq_true_eq, beq_iff_eq, hstrip]
  constructor
  · rintro (h | h)
    · rcases List.mem_cons.mp h with h | h
      · exact hsingle "health" (by decide) (congrArg String.toList h)
      · rcases List.mem_cons.mp h with h | h
        · exact absurd (hsingle "healthz" (by decide) (congrArg String.toList h)) hhealthz
        · exact absurd (hsingle "readyz" (by decide)
            (congrArg String.toList (List.mem_singleton.mp h))) hreadyz
    · rw [hpath, List.append_cancel_left_eq] at h
      have h' : [] ++ join '/' (fillSegments r.segments params) = '/' :: "health".toList := h
      rw [eq_single_iff hne hfree (by decide), hfill] at h'
      exact String.toList_inj.mp (List.cons.inj h'.2).1
  · rintro rfl
    have hone : rest = [] := by
      rw [hfill, List.length_cons, hhealth rfl] at hlength
      exact List.length_eq_zero_iff.mp (by omega)
    refine Or.inr ?_
    rw [hpath, hfill, hone]
    rfl

end Bypass

/-- A profile that is called `admin` is no console. -/
example :
    ¬ (isPublicPath {} ("/api" ++ activateRoute.path (allParams "admin")) = true ∨
      isAdminRoute {} ("/api" ++ activateRoute.path (allParams "admin")) = true) := by
  intro h
  have hword := (route_bypass_iff activateRoute_mem defaultApiPrefix rfl (allParams "admin")).mp h
  revert hword
  decide

end ExtractFlow
