import Mathlib.Data.List.DropRight
import ExtractFlow.Lib.Segments

/-!
# The permission of a request

`resolve_api_permission` (`backend/app/core/route_permissions.py`) decides from
the method and the path of a request which permission its caller needs: a cascade
of tests on the text of the path.  The routes themselves are declared elsewhere,
in `backend/app/api/routes.py`, and the cascade is not told which one matched.

Two tests look anywhere in the path: a `POST` is a review when the path contains
`/review`, and an export when it contains `/exports/`.  A path parameter can
contain either.

## Main definitions

* `resolveApiPermission` — the cascade.
* `Route`, `Route.path`, `apiRoutes` — the routes and their instantiations.
* `segmentPermission` — the cascade on the segments of a path.
* `Route.diversion` — the permission that the parameters' texts force.

## Main results

* `resolveApiPermission_path` — the cascade on a path is the one on its segments.
* `route_permission_iff` — two requests of a route need the same permission if and only
  if their parameters divert it to the same one; no change of state is left to readers.
-/

namespace ExtractFlow

open Segments

/-- What a role can be allowed to do; every route needs one of these or none. -/
inductive Permission where
  | read | runJobs | review | «export» | writeSchema | manageSettings | devStatus
  deriving DecidableEq, Repr, Inhabited

/-- The method of a request: those the routes have, and any other, such as `HEAD`. -/
inductive HttpMethod where
  | get | post | put | delete
  | other (name : String)
  deriving DecidableEq, Repr, Inhabited

/-! ### The cascade -/

/-- The tests on the path below the API's prefix. -/
def relativePermission (method : HttpMethod) (relative : List Char) : Option Permission :=
  if relative = "/health".toList then none
  else if relative = "/dev/status".toList then some .devStatus
  else if "/admin/".toList <+: relative then some .manageSettings
  else if method = .get ∧ "/download".toList <:+ relative ∧ "/exports/".toList <+: relative then
    some .«export»
  else if method = .post ∧ "/review".toList <:+: relative then some .review
  else if method = .post ∧ "/exports/".toList <:+: relative then some .«export»
  else if method = .put ∧ "/settings/".toList <+: relative then some .manageSettings
  else if method = .post ∧ "/settings/providers/".toList <+: relative then some .manageSettings
  else if method = .delete ∧ "/settings/providers/custom/".toList <+: relative then
    some .manageSettings
  else if method = .post ∧ relative = "/documents".toList then some .runJobs
  else if method = .post ∧ relative = "/jobs".toList then some .runJobs
  else if method = .post ∧ ("/retry".toList <:+ relative ∨ "/cancel".toList <:+ relative) then
    some .runJobs
  else if method = .post ∧ "/templates".toList <+: relative ∧
      relative ∉ ["/templates/dry-run".toList, "/templates/version-diff".toList] then
    some .writeSchema
  else if method = .put ∧ "/template-versions/".toList <+: relative ∧
      "/dismissal".toList <:+: relative then
    some .manageSettings
  else some .read

/-- `s.rstrip("/")`. -/
def rstripSlash (s : String) : List Char := s.toList.rdropWhile (· == '/')

/-- `resolve_api_permission`: a path below the prefix is tested without it, and any other path needs
no permission. -/
def resolveApiPermission (method : HttpMethod) (path apiPrefix : String) : Option Permission :=
  let stem := rstripSlash apiPrefix
  if stem <+: path.toList then
    let rest := path.toList.drop stem.length
    relativePermission method (if rest.isEmpty then ['/'] else rest)
  else none

/-! ### Routes -/

/-- A configured `api_prefix`: the validator of the settings strips the slashes at
its end. -/
structure ApiPrefix where
  text : String
  noTrailing : text.toList.getLast? ≠ some '/'

/-- The text of a path parameter: not empty, and without a slash. -/
structure PathParam where
  text : String
  nonempty : text ≠ ""
  noSlash : Free '/' text.toList

/-- A segment of a path template: a literal text without slashes, or a parameter, which the caller
fills in. -/
inductive Segment where
  | lit (text : String) (noSlash : Free '/' text.toList := by decide)
  | param

/-- The text of a segment, as the parameter there is `param`. -/
def Segment.fill (param : PathParam) : Segment → List Char
  | .lit text _ => text.toList
  | .param => param.text.toList

/-- The texts of a template's segments, with the parameter at each position. -/
def fillSegments : List Segment → (ℕ → PathParam) → List (List Char)
  | [], _ => []
  | seg :: segs, params => seg.fill (params 0) :: fillSegments segs fun i => params (i + 1)

/-- A route: its method and its path template, as the decorator of its handler declares them. -/
structure Route where
  method : HttpMethod
  segments : List Segment

/-- The path of a request to a route, below the API's prefix. -/
def Route.path (r : Route) (params : ℕ → PathParam) : String :=
  String.ofList (join '/' (fillSegments r.segments params))

/-- The routes of `backend/app/api/routes.py`, in the order in which they are declared. -/
def apiRoutes : List Route :=
  [⟨.get, [.lit "health"]⟩,
   ⟨.get, [.lit "dev", .lit "status"]⟩,
   ⟨.get, [.lit "ops", .lit "metrics"]⟩,
   ⟨.get, [.lit "admin", .lit "tenants", .lit "usage"]⟩,
   ⟨.put, [.lit "admin", .lit "tenants", .param, .lit "status"]⟩,
   ⟨.get, [.lit "templates"]⟩,
   ⟨.post, [.lit "templates"]⟩,
   ⟨.post, [.lit "templates", .param, .lit "versions"]⟩,
   ⟨.get, [.lit "templates", .param, .lit "versions"]⟩,
   ⟨.post, [.lit "templates", .lit "dry-run"]⟩,
   ⟨.post, [.lit "templates", .lit "version-diff"]⟩,
   ⟨.get, [.lit "template-versions", .param, .lit "langextract-feedback-suggestions"]⟩,
   ⟨.put, [.lit "template-versions", .param, .lit "langextract-feedback-suggestions", .param,
     .lit "dismissal"]⟩,
   ⟨.post, [.lit "documents"]⟩,
   ⟨.get, [.lit "documents"]⟩,
   ⟨.get, [.lit "documents", .param, .lit "parsed-text"]⟩,
   ⟨.post, [.lit "jobs"]⟩,
   ⟨.get, [.lit "jobs"]⟩,
   ⟨.post, [.lit "jobs", .param, .lit "retry"]⟩,
   ⟨.post, [.lit "jobs", .param, .lit "cancel"]⟩,
   ⟨.get, [.lit "jobs", .param, .lit "result"]⟩,
   ⟨.post, [.lit "results", .param, .lit "review"]⟩,
   ⟨.post, [.lit "results", .param, .lit "exports", .param]⟩,
   ⟨.get, [.lit "exports", .param, .lit "download"]⟩,
   ⟨.get, [.lit "exports"]⟩,
   ⟨.get, [.lit "audit", .lit "events"]⟩,
   ⟨.get, [.lit "settings", .lit "export-policy"]⟩,
   ⟨.put, [.lit "settings", .lit "export-policy"]⟩,
   ⟨.get, [.lit "settings", .lit "provider"]⟩,
   ⟨.get, [.lit "settings", .lit "providers"]⟩,
   ⟨.get, [.lit "settings", .lit "providers", .lit "health"]⟩,
   ⟨.get, [.lit "settings", .lit "providers", .lit "controls"]⟩,
   ⟨.get, [.lit "settings", .lit "parser-status"]⟩,
   ⟨.post, [.lit "settings", .lit "providers", .lit "probe"]⟩,
   ⟨.get, [.lit "settings", .lit "providers", .lit "custom"]⟩,
   ⟨.post, [.lit "settings", .lit "providers", .lit "custom"]⟩,
   ⟨.put, [.lit "settings", .lit "providers", .lit "custom", .param]⟩,
   ⟨.delete, [.lit "settings", .lit "providers", .lit "custom", .param]⟩,
   ⟨.post, [.lit "settings", .lit "providers", .lit "custom", .param, .lit "reverify"]⟩,
   ⟨.post, [.lit "settings", .lit "providers", .lit "custom", .param, .lit "activate"]⟩,
   ⟨.put, [.lit "settings", .lit "provider"]⟩]

/-! ### The cascade on segments -/

/-- The letters of the words. -/
def texts (words : List String) : List (List Char) := words.map String.toList

/-- The tests of `relativePermission`, put as tests on the segments of the path. This form shows
which segment each test is about. -/
def segmentPermission (method : HttpMethod) (segs : List (List Char)) : Option Permission :=
  if segs = texts ["health"] then none
  else if segs = texts ["dev", "status"] then some .devStatus
  else if texts ["admin"] <+: segs ∧ 1 < segs.length then some .manageSettings
  else if method = .get ∧ segs.getLast? = some "download".toList ∧
      texts ["exports"] <+: segs ∧ 1 < segs.length then
    some .«export»
  else if method = .post ∧ ∃ s ∈ segs, "review".toList <+: s then some .review
  else if method = .post ∧ "exports".toList ∈ segs.dropLast then some .«export»
  else if method = .put ∧ texts ["settings"] <+: segs ∧ 1 < segs.length then some .manageSettings
  else if method = .post ∧ texts ["settings", "providers"] <+: segs ∧ 2 < segs.length then
    some .manageSettings
  else if method = .delete ∧ texts ["settings", "providers", "custom"] <+: segs ∧
      3 < segs.length then
    some .manageSettings
  else if method = .post ∧ segs = texts ["documents"] then some .runJobs
  else if method = .post ∧ segs = texts ["jobs"] then some .runJobs
  else if method = .post ∧
      (segs.getLast? = some "retry".toList ∨ segs.getLast? = some "cancel".toList) then
    some .runJobs
  else if method = .post ∧ (∃ s ∈ segs.head?, "templates".toList <+: s) ∧
      segs ∉ [texts ["templates", "dry-run"], texts ["templates", "version-diff"]] then
    some .writeSchema
  else if method = .put ∧ (texts ["template-versions"] <+: segs ∧ 1 < segs.length) ∧
      ∃ s ∈ segs, "dismissal".toList <+: s then
    some .manageSettings
  else some .read

section Patterns

variable {segs : List (List Char)} (pattern : String) (words : List String) (w : String)

/-- A path written out is a list of segments. -/
theorem eq_pattern_iff (hsegs : ∀ s ∈ segs, Free '/' s)
    (hwords : ∀ s ∈ texts words, '/' ∉ s) (h : pattern.toList = join '/' (texts words)) :
    join '/' segs = pattern.toList ↔ segs = texts words := by
  rw [h]
  exact join_inj hsegs hwords

/-- A prefix that ends with a slash is a beginning of the list of segments. -/
theorem prefix_pattern_iff (hsegs : ∀ s ∈ segs, Free '/' s)
    (hwords : ∀ s ∈ texts words, '/' ∉ s) (h : pattern.toList = join '/' (texts words) ++ ['/']) :
    pattern.toList <+: join '/' segs ↔ texts words <+: segs ∧ words.length < segs.length := by
  rw [h, prefix_closed_iff hwords hsegs]
  simp only [texts, List.length_map]

/-- A suffix is the last segment. -/
theorem suffix_pattern_iff (hsegs : ∀ s ∈ segs, Free '/' s) (hw : '/' ∉ w.toList)
    (h : pattern.toList = '/' :: w.toList) :
    pattern.toList <:+ join '/' segs ↔ segs.getLast? = some w.toList := by
  rw [h]
  exact suffix_join_iff hw hsegs

/-- An inner part is the beginning of a segment. -/
theorem infix_pattern_iff (hsegs : ∀ s ∈ segs, Free '/' s) (hw : '/' ∉ w.toList)
    (h : pattern.toList = '/' :: w.toList) :
    pattern.toList <:+: join '/' segs ↔ ∃ s ∈ segs, w.toList <+: s := by
  rw [h]
  exact infix_join_iff hw hsegs

end Patterns

/-- **The tests on a path are the tests on its segments.** -/
theorem relativePermission_join {method : HttpMethod} {segs : List (List Char)}
    (hsegs : ∀ s ∈ segs, Free '/' s) :
    relativePermission method (join '/' segs) = segmentPermission method segs := by
  -- the three tests that are not of one of the patterns below
  have hexports : "/exports/".toList <:+: join '/' segs ↔ "exports".toList ∈ segs.dropLast := by
    have hfree : Free '/' "exports".toList := by decide
    exact infix_closed_iff hfree hsegs
  have htemplates : "/templates".toList <+: join '/' segs ↔
      ∃ s ∈ segs.head?, "templates".toList <+: s := by
    have hfree : Free '/' "templates".toList := by decide
    cases segs with
    | nil => simp
    | cons s segs => simpa using prefix_join_cons hfree
  have hpaths : join '/' segs ∈ ["/templates/dry-run".toList, "/templates/version-diff".toList] ↔
      segs ∈ [texts ["templates", "dry-run"], texts ["templates", "version-diff"]] := by
    simp only [List.mem_cons, List.not_mem_nil, or_false,
      eq_pattern_iff "/templates/dry-run" ["templates", "dry-run"] hsegs (by decide) (by decide),
      eq_pattern_iff "/templates/version-diff" ["templates", "version-diff"] hsegs (by decide)
        (by decide)]
  unfold relativePermission segmentPermission
  -- every other test is a text made of segments, compared at the start, the end or the inside
  simp only [hexports, htemplates, hpaths,
    eq_pattern_iff "/health" ["health"] hsegs (by decide) (by decide),
    eq_pattern_iff "/dev/status" ["dev", "status"] hsegs (by decide) (by decide),
    eq_pattern_iff "/documents" ["documents"] hsegs (by decide) (by decide),
    eq_pattern_iff "/jobs" ["jobs"] hsegs (by decide) (by decide),
    prefix_pattern_iff "/admin/" ["admin"] hsegs (by decide) (by decide),
    prefix_pattern_iff "/exports/" ["exports"] hsegs (by decide) (by decide),
    prefix_pattern_iff "/settings/" ["settings"] hsegs (by decide) (by decide),
    prefix_pattern_iff "/settings/providers/" ["settings", "providers"] hsegs (by decide)
      (by decide),
    prefix_pattern_iff "/settings/providers/custom/" ["settings", "providers", "custom"] hsegs
      (by decide) (by decide),
    prefix_pattern_iff "/template-versions/" ["template-versions"] hsegs (by decide) (by decide),
    suffix_pattern_iff "/download" "download" hsegs (by decide) (by decide),
    suffix_pattern_iff "/retry" "retry" hsegs (by decide) (by decide),
    suffix_pattern_iff "/cancel" "cancel" hsegs (by decide) (by decide),
    infix_pattern_iff "/review" "review" hsegs (by decide) (by decide),
    infix_pattern_iff "/dismissal" "dismissal" hsegs (by decide) (by decide),
    List.length_cons, List.length_nil]

/-! ### Requests to a route -/

theorem free_fillSegments : ∀ (segs : List Segment) (params : ℕ → PathParam),
    ∀ s ∈ fillSegments segs params, Free '/' s := by
  intro segs
  induction segs with
  | nil =>
    intro params s hs
    cases hs
  | cons seg segs ih =>
    intro params s hs
    rcases List.mem_cons.mp hs with rfl | hs
    · cases seg with
      | lit text noSlash => exact noSlash
      | param => exact (params 0).noSlash
    · exact ih _ s hs

/-- **The cascade on the path of a request is the one on its segments.** -/
theorem resolveApiPermission_path {r : Route} (hr : r.segments ≠ []) (stem : ApiPrefix)
    (params : ℕ → PathParam) :
    resolveApiPermission r.method (stem.text ++ r.path params) stem.text =
      segmentPermission r.method (fillSegments r.segments params) := by
  have hstem : rstripSlash stem.text = stem.text.toList := by
    unfold rstripSlash
    rw [List.rdropWhile_eq_self_iff]
    intro hne
    have hlast := stem.noTrailing
    rw [List.getLast?_eq_some_getLast hne] at hlast
    simpa using hlast
  have hpath : (stem.text ++ r.path params).toList =
      stem.text.toList ++ join '/' (fillSegments r.segments params) := by
    rw [String.toList_append, Route.path, String.toList_ofList]
  have hrest : join '/' (fillSegments r.segments params) ≠ [] := by
    cases hsegs : r.segments with
    | nil => exact absurd hsegs hr
    | cons seg segs => simp [fillSegments]
  unfold resolveApiPermission
  rw [hstem, hpath, if_pos (List.prefix_append ..), List.drop_left]
  simp only [List.isEmpty_iff, if_neg hrest]
  exact relativePermission_join (free_fillSegments r.segments params)

/-! ### Diversions -/

/-- The texts of the parameters of a template. -/
def paramTexts : List Segment → (ℕ → PathParam) → List (List Char)
  | [], _ => []
  | .lit _ _ :: segs, params => paramTexts segs fun i => params (i + 1)
  | .param :: segs, params => (params 0).text.toList :: paramTexts segs fun i => params (i + 1)

/-- The words of a template. -/
def litTexts : List Segment → List String
  | [] => []
  | .lit text _ :: segs => text :: litTexts segs
  | .param :: segs => litTexts segs

/-- The permission the parameters of a request force: a `POST` whose parameter
begins like a review is one, and a `POST` with a parameter `exports` is an export —
unless the route is a review or an export itself. -/
def Route.diversion (r : Route) (params : ℕ → PathParam) : Option Permission :=
  if r.method ≠ .post ∨ "review" ∈ litTexts r.segments then none
  else if ∃ s ∈ paramTexts r.segments params, "review".toList <+: s then some .review
  else if "exports" ∈ litTexts r.segments then none
  else if "exports".toList ∈ paramTexts r.segments params then some .«export»
  else none

/-- `POST`, `PUT` and `DELETE`, except for the two routes that only compute. -/
def Route.changesState (r : Route) : Prop :=
  r.method ≠ .get ∧ litTexts r.segments ≠ ["templates", "dry-run"] ∧
    litTexts r.segments ≠ ["templates", "version-diff"]

/-- The permission of a route whose parameters say nothing. -/
def Route.permission (r : Route) : Option Permission :=
  segmentPermission r.method (fillSegments r.segments fun _ => ⟨"1", by decide, by decide⟩)

/-- A route that changes the state is not left to readers. -/
theorem permission_of_changesState : ∀ r ∈ apiRoutes, r.changesState →
    r.permission ≠ none ∧ r.permission ≠ some .read := by
  unfold apiRoutes Route.changesState
  decide

/-- A request to a route needs what its parameters force, or else the route's own
permission. -/
theorem segmentPermission_route : ∀ r ∈ apiRoutes, ∀ params,
    segmentPermission r.method (fillSegments r.segments params) =
      (r.diversion params).or r.permission := by
  -- the words of the templates that are compared with the beginning of a segment
  have hreview : ∀ w ∈ ["templates", "versions", "jobs", "retry", "cancel", "results", "exports",
      "settings", "providers", "custom", "reverify", "activate", "documents", "probe", "dry-run",
      "version-diff", "1"], ¬ "review".toList <+: w.toList := by decide
  have htemplates : ∀ w ∈ ["jobs", "results", "settings", "documents"],
      ¬ "templates".toList <+: w.toList := by decide
  simp only [List.forall_mem_cons, List.not_mem_nil, IsEmpty.forall_iff, implies_true, and_true]
    at hreview htemplates
  unfold apiRoutes
  simp only [List.forall_mem_cons, List.not_mem_nil, IsEmpty.forall_iff, implies_true, and_true]
  refine ⟨?_, ?_, ?_, ?_, ?_, ?_, ?_, ?_, ?_, ?_, ?_, ?_, ?_, ?_, ?_, ?_, ?_, ?_, ?_, ?_, ?_, ?_,
    ?_, ?_, ?_, ?_, ?_, ?_, ?_, ?_, ?_, ?_, ?_, ?_, ?_, ?_, ?_, ?_, ?_, ?_, ?_⟩
  all_goals
    intro params
    simp [-String.reduceToList, segmentPermission, fillSegments, Segment.fill, Route.diversion,
      Route.permission, texts, paramTexts, litTexts, String.toList_inj, hreview, htemplates]
  all_goals split_ifs <;> rfl

/-- A route is not diverted to the permission it has. -/
theorem permission_ne_of_diversion {r : Route} (hr : r ∈ apiRoutes) {params : ℕ → PathParam}
    {p : Permission} (h : r.diversion params = some p) : r.permission ≠ some p := by
  have hown : ∀ r ∈ apiRoutes, r.method = .post → "review" ∉ litTexts r.segments →
      r.permission ≠ some .review ∧
        ("exports" ∉ litTexts r.segments → r.permission ≠ some .«export») := by
    unfold apiRoutes
    decide
  unfold Route.diversion at h
  split at h
  · cases h
  · next hpost =>
    obtain ⟨hmethod, hreview⟩ := not_or.mp hpost
    obtain ⟨hne, hne'⟩ := hown r hr (not_not.mp hmethod) hreview
    split at h
    · obtain rfl := Option.some.inj h
      exact hne
    · split at h
      · cases h
      · next hexports =>
        split at h
        · obtain rfl := Option.some.inj h
          exact hne' hexports
        · cases h

/-- A diversion leads to a review or an export. -/
theorem diversion_cases {r : Route} {params : ℕ → PathParam} {p : Permission}
    (h : r.diversion params = some p) : p = .review ∨ p = .«export» := by
  unfold Route.diversion at h
  split_ifs at h
  · exact Or.inl (Option.some.inj h).symm
  · exact Or.inr (Option.some.inj h).symm

/-- Two requests of a route divert it alike exactly when they need the same. -/
theorem or_permission_inj {r : Route} (hr : r ∈ apiRoutes) {params params' : ℕ → PathParam} :
    (r.diversion params).or r.permission = (r.diversion params').or r.permission ↔
      r.diversion params = r.diversion params' := by
  constructor
  · intro h
    cases hp : r.diversion params with
    | none =>
      cases hq : r.diversion params' with
      | none => rfl
      | some q =>
        rw [hp, hq] at h
        exact absurd h (permission_ne_of_diversion hr hq)
    | some p =>
      cases hq : r.diversion params' with
      | none =>
        rw [hp, hq] at h
        exact absurd h.symm (permission_ne_of_diversion hr hp)
      | some q =>
        rw [hp, hq] at h
        exact h
  · intro h
    rw [h]

/-- **The permission of a request is that of its route, up to diversions.**  Two
requests of one route need the same permission if and only if their parameters
divert it to the same one; and a request that changes the state is never left
without a permission or with that of a reader. -/
theorem route_permission_iff {r : Route} (hr : r ∈ apiRoutes) (stem : ApiPrefix)
    (params params' : ℕ → PathParam) :
    (resolveApiPermission r.method (stem.text ++ r.path params) stem.text =
        resolveApiPermission r.method (stem.text ++ r.path params') stem.text ↔
      r.diversion params = r.diversion params') ∧
    (r.changesState →
      resolveApiPermission r.method (stem.text ++ r.path params) stem.text ≠ none ∧
      resolveApiPermission r.method (stem.text ++ r.path params) stem.text ≠ some .read) := by
  have hne : r.segments ≠ [] := by
    have : ∀ r ∈ apiRoutes, r.segments ≠ [] := by simp [apiRoutes]
    exact this r hr
  rw [resolveApiPermission_path hne, resolveApiPermission_path hne, segmentPermission_route r hr,
    segmentPermission_route r hr]
  refine ⟨or_permission_inj hr, ?_⟩
  intro hchanges
  cases hp : r.diversion params with
  | none => exact permission_of_changesState r hr hchanges
  | some p =>
    refine ⟨Option.some_ne_none p, ?_⟩
    rcases diversion_cases hp with rfl | rfl
    · simp
    · simp

/-! ### A route diverted -/

/-- The prefix of the API when none is configured. -/
def defaultApiPrefix : ApiPrefix := ⟨"/api", by decide⟩

/-- Activating a custom provider profile. -/
def activateRoute : Route :=
  ⟨.post, [.lit "settings", .lit "providers", .lit "custom", .param, .lit "activate"]⟩

/-- Every parameter is `text`. -/
def allParams (text : String) (nonempty : text ≠ "" := by decide)
    (noSlash : '/' ∉ text.toList := by decide) : ℕ → PathParam :=
  fun _ => ⟨text, nonempty, noSlash⟩

theorem activateRoute_mem : activateRoute ∈ apiRoutes := by
  unfold apiRoutes activateRoute
  simp

/-- Two profiles whose names say nothing are activated with the same permission. -/
theorem route_permission_activate :
    resolveApiPermission .post ("/api" ++ activateRoute.path (allParams "local")) "/api" =
        resolveApiPermission .post ("/api" ++ activateRoute.path (allParams "lab")) "/api" ∧
      resolveApiPermission .post ("/api" ++ activateRoute.path (allParams "local")) "/api" ≠
        some .read := by
  have h := route_permission_iff activateRoute_mem defaultApiPrefix (allParams "local")
    (allParams "lab")
  exact ⟨h.1.mpr (by decide), (h.2 (by unfold Route.changesState; decide)).2⟩

/-- **A parameter that begins with `review` makes the activation of a provider a review**, so the
permission depends on what the caller filled in. -/
theorem activate_diverted_to_review :
    ¬ ∀ r ∈ apiRoutes, ∀ (stem : ApiPrefix) (params params' : ℕ → PathParam),
      resolveApiPermission r.method (stem.text ++ r.path params) stem.text =
        resolveApiPermission r.method (stem.text ++ r.path params') stem.text := by
  intro h
  have hsame := h activateRoute activateRoute_mem defaultApiPrefix (allParams "local")
    (allParams "review")
  revert hsame
  decide

end ExtractFlow
