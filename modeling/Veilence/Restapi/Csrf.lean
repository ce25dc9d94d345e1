import Veilence.Restapi.Router

/-!
# Requests that change state

The CSRF middleware is installed in front of all routes, so it runs before {lit}`Auth` has put
the method of authentication into the context.  It turns away every request without a matching
token, and with it the requests with an API key that it means to exempt.

Main results:

- Theorem {lit}`answered_of_not_tokensMatch`: a request that changes state and has no matching
  token does not reach a protected handler.
- Theorem {lit}`composes_iff`: the protection and the API keys compose if and only if the
  request is not one with a valid key and without cookies that reaches the CSRF middleware.
- Theorem {lit}`key_rejected`: such a request.
-/

namespace Veilence
namespace Restapi

open Go Foundation

/-- The request carries an API key that the service accepts. -/
def HasValidKey (svc : Services) (req : Request) : Prop :=
  req.apiKey ≠ [] ∧ (svc.validateAPIKey req.apiKey).isSome = true

/-- The token in the header of the request is the one in its cookie. -/
def TokensMatch (req : Request) : Prop :=
  ∃ token, token ≠ [] ∧ req.cookie csrfCookieName = some token ∧
    req.header csrfHeaderName = token

/-- The middlewares in front of the CSRF middleware let the request pass: it contains nothing
malicious, and its address is within the rate limit. -/
def PassesFilters (svc : Services) (req : Request) : Prop :=
  sanitizeQuery svc req = .ok () ∧
    ¬(containsPathTraversal req.path ∨ containsPathTraversal req.rawPath) ∧
    sanitizeBody svc req = .ok () ∧ svc.allow .api ("ip:".toList ++ extractIP req) = true

/-- A request with a valid key and without cookies is not turned away by the CSRF middleware,
and one without a valid key and without a matching token does not reach the handler. -/
def Composes (svc : Services) (r : Route) (req : Request)
    (params : List (GoString × GoString)) : Prop :=
  (HasValidKey svc req → req.cookies = [] →
    ∀ response, r.serve svc req params ≠ .answered .csrf response) ∧
  (¬HasValidKey svc req → ¬TokensMatch req → (r.serve svc req params).Answered)

/-! ## The CSRF middleware -/

/-- The middlewares in front of the CSRF middleware. -/
def beforeCSRF : List Middleware :=
  [.recoverer, .realIP, .securityHeaders, .bodySizeLimit, .sanitize, .correlation,
    .requestCapture, .logger, .metrics, .cors, .rateLimit .api]

section Serving

variable {svc : Services} {req : Request} {ctx : Context}

/-- A request that changes state passes with a matching token only, as long as no method of
authentication is known. -/
theorem csrf_error_iff (hchange : isSafeMethod req.method = false)
    (hpath : req.path ∉ csrfExemptPaths) (hmethod : ctx.authMethod = []) :
    (∃ response, csrf req ctx = .error response) ↔ ¬TokensMatch req := by
  have hkey : ctx.authMethod ≠ authMethodAPIKey := by
    rw [hmethod]
    decide
  unfold csrf
  rw [if_neg (by simp [hchange]), if_neg hpath, if_neg hkey]
  cases hcookie : req.cookie csrfCookieName with
  | none =>
      constructor
      · rintro - ⟨token, -, h, -⟩
        rw [hcookie] at h
        exact nomatch h
      · intro
        exact ⟨_, rfl⟩
  | some cookie =>
      dsimp only
      constructor
      · rintro ⟨response, h⟩ ⟨token, htoken, heq, hheader⟩
        obtain rfl : cookie = token := Option.some.inj (hcookie.symm.trans heq)
        rw [if_neg htoken, hheader, if_neg htoken, if_neg (by simp)] at h
        exact nomatch h
      · intro hmatch
        split_ifs with hempty hheader hne
        · exact ⟨_, rfl⟩
        · exact ⟨_, rfl⟩
        · exact ⟨_, rfl⟩
        · refine absurd ⟨cookie, hempty, hcookie, ?_⟩ hmatch
          exact (not_not.mp hne).symm

/-- What the middleware lets pass is the request with the context of before. -/
theorem sanitize_eq_ok_iff {ctx' : Context} :
    sanitize svc req ctx = .ok ctx' ↔
      (sanitizeQuery svc req = .ok () ∧
        ¬(containsPathTraversal req.path ∨ containsPathTraversal req.rawPath) ∧
        sanitizeBody svc req = .ok ()) ∧ ctx' = ctx := by
  unfold sanitize
  cases hquery : sanitizeQuery svc req with
  | error response =>
      constructor
      · intro h
        exact nomatch h
      · rintro ⟨⟨h, -⟩, -⟩
        exact nomatch h
  | ok _ =>
      by_cases hpath : containsPathTraversal req.path ∨ containsPathTraversal req.rawPath
      · constructor
        · intro h
          rw [if_pos hpath] at h
          exact nomatch h
        · rintro ⟨⟨-, h, -⟩, -⟩
          exact absurd hpath h
      · rw [if_neg hpath]
        cases hbody : sanitizeBody svc req with
        | error response =>
            constructor
            · intro h
              exact nomatch h
            · rintro ⟨⟨-, -, h⟩, -⟩
              exact nomatch h
        | ok _ =>
            constructor
            · intro h
              injection h with h
              exact ⟨⟨rfl, hpath, rfl⟩, h.symm⟩
            · rintro ⟨-, rfl⟩
              rfl

/-- A request with another method is no preflight request. -/
theorem cors_of_method (hmethod : req.method ≠ "OPTIONS".toList) : cors req ctx = .ok ctx := by
  unfold cors
  exact if_neg fun h => hmethod h.1

/-- A request that changes state has another method. -/
theorem method_of_change (hchange : isSafeMethod req.method = false) :
    req.method ≠ "OPTIONS".toList := by
  intro hmethod
  rw [hmethod] at hchange
  exact absurd hchange (by decide)

/-- The middlewares in front hand on the context as it is. -/
theorem serve_beforeCSRF {m : Middleware} {ctx' : Context} (hm : m ∈ beforeCSRF)
    (h : m.serve svc req ctx = .ok ctx') : ctx' = ctx := by
  have hpass : ∀ {c : Context}, (Except.ok ctx : Except Response Context) = .ok c → c = ctx := by
    intro c hc
    injection hc with hc
    exact hc.symm
  cases m with
  | sanitize => exact (sanitize_eq_ok_iff.mp h).2
  | cors =>
      rw [Middleware.serve, cors] at h
      split_ifs at h
      exact hpass h
  | rateLimit category =>
      rw [Middleware.serve, rateLimit] at h
      split_ifs at h
      exact hpass h
  | csrf | auth | requireMustChangePassword | requireSuperAdmin | requireWorkspace
  | requirePermission _ _ => simp [beforeCSRF] at hm
  | _ => exact hpass h

/-- Which requests reach the CSRF middleware. -/
theorem run_beforeCSRF_iff (params : List (GoString × GoString))
    (hmethod : req.method ≠ "OPTIONS".toList) :
    Chain.run (Middleware.serve svc) beforeCSRF req (Context.background params) =
        .handled (Context.background params) ↔ PassesFilters svc req := by
  rw [Chain.run_eq_self_iff fun m hm ctx' => serve_beforeCSRF hm]
  constructor
  · intro hall
    obtain ⟨⟨hquery, hpath, hbody⟩, -⟩ :=
      sanitize_eq_ok_iff.mp (hall .sanitize (by simp [beforeCSRF]))
    refine ⟨hquery, hpath, hbody, ?_⟩
    have hlimit := hall (.rateLimit .api) (by simp [beforeCSRF])
    rw [Middleware.serve, rateLimit] at hlimit
    split_ifs at hlimit with hallow
    exact hallow
  · rintro ⟨hquery, hpath, hbody, hallow⟩ m hm
    cases m with
    | sanitize => exact sanitize_eq_ok_iff.mpr ⟨⟨hquery, hpath, hbody⟩, rfl⟩
    | cors => exact cors_of_method hmethod
    | rateLimit category =>
        obtain rfl : category = .api := by simpa [beforeCSRF] using hm
        exact if_pos hallow
    | csrf | auth | requireMustChangePassword | requireSuperAdmin | requireWorkspace
    | requirePermission _ _ => simp [beforeCSRF] at hm
    | _ => rfl

end Serving

/-! ## Protected routes -/

/-- No exempt path starts like a protected route. -/
theorem not_exempt_of_protected : ∀ sso, ∀ r ∈ newRouter sso, Middleware.auth ∈ r.uses →
    ∀ patterns ∈ r.patterns, '%' ∉ literalText patterns ∧
      ∀ path ∈ csrfExemptPaths, ¬literalText patterns <+: path := by
  decide +kernel

/-- The route for the synchronization of the packages of a workspace. -/
def discoverRoute : Route :=
  ⟨"POST".toList, "/api/sync/discover".toList,
    globalMiddleware ++ [.auth, .requireMustChangePassword, .requireWorkspace, .rateLimit .sync,
      .requirePermission "settings".toList "write".toList], "Settings.DiscoverPackages"⟩

/-- It is a route of the router. -/
def registeredDiscoverRoute : { r : Route // r ∈ newRouter false } :=
  ⟨discoverRoute, by decide +kernel⟩

/-- The path of a request for a protected route is not exempt, however it is encoded. -/
theorem path_not_exempt {sso : Bool} {r : Route} {req : Request}
    {params : List (GoString × GoString)} (hr : r ∈ newRouter sso)
    (hprotected : Middleware.auth ∈ r.uses) (hparams : r.urlParams req = some params) :
    req.path ∉ csrfExemptPaths := by
  intro hexempt
  obtain ⟨patterns, hpatterns, hmatch⟩ := List.exists_of_findSome?_eq_some hparams
  obtain ⟨hplain, hfree⟩ := not_exempt_of_protected sso r hr hprotected patterns hpatterns
  have hinit : literalText patterns <+: req.routePath := by
    have h := literalText_prefix hmatch
    rwa [join_split] at h
  refine hfree req.path hexempt ?_
  unfold Request.routePath at hinit
  split_ifs at hinit with hraw
  · exact isPrefixOf_of_pathUnescape hplain hinit (req.decodes.resolve_left hraw)
  · exact hinit

/-- The CSRF middleware runs before all but the first middlewares. -/
theorem uses_eq {sso : Bool} {r : Route} (hr : r ∈ newRouter sso) :
    ∃ after, r.uses = beforeCSRF ++ .csrf :: after := by
  obtain ⟨after, hafter⟩ := globalMiddleware_prefix hr
  refine ⟨after, ?_⟩
  rw [← hafter]
  rfl

section Routes

variable {sso : Bool} {svc : Services} {r : Route} {req : Request}
  {params : List (GoString × GoString)}

/-- A request that changes state and has no matching token does not reach a protected
handler. -/
theorem answered_of_not_tokensMatch (hr : r ∈ newRouter sso)
    (hprotected : Middleware.auth ∈ r.uses) (hparams : r.urlParams req = some params)
    (hchange : isSafeMethod req.method = false) (hmatch : ¬TokensMatch req) :
    (r.serve svc req params).Answered := by
  obtain ⟨after, hafter⟩ := uses_eq hr
  refine Chain.answered_of_mem (I := fun ctx => ctx.authMethod = []) hafter ?_ rfl ?_
  · intro m hm ctx ctx' hctx hserve
    rw [serve_beforeCSRF hm hserve, hctx]
  · intro ctx hctx
    exact (csrf_error_iff hchange (path_not_exempt hr hprotected hparams) hctx).mpr hmatch

/-- A request without a matching token that reaches the CSRF middleware is turned away by
it. -/
theorem answered_by_csrf_iff (hr : r ∈ newRouter sso) (hprotected : Middleware.auth ∈ r.uses)
    (hparams : r.urlParams req = some params) (hchange : isSafeMethod req.method = false)
    (hmatch : ¬TokensMatch req) :
    (∃ response, r.serve svc req params = .answered .csrf response) ↔
      PassesFilters svc req := by
  obtain ⟨after, hafter⟩ := uses_eq hr
  rw [Route.serve, hafter, ← run_beforeCSRF_iff params (method_of_change hchange)]
  constructor
  · rintro ⟨response, h⟩
    obtain ⟨m, response', hfront⟩ | ⟨ctx, hfront⟩ := Chain.answered_or_handled
      (Middleware.serve svc) beforeCSRF req (Context.background params)
    · have hmem := Chain.mem_of_run_eq_answered hfront
      rw [Chain.run_append_of_answered hfront] at h
      injection h with hm
      rw [hm] at hmem
      exact absurd hmem (by decide)
    · rw [hfront, Chain.eq_of_run_eq_handled (fun m hm ctx' => serve_beforeCSRF hm) hfront]
  · intro hfront
    have hpath := path_not_exempt hr hprotected hparams
    obtain ⟨response, herror⟩ : ∃ response, csrf req (Context.background params) = .error response :=
      (csrf_error_iff hchange hpath rfl).mpr hmatch
    exact ⟨response, by rw [Chain.run_append_of_handled hfront, Chain.run_cons_of_error herror]⟩

/-- A request without cookies has no matching token. -/
theorem not_tokensMatch_of_cookies (hcookies : req.cookies = []) : ¬TokensMatch req := by
  rintro ⟨token, -, hcookie, -⟩
  rw [Request.cookie, hcookies] at hcookie
  exact nomatch hcookie

/-- The protection and the API keys compose for a request that changes state if and only if it
is not one with a valid key and without cookies that the first middlewares let pass. -/
theorem composes_iff (hr : r ∈ newRouter sso) (hprotected : Middleware.auth ∈ r.uses)
    (haccepts : r.Accepts req params) (hchange : isSafeMethod req.method = false) :
    Composes svc r req params ↔
      ¬(HasValidKey svc req ∧ req.cookies = [] ∧ PassesFilters svc req) := by
  have hparams := haccepts.2
  constructor
  · rintro ⟨hkeys, -⟩ ⟨hkey, hcookies, hpasses⟩
    obtain ⟨response, hcsrf⟩ := (answered_by_csrf_iff hr hprotected hparams hchange
      (not_tokensMatch_of_cookies hcookies)).mpr hpasses
    exact hkeys hkey hcookies response hcsrf
  · intro hnot
    constructor
    · intro hkey hcookies response hcsrf
      refine hnot ⟨hkey, hcookies, ?_⟩
      exact (answered_by_csrf_iff hr hprotected hparams hchange
        (not_tokensMatch_of_cookies hcookies)).mp ⟨response, hcsrf⟩
    · intro _ hmatch
      exact answered_of_not_tokensMatch hr hprotected hparams hchange hmatch

end Routes

/-! ## A request with a key -/

/-- Services that know one API key of a viewer, whose owner is a super admin. -/
def oneKey : Services where
  sqlInjection := fun _ => false
  parseUUID := fun _ => true
  allow := fun _ _ => true
  validateAccessToken := fun _ => none
  validateAPIKey := fun key =>
    if key = "vmx_0123456789".toList then
      some ⟨"u1".toList, "a@x".toList, "viewer".toList, "w1".toList⟩
    else none
  getUserByID := fun _ => some ⟨true, false⟩
  getUserMembership := fun _ _ => some "owner".toList
  checkPermission := fun _ _ _ _ => true
  checkRolePermission := fun _ _ _ action => action = "read".toList

/-- A request with the key, and with a token against forgery if there is one. -/
def keyRequest (method path : String) (token : Option GoString) : Request where
  method := method.toList
  path := path.toList
  rawPath := []
  query := []
  headers := [("X-Api-Key".toList, "vmx_0123456789".toList)] ++
    (token.map fun token => (csrfHeaderName, token)).toList
  cookies := (token.map fun token => (csrfCookieName, token)).toList
  contentLength := 0
  body := some []
  remoteAddr := "203.0.113.5:4711".toList
  decodes := Or.inl rfl

/-- A request with the key and a matching token. -/
theorem composes_iff_discover :
    Composes oneKey discoverRoute
      (keyRequest "POST" "/api/sync/discover" (some "t".toList)) [] := by
  have hroute : discoverRoute ∈ newRouter false := registeredDiscoverRoute.2
  refine (composes_iff hroute (by decide +kernel)
    ⟨rfl, by decide +kernel⟩ (by decide +kernel)).mpr ?_
  rintro ⟨-, hcookies, -⟩
  exact nomatch hcookies

/-- Without a cookie the request with the key is turned away by the CSRF middleware. -/
theorem key_rejected :
    discoverRoute ∈ newRouter false ∧ Middleware.auth ∈ discoverRoute.uses ∧
      discoverRoute.Accepts (keyRequest "POST" "/api/sync/discover" none) [] ∧
      isSafeMethod (keyRequest "POST" "/api/sync/discover" none).method = false ∧
      discoverRoute.serve oneKey (keyRequest "POST" "/api/sync/discover" none) [] =
        .answered .csrf ⟨403, "CSRF token missing".toList⟩ ∧
      ¬Composes oneKey discoverRoute (keyRequest "POST" "/api/sync/discover" none) [] := by
  have hserve : discoverRoute.serve oneKey (keyRequest "POST" "/api/sync/discover" none) [] =
      .answered .csrf ⟨403, "CSRF token missing".toList⟩ := by
    decide +kernel
  have hkey : HasValidKey oneKey (keyRequest "POST" "/api/sync/discover" none) :=
    ⟨by decide +kernel, by decide +kernel⟩
  refine ⟨registeredDiscoverRoute.2, by decide +kernel, ⟨rfl, by decide +kernel⟩,
    by decide +kernel, hserve, ?_⟩
  rintro ⟨hkeys, -⟩
  exact hkeys hkey rfl _ hserve

end Restapi
end Veilence
