import Veilence.Restapi.Csrf

/-!
# Where an API key leads

Behind {lit}`RequireWorkspace` a request with an API key is held to the workspace and the role of
the key.  The routes for users and for super admins look at the ID of the user alone, so a
request with a key reaches their handlers with all rights of the key's owner.

Main results:

- Theorem {lit}`confined_of_workspace`: a request with a key is confined on every route behind
  {lit}`RequireWorkspace`.
- Theorem {lit}`confined_iff`: on every other protected route it is confined only if a check that
  does not look at the key turns it away.
- Theorem {lit}`viewer_key_unconfined`: a key of a viewer reaches the update of a user and the
  creation of a workspace.
-/

namespace Veilence
namespace Restapi

open Go Foundation

/-- The request is for a protected route and is authenticated by the API key with this
identity. -/
structure KeyRequest (svc : Services) (r : Route) (req : Request) (key : KeyIdentity) :
    Prop where
  isProtected : Middleware.auth ∈ r.uses
  noToken : req.bearerToken = none
  hasKey : req.apiKey ≠ []
  valid : svc.validateAPIKey req.apiKey = some key

/-- The request does not reach the handler, or the handler is one for workspaces, runs in the
workspace of the key, which is the one that the request names if it names one, and needs only
permissions that the role of the key has there. -/
def Confined (svc : Services) (r : Route) (req : Request) (params : List (GoString × GoString))
    (key : KeyIdentity) : Prop :=
  (r.serve svc req params).Answered ∨
    ∃ ctx, r.serve svc req params = .handled ctx ∧ Middleware.requireWorkspace ∈ r.uses ∧
      ctx.workspaceID = key.workspaceID ∧
      (workspaceParam req ctx = [] ∨ workspaceParam req ctx = key.workspaceID) ∧
      ∀ resource action, Middleware.requirePermission resource action ∈ r.uses →
        svc.checkRolePermission key.workspaceID key.role resource action = true

/-- The request passes the CSRF middleware. -/
def PassesCSRF (req : Request) : Prop :=
  isSafeMethod req.method = true ∨ TokensMatch req

/-- The request is not held up until its user has changed the password. -/
def PassesPasswordCheck (svc : Services) (req : Request) (userID : GoString) : Prop :=
  mayReachBeforeChange req.path = true ∨ userID = [] ∨
    (svc.getUserByID userID).any Account.mustChangePassword = false

/-- The user is a super admin. -/
def IsSuperAdmin (svc : Services) (userID : GoString) : Prop :=
  userID ≠ [] ∧ (svc.getUserByID userID).any Account.isSuperAdmin = true

/-- The checks in front of a handler for users or super admins let the request pass. -/
structure LetThrough (svc : Services) (r : Route) (req : Request) (key : KeyIdentity) :
    Prop where
  filters : PassesFilters svc req
  csrf : PassesCSRF req
  password : PassesPasswordCheck svc req key.userID
  admin : Middleware.requireSuperAdmin ∈ r.uses → IsSuperAdmin svc key.userID

/-! ## What the middlewares do with a key -/

/-- A context with the identity of a key. -/
structure OfKey (key : KeyIdentity) (ctx : Context) : Prop where
  userID : ctx.userID = key.userID
  authMethod : ctx.authMethod = authMethodAPIKey
  role : ctx.apiKeyRole = key.role
  workspaceID : ctx.apiKeyWorkspaceID = key.workspaceID

/-- The context of a routed request, with or without a new CSRF cookie. -/
def Anonymous (params : List (GoString × GoString)) (ctx : Context) : Prop :=
  ctx = { Context.background params with setsCSRFCookie := ctx.setsCSRFCookie }

section Serving

variable {svc : Services} {r : Route} {req : Request} {ctx : Context} {key : KeyIdentity}

/-- Which requests pass the CSRF middleware. -/
theorem csrf_ok_iff (hpath : req.path ∉ csrfExemptPaths) (hmethod : ctx.authMethod = []) :
    (∃ ctx', csrf req ctx = .ok ctx') ↔ PassesCSRF req := by
  unfold PassesCSRF
  cases hsafe : isSafeMethod req.method with
  | true =>
      constructor
      · intro
        exact Or.inl rfl
      · intro
        exact ⟨_, if_pos hsafe⟩
  | false =>
      have herror := csrf_error_iff hsafe hpath hmethod
      constructor
      · rintro ⟨ctx', hok⟩
        by_contra hnone
        have hmatch : ¬TokensMatch req := fun h => hnone (Or.inr h)
        obtain ⟨response, h⟩ := herror.mpr hmatch
        rw [hok] at h
        exact nomatch h
      · rintro (h | hmatch)
        · exact nomatch h
        · cases hcsrf : csrf req ctx with
          | error response => exact absurd hmatch (herror.mp ⟨response, hcsrf⟩)
          | ok ctx' => exact ⟨ctx', rfl⟩

/-- What an API key puts into the context. -/
theorem auth_of_key (hkey : KeyRequest svc r req key) :
    auth svc req ctx = .ok (ctx.withKey key) := by
  rw [auth, hkey.noToken]
  dsimp only
  rw [if_pos hkey.hasKey, hkey.valid]

/-- The check of the password hands on the context as it is. -/
theorem requireMustChangePassword_eq_ok_iff {ctx' : Context} :
    requireMustChangePassword svc req ctx = .ok ctx' ↔
      PassesPasswordCheck svc req ctx.userID ∧ ctx' = ctx := by
  have hok : (Except.ok ctx : Except Response Context) = .ok ctx' ↔ ctx' = ctx := by
    rw [Except.ok.injEq, eq_comm]
  unfold requireMustChangePassword PassesPasswordCheck
  split_ifs with hpath huser
  · simp [hpath, hok]
  · simp [huser, hok]
  · cases hget : svc.getUserByID ctx.userID with
    | none => simp [hok]
    | some user =>
        cases hmust : user.mustChangePassword with
        | true => simp [hmust, hpath, huser]
        | false => simp [hmust, hok]

/-- The check of the super admin hands on the context as it is. -/
theorem requireSuperAdmin_eq_ok_iff {ctx' : Context} :
    requireSuperAdmin svc ctx = .ok ctx' ↔ IsSuperAdmin svc ctx.userID ∧ ctx' = ctx := by
  have hok : (Except.ok ctx : Except Response Context) = .ok ctx' ↔ ctx' = ctx := by
    rw [Except.ok.injEq, eq_comm]
  unfold requireSuperAdmin IsSuperAdmin
  split_ifs with huser
  · simp [huser]
  · cases hget : svc.getUserByID ctx.userID with
    | none => simp
    | some user =>
        cases hadmin : user.isSuperAdmin with
        | true => simp [hadmin, huser, hok]
        | false => simp [hadmin]

/-- With a key the workspace is that of the key, and the request names no other one. -/
theorem requireWorkspace_of_key {ctx' : Context} (hctx : OfKey key ctx)
    (h : requireWorkspace svc req ctx = .ok ctx') :
    OfKey key ctx' ∧ ctx'.workspaceID = key.workspaceID ∧
      (workspaceParam req ctx' = [] ∨ workspaceParam req ctx' = key.workspaceID) := by
  unfold requireWorkspace at h
  rw [if_pos hctx.authMethod] at h
  split_ifs at h with huser hbound hnamed
  injection h with h
  subst h
  refine ⟨⟨hctx.userID, hctx.authMethod, hctx.role, hctx.workspaceID⟩, hctx.workspaceID, ?_⟩
  have hparam : workspaceParam req ctx = [] ∨
      workspaceParam req ctx = ctx.apiKeyWorkspaceID := by
    tauto
  rw [hctx.workspaceID] at hparam
  exact hparam

/-- With a key the role of the key needs the permission. -/
theorem requirePermission_of_key {resource action : GoString} {ctx' : Context}
    (hctx : OfKey key ctx) (h : requirePermission svc resource action ctx = .ok ctx') :
    svc.checkRolePermission ctx.workspaceID key.role resource action = true := by
  unfold requirePermission at h
  rw [if_pos hctx.authMethod, hctx.role] at h
  split_ifs at h with hmissing hallowed
  exact hallowed

end Serving

/-! ## Chains of protected routes -/

/-- Middlewares behind {lit}`RequireWorkspace`. -/
def Middleware.isCheck : Middleware → Bool
  | .rateLimit _ | .requirePermission _ _ => true
  | _ => false

/-- The middlewares up to the check of the password. -/
def protectedMiddleware : List Middleware :=
  globalMiddleware ++ [.auth, .requireMustChangePassword]

/-- What is in front of a protected handler. -/
theorem uses_cases : ∀ sso, ∀ r ∈ newRouter sso, Middleware.auth ∈ r.uses →
    r.uses = protectedMiddleware ∨ r.uses = protectedMiddleware ++ [.requireSuperAdmin] ∨
      r.uses = protectedMiddleware ++ .requireWorkspace :: r.uses.drop 15 ∧
        ∀ m ∈ r.uses.drop 15, m.isCheck = true := by
  decide +kernel

/-- Every route has one of five methods. -/
theorem method_ne_options : ∀ sso, ∀ r ∈ newRouter sso, r.method ≠ "OPTIONS".toList := by
  decide +kernel

section Routes

variable {sso : Bool} {svc : Services} {r : Route} {req : Request}
  {params : List (GoString × GoString)} {key : KeyIdentity} {ctx : Context}

/-- Which requests pass the global middlewares. -/
theorem run_globalMiddleware_iff (params : List (GoString × GoString))
    (hmethod : req.method ≠ "OPTIONS".toList)
    (hpath : req.path ∉ csrfExemptPaths) :
    (∃ ctx, Chain.run (Middleware.serve svc) globalMiddleware req (Context.background params) =
      .handled ctx) ↔ PassesFilters svc req ∧ PassesCSRF req := by
  have hchain : globalMiddleware = beforeCSRF ++ [.csrf] := rfl
  have hcsrf : (∃ ctx, csrf req (Context.background params) = .ok ctx) ↔ PassesCSRF req :=
    csrf_ok_iff hpath rfl
  rw [hchain, ← run_beforeCSRF_iff params hmethod, ← hcsrf]
  constructor
  · rintro ⟨ctx, h⟩
    obtain ⟨mid, hbefore, hlast⟩ := Chain.run_append_eq_handled_iff.mp h
    obtain rfl := Chain.eq_of_run_eq_handled (fun m hm ctx' => serve_beforeCSRF hm) hbefore
    obtain ⟨ctx', hserve, -⟩ := Chain.run_cons_eq_handled_iff.mp hlast
    exact ⟨hbefore, ctx', hserve⟩
  · rintro ⟨hbefore, ctx', hserve⟩
    refine ⟨ctx', Chain.run_append_eq_handled_iff.mpr ⟨_, hbefore, ?_⟩⟩
    exact Chain.run_cons_eq_handled_iff.mpr ⟨ctx', hserve, rfl⟩

/-- A request with a key that passes the check of the password has the identity of the key. -/
theorem ofKey_of_run (hkey : KeyRequest svc r req key)
    (h : Chain.run (Middleware.serve svc) protectedMiddleware req (Context.background params) =
      .handled ctx) : OfKey key ctx := by
  obtain ⟨mid, -, hlast⟩ := Chain.run_append_eq_handled_iff.mp h
  obtain ⟨identified, hauth, hlast⟩ := Chain.run_cons_eq_handled_iff.mp hlast
  obtain ⟨ctx', hpassword, hend⟩ := Chain.run_cons_eq_handled_iff.mp hlast
  cases hend
  rw [(requireMustChangePassword_eq_ok_iff.mp hpassword).2]
  obtain rfl : mid.withKey key = identified := by
    have heq : auth svc req mid = .ok identified := hauth
    rw [auth_of_key hkey] at heq
    injection heq
  exact ⟨rfl, rfl, rfl, rfl⟩

/-- Which requests with a key pass the check of the password. -/
theorem run_protectedMiddleware_iff (params : List (GoString × GoString))
    (hkey : KeyRequest svc r req key)
    (hmethod : req.method ≠ "OPTIONS".toList) (hpath : req.path ∉ csrfExemptPaths) :
    (∃ ctx, Chain.run (Middleware.serve svc) protectedMiddleware req
        (Context.background params) = .handled ctx) ↔
      (PassesFilters svc req ∧ PassesCSRF req) ∧ PassesPasswordCheck svc req key.userID := by
  rw [← run_globalMiddleware_iff params hmethod hpath]
  constructor
  · rintro ⟨ctx, h⟩
    obtain ⟨mid, hglobal, hlast⟩ := Chain.run_append_eq_handled_iff.mp h
    obtain ⟨identified, hauth, hlast⟩ := Chain.run_cons_eq_handled_iff.mp hlast
    obtain ⟨ctx', hpassword, hend⟩ := Chain.run_cons_eq_handled_iff.mp hlast
    obtain rfl : mid.withKey key = identified := by
      have heq : auth svc req mid = .ok identified := hauth
      rw [auth_of_key hkey] at heq
      injection heq
    exact ⟨⟨mid, hglobal⟩, (requireMustChangePassword_eq_ok_iff.mp hpassword).1⟩
  · rintro ⟨⟨mid, hglobal⟩, hpassword⟩
    refine ⟨mid.withKey key, Chain.run_append_eq_handled_iff.mpr ⟨mid, hglobal, ?_⟩⟩
    refine Chain.run_cons_eq_handled_iff.mpr ⟨_, auth_of_key hkey, ?_⟩
    refine Chain.run_cons_eq_handled_iff.mpr ⟨_, ?_, rfl⟩
    exact requireMustChangePassword_eq_ok_iff.mpr ⟨hpassword, rfl⟩

/-- The middlewares behind {lit}`RequireWorkspace` hand on the context as it is. -/
theorem serve_isCheck {m : Middleware} {ctx' : Context} (hm : m.isCheck = true)
    (h : m.serve svc req ctx = .ok ctx') : ctx' = ctx := by
  cases m with
  | rateLimit category =>
      rw [Middleware.serve, rateLimit] at h
      split_ifs at h
      injection h with h
      exact h.symm
  | requirePermission resource action =>
      rw [Middleware.serve, requirePermission] at h
      split_ifs at h
      · injection h with h
        exact h.symm
      · injection h with h
        exact h.symm
  | _ => exact absurd hm Bool.false_ne_true

/-- A request with a key is confined behind {lit}`RequireWorkspace`. -/
theorem confined_of_workspace {checks : List Middleware} (hkey : KeyRequest svc r req key)
    (huses : r.uses = protectedMiddleware ++ .requireWorkspace :: checks)
    (hchecks : ∀ m ∈ checks, m.isCheck = true) : Confined svc r req params key := by
  obtain hanswered | ⟨ctx, h⟩ := Chain.answered_or_handled (Middleware.serve svc)
    r.uses req (Context.background params)
  · exact Or.inl hanswered
  refine Or.inr ⟨ctx, h, huses ▸ by simp, ?_⟩
  rw [huses] at h
  obtain ⟨mid, hprotected, hlast⟩ := Chain.run_append_eq_handled_iff.mp h
  obtain ⟨ws, hworkspace, hrest⟩ := Chain.run_cons_eq_handled_iff.mp hlast
  obtain ⟨hws, hid, hnamed⟩ := requireWorkspace_of_key (ofKey_of_run hkey hprotected) hworkspace
  obtain rfl := Chain.eq_of_run_eq_handled (fun m hm ctx' => serve_isCheck (hchecks m hm)) hrest
  refine ⟨hid, hnamed, ?_⟩
  intro resource action hmem
  have hin : Middleware.requirePermission resource action ∈ checks := by
    rw [huses] at hmem
    simpa [protectedMiddleware, globalMiddleware] using hmem
  have hok := (Chain.run_eq_self_iff
    (fun m hm ctx' => serve_isCheck (hchecks m hm))).mp hrest _ hin
  rw [← hid]
  exact requirePermission_of_key hws hok

/-- Without {lit}`RequireWorkspace` a request with a key is confined only if it does not reach
the handler. -/
theorem confined_iff_answered (hworkspace : Middleware.requireWorkspace ∉ r.uses) :
    Confined svc r req params key ↔
      ¬∃ ctx, r.serve svc req params = .handled ctx := by
  constructor
  · rintro (hanswered | ⟨ctx, -, hmem, -⟩) ⟨ctx', hhandled⟩
    · exact Chain.not_answered_of_handled hhandled hanswered
    · exact hworkspace hmem
  · intro hnone
    exact Or.inl ((Chain.answered_or_handled _ r.uses req _).resolve_right hnone)

/-- A request with a key is confined if and only if its route is behind
{lit}`RequireWorkspace` or a check that does not look at the key turns it away. -/
theorem confined_iff (hr : r ∈ newRouter sso) (haccepts : r.Accepts req params)
    (hkey : KeyRequest svc r req key) :
    Confined svc r req params key ↔
      Middleware.requireWorkspace ∈ r.uses ∨ ¬LetThrough svc r req key := by
  have hmethod : req.method ≠ "OPTIONS".toList := by
    rw [haccepts.1]
    exact method_ne_options sso r hr
  have hpath := path_not_exempt hr hkey.isProtected haccepts.2
  have hfront := run_protectedMiddleware_iff params hkey hmethod hpath
  obtain huses | huses | ⟨huses, hchecks⟩ := uses_cases sso r hr hkey.isProtected
  · have hworkspace : Middleware.requireWorkspace ∉ r.uses := by
      rw [huses]
      decide
    have hadmin : Middleware.requireSuperAdmin ∉ r.uses := by
      rw [huses]
      decide
    rw [confined_iff_answered hworkspace, or_iff_right hworkspace, Route.serve, huses, hfront]
    refine not_congr ⟨?_, ?_⟩
    · rintro ⟨⟨hfilters, hcsrf⟩, hpassword⟩
      exact ⟨hfilters, hcsrf, hpassword, fun h => absurd h hadmin⟩
    · rintro ⟨hfilters, hcsrf, hpassword, -⟩
      exact ⟨⟨hfilters, hcsrf⟩, hpassword⟩
  · have hworkspace : Middleware.requireWorkspace ∉ r.uses := by
      rw [huses]
      decide
    have hadmin : Middleware.requireSuperAdmin ∈ r.uses := by
      rw [huses]
      simp
    rw [confined_iff_answered hworkspace, or_iff_right hworkspace, Route.serve, huses]
    refine not_congr ⟨?_, ?_⟩
    · rintro ⟨ctx, h⟩
      obtain ⟨mid, hprotected, hlast⟩ := Chain.run_append_eq_handled_iff.mp h
      obtain ⟨ctx', hserve, -⟩ := Chain.run_cons_eq_handled_iff.mp hlast
      obtain ⟨⟨hfilters, hcsrf⟩, hpassword⟩ := hfront.mp ⟨mid, hprotected⟩
      have hsuper := (requireSuperAdmin_eq_ok_iff.mp hserve).1
      rw [(ofKey_of_run hkey hprotected).userID] at hsuper
      exact ⟨hfilters, hcsrf, hpassword, fun _ => hsuper⟩
    · rintro ⟨hfilters, hcsrf, hpassword, hsuper⟩
      obtain ⟨mid, hprotected⟩ := hfront.mpr ⟨⟨hfilters, hcsrf⟩, hpassword⟩
      refine ⟨mid, Chain.run_append_eq_handled_iff.mpr ⟨mid, hprotected, ?_⟩⟩
      refine Chain.run_cons_eq_handled_iff.mpr ⟨mid, ?_, rfl⟩
      refine requireSuperAdmin_eq_ok_iff.mpr ⟨?_, rfl⟩
      rw [(ofKey_of_run hkey hprotected).userID]
      exact hsuper hadmin
  · have hworkspace : Middleware.requireWorkspace ∈ r.uses := by
      rw [huses]
      simp
    constructor
    · intro
      exact Or.inl hworkspace
    · intro
      exact confined_of_workspace hkey huses hchecks

end Routes

/-! ## A key of a viewer -/

/-- The identity of the key of a viewer. -/
def viewerKey : KeyIdentity :=
  ⟨"u1".toList, "a@x".toList, "viewer".toList, "w1".toList⟩

/-- The route for the settings of a workspace. -/
def settingsRoute : Route :=
  ⟨"GET".toList, "/api/settings".toList,
    protectedMiddleware ++ [.requireWorkspace,
      .requirePermission "settings".toList "read".toList], "Settings.GetSettings"⟩

/-- The route for the update of a user by a super admin. -/
def updateUserRoute : Route :=
  ⟨"PUT".toList, "/api/admin/users/{id}".toList, protectedMiddleware ++ [.requireSuperAdmin],
    "AdminUsers.HandleUpdateUser"⟩

/-- The route for the creation of a workspace. -/
def createWorkspaceRoute : Route :=
  ⟨"POST".toList, "/api/workspaces/".toList, protectedMiddleware, "Workspace.CreateWorkspace"⟩

/-- The key of a viewer reads the settings of its workspace. -/
theorem confined_iff_settings :
    Confined oneKey settingsRoute (keyRequest "GET" "/api/settings" none) [] viewerKey :=
  (confined_iff (show settingsRoute ∈ newRouter false by decide +kernel) ⟨rfl, by decide +kernel⟩
    ⟨by decide +kernel, by decide +kernel, by decide +kernel, by decide +kernel⟩).mpr
    (Or.inl (by decide +kernel))

/-- The key of a viewer, whose owner is a super admin, reaches the update of a user and the
creation of a workspace. -/
theorem viewer_key_unconfined :
    updateUserRoute ∈ newRouter false ∧ createWorkspaceRoute ∈ newRouter false ∧
      updateUserRoute.Accepts (keyRequest "PUT" "/api/admin/users/u2" (some "t".toList))
        [("id".toList, "u2".toList)] ∧
      createWorkspaceRoute.Accepts (keyRequest "POST" "/api/workspaces" (some "t".toList)) [] ∧
      KeyRequest oneKey updateUserRoute
        (keyRequest "PUT" "/api/admin/users/u2" (some "t".toList)) viewerKey ∧
      KeyRequest oneKey createWorkspaceRoute
        (keyRequest "POST" "/api/workspaces" (some "t".toList)) viewerKey ∧
      ¬Confined oneKey updateUserRoute
        (keyRequest "PUT" "/api/admin/users/u2" (some "t".toList))
        [("id".toList, "u2".toList)] viewerKey ∧
      ¬Confined oneKey createWorkspaceRoute
        (keyRequest "POST" "/api/workspaces" (some "t".toList)) [] viewerKey := by
  refine ⟨by decide +kernel, by decide +kernel, ⟨rfl, by decide +kernel⟩,
    ⟨rfl, by decide +kernel⟩,
    ⟨by decide +kernel, by decide +kernel, by decide +kernel, by decide +kernel⟩,
    ⟨by decide +kernel, by decide +kernel, by decide +kernel, by decide +kernel⟩, ?_, ?_⟩
  · rw [confined_iff_answered (by decide +kernel), not_not]
    exact ⟨{ (Context.background [("id".toList, "u2".toList)]).withKey viewerKey with
      setsCSRFCookie := true }, by decide +kernel⟩
  · rw [confined_iff_answered (by decide +kernel), not_not]
    exact ⟨{ (Context.background []).withKey viewerKey with setsCSRFCookie := true },
      by decide +kernel⟩

end Restapi
end Veilence
