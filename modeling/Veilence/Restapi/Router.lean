import Veilence.Restapi.Middleware

/-!
# The router

The routes of {lit}`NewRouter` as they are nested in the source, and for each route the
middlewares in front of its handler.

Main results:

- Theorem {lit}`prefix_of_mem_routesOf`: the middlewares of a router are in front of those of
  the routers inside it.
- Theorem {lit}`literalText_prefix`: the path of a request starts with the text of its route in
  front of the first parameter.
-/

namespace Veilence
namespace Restapi

open Go Foundation

/-! ## Registrations -/

/-- What is registered in a router: a handler under a method, a router under a path
({lit}`Route`), or a router under the same path ({lit}`Group`), each with middlewares. -/
inductive Entry where
  | handle (uses : List Middleware) (method pattern : GoString) (handler : String)
  | route (pattern : GoString) (uses : List Middleware) (entries : List Entry)
  | group (uses : List Middleware) (entries : List Entry)

/-- A route: its method, its whole pattern, the middlewares in front of its handler, and the
handler. -/
structure Route where
  method : GoString
  pattern : GoString
  uses : List Middleware
  handler : String
deriving DecidableEq

mutual

/-- The routes of a registration under a path and behind middlewares. -/
def Entry.routes (path : GoString) (chain : List Middleware) : Entry → List Route
  | .handle uses method pattern handler => [⟨method, path ++ pattern, chain ++ uses, handler⟩]
  | .route pattern uses entries => routesOf (path ++ pattern) (chain ++ uses) entries
  | .group uses entries => routesOf path (chain ++ uses) entries

/-- The routes of a list of registrations. -/
def routesOf (path : GoString) (chain : List Middleware) : List Entry → List Route
  | [] => []
  | entry :: entries => entry.routes path chain ++ routesOf path chain entries

end

/-- {lit}`r.Get`. -/
def get (pattern : String) (handler : String) (uses : List Middleware := []) : Entry :=
  .handle uses "GET".toList pattern.toList handler

/-- {lit}`r.Post`. -/
def post (pattern : String) (handler : String) (uses : List Middleware := []) : Entry :=
  .handle uses "POST".toList pattern.toList handler

/-- {lit}`r.Put`. -/
def put (pattern : String) (handler : String) (uses : List Middleware := []) : Entry :=
  .handle uses "PUT".toList pattern.toList handler

/-- {lit}`r.Patch`. -/
def patch (pattern : String) (handler : String) (uses : List Middleware := []) : Entry :=
  .handle uses "PATCH".toList pattern.toList handler

/-- {lit}`r.Delete`. -/
def delete (pattern : String) (handler : String) (uses : List Middleware := []) : Entry :=
  .handle uses "DELETE".toList pattern.toList handler

/-- {lit}`r.Route`, with the middlewares that the router inside uses. -/
def route (pattern : String) (uses : List Middleware) (entries : List Entry) : Entry :=
  .route pattern.toList uses entries

/-- The middleware of {lit}`r.With(middleware.RequirePermission(...))`. -/
def permission (resource action : String) : List Middleware :=
  [.requirePermission resource.toList action.toList]

/-! ## The routes of the source -/

/-- The global middlewares, in the order in which they are installed. -/
def globalMiddleware : List Middleware :=
  [.recoverer, .realIP, .securityHeaders, .bodySizeLimit, .sanitize, .correlation,
    .requestCapture, .logger, .metrics, .cors, .rateLimit .api, .csrf]

/-- The public routes for authentication. -/
def authRoutes (sso : Bool) : Entry :=
  route "/auth" [.rateLimit .auth] (
    [post "/register" "Auth.Register",
      post "/login" "Auth.Login",
      post "/refresh" "Auth.RefreshToken",
      post "/forgot-password" "Auth.ForgotPassword",
      post "/reset-password" "Auth.ResetPassword",
      post "/verify-email" "Auth.VerifyEmail",
      post "/resend-verification" "Auth.ResendVerificationByEmail"] ++
    if sso then
      [get "/sso/providers" "SSO.HandleSSOProviders",
        get "/sso/{configId}/login" "SSO.HandleSSOLogin",
        get "/oauth/callback" "SSO.HandleOAuthCallback",
        post "/saml/acs" "SSO.HandleSAMLACS",
        post "/saml/slo" "SSO.HandleSAMLSLO",
        get "/saml/{configId}/metadata" "SSO.HandleSAMLMetadata",
        get "/saml/certificate" "SSO.HandleSAMLSPCertificate"]
    else [])

/-- The routes outside of workspaces for any user. -/
def userRoutes (sso : Bool) : List Entry :=
  [post "/auth/logout" "Auth.Logout",
    get "/auth/me" "Auth.GetMe",
    put "/auth/me" "Auth.UpdateProfile",
    post "/auth/change-password" "Auth.ChangePassword",
    post "/auth/send-verification" "Auth.SendVerificationEmail",
    route "/auth/sessions" []
      [get "/" "Sessions.ListSessions",
        delete "/{id}" "Sessions.RevokeSession"]] ++
  (if sso then
    [get "/auth/identities" "SSO.HandleGetIdentities",
      get "/auth/identities/link" "SSO.HandleLinkIdentity",
      delete "/auth/identities/{id}" "SSO.HandleUnlinkIdentity"]
  else []) ++
  [get "/permissions" "Workspace.ListPermissions",
    get "/invitations/mine" "Workspace.ListMyInvitations",
    post "/invitations/{id}/accept" "Workspace.AcceptInvitationByID",
    post "/invitations/{id}/decline" "Workspace.DeclineInvitationByID"]

/-- The routes for super admins. -/
def adminRoutes (sso : Bool) : Entry :=
  route "/admin" [.requireSuperAdmin] (
    (if sso then
      [route "/sso" []
        [get "/" "SSO.HandleListSSOConfigs",
          post "/" "SSO.HandleCreateSSOConfig",
          post "/saml/import-metadata" "SSO.HandleImportSAMLMetadata",
          route "/{id}" []
            [get "/" "SSO.HandleGetSSOConfig",
              put "/" "SSO.HandleUpdateSSOConfig",
              delete "/" "SSO.HandleDeleteSSOConfig",
              post "/test" "SSO.HandleTestSSOConfig"]],
        get "/auth-settings" "SSO.HandleGetAuthSettings",
        put "/auth-settings" "SSO.HandleUpdateAuthSettings"]
    else []) ++
    [get "/audit-logs" "AuditLogs.ListAllAuditLogs",
      route "/users" []
        [get "/" "AdminUsers.HandleListUsers",
          get "/{id}" "AdminUsers.HandleGetUser",
          put "/{id}" "AdminUsers.HandleUpdateUser"]])

/-- The packages of a workspace. -/
def packageRoutes : Entry :=
  route "/packages" []
    [get "/" "Packages.ListPackages" (permission "packages" "read"),
      post "/" "Packages.CreatePackage" (permission "packages" "write"),
      post "/bulk-import" "Packages.ImportPackages" (permission "packages" "write"),
      get "/suggestions" "Packages.ListSuggestions" (permission "packages" "read"),
      get "/stale" "Packages.ListStalePackages" (permission "packages" "read"),
      post "/bulk-approve" "Packages.BulkApprovePackages" (permission "packages" "write"),
      route "/{id}" []
        [get "/" "Packages.GetPackage" (permission "packages" "read"),
          delete "/" "Packages.DeletePackage" (permission "packages" "delete"),
          post "/block" "Packages.BlockPackage" (permission "packages" "write"),
          post "/unblock" "Packages.UnblockPackage" (permission "packages" "write"),
          post "/approve" "Packages.ApprovePackage" (permission "packages" "write"),
          post "/reject" "Packages.RejectPackage" (permission "packages" "write"),
          get "/releases" "Packages.ListPackageReleases" (permission "releases" "read"),
          get "/analysis-history" "Packages.GetAnalysisHistory" (permission "packages" "read")]]

/-- The releases and alerts of a workspace. -/
def releaseRoutes : List Entry :=
  [route "/releases" []
      [get "/pipeline-status" "Packages.GetPipelineStatus" (permission "releases" "read"),
        get "/{id}" "Packages.GetRelease" (permission "releases" "read"),
        get "/{id}/hashes" "Packages.GetReleaseHashes" (permission "releases" "read"),
        post "/{id}/reanalyze" "Packages.ReanalyzeRelease" (permission "settings" "write")],
    route "/alerts" []
      [get "/" "Alerts.ListAlerts" (permission "alerts" "read"),
        route "/{id}" []
          [get "/" "Alerts.GetAlert" (permission "alerts" "read"),
            patch "/" "Alerts.UpdateAlert" (permission "alerts" "write"),
            get "/notes" "Alerts.ListAlertNotes" (permission "alerts" "read"),
            post "/notes" "Alerts.CreateAlertNote" (permission "alerts" "write"),
            put "/notes/{noteId}" "Alerts.UpdateAlertNote" (permission "alerts" "write"),
            delete "/notes/{noteId}" "Alerts.DeleteAlertNote" (permission "alerts" "write")]]]

/-- The routes for a workspace that a header or the query names. -/
def flatRoutes : Entry :=
  .group [.requireWorkspace] (
    [get "/notifications" "Notifications.ListUserNotifications",
      get "/notifications/unread-count" "Notifications.GetUnreadCount",
      put "/notifications/read-all" "Notifications.MarkAllNotificationsRead",
      delete "/notifications/all" "Notifications.DeleteAllNotifications",
      delete "/notifications" "Notifications.DeleteBatchNotifications",
      put "/notifications/{id}/read" "Notifications.MarkNotificationRead",
      delete "/notifications/{id}" "Notifications.DeleteNotification",
      route "/auth/api-keys" []
        [get "/" "Auth.ListAPIKeys" (permission "api_keys" "read"),
          post "/" "Auth.CreateAPIKey" (permission "api_keys" "write"),
          delete "/{id}" "Auth.RevokeAPIKey" (permission "api_keys" "write")],
      get "/dashboard/stats" "Dashboard.GetDashboardStats",
      get "/dashboard/recent-releases" "Dashboard.GetRecentReleases",
      get "/dashboard/charts" "Dashboard.GetChartData",
      packageRoutes] ++
    releaseRoutes ++
    [get "/settings" "Settings.GetSettings" (permission "settings" "read"),
      put "/settings" "Settings.UpdateSettings" (permission "settings" "write"),
      .group [.rateLimit .sync]
        [post "/sync/discover" "Settings.DiscoverPackages" (permission "settings" "write"),
          post "/sync/reanalyze" "Dashboard.ReanalyzeAll" (permission "settings" "write")],
      get "/queue/stats" "Queue.GetQueueStats" (permission "workspace" "write"),
      get "/queue/jobs" "Queue.GetQueueJobs" (permission "workspace" "write"),
      post "/queue/retry-dead" "Queue.RetryDeadJobs" (permission "workspace" "write"),
      post "/queue/dead/{jobId}/retry" "Queue.RetryDeadJob" (permission "workspace" "write")])

/-- The routes under the ID of a workspace. -/
def workspaceIDRoutes : Entry :=
  route "/{workspaceId}" [.requireWorkspace]
    [get "/" "Workspace.GetWorkspace" (permission "workspace" "read"),
      put "/" "Workspace.UpdateWorkspace" (permission "workspace" "write"),
      delete "/" "Workspace.DeleteWorkspace" (permission "workspace" "delete"),
      get "/members/me/role" "Workspace.GetCurrentMemberRole",
      get "/members" "Workspace.ListMembers" (permission "members" "read"),
      post "/members" "Workspace.AddMember" (permission "members" "invite"),
      post "/invitations" "Workspace.InviteMember" (permission "members" "invite"),
      get "/invitations" "Workspace.ListPendingInvitations" (permission "members" "read"),
      delete "/invitations/{id}" "Workspace.RevokeInvitation" (permission "members" "invite"),
      post "/invitations/{id}/resend" "Workspace.ResendInvitation"
        (permission "members" "invite"),
      delete "/members/{userId}" "Workspace.RemoveMember" (permission "members" "remove"),
      put "/members/{userId}/role" "Workspace.UpdateMemberRole" (permission "members" "remove"),
      get "/roles" "Workspace.ListRoles" (permission "roles" "read"),
      get "/audit-logs" "AuditLogs.ListAuditLogs" (permission "audit" "read"),
      route "/notification-channels" []
        [get "/" "Notifications.ListNotificationChannels" (permission "notifications" "read"),
          post "/" "Notifications.CreateNotificationChannel"
            (permission "notifications" "create"),
          route "/{id}" []
            [put "/" "Notifications.UpdateNotificationChannel"
                (permission "notifications" "update"),
              delete "/" "Notifications.DeleteNotificationChannel"
                (permission "notifications" "delete"),
              post "/test" "Notifications.TestNotificationChannel"
                (permission "notifications" "update")]],
      route "/notification-rules" []
        [get "/" "Notifications.ListNotificationRules" (permission "notifications" "read"),
          post "/" "Notifications.CreateNotificationRule" (permission "notifications" "create"),
          delete "/{id}" "Notifications.DeleteNotificationRule"
            (permission "notifications" "delete")]]

/-- The routes for workspaces. -/
def workspaceRoutes : Entry :=
  route "/workspaces" []
    [post "/" "Workspace.CreateWorkspace",
      get "/" "Workspace.ListWorkspaces",
      post "/{workspaceId}/invitations/{token}/accept" "Workspace.AcceptInvitation",
      post "/{workspaceId}/invitations/{token}/decline" "Workspace.DeclineInvitation",
      workspaceIDRoutes]

/-- The routes behind {lit}`Auth`. -/
def protectedRoutes (sso : Bool) : Entry :=
  .group [.auth, .requireMustChangePassword]
    (userRoutes sso ++ [adminRoutes sso, flatRoutes, workspaceRoutes])

/-- The routes under {lit}`/api`. -/
def apiRoutes (sso : Bool) : Entry :=
  route "/api" []
    [get "/health" "Health.HealthCheck",
      get "/ready" "Health.ReadinessCheck",
      authRoutes sso,
      route "/setup" [.rateLimit .auth] [post "/initialize" "Setup.Initialize"],
      get "/config/public" "Config.GetPublicConfig",
      get "/invitations/{token}" "Workspace.GetInvitationInfo",
      protectedRoutes sso]

/-- {lit}`NewRouter`: all routes, with those for single sign-on if it is there. -/
def newRouter (sso : Bool) : List Route :=
  routesOf [] globalMiddleware [apiRoutes sso]

/-! ## Matching -/

/-- The name of a parameter, if the part of the pattern is one. -/
def paramName (part : GoString) : Option GoString :=
  if part.head? = some '{' then some (part.tail.takeWhile (· ≠ '}')) else none

/-- The parameters of a path that matches a pattern, part by part. -/
def matchParts : List GoString → List GoString → Option (List (GoString × GoString))
  | [], [] => some []
  | pattern :: patterns, part :: parts =>
      match paramName pattern with
      | some name => (matchParts patterns parts).map ((name, part) :: ·)
      | none => if pattern = part then matchParts patterns parts else none
  | _, _ => none

/-- The parts of the patterns of a route: the path of a router inside another one is its root
with and without the slash. -/
def Route.patterns (r : Route) : List (List GoString) :=
  if r.pattern.getLast? = some '/' then
    [split '/' r.pattern, (split '/' r.pattern).dropLast]
  else [split '/' r.pattern]

/-- The parameters of a request, if its path matches a route. -/
def Route.urlParams (r : Route) (req : Request) : Option (List (GoString × GoString)) :=
  r.patterns.findSome? fun patterns => matchParts patterns (split '/' req.routePath)

/-- A request that the router can dispatch to a route, with these parameters. -/
def Route.Accepts (r : Route) (req : Request) (params : List (GoString × GoString)) : Prop :=
  req.method = r.method ∧ r.urlParams req = some params

/-- Serve a request that has been dispatched to a route. -/
def Route.serve (svc : Services) (r : Route) (req : Request)
    (params : List (GoString × GoString)) : Outcome Middleware Context Response :=
  Chain.run (Middleware.serve svc) r.uses req (Context.background params)

/-! ## Middlewares in front -/

mutual

/-- The middlewares of a router are in front of those of its registrations. -/
theorem Entry.prefix_of_mem_routes {path : GoString} {chain : List Middleware} {r : Route}
    (entry : Entry) (hr : r ∈ entry.routes path chain) : chain <+: r.uses := by
  cases entry with
  | handle uses method pattern handler =>
      rw [Entry.routes, List.mem_singleton] at hr
      rw [hr]
      exact List.prefix_append chain uses
  | route pattern uses entries =>
      rw [Entry.routes] at hr
      exact (List.prefix_append chain uses).trans (prefix_of_mem_routesOf entries hr)
  | group uses entries =>
      rw [Entry.routes] at hr
      exact (List.prefix_append chain uses).trans (prefix_of_mem_routesOf entries hr)

/-- The middlewares of a router are in front of those of the routers inside it. -/
theorem prefix_of_mem_routesOf {path : GoString} {chain : List Middleware} {r : Route}
    (entries : List Entry) (hr : r ∈ routesOf path chain entries) : chain <+: r.uses := by
  cases entries with
  | nil =>
      rw [routesOf] at hr
      exact absurd hr List.not_mem_nil
  | cons entry entries =>
      rw [routesOf, List.mem_append] at hr
      cases hr with
      | inl h => exact entry.prefix_of_mem_routes h
      | inr h => exact prefix_of_mem_routesOf entries h

end

/-- The global middlewares are in front of every handler. -/
theorem globalMiddleware_prefix {sso : Bool} {r : Route} (hr : r ∈ newRouter sso) :
    globalMiddleware <+: r.uses :=
  prefix_of_mem_routesOf _ hr

/-! ## The fixed part of a path -/

/-- The text of a pattern in front of its first parameter. -/
def literalText : List GoString → GoString
  | [] => []
  | [pattern] => if (paramName pattern).isSome then [] else pattern
  | pattern :: patterns =>
      if (paramName pattern).isSome then [] else pattern ++ '/' :: literalText patterns

/-- A path that matches a pattern starts with its text in front of the first parameter. -/
theorem literalText_prefix {patterns parts : List GoString}
    {params : List (GoString × GoString)} (h : matchParts patterns parts = some params) :
    literalText patterns <+: join '/' parts := by
  induction patterns generalizing parts params with
  | nil =>
      rw [literalText]
      exact List.nil_prefix
  | cons pattern patterns ih =>
      cases parts with
      | nil => simp [matchParts] at h
      | cons part parts =>
          cases hname : paramName pattern with
          | some name =>
              cases patterns with
              | nil => simp [literalText, hname]
              | cons _ _ => simp [literalText, hname]
          | none =>
              rw [matchParts, hname] at h
              dsimp only at h
              split_ifs at h with heq
              subst heq
              cases patterns with
              | nil =>
                  cases parts with
                  | nil => simp [literalText, hname, join]
                  | cons _ _ => simp [matchParts] at h
              | cons pattern' patterns =>
                  cases parts with
                  | nil => simp [matchParts] at h
                  | cons part' parts =>
                      have hrest := ih h
                      have hjoin : join '/' (pattern :: part' :: parts) =
                          pattern ++ '/' :: join '/' (part' :: parts) := by
                        simp [join, List.intercalate]
                      rw [hjoin, literalText, hname]
                      · simpa using hrest
                      · exact List.cons_ne_nil _ _

end Restapi
end Veilence
