import Veilence.Foundation.Chain
import Veilence.Restapi.Http

/-!
# The middleware

Each middleware answers a request or hands it on with a context.
-/

namespace Veilence
namespace Restapi

open Go Foundation

/-! ## Sanitizing -/

/-- {lit}`pathTraversalPatterns`. -/
def pathTraversalPatterns : List GoString :=
  ["../".toList, "..\\".toList, "%2e%2e".toList, "%2e%2e%2f".toList, "%2e%2e/".toList,
    "..%2f".toList, "%2e%2e%5c".toList, "..%5c".toList]

/-- {lit}`containsPathTraversal`. -/
def containsPathTraversal (s : GoString) : Bool :=
  pathTraversalPatterns.any fun pattern => contains (toLower s) pattern

/-- {lit}`isJSONContent`. -/
def isJSONContent (req : Request) : Bool :=
  "application/json".toList.isPrefixOf (req.header "Content-Type".toList)

/-- The check of one value of a query parameter. -/
def sanitizeQueryValue (svc : Services) (key value : GoString) : Except Response Unit :=
  if containsPathTraversal value then
    .error ⟨400, "path traversal detected in query parameter: ".toList ++ key⟩
  else if svc.sqlInjection value then
    .error ⟨400, "potentially malicious input detected in query parameter: ".toList ++ key⟩
  else .ok ()

/-- The check of the query parameters. -/
def sanitizeQuery (svc : Services) (req : Request) : Except Response Unit :=
  req.query.forM fun param => param.2.forM fun value => sanitizeQueryValue svc param.1 value

/-- The check of a body that is JSON. -/
def sanitizeBody (svc : Services) (req : Request) : Except Response Unit :=
  if req.contentLength ≠ 0 ∧ isJSONContent req then
    match req.body with
    | none => .error ⟨400, "failed to read request body".toList⟩
    | some body =>
        if containsPathTraversal body then
          .error ⟨400, "path traversal detected in request body".toList⟩
        else if svc.sqlInjection body then
          .error ⟨400, "potentially malicious input detected in request body".toList⟩
        else .ok ()
  else .ok ()

/-- {lit}`Sanitize`. -/
def sanitize (svc : Services) (req : Request) (ctx : Context) : Except Response Context := do
  sanitizeQuery svc req
  if containsPathTraversal req.path ∨ containsPathTraversal req.rawPath then
    throw ⟨400, "path traversal detected in URL".toList⟩
  sanitizeBody svc req
  return ctx

/-! ## Cross-origin requests and rate limits -/

/-- {lit}`CORS`: a preflight request is answered and every other one is handed on. -/
def cors (req : Request) (ctx : Context) : Except Response Context :=
  if req.method = "OPTIONS".toList ∧ req.header "Access-Control-Request-Method".toList ≠ [] then
    .error ⟨200, []⟩
  else .ok ctx

/-- {lit}`extractIP`. -/
def extractIP (req : Request) : GoString :=
  match lastIndex ':' req.remoteAddr with
  | none => req.remoteAddr
  | some i =>
      match lastIndex ']' req.remoteAddr with
      | none => req.remoteAddr.take i
      | some bracket => if bracket < i then req.remoteAddr.take i else req.remoteAddr

/-- {lit}`rateLimitIdentity`. -/
def rateLimitIdentity (req : Request) (ctx : Context) : GoString :=
  if ctx.userID ≠ [] then "user:".toList ++ ctx.userID else "ip:".toList ++ extractIP req

/-- {lit}`Limit` of the limiter of a category. -/
def rateLimit (svc : Services) (category : EndpointCategory) (req : Request) (ctx : Context) :
    Except Response Context :=
  if svc.allow category (rateLimitIdentity req ctx) then .ok ctx
  else .error ⟨429, "rate limit exceeded".toList⟩

/-! ## Cross-site request forgery -/

/-- {lit}`CSRFCookieName`. -/
def csrfCookieName : GoString :=
  "_csrf_token".toList

/-- {lit}`CSRFHeaderName`, in its canonical form. -/
def csrfHeaderName : GoString :=
  "X-Csrf-Token".toList

/-- {lit}`csrfExemptPaths`. -/
def csrfExemptPaths : List GoString :=
  ["/api/auth/login".toList, "/api/auth/register".toList, "/api/auth/forgot-password".toList,
    "/api/auth/reset-password".toList, "/api/auth/refresh".toList,
    "/api/auth/verify-email".toList, "/api/auth/resend-verification".toList,
    "/api/setup/initialize".toList, "/api/auth/saml/acs".toList, "/api/auth/saml/slo".toList]

/-- {lit}`isSafeMethod`. -/
def isSafeMethod (method : GoString) : Bool :=
  toUpper method ∈ ["GET".toList, "HEAD".toList, "OPTIONS".toList, "TRACE".toList]

/-- {lit}`ensureCSRFCookie`. -/
def ensureCSRFCookie (req : Request) (ctx : Context) : Context :=
  if (req.cookie csrfCookieName).isSome then ctx else { ctx with setsCSRFCookie := true }

/-- {lit}`rotateCSRFCookie`. -/
def rotateCSRFCookie (ctx : Context) : Context :=
  { ctx with setsCSRFCookie := true }

/-- {lit}`CSRF`. -/
def csrf (req : Request) (ctx : Context) : Except Response Context :=
  if isSafeMethod req.method then .ok (ensureCSRFCookie req ctx)
  else if req.path ∈ csrfExemptPaths then .ok (ensureCSRFCookie req ctx)
  else if ctx.authMethod = authMethodAPIKey then .ok ctx
  else
    match req.cookie csrfCookieName with
    | none => .error ⟨403, "CSRF token missing".toList⟩
    | some cookie =>
        if cookie = [] then .error ⟨403, "CSRF token missing".toList⟩
        else if req.header csrfHeaderName = [] then
          .error ⟨403, "CSRF token header missing".toList⟩
        else if cookie ≠ req.header csrfHeaderName then
          .error ⟨403, "CSRF token mismatch".toList⟩
        else .ok (rotateCSRFCookie ctx)

/-! ## Authentication -/

/-- A context after an access token has been validated. -/
def Context.withClaims (ctx : Context) (claims : Claims) : Context :=
  { ctx with userID := claims.userID, email := claims.email, authMethod := authMethodJWT }

/-- A context after an API key has been validated. -/
def Context.withKey (ctx : Context) (key : KeyIdentity) : Context :=
  { ctx with
    userID := key.userID
    email := key.email
    authMethod := authMethodAPIKey
    apiKeyRole := key.role
    apiKeyWorkspaceID := key.workspaceID }

/-- The token in the header {lit}`Authorization`, if the header has one. -/
def Request.bearerToken (req : Request) : Option GoString :=
  cutPrefix (req.header "Authorization".toList) "Bearer ".toList

/-- The header {lit}`X-API-Key`. -/
def Request.apiKey (req : Request) : GoString :=
  req.header "X-Api-Key".toList

/-- {lit}`Auth` with an access token. -/
def authToken (svc : Services) (token : GoString) (ctx : Context) : Except Response Context :=
  match svc.validateAccessToken token with
  | none => .error ⟨401, "invalid or expired token".toList⟩
  | some claims => .ok (ctx.withClaims claims)

/-- {lit}`Auth`. -/
def auth (svc : Services) (req : Request) (ctx : Context) : Except Response Context :=
  match req.bearerToken with
  | some token => authToken svc token ctx
  | none =>
      if req.apiKey ≠ [] then
        match svc.validateAPIKey req.apiKey with
        | none => .error ⟨401, "invalid or expired API key".toList⟩
        | some key => .ok (ctx.withKey key)
      else if req.queryGet "access_token".toList ≠ [] then
        authToken svc (req.queryGet "access_token".toList) ctx
      else .error ⟨401, "Authentication required".toList⟩

/-- The paths that a user who must change the password can reach. -/
def mayReachBeforeChange (path : GoString) : Bool :=
  "/api/".toList.isPrefixOf path &&
    ["/auth/change-password".toList, "/auth/logout".toList, "/auth/me".toList,
      "/auth/refresh".toList].any fun suffix => suffix.isSuffixOf path

/-- {lit}`RequireMustChangePassword`. -/
def requireMustChangePassword (svc : Services) (req : Request) (ctx : Context) :
    Except Response Context :=
  if mayReachBeforeChange req.path then .ok ctx
  else if ctx.userID = [] then .ok ctx
  else
    match svc.getUserByID ctx.userID with
    | none => .ok ctx
    | some user =>
        if user.mustChangePassword then .error ⟨403, "must_change_password".toList⟩
        else .ok ctx

/-- {lit}`RequireSuperAdmin`. -/
def requireSuperAdmin (svc : Services) (ctx : Context) : Except Response Context :=
  if ctx.userID = [] then .error ⟨401, "authentication required".toList⟩
  else
    match svc.getUserByID ctx.userID with
    | none => .error ⟨500, "internal_error".toList⟩
    | some user =>
        if user.isSuperAdmin then .ok ctx
        else .error ⟨403, "super admin access required".toList⟩

/-! ## Workspaces and permissions -/

/-- {lit}`cmp.Or`: the first string that is not empty. -/
def cmpOr (values : List GoString) : GoString :=
  (values.find? fun value => value ≠ []).getD []

/-- The workspace ID in the URL, the header or the query of a request. -/
def workspaceParam (req : Request) (ctx : Context) : GoString :=
  cmpOr [ctx.urlParam "workspaceId".toList, req.header "X-Workspace-Id".toList,
    req.queryGet "workspace_id".toList]

/-- {lit}`RequireWorkspace`. -/
def requireWorkspace (svc : Services) (req : Request) (ctx : Context) :
    Except Response Context :=
  if ctx.userID = [] then .error ⟨401, "Authentication required".toList⟩
  else if ctx.authMethod = authMethodAPIKey then
    if ctx.apiKeyWorkspaceID = [] then
      .error ⟨403, "API key is not bound to a workspace".toList⟩
    else if workspaceParam req ctx ≠ [] ∧ workspaceParam req ctx ≠ ctx.apiKeyWorkspaceID then
      .error ⟨403, "API key is not authorized for this workspace".toList⟩
    else
      .ok { ctx with workspaceID := ctx.apiKeyWorkspaceID, memberRole := ctx.apiKeyRole }
  else if workspaceParam req ctx = [] then
    .error ⟨400, "Valid workspace ID is required".toList⟩
  else if svc.parseUUID (workspaceParam req ctx) = false then
    .error ⟨400, "invalid workspace ID format".toList⟩
  else
    match svc.getUserMembership ctx.userID (workspaceParam req ctx) with
    | none => .error ⟨403, "not a member of this workspace".toList⟩
    | some role => .ok { ctx with workspaceID := workspaceParam req ctx, memberRole := role }

/-- {lit}`RequirePermission`. -/
def requirePermission (svc : Services) (resource action : GoString) (ctx : Context) :
    Except Response Context :=
  if ctx.userID = [] ∨ ctx.workspaceID = [] then
    .error ⟨401, "Authentication and workspace context required".toList⟩
  else if ctx.authMethod = authMethodAPIKey then
    if svc.checkRolePermission ctx.workspaceID ctx.apiKeyRole resource action then .ok ctx
    else .error ⟨403, "insufficient permissions".toList⟩
  else if svc.checkPermission ctx.userID ctx.workspaceID resource action then .ok ctx
  else .error ⟨403, "insufficient permissions".toList⟩

/-! ## All middlewares -/

/-- The middlewares that the router installs. -/
inductive Middleware where
  | recoverer
  | realIP
  | securityHeaders
  | bodySizeLimit
  | sanitize
  | correlation
  | requestCapture
  | logger
  | metrics
  | cors
  | rateLimit (category : EndpointCategory)
  | csrf
  | auth
  | requireMustChangePassword
  | requireSuperAdmin
  | requireWorkspace
  | requirePermission (resource action : GoString)
deriving DecidableEq

/-- What a middleware does with a request.  The first ones, the logger and the metrics only
write headers, logs and values that no other middleware reads. -/
def Middleware.serve (svc : Services) :
    Middleware → Request → Context → Except Response Context
  | .sanitize, req, ctx => Restapi.sanitize svc req ctx
  | .cors, req, ctx => Restapi.cors req ctx
  | .rateLimit category, req, ctx => Restapi.rateLimit svc category req ctx
  | .csrf, req, ctx => Restapi.csrf req ctx
  | .auth, req, ctx => Restapi.auth svc req ctx
  | .requireMustChangePassword, req, ctx => Restapi.requireMustChangePassword svc req ctx
  | .requireSuperAdmin, _, ctx => Restapi.requireSuperAdmin svc ctx
  | .requireWorkspace, req, ctx => Restapi.requireWorkspace svc req ctx
  | .requirePermission resource action, _, ctx =>
      Restapi.requirePermission svc resource action ctx
  | .recoverer, _, ctx | .realIP, _, ctx | .securityHeaders, _, ctx | .bodySizeLimit, _, ctx
  | .correlation, _, ctx | .requestCapture, _, ctx | .logger, _, ctx | .metrics, _, ctx =>
      .ok ctx

end Restapi
end Veilence
