import Veilence.Go.Url

/-!
# Requests and what the middleware knows of them

A request as the router receives it, the values that the middleware puts into its context, and
what the services answer to the middleware while the request is served.
-/

namespace Veilence
namespace Restapi

open Go

/-! ## Requests -/

/-- A request.  The names of headers are in their canonical form, a body that cannot be read
to its end is missing, and the raw path is there where it is not the standard encoding of the
path. -/
structure Request where
  method : GoString
  path : GoString
  rawPath : GoString
  query : List (GoString × List GoString)
  headers : List (GoString × GoString)
  cookies : List (GoString × GoString)
  contentLength : Int
  body : Option GoString
  remoteAddr : GoString
  decodes : rawPath = [] ∨ pathUnescape rawPath = some path

/-- {lit}`r.Header.Get`: the first value, or the empty string. -/
def Request.header (req : Request) (name : GoString) : GoString :=
  (req.headers.lookup name).getD []

/-- {lit}`r.Cookie`: the first cookie of the name. -/
def Request.cookie (req : Request) (name : GoString) : Option GoString :=
  req.cookies.lookup name

/-- {lit}`r.URL.Query().Get`: the first value, or the empty string. -/
def Request.queryGet (req : Request) (key : GoString) : GoString :=
  ((req.query.lookup key).bind List.head?).getD []

/-- The path that the router matches. -/
def Request.routePath (req : Request) : GoString :=
  if req.rawPath ≠ [] then req.rawPath else req.path

/-- An answer of a middleware: the status and the text of the error. -/
structure Response where
  status : Nat
  error : GoString
deriving DecidableEq

/-! ## Contexts -/

/-- The values in the context of a request, the empty string where one is not set, with the
parameters in its URL and whether the response sets a new CSRF cookie. -/
structure Context where
  urlParams : List (GoString × GoString)
  setsCSRFCookie : Bool
  userID : GoString
  email : GoString
  authMethod : GoString
  apiKeyRole : GoString
  apiKeyWorkspaceID : GoString
  workspaceID : GoString
  memberRole : GoString
deriving DecidableEq

/-- The context of a request that has been routed. -/
def Context.background (urlParams : List (GoString × GoString)) : Context :=
  ⟨urlParams, false, [], [], [], [], [], [], []⟩

/-- {lit}`chi.URLParam`. -/
def Context.urlParam (ctx : Context) (name : GoString) : GoString :=
  (ctx.urlParams.lookup name).getD []

/-- {lit}`AuthMethodJWT`. -/
def authMethodJWT : GoString :=
  "jwt".toList

/-- {lit}`AuthMethodAPIKey`. -/
def authMethodAPIKey : GoString :=
  "api_key".toList

/-! ## Services -/

/-- The claims of an access token. -/
structure Claims where
  userID : GoString
  email : GoString
deriving DecidableEq

/-- What {lit}`ValidateAPIKey` returns. -/
structure KeyIdentity where
  userID : GoString
  email : GoString
  role : GoString
  workspaceID : GoString
deriving DecidableEq

/-- What the middleware reads of a user. -/
structure Account where
  isSuperAdmin : Bool
  mustChangePassword : Bool
deriving DecidableEq

/-- {lit}`EndpointCategory`. -/
inductive EndpointCategory where
  | auth
  | api
  | sync
deriving DecidableEq

/-- What the services and the libraries answer while a request is served: the result is missing
where a call returns an error. -/
structure Services where
  sqlInjection : GoString → Bool
  parseUUID : GoString → Bool
  allow : EndpointCategory → GoString → Bool
  validateAccessToken : GoString → Option Claims
  validateAPIKey : GoString → Option KeyIdentity
  getUserByID : GoString → Option Account
  getUserMembership : GoString → GoString → Option GoString
  checkPermission : GoString → GoString → GoString → GoString → Bool
  checkRolePermission : GoString → GoString → GoString → GoString → Bool

end Restapi
end Veilence
