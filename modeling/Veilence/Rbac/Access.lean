import Veilence.Foundation.Sequential
import Veilence.Rbac.Service

/-!
# Permissions of requests, API keys and the services as a system

What a request with an access token or an API key may do: the middleware that
authenticates it, finds its workspace and checks its permission, and the requests that
create and revoke API keys.  All operations together are a system of concurrent calls.
-/

namespace Veilence
namespace Rbac

open Go Foundation

open Auth (Token TokenHash User)

/-! ## Middleware -/

/-- How a request is authenticated: by an access token that has been validated, or by an
API key. -/
inductive Credential where
  | jwt (userID : Nat)
  | apiKey (rawKey : Token)
deriving DecidableEq

/-- What {lit}`Auth` puts into the context of a request. -/
inductive Identity where
  | jwt (userID : Nat)
  | apiKey (userID : Nat) (role : GoString) (workspaceID : Nat)
deriving DecidableEq

/-- The workspace ID in the URL, a header or the query of a request. -/
inductive WorkspaceParam where
  | absent
  | malformed
  | id (workspaceID : Nat)
deriving DecidableEq

/-- What {lit}`RequireWorkspace` adds to the context. -/
structure Context where
  identity : Identity
  workspaceID : Nat
  memberRole : GoString
deriving DecidableEq

/-- The user of a request. -/
def Identity.userID : Identity → Nat
  | .jwt userID => userID
  | .apiKey userID _ _ => userID

/-- {lit}`ValidateAPIKey`, from the keys with the right prefix on. -/
def validateFound (rawKey : Token) (keys : List (Nat × APIKey)) :
    Body (Except GoString Identity) := do
  match keys.find? fun key => key.2.keyHash = some (hashToken rawKey) with
  | none => return .error "invalid API key".toList
  | some (_, key) =>
      let now ← timeNow
      if key.expiresAt.any (· < now) then return .error "api key expired".toList
      else
        match ← send (.findUserByID key.userID) with
        | some (some user) =>
            if user.isActive = false then return .error "account is deactivated".toList
            else return .ok (.apiKey key.userID key.role key.workspaceID)
        | _ => return .error "finding API key user".toList

/-- {lit}`ValidateAPIKey`. -/
def validateAPIKey (cfg : Config) (rawKey : Token) : Body (Except GoString Identity) := do
  match ← send (.findActiveByPrefix (cfg.keyPrefix rawKey)) with
  | none => return .error "finding api keys".toList
  | some keys => validateFound rawKey keys

/-- {lit}`Auth`. -/
def authenticate (cfg : Config) : Credential → Body (Except GoString Identity)
  | .jwt userID => return .ok (.jwt userID)
  | .apiKey rawKey => validateAPIKey cfg rawKey

/-- {lit}`RequireWorkspace`. -/
def requireWorkspace (identity : Identity) (param : WorkspaceParam) :
    Body (Except GoString Context) := do
  match identity with
  | .apiKey _ role workspaceID =>
      if param = .absent ∨ param = .id workspaceID then
        return .ok ⟨identity, workspaceID, role⟩
      else return .error "API key is not authorized for this workspace".toList
  | .jwt userID =>
      match param with
      | .absent => return .error "Valid workspace ID is required".toList
      | .malformed => return .error "invalid workspace ID format".toList
      | .id workspaceID =>
          match ← send (.findMemberByUserAndWorkspace userID workspaceID) with
          | some (some (_, _, roleName)) => return .ok ⟨identity, workspaceID, roleName⟩
          | _ => return .error "not a member of this workspace".toList

/-- {lit}`RequirePermission`. -/
def requirePermission (ctx : Context) (p : Permission) : Body (Except GoString Unit) := do
  match ctx.identity with
  | .apiKey _ role _ =>
      match ← send (.checkRolePermission ctx.workspaceID role p) with
      | some true => return .ok ()
      | _ => return .error "insufficient permissions".toList
  | .jwt userID =>
      match ← send (.checkUserPermission userID ctx.workspaceID p) with
      | some true => return .ok ()
      | _ => return .error "insufficient permissions".toList

/-- The middleware in front of a route that needs a permission. -/
def authorize (cfg : Config) (credential : Credential) (param : WorkspaceParam)
    (p : Permission) : Body (Except GoString Context) := do
  match ← authenticate cfg credential with
  | .error message => return .error message
  | .ok identity =>
  match ← requireWorkspace identity param with
  | .error message => return .error message
  | .ok ctx =>
  match ← requirePermission ctx p with
  | .error message => return .error message
  | .ok _ => return .ok ctx

/-! ## API keys -/

/-- {lit}`RoleLevel`. -/
def roleLevel (role : GoString) : Nat :=
  if role = roleViewer then 1
  else if role = roleMember then 2
  else if role = roleAdmin then 3
  else if role = roleOwner then 4
  else 0

/-- {lit}`IsValidAPIKeyRole`. -/
def isValidAPIKeyRole (role : GoString) : Bool :=
  role ∈ [roleViewer, roleMember, roleAdmin]

/-- The role of a new key, the one of a viewer by default. -/
def roleOrDefault (role : GoString) : GoString :=
  if role = [] then roleViewer else role

/-- {lit}`CreateAPIKey` of the auth service. -/
def createAPIKey (cfg : Config) (userID workspaceID : Nat) (name role userRole : GoString)
    (expiresAt : Option Int) : Body Result := do
  let role := roleOrDefault role
  if isValidAPIKeyRole role = false then return .error "invalid API key role".toList
  else if roleLevel userRole < roleLevel role then
    return .error "cannot create API key with role higher than your workspace role".toList
  else
    match ← send .drawToken with
    | none => return .error "generating API key".toList
    | some rawKey =>
    let salt ← send .salt
    match ← send (.createAPIKey
        { userID := userID
          workspaceID := workspaceID
          name := name
          keyHash := salt.map fun _ => hashToken rawKey
          keyPrefix := cfg.keyPrefix rawKey
          role := role
          expiresAt := expiresAt
          isActive := true }) with
    | some (some id) => return .apiKey id rawKey
    | _ => return .error "creating API key".toList

/-- The check of {lit}`expiresAt` in the request. -/
def checkExpiresAt (expiresAt : Option Int) : Body (Option GoString) := do
  match expiresAt with
  | none => return none
  | some t =>
      let now ← timeNow
      if t < now then return some "expiresAt must be in the future".toList else return none

/-- The request for a new API key, behind {lit}`RequirePermission` for
{lit}`api_keys:write`. -/
def handleCreateAPIKey (cfg : Config) (credential : Credential) (param : WorkspaceParam)
    (name role : GoString) (expiresAt : Option Int) : Body Result := do
  match ← authorize cfg credential param ⟨"api_keys".toList, "write".toList⟩ with
  | .error message => return .error message
  | .ok ctx =>
      if ctx.memberRole = [] then return .error "workspace membership required".toList
      else if trimSpace name = [] then return .error "name is required".toList
      else if 100 < (trimSpace name).length then
        return .error "name must be at most 100 characters".toList
      else if isValidAPIKeyRole (roleOrDefault (trimSpace role)) = false then
        return .error "role must be one of: viewer, member, admin".toList
      else
        match ← checkExpiresAt expiresAt with
        | some message => return .error message
        | none =>
            createAPIKey cfg ctx.identity.userID ctx.workspaceID (trimSpace name)
              (roleOrDefault (trimSpace role)) ctx.memberRole expiresAt

/-- The request for the revocation of an API key, behind {lit}`RequirePermission` for
{lit}`api_keys:write`, with {lit}`RevokeAPIKey`. -/
def handleRevokeAPIKey (cfg : Config) (credential : Credential) (param : WorkspaceParam)
    (keyID : Nat) : Body Result := do
  match ← authorize cfg credential param ⟨"api_keys".toList, "write".toList⟩ with
  | .error message => return .error message
  | .ok ctx =>
      match ← send (.softDeleteScoped ctx.identity.userID ctx.workspaceID keyID) with
      | none => return .error "revoking API key".toList
      | some false => return .error "api key not found".toList
      | some true => return .ok

/-! ## The services as a system -/

/-- The operations of the services. -/
inductive Op where
  | setupInitialize (email password firstName lastName workspaceName workspaceSlug : GoString)
  | createWorkspace (userID : Nat) (name slug description : GoString)
  | updateWorkspace (workspaceID : Nat) (name slug description : GoString)
  | inviteMember (workspaceID : Nat) (email : GoString) (roleID invitedBy : Nat)
  | acceptInvitation (token : Token) (userID : Nat) (userEmail : GoString)
  | acceptInvitationByID (id userID : Nat) (userEmail : GoString)
  | declineInvitationByToken (token : Token) (userEmail : GoString)
  | declineInvitationByID (id : Nat) (userEmail : GoString)
  | revokeInvitation (workspaceID id : Nat)
  | resendInvitation (workspaceID id : Nat)
  | removeMember (workspaceID userID : Nat)
  | updateMemberRole (workspaceID userID newRoleID : Nat)
  | addUserToWorkspace (workspaceID : Nat) (email firstName lastName : GoString) (roleID : Nat)
      (password : GoString)
  | createAPIKey (credential : Credential) (param : WorkspaceParam) (name role : GoString)
      (expiresAt : Option Int)
  | revokeAPIKey (credential : Credential) (param : WorkspaceParam) (keyID : Nat)
deriving DecidableEq

/-- The body of an operation. -/
def bodyOf (cfg : Config) : Op → Body Result
  | .setupInitialize email password firstName lastName workspaceName workspaceSlug =>
      Rbac.setupInitialize cfg email password firstName lastName workspaceName workspaceSlug
  | .createWorkspace userID name slug description =>
      Rbac.createWorkspace userID name slug description
  | .updateWorkspace workspaceID name slug description =>
      Rbac.updateWorkspace workspaceID name slug description
  | .inviteMember workspaceID email roleID invitedBy =>
      Rbac.inviteMember cfg workspaceID email roleID invitedBy
  | .acceptInvitation token userID userEmail => Rbac.acceptInvitation cfg token userID userEmail
  | .acceptInvitationByID id userID userEmail => Rbac.acceptInvitationByID cfg id userID userEmail
  | .declineInvitationByToken token userEmail => Rbac.declineInvitationByToken cfg token userEmail
  | .declineInvitationByID id userEmail => Rbac.declineInvitationByID cfg id userEmail
  | .revokeInvitation workspaceID id => Rbac.revokeInvitation cfg workspaceID id
  | .resendInvitation workspaceID id => Rbac.resendInvitation cfg workspaceID id
  | .removeMember workspaceID userID => Rbac.removeMember workspaceID userID
  | .updateMemberRole workspaceID userID newRoleID =>
      Rbac.updateMemberRole workspaceID userID newRoleID
  | .addUserToWorkspace workspaceID email firstName lastName roleID password =>
      Rbac.addUserToWorkspace cfg workspaceID email firstName lastName roleID password
  | .createAPIKey credential param name role expiresAt =>
      Rbac.handleCreateAPIKey cfg credential param name role expiresAt
  | .revokeAPIKey credential param keyID => Rbac.handleRevokeAPIKey cfg credential param keyID

/-- The services: any number of operations at a time, while time passes. -/
def rbacSystem (cfg : Config) : System Database Op Call Answer Result where
  body := bodyOf cfg
  exec := Database.exec
  fallible := fun c => c ≠ .timeNow
  sticky := false
  enabled := fun _ _ => True
  begin := fun db _ => db
  done := fun db _ _ => db
  stop := fun db _ => db
  env := fun db db' => ∃ t, db.now ≤ t ∧ db' = { db with now := t }

instance (cfg : Config) (db : Database) (op : Op) : Decidable ((rbacSystem cfg).enabled db op) :=
  inferInstanceAs (Decidable True)

/-- The commands of an operation that runs alone. -/
def machine : Machine Database Call Answer :=
  ⟨Database.exec, fun c => c ≠ .timeNow⟩

/-- A world of the services. -/
abbrev RbacWorld := World Database Op Call Answer Result

/-- A database before the first workspace: users and permissions only. -/
structure Fresh (db : Database) : Prop where
  workspaces : db.workspaces = .empty
  roles : db.roles = .empty
  members : db.members = .empty
  invitations : db.invitations = .empty
  apiKeys : db.apiKeys = .empty

/-! ## A small instance -/

/-- A configuration in which everything is allowed and the prefixes of all keys agree. -/
def openConfig : Config where
  auth := Auth.plainConfig
  registrationEnabled := true
  allowedEmailDomains := []
  emailSender := false
  userResolver := true
  userCreator := true
  passwordResetInit := false
  keyPrefix := fun _ => "vmx_000000".toList

/-- Three users, two permissions and no workspace. -/
def threeUsers : Database where
  users := ((Ledger.empty.add (Auth.activeUser "a@x" "secret-a" true)).add
    (Auth.activeUser "b@x" "secret-b" false)).add (Auth.activeUser "c@x" "secret-c" false)
  permissions := [⟨"packages".toList, "write".toList⟩, ⟨"api_keys".toList, "write".toList⟩]
  workspaces := .empty
  roles := .empty
  members := .empty
  invitations := .empty
  apiKeys := .empty
  drawn := 0
  now := 0

end Rbac
end Veilence
