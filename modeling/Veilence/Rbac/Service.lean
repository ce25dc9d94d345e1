import Veilence.Foundation.Program
import Veilence.Auth.Service
import Veilence.Rbac.Database

/-!
# The RBAC service and the first-time setup

The operations on workspaces, memberships and invitations, each as a program of single
calls.  The functions of the auth service that create user accounts are written over the
same calls, since they work on the users that the memberships refer to.
-/

namespace Veilence
namespace Rbac

open Go Foundation

open Auth (Token TokenHash User)

/-- The body of an operation or of a part of it. -/
abbrev Body (α : Type) := Prog Call Answer α

/-- A single call. -/
abbrev send (c : Call) : Body (Option (Answer c)) :=
  Prog.call c

/-- The configuration of the services.  The flags say which optional parts are there;
{lit}`keyPrefix` gives the first ten bytes of an API key. -/
structure Config where
  auth : Auth.Config
  registrationEnabled : Bool
  allowedEmailDomains : List GoString
  emailSender : Bool
  userResolver : Bool
  userCreator : Bool
  passwordResetInit : Bool
  keyPrefix : Token → GoString

/-- What an operation returns; an error with the text it begins with. -/
inductive Result where
  | ok
  | workspace (id : Nat)
  | initialized (userID workspaceID : Nat)
  | invitation (id : Nat) (rawToken : Token)
  | member (m : Member)
  | added (m : Member) (userCreated : Bool)
  | apiKey (id : Nat) (rawKey : Token)
  | error (message : GoString)
deriving DecidableEq

/-- {lit}`time.Now`, which does not fail. -/
def timeNow : Body Int := do
  return (← send .timeNow).getD 0

/-- {lit}`hashToken`. -/
def hashToken (token : Token) : TokenHash :=
  ⟨token⟩

/-! ## E-mail addresses -/

/-- {lit}`normalizeEmailRBAC`, the function of the auth service. -/
def normalizeEmailRBAC (cfg : Config) (email : GoString) : GoString :=
  Auth.normalizeEmail cfg.auth email

/-- {lit}`NormalizeDomain`. -/
def normalizeDomain (cfg : Config) (d : GoString) : GoString :=
  cfg.auth.lower ((trimSpace d).rdropWhile (· = '.'))

/-- The part of an e-mail address after the first {lit}`@`, if it is not empty. -/
def domainOf (email : GoString) : Option GoString :=
  match email.span (· ≠ '@') with
  | (_, _ :: c :: domain) => some (c :: domain)
  | _ => none

/-- {lit}`EmailDomainAllowed`. -/
def emailDomainAllowed (cfg : Config) (email : GoString) (allowedDomains : List GoString) :
    Bool :=
  if allowedDomains.isEmpty then true
  else
    match domainOf email with
    | none => false
    | some domain =>
        allowedDomains.any fun d => normalizeDomain cfg d = normalizeDomain cfg domain

/-! ## Creating user accounts -/

/-- {lit}`validateEmailDomain` of the auth service: the message of the error, if there is
one. -/
def validateEmailDomain (cfg : Config) (email : GoString) : Option GoString :=
  if emailDomainAllowed cfg email cfg.allowedEmailDomains then none
  else
    match domainOf email with
    | none => some "invalid email address".toList
    | some _ => some "email domain is not allowed".toList

/-- The row of an account that a workspace admin creates. -/
def newUser (email firstName lastName passwordHash : GoString) (mustChangePassword : Bool) :
    User where
  email := email
  passwordHash := passwordHash
  firstName := firstName
  lastName := lastName
  isActive := true
  isSuperAdmin := false
  deactivatedAt := none
  emailVerified := true
  lastLoginAt := none
  mustChangePassword := mustChangePassword

/-- {lit}`Create` of the user repository: the ID of the new user. -/
def storeUser (user : User) : Body (Except GoString Nat) := do
  match ← send (.createUser user) with
  | some (some id) => return .ok id
  | _ => return .error "creating user".toList

/-- The check of {lit}`CreateUserWithPassword` and {lit}`CreateUserWithoutPassword` for an
existing user. -/
def checkExistingUser (email : GoString) : Body (Except GoString Unit) := do
  match ← send (.findUserByEmail email) with
  | none => return .error "checking existing user".toList
  | some (some _) => return .error "email already registered".toList
  | some none => return .ok ()

/-- {lit}`CreateUserWithoutPassword`. -/
def createUserWithoutPassword (cfg : Config) (email firstName lastName : GoString) :
    Body (Except GoString Nat) := do
  let email := Auth.normalizeEmail cfg.auth email
  match validateEmailDomain cfg email with
  | some message => return .error message
  | none =>
  match ← checkExistingUser email with
  | .error message => return .error message
  | .ok _ => storeUser (newUser email firstName lastName [] false)

/-- {lit}`CreateUserWithPassword`. -/
def createUserWithPassword (cfg : Config) (email firstName lastName password : GoString) :
    Body (Except GoString Nat) := do
  let email := Auth.normalizeEmail cfg.auth email
  match validateEmailDomain cfg email with
  | some message => return .error message
  | none =>
  match Auth.validatePasswordWithContext cfg.auth password email with
  | some message => return .error message
  | none =>
  match ← checkExistingUser email with
  | .error message => return .error message
  | .ok _ =>
  match ← send .salt with
  | none => return .error "hashing password".toList
  | some salt =>
      match cfg.auth.hash salt password with
      | none => return .error "hashing password".toList
      | some passwordHash => storeUser (newUser email firstName lastName passwordHash true)

/-! ## Setup and workspaces -/

/-- {lit}`Initialize`.  The user is created outside the transaction; the tokens at the end
are not stored. -/
def setupInitialize (cfg : Config) (email password firstName lastName workspaceName
    workspaceSlug : GoString) : Body Result := do
  match ← send .countAllUsers with
  | none => return .error "counting users".toList
  | some count =>
  if 0 < count then return .error "setup already completed".toList
  else
    match Auth.validatePasswordWithContext cfg.auth password email with
    | some message => return .error message
    | none =>
    match ← send .salt with
    | none => return .error "hashing password".toList
    | some salt =>
    match cfg.auth.hash salt password with
    | none => return .error "hashing password".toList
    | some passwordHash =>
    let user :=
      { newUser (Auth.normalizeEmail cfg.auth email) firstName lastName passwordHash false with
        isSuperAdmin := true }
    match ← send .beginTransaction with
    | none => return .error "setup transaction".toList
    | some _ =>
    match ← storeUser user with
    | .error _ => return .error "setup transaction: creating first user".toList
    | .ok userID =>
    match ← send (.createOwned ⟨workspaceName, workspaceSlug, "Default workspace".toList,
        userID, true⟩) with
    | some (.ok workspaceID) =>
        match ← send .drawToken with
        | none => return .error "generating refresh token".toList
        | some _ => return .initialized userID workspaceID
    | some (.error message) => return .error ("setup transaction: ".toList ++ message)
    | none => return .error "setup transaction".toList

/-- {lit}`CreateWorkspace`.  The error of the count is dropped. -/
def createWorkspace (userID : Nat) (name slug description : GoString) : Body Result := do
  let count := (← send (.countWorkspacesBySlug slug none)).getD 0
  if 0 < count then return .error "workspace slug is already taken".toList
  else
    match ← send (.createOwned ⟨name, slug, description, userID, true⟩) with
    | some (.ok workspaceID) => return .workspace workspaceID
    | some (.error message) => return .error message
    | none => return .error "creating workspace".toList

/-- Whether {lit}`UpdateWorkspace` finds its slug taken; an error is dropped. -/
def slugTaken (workspaceID : Nat) (ws : Workspace) (slug : GoString) : Body Bool := do
  if slug ≠ ws.slug then
    let count := (← send (.countWorkspacesBySlug slug (some workspaceID))).getD 0
    return 0 < count
  else return false

/-- {lit}`UpdateWorkspace`. -/
def updateWorkspace (workspaceID : Nat) (name slug description : GoString) : Body Result := do
  match ← send (.findWorkspaceByID workspaceID) with
  | some (some ws) =>
      if ← slugTaken workspaceID ws slug then
        return .error "workspace slug is already taken".toList
      else
        match ← send (.updateWorkspace workspaceID name slug description) with
        | some true => return .workspace workspaceID
        | _ => return .error "updating workspace".toList
  | _ => return .error "workspace not found".toList

/-! ## Invitations -/

/-- The lifetime of an invitation. -/
def invitationDuration : Int :=
  7 * 24 * 3600 * 1000000000

/-- Send the e-mail of an invitation if there is a sender; errors are logged. -/
def notifyInvitee (cfg : Config) (workspaceID : Nat) (email : GoString) (rawToken : Token) :
    Body Unit := do
  if cfg.emailSender then
    let _ ← send (.findWorkspaceByID workspaceID)
    let _ ← send (.sendInvitationEmail email rawToken)
    return ()
  else return ()

/-- {lit}`InviteMember`. -/
def inviteMember (cfg : Config) (workspaceID : Nat) (email : GoString) (roleID invitedBy : Nat) :
    Body Result := do
  if cfg.registrationEnabled = false then
    return .error "invitations are disabled when registration is off".toList
  else
    let email := normalizeEmailRBAC cfg email
    if emailDomainAllowed cfg email cfg.allowedEmailDomains = false then
      return .error "email domain is not allowed".toList
    else
      match ← send (.findRoleByIDAndWorkspace roleID workspaceID) with
      | some (some role) =>
          if role.name = roleOwner then return .error "cannot invite user as owner".toList
          else
            match ← send .drawToken with
            | none => return .error "generating invitation token".toList
            | some rawToken =>
            let now ← timeNow
            match ← send (.createInvitation
                { workspaceID := workspaceID
                  email := email
                  roleID := roleID
                  tokenHash := hashToken rawToken
                  invitedBy := invitedBy
                  expiresAt := now + invitationDuration
                  acceptedAt := none
                  declinedAt := none }) with
            | some (some id) =>
                notifyInvitee cfg workspaceID email rawToken
                return .invitation id rawToken
            | _ => return .error "creating invitation".toList
      | _ => return .error "role not found".toList

/-- The check of a pending invitation that all operations make: it is neither accepted nor
declined. -/
def checkDecided (invitation : Invitation) : Option GoString :=
  if invitation.acceptedAt.isSome then some "invitation already accepted".toList
  else if invitation.declinedAt.isSome then some "invitation has been declined".toList
  else none

/-- The check that an invitation has not expired. -/
def checkExpired (invitation : Invitation) : Body (Option GoString) := do
  let now ← timeNow
  if invitation.expiresAt < now then return some "invitation has expired".toList
  else return none

/-- The check that an invitation is for an address. -/
def checkEmail (invitation : Invitation) (userEmail : GoString) : Option GoString :=
  if invitation.email ≠ userEmail then
    some "invitation email does not match accepting user".toList
  else none

/-- The transaction at the end of both acceptances. -/
def acceptFound (id : Nat) (invitation : Invitation) (userID : Nat) : Body Result := do
  match ← send (.accept id invitation userID) with
  | some (.ok member) => return .member member
  | some (.error message) => return .error message
  | none => return .error "accepting invitation".toList

/-- {lit}`AcceptInvitation`.  The address is checked last. -/
def acceptInvitation (cfg : Config) (token : Token) (userID : Nat) (userEmail : GoString) :
    Body Result := do
  if cfg.registrationEnabled = false then
    return .error "invitations are disabled when registration is off".toList
  else
    match ← send (.findInvitationByTokenHash (hashToken token)) with
    | some (some (id, invitation)) =>
        match checkDecided invitation with
        | some message => return .error message
        | none =>
        match ← checkExpired invitation with
        | some message => return .error message
        | none =>
        match checkEmail invitation userEmail with
        | some message => return .error message
        | none => acceptFound id invitation userID
    | _ => return .error "invitation not found".toList

/-- {lit}`AcceptInvitationByID`.  The address is checked first. -/
def acceptInvitationByID (cfg : Config) (id userID : Nat) (userEmail : GoString) :
    Body Result := do
  if cfg.registrationEnabled = false then
    return .error "invitations are disabled when registration is off".toList
  else
    match ← send (.findInvitationByIDGlobal id) with
    | some (some invitation) =>
        match checkEmail invitation userEmail with
        | some message => return .error message
        | none =>
        match checkDecided invitation with
        | some message => return .error message
        | none =>
        match ← checkExpired invitation with
        | some message => return .error message
        | none => acceptFound id invitation userID
    | _ => return .error "invitation not found".toList

/-- The end of both ways to decline, from the invitation that was found on. -/
def declineFound (id : Nat) (invitation : Invitation) (userEmail : GoString)
    (failure : GoString) : Body Result := do
  match checkEmail invitation userEmail with
  | some message => return .error message
  | none =>
  match checkDecided invitation with
  | some message => return .error message
  | none =>
  match ← checkExpired invitation with
  | some message => return .error message
  | none =>
      let now ← timeNow
      match ← send (.updateInvitation id { invitation with declinedAt := some now }) with
      | some true => return .ok
      | _ => return .error failure

/-- {lit}`DeclineInvitationByToken`. -/
def declineInvitationByToken (cfg : Config) (token : Token) (userEmail : GoString) :
    Body Result := do
  if cfg.registrationEnabled = false then
    return .error "invitations are disabled when registration is off".toList
  else
    match ← send (.findInvitationByTokenHash (hashToken token)) with
    | some (some (id, invitation)) =>
        declineFound id invitation userEmail "declining invitation by token".toList
    | _ => return .error "invitation not found".toList

/-- {lit}`DeclineInvitationByID`. -/
def declineInvitationByID (cfg : Config) (id : Nat) (userEmail : GoString) : Body Result := do
  if cfg.registrationEnabled = false then
    return .error "invitations are disabled when registration is off".toList
  else
    match ← send (.findInvitationByIDGlobal id) with
    | some (some invitation) =>
        declineFound id invitation userEmail "declining invitation".toList
    | _ => return .error "invitation not found".toList

/-- {lit}`RevokeInvitation`. -/
def revokeInvitation (cfg : Config) (workspaceID id : Nat) : Body Result := do
  if cfg.registrationEnabled = false then
    return .error "invitations are disabled when registration is off".toList
  else
    match ← send (.deletePendingInvitation workspaceID id) with
    | some true => return .ok
    | _ => return .error "invitation not found".toList

/-- {lit}`ResendInvitation`.  An expired invitation can be sent again. -/
def resendInvitation (cfg : Config) (workspaceID id : Nat) : Body Result := do
  if cfg.registrationEnabled = false then
    return .error "invitations are disabled when registration is off".toList
  else
    match ← send (.findInvitationByID workspaceID id) with
    | some (some invitation) =>
        match checkDecided invitation with
        | some message => return .error message
        | none =>
        match ← send .drawToken with
        | none => return .error "generating invitation token".toList
        | some rawToken =>
        let now ← timeNow
        match ← send (.updateInvitation id
            { invitation with
              tokenHash := hashToken rawToken
              expiresAt := now + invitationDuration }) with
        | some true =>
            notifyInvitee cfg workspaceID invitation.email rawToken
            return .invitation id rawToken
        | _ => return .error "updating invitation".toList
    | _ => return .error "invitation not found".toList

/-! ## Members -/

/-- {lit}`RemoveMember`. -/
def removeMember (workspaceID userID : Nat) : Body Result := do
  match ← send (.findWorkspaceByID workspaceID) with
  | some (some ws) =>
      if ws.ownerID = userID then return .error "cannot remove the workspace owner".toList
      else
        match ← send (.deleteMemberByUserAndWorkspace userID workspaceID) with
        | some true => return .ok
        | _ => return .error "member not found".toList
  | _ => return .error "workspace not found".toList

/-- {lit}`UpdateMemberRole`. -/
def updateMemberRole (workspaceID userID newRoleID : Nat) : Body Result := do
  match ← send (.findWorkspaceByID workspaceID) with
  | some (some ws) =>
      if ws.ownerID = userID then return .error "cannot change the owner's role".toList
      else
        match ← send (.findRoleByIDAndWorkspace newRoleID workspaceID) with
        | some (some role) =>
            if role.name = roleOwner then return .error "cannot change the owner's role".toList
            else
              match ← send (.findMemberByUserAndWorkspace userID workspaceID) with
              | some (some (id, member, _)) =>
                  match ← send (.updateMember id newRoleID) with
                  | some true => return .member (member.withRole newRoleID)
                  | _ => return .error "updating member role".toList
              | _ => return .error "member not found".toList
        | _ => return .error "role not found".toList
  | _ => return .error "workspace not found".toList

/-- The look-up of {lit}`AddUserToWorkspace`; an error is taken for a missing user. -/
def findExisting (cfg : Config) (email : GoString) : Body (Option Nat) := do
  if cfg.userCreator && cfg.userResolver then
    match ← send (.findUserByEmail email) with
    | some (some (userID, _)) => return some userID
    | _ => return none
  else return none

/-- The account that {lit}`AddUserToWorkspace` creates. -/
def createAccount (cfg : Config) (email firstName lastName password : GoString) :
    Body (Except GoString Nat) := do
  if cfg.userCreator = false then return .error "user account creator not configured".toList
  else if password ≠ [] then createUserWithPassword cfg email firstName lastName password
  else createUserWithoutPassword cfg email firstName lastName

/-- Send the link for setting a password if there is an initiator; errors are logged. -/
def notifyNewUser (cfg : Config) (email password : GoString) (userCreated : Bool) :
    Body Unit := do
  if userCreated ∧ password = [] ∧ cfg.passwordResetInit then
    let _ ← send (.initiatePasswordReset email)
    return ()
  else return ()

/-- The membership at the end of {lit}`AddUserToWorkspace`. -/
def joinWorkspace (cfg : Config) (workspaceID userID roleID : Nat) (email password : GoString)
    (userCreated : Bool) : Body Result := do
  match ← send (.addMember (!userCreated) workspaceID userID roleID) with
  | some (.ok member) =>
      notifyNewUser cfg email password userCreated
      return .added member userCreated
  | some (.error message) => return .error message
  | none => return .error "creating membership".toList

/-- {lit}`AddUserToWorkspace`.  The users are read and written outside the transaction. -/
def addUserToWorkspace (cfg : Config) (workspaceID : Nat) (email firstName lastName : GoString)
    (roleID : Nat) (password : GoString) : Body Result := do
  match ← send (.findRoleByIDAndWorkspace roleID workspaceID) with
  | some (some role) =>
      if role.name = roleOwner then return .error "cannot assign owner role".toList
      else
        let email := normalizeEmailRBAC cfg email
        if emailDomainAllowed cfg email cfg.allowedEmailDomains = false then
          return .error "email domain is not allowed".toList
        else
          match ← send .beginTransaction with
          | none => return .error "starting transaction".toList
          | some _ =>
          match ← findExisting cfg email with
          | some userID => joinWorkspace cfg workspaceID userID roleID email password false
          | none =>
              match ← createAccount cfg email firstName lastName password with
              | .error message => return .error message
              | .ok userID => joinWorkspace cfg workspaceID userID roleID email password true
  | _ => return .error "role not found".toList

end Rbac
end Veilence
