import Veilence.Sso.Database

/-!
# Creating and finding accounts

The operations of the auth service and of the first-time setup that create an account, and those
that find one by its e-mail address, over the calls of this part.  The operations of the auth
service on tokens and sessions are lifted to these calls.

A user row carries no auth provider, which nothing here reads.  Audit entries are left out; their
errors are logged.
-/

namespace Veilence
namespace Sso

open Go Foundation

open Auth (Token TokenHash TokenPair User)

/-- The body of an operation or of a part of it. -/
abbrev Body (α : Type) := Prog Call Answer α

/-- A single call. -/
abbrev send (c : Call) : Body (Option (Answer c)) :=
  Prog.call c

/-- A program of the auth service. -/
def lift {α : Type} : Auth.Body α → Body α
  | .ret a => .ret a
  | .cmd c k => .cmd (.auth c) fun r => lift (k r)

/-- What the identity provider says of a user in a SAML response. -/
structure Assertion where
  nameID : GoString
  email : GoString
  firstName : GoString
  lastName : GoString
deriving DecidableEq

/-- What the identity provider says of a user who has presented a code. -/
structure OAuthUserInfo where
  providerUserID : GoString
  email : GoString
  firstName : GoString
  lastName : GoString
  organizations : List GoString
  hostedDomain : GoString
deriving DecidableEq

/-- The configuration of the services: the settings, which optional parts are there, what the
packages of the providers make of responses and codes, and {lit}`strings.EqualFold`. -/
structure Config where
  rbac : Rbac.Config
  rateLimiter : Bool
  emailSender : Bool
  equalFold : GoString → GoString → Bool
  assertion : SSOConfig → GoString → GoString → Option Assertion
  googleUser : SSOConfig → GoString → GoString → Option OAuthUserInfo
  gitHubUser : SSOConfig → GoString → GoString → Option OAuthUserInfo
  logoutRequest : GoString → Option (GoString × GoString)
  logoutSignature : GoString → GoString → GoString → GoString → Bool

/-- The configuration of the auth service. -/
def Config.auth (cfg : Config) : Auth.Config :=
  cfg.rbac.auth

/-- Where the browser is sent after a callback, with tokens or with an error. -/
structure CallbackResult where
  callbackURL : GoString
  tokenPair : Option TokenPair
  isError : Bool
  errorCode : GoString
  errorMsg : GoString
deriving DecidableEq

/-- What an operation returns; an error with the text it begins with. -/
inductive Result where
  | ok
  | auth (result : Auth.Result)
  | user (id : Nat)
  | initialized (userID : Nat) (tokens : TokenPair)
  | resetToken (rawToken : Option Token)
  | callback (result : CallbackResult)
  | error (message : GoString)
deriving DecidableEq

/-- {lit}`time.Now`, which does not fail. -/
def timeNow : Body Int := do
  return (← send (.auth .timeNow)).getD 0

/-! ## Creating accounts -/

/-- {lit}`hashPassword`. -/
def hashPassword (cfg : Config) (password : GoString) : Body (Except GoString GoString) := do
  match ← send (.auth .salt) with
  | none => return .error "hashing password".toList
  | some salt =>
  match cfg.auth.hash salt password with
  | none => return .error "hashing password".toList
  | some passwordHash => return .ok passwordHash

/-- The check for an existing user that every creation makes first. -/
def checkExistingUser (email : GoString) : Body (Except GoString Unit) := do
  match ← send (.auth (.findUserByEmail email)) with
  | none => return .error "checking existing user".toList
  | some (some _) => return .error "email already registered".toList
  | some none => return .ok ()

/-- {lit}`Create` of the user repository: the ID of the new user. -/
def storeUser (user : User) (failure : GoString) : Body (Except GoString Nat) := do
  match ← send (.createUser user) with
  | some (some id) => return .ok id
  | _ => return .error failure

/-- The lifetime of a verification token. -/
def emailVerificationDuration : Int :=
  24 * 3600 * 1000000000

/-- The minimum time between two e-mails of one kind. -/
def emailCooldown : Int :=
  2 * 60 * 1000000000

/-- Whether the rate limiter holds a key back; an error lets it pass. -/
def heldBack (cfg : Config) (key : GoString) : Body Bool := do
  if cfg.rateLimiter then
    match ← send (.allow key emailCooldown) with
    | some false => return true
    | _ => return false
  else return false

/-- Send an e-mail if there is a sender; errors are logged. -/
def sendEmail (cfg : Config) (email : GoString) : Body Unit := do
  if cfg.emailSender then
    let _ ← send (.sendEmail email)
    return ()
  else return ()

/-- {lit}`GenerateEmailVerificationToken`. -/
def generateEmailVerificationToken (cfg : Config) (userID : Nat) : Body Unit := do
  if ← heldBack cfg ("verify_email:".toList ++ itoa userID) then return ()
  else
    let _ ← send (.deleteEmailVerificationsByUserID userID)
    match ← send .drawToken with
    | none => return ()
    | some rawToken =>
    let now ← timeNow
    match ← send (.createEmailVerification
        { userID := userID
          tokenHash := Auth.hashRefreshToken rawToken
          expiresAt := now + emailVerificationDuration }) with
    | some true =>
        if cfg.emailSender then
          match ← send (.auth (.findUserByID userID)) with
          | some (some user) => sendEmail cfg user.email
          | _ => return ()
        else return ()
    | _ => return ()

/-- {lit}`sendPostRegistrationVerification`; errors are logged. -/
def sendPostRegistrationVerification (cfg : Config) (userID : Nat) : Body Unit := do
  if cfg.auth.requireEmailVerification = false then return ()
  else generateEmailVerificationToken cfg userID

/-- The row that {lit}`Register` stores. -/
def registeredUser (email firstName lastName passwordHash : GoString) : User :=
  { Rbac.newUser email firstName lastName passwordHash false with emailVerified := false }

/-- {lit}`Register`. -/
def register (cfg : Config) (email password firstName lastName : GoString) : Body Result := do
  let email := Auth.normalizeEmail cfg.auth email
  if cfg.rbac.registrationEnabled = false then return .error "registration is disabled".toList
  else
    match Rbac.validateEmailDomain cfg.rbac email with
    | some message => return .error message
    | none =>
    match ← checkExistingUser email with
    | .error message => return .error message
    | .ok _ =>
    match Auth.validatePasswordWithContext cfg.auth password email with
    | some message => return .error message
    | none =>
    match ← hashPassword cfg password with
    | .error message => return .error message
    | .ok passwordHash =>
    match ← storeUser (registeredUser email firstName lastName passwordHash)
        "creating user".toList with
    | .error message => return .error message
    | .ok userID =>
        sendPostRegistrationVerification cfg userID
        return .user userID

/-- {lit}`CreateUserWithoutPassword`. -/
def createUserWithoutPassword (cfg : Config) (email firstName lastName : GoString) :
    Body (Except GoString Nat) := do
  let email := Auth.normalizeEmail cfg.auth email
  match Rbac.validateEmailDomain cfg.rbac email with
  | some message => return .error message
  | none =>
  match ← checkExistingUser email with
  | .error message => return .error message
  | .ok _ => storeUser (Rbac.newUser email firstName lastName [] false) "creating user".toList

/-- {lit}`CreateUserWithPassword`. -/
def createUserWithPassword (cfg : Config) (email firstName lastName password : GoString) :
    Body (Except GoString Nat) := do
  let email := Auth.normalizeEmail cfg.auth email
  match Rbac.validateEmailDomain cfg.rbac email with
  | some message => return .error message
  | none =>
  match Auth.validatePasswordWithContext cfg.auth password email with
  | some message => return .error message
  | none =>
  match ← checkExistingUser email with
  | .error message => return .error message
  | .ok _ =>
  match ← hashPassword cfg password with
  | .error message => return .error message
  | .ok passwordHash =>
      storeUser (Rbac.newUser email firstName lastName passwordHash true) "creating user".toList

/-- {lit}`CreateSSOUser`. -/
def createSSOUser (cfg : Config) (email firstName lastName : GoString) :
    Body (Except GoString Nat) := do
  let email := Auth.normalizeEmail cfg.auth email
  match ← checkExistingUser email with
  | .error message => return .error message
  | .ok _ => storeUser (Rbac.newUser email firstName lastName [] false) "creating SSO user".toList

/-- The row that {lit}`Initialize` stores. -/
def firstUser (email firstName lastName passwordHash : GoString) : User :=
  { Rbac.newUser email firstName lastName passwordHash false with isSuperAdmin := true }

/-- {lit}`Initialize` of the setup.  The tokens at the end are not stored. -/
def setupInitialize (cfg : Config) (email password firstName lastName : GoString) : Body Result := do
  match ← send .countAllUsers with
  | none => return .error "counting users".toList
  | some count =>
  if 0 < count then return .error "setup already completed".toList
  else
    match Auth.validatePasswordWithContext cfg.auth password email with
    | some message => return .error message
    | none =>
    match ← hashPassword cfg password with
    | .error message => return .error message
    | .ok passwordHash =>
    let user := firstUser (Auth.normalizeEmail cfg.auth email) firstName lastName passwordHash
    match ← send .beginTransaction with
    | none => return .error "setup transaction".toList
    | some _ =>
    match ← storeUser user "creating first user".toList with
    | .error message => return .error ("setup transaction: ".toList ++ message)
    | .ok userID =>
    match ← send .createOwned with
    | none => return .error "setup transaction".toList
    | some _ =>
    match ← send (.auth (.generateAccessToken userID user.email Auth.accessTokenDuration)) with
    | none => return .error "generating access token".toList
    | some accessToken =>
    match ← send (.auth .generateRefreshToken) with
    | none => return .error "generating refresh token".toList
    | some refreshToken => return .initialized userID ⟨accessToken, refreshToken⟩

/-! ## Finding accounts -/

/-- {lit}`GetUserByEmail`. -/
def getUserByEmail (email : GoString) : Body Result := do
  match ← send (.auth (.findUserByEmail email)) with
  | some (some (userID, _)) => return .user userID
  | _ => return .error "finding user by email".toList

/-- The lifetime of a password reset token. -/
def passwordResetDuration : Int :=
  3600 * 1000000000

/-- {lit}`ForgotPassword`. -/
def forgotPassword (cfg : Config) (email : GoString) : Body Result := do
  if ← heldBack cfg ("password_reset:".toList ++ email) then
    return .error "please wait before requesting another reset email".toList
  else
    match ← send (.auth (.findUserByEmail email)) with
    | none => return .error "finding user".toList
    | some none => return .resetToken none
    | some (some (userID, _)) =>
        let _ ← send (.deleteExpiredPasswordResetsByUserID userID)
        match ← send .drawToken with
        | none => return .error "generating reset token".toList
        | some rawToken =>
        let now ← timeNow
        match ← send (.createPasswordReset
            { userID := userID
              tokenHash := Auth.hashRefreshToken rawToken
              expiresAt := now + passwordResetDuration
              usedAt := none }) with
        | some true =>
            sendEmail cfg email
            return .resetToken (some rawToken)
        | _ => return .error "creating reset token".toList

end Sso
end Veilence
