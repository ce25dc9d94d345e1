import Veilence.Sso.Accounts

/-!
# The SSO service

The callbacks that end a sign-in with an external identity, the linking of identities and single
logout, each as a program of single calls, and the services together as a system of concurrent
calls.  A callback looks its state value up, deletes the state when it returns, and ignores the
error of the deletion.
-/

namespace Veilence
namespace Sso

open Go Foundation

open Auth (Token TokenHash TokenPair User)

/-! ## Results of callbacks -/

/-- The browser is sent on with an error. -/
def CallbackResult.failed (callbackURL : GoString) (errorCode errorMsg : String) : CallbackResult :=
  ⟨callbackURL, none, true, errorCode.toList, errorMsg.toList⟩

/-- The browser is sent on after a link. -/
def CallbackResult.linked (callbackURL : GoString) : CallbackResult :=
  ⟨callbackURL, none, false, [], []⟩

/-- The browser is sent on with tokens. -/
def CallbackResult.signedIn (callbackURL : GoString) (tokens : TokenPair) : CallbackResult :=
  ⟨callbackURL, some tokens, false, [], []⟩

/-! ## Linking -/

/-- {lit}`Validate` of an identity: the message of the error, if there is one. -/
def UserIdentity.validate (identity : UserIdentity) : Option GoString :=
  if identity.providerUserID = [] then some "provider user ID is required".toList
  else if identity.email = [] then some "email is required".toList
  else none

/-- Why an identity is not linked. -/
inductive LinkError where
  | conflict
  | other
deriving DecidableEq

/-- {lit}`LinkIdentity`. -/
def linkIdentity (userID : Nat) (provider : Provider) (providerUserID email : GoString) :
    Body (Except LinkError Unit) := do
  match ← send (.findIdentity provider providerUserID) with
  | none => return .error .other
  | some (some (id, existing)) =>
      if existing.userID ≠ userID then return .error .conflict
      else if existing.email ≠ email then
        match ← send (.updateIdentity id { existing with email := email }) with
        | some true => return .ok ()
        | _ => return .error .other
      else return .ok ()
  | some none =>
      let identity : UserIdentity := ⟨userID, provider, providerUserID, email⟩
      match identity.validate with
      | some _ => return .error .other
      | none =>
      match ← send (.createIdentity identity) with
      | some (some _) => return .ok ()
      | _ => return .error .other

/-- What a callback makes of a link. -/
def linkResult (callbackURL : GoString) : Except LinkError Unit → CallbackResult
  | .ok _ => .linked callbackURL
  | .error .conflict =>
      .failed callbackURL "identity_conflict" "This identity is already linked to another account."
  | .error .other =>
      .failed callbackURL "internal_error" "Failed to link identity. Please try again."

/-! ## Logging in -/

/-- What an identity provider says of the user of a callback, with the provider. -/
structure ProviderUser where
  provider : Provider
  providerUserID : GoString
  email : GoString
  firstName : GoString
  lastName : GoString
deriving DecidableEq

/-- What a callback has besides: where to send the browser, and the client. -/
structure Request where
  callbackURL : GoString
  ipAddress : GoString
  userAgent : GoString
deriving DecidableEq

/-- {lit}`CreateSessionForUser` at the end of a login. -/
def createSession (userID : Nat) (provider : Provider) (req : Request) : Body Result := do
  match ← lift (Auth.createSessionForUser userID provider.name req.ipAddress req.userAgent) with
  | .tokensFor tokens _ => return .callback (.signedIn req.callbackURL tokens)
  | _ => return .error "resolveAndIssueJWT: creating session".toList

/-- A login with an identity that is linked. -/
def loginExisting (userID : Nat) (provider : Provider) (req : Request) : Body Result := do
  match ← send (.auth (.findUserByID userID)) with
  | some (some user) =>
      if user.isActive = false then
        return .callback (.failed req.callbackURL "account_deactivated" "")
      else createSession userID provider req
  | _ => return .error "resolveAndIssueJWT: finding user".toList

/-- A login that creates an account and an identity. -/
def loginNew (cfg : Config) (u : ProviderUser) (req : Request) : Body Result := do
  match ← createSSOUser cfg (cfg.auth.lower u.email) u.firstName u.lastName with
  | .error message => return .error ("resolveAndIssueJWT: creating user: ".toList ++ message)
  | .ok userID =>
      let identity : UserIdentity := ⟨userID, u.provider, u.providerUserID, u.email⟩
      match identity.validate with
      | some message =>
          return .error ("resolveAndIssueJWT: validating identity: ".toList ++ message)
      | none =>
      match ← send (.createIdentity identity) with
      | some (some _) => createSession userID u.provider req
      | _ => return .error "resolveAndIssueJWT: creating identity".toList

/-- A login without an identity: the look-up by the e-mail address, and the creation. -/
def loginUnlinked (cfg : Config) (config : SSOConfig) (u : ProviderUser) (req : Request) :
    Body Result := do
  match ← send (.auth (.findUserByEmail (cfg.auth.lower u.email))) with
  | none => return .error "resolveAndIssueJWT: finding user by email".toList
  | some (some _) =>
      return .callback (.failed req.callbackURL "identity_not_linked"
        "An account with this email exists. Link your SSO identity from account settings first.")
  | some none =>
      if config.autoCreateUser = false then
        return .callback (.failed req.callbackURL "account_not_found" "")
      else loginNew cfg u req

/-- {lit}`resolveAndIssueJWT`. -/
def resolveAndIssueJWT (cfg : Config) (config : SSOConfig) (u : ProviderUser) (req : Request) :
    Body Result := do
  if Rbac.emailDomainAllowed cfg.rbac u.email cfg.rbac.allowedEmailDomains = false then
    return .callback (.failed req.callbackURL "domain_not_allowed" "Email domain is not allowed")
  else if Rbac.emailDomainAllowed cfg.rbac u.email config.allowedDomains = false then
    return .callback (.failed req.callbackURL "domain_not_allowed" "Email domain is not allowed")
  else
    match ← send (.findIdentity u.provider u.providerUserID) with
    | none => return .error "resolveAndIssueJWT: finding identity".toList
    | some (some (_, identity)) => loginExisting identity.userID u.provider req
    | some none => loginUnlinked cfg config u req

/-! ## Callbacks -/

/-- The frame of both callbacks: the look-up of the state, and its deletion at the end. -/
def withState (handler : String) (state : Token) (f : SSOState → Body Result) : Body Result := do
  match ← send (.findByState state) with
  | none => return .error (handler.toList ++ ": finding state".toList)
  | some none => return .error "sso state not found or expired".toList
  | some (some (id, ssoState)) =>
      let result ← f ssoState
      let _ ← send (.deleteState id)
      return result

/-- The configuration of a pending sign-in. -/
def withConfig (handler : String) (ssoState : SSOState) (f : SSOConfig → Body Result) :
    Body Result := do
  match ← send (.findConfigByID ssoState.configID) with
  | some (some config) => f config
  | _ => return .error (handler.toList ++ ": finding config".toList)

/-- The end of both callbacks: a link or a login. -/
def finishCallback (cfg : Config) (config : SSOConfig) (ssoState : SSOState)
    (linkProvider : Provider) (u : ProviderUser) (req : Request) : Body Result := do
  match ssoState.mode with
  | .link userID =>
      let linked ← linkIdentity userID linkProvider u.providerUserID u.email
      return .callback (linkResult ssoState.callbackURL linked)
  | .login => resolveAndIssueJWT cfg config u req

/-- {lit}`HandleSAMLCallback`. -/
def handleSAMLCallback (cfg : Config) (samlResponse : GoString) (relayState : Token)
    (ipAddress userAgent : GoString) : Body Result :=
  withState "HandleSAMLCallback" relayState fun ssoState =>
    withConfig "HandleSAMLCallback" ssoState fun config => do
      match ← send (.validateResponse config samlResponse ssoState.samlRequestID) with
      | none => return .error "HandleSAMLCallback: validating SAML response".toList
      | some _ =>
      match cfg.assertion config samlResponse ssoState.samlRequestID with
      | none => return .error "HandleSAMLCallback: validating SAML response".toList
      | some a =>
          finishCallback cfg config ssoState config.provider
            ⟨config.provider, a.nameID, a.email, a.firstName, a.lastName⟩
            ⟨ssoState.callbackURL, ipAddress, userAgent⟩

/-- The exchange of a code. -/
def exchangeCode (cfg : Config) (config : SSOConfig) (ssoState : SSOState) (code : GoString) :
    Body (Except GoString OAuthUserInfo) := do
  match ssoState.provider with
  | .google =>
      match ← send (.exchangeGoogle config code ssoState.codeVerifier) with
      | none => return .error "HandleOAuthCallback: exchanging code".toList
      | some _ =>
      match cfg.googleUser config code ssoState.codeVerifier with
      | none => return .error "HandleOAuthCallback: exchanging code".toList
      | some info => return .ok info
  | .github =>
      match ← send (.exchangeGitHub config code ssoState.codeVerifier) with
      | none => return .error "HandleOAuthCallback: exchanging code".toList
      | some _ =>
      match cfg.gitHubUser config code ssoState.codeVerifier with
      | none => return .error "HandleOAuthCallback: exchanging code".toList
      | some info => return .ok info
  | .saml => return .error "unsupported sso provider".toList

/-- {lit}`isOrgMember`. -/
def isOrgMember (cfg : Config) (userOrgs allowedOrgs : List GoString) : Bool :=
  allowedOrgs.any fun allowed => userOrgs.any fun userOrg => cfg.equalFold userOrg allowed

/-- {lit}`HandleOAuthCallback`.  A link is made for the provider of the state, a login for the
provider of the configuration. -/
def handleOAuthCallback (cfg : Config) (code : GoString) (state : Token)
    (ipAddress userAgent : GoString) : Body Result :=
  withState "HandleOAuthCallback" state fun ssoState =>
    withConfig "HandleOAuthCallback" ssoState fun config => do
      match ← exchangeCode cfg config ssoState code with
      | .error message => return .error message
      | .ok info =>
          if config.gitHubOrgs ≠ [] ∧ config.provider = .github ∧
              isOrgMember cfg info.organizations config.gitHubOrgs = false then
            return .callback (.failed ssoState.callbackURL "domain_not_allowed"
              "Not a member of any allowed GitHub organization")
          else if config.googleHostedDomain ≠ [] ∧ config.provider = .google ∧
              cfg.equalFold info.hostedDomain config.googleHostedDomain = false then
            return .callback (.failed ssoState.callbackURL "domain_not_allowed"
              "Google account is not from the required hosted domain")
          else
            finishCallback cfg config ssoState ssoState.provider
              ⟨config.provider, info.providerUserID, info.email, info.firstName, info.lastName⟩
              ⟨ssoState.callbackURL, ipAddress, userAgent⟩

/-! ## Single logout -/

/-- {lit}`HandleSAMLSLO`. -/
def handleSAMLSLO (cfg : Config) (samlRequest signature sigAlg : GoString) : Body Result := do
  match cfg.logoutRequest samlRequest with
  | none => return .error "HandleSAMLSLO: parsing logout request".toList
  | some (nameID, issuer) =>
      if nameID = [] then return .error "HandleSAMLSLO: no NameID in logout request".toList
      else if issuer = [] then return .error "HandleSAMLSLO: no Issuer in logout request".toList
      else
        match ← send (.findConfigBySAMLEntityID issuer) with
        | some (some config) =>
            if cfg.logoutSignature samlRequest signature sigAlg config.samlCertificate = false then
              return .error "HandleSAMLSLO: signature verification failed".toList
            else
              match ← send (.findIdentity .saml nameID) with
              | none => return .error "HandleSAMLSLO: finding identity".toList
              | some none => return .ok
              | some (some (_, identity)) =>
              match ← send (.auth (.deleteSessionsByUserID identity.userID)) with
              | none => return .error "HandleSAMLSLO: deleting sessions".toList
              | some _ =>
              match ← send (.auth (.deleteRefreshTokensByUserID identity.userID)) with
              | none => return .error "HandleSAMLSLO: deleting refresh tokens".toList
              | some _ => return .ok
        | _ => return .error "HandleSAMLSLO: finding SSO config by issuer".toList

/-! ## The services as a system -/

/-- The operations of the services. -/
inductive Op where
  | auth (op : Auth.Op)
  | register (email password firstName lastName : GoString)
  | createUserWithoutPassword (email firstName lastName : GoString)
  | createUserWithPassword (email firstName lastName password : GoString)
  | createSSOUser (email firstName lastName : GoString)
  | setupInitialize (email password firstName lastName : GoString)
  | getUserByEmail (email : GoString)
  | forgotPassword (email : GoString)
  | samlCallback (samlResponse : GoString) (relayState : Token) (ipAddress userAgent : GoString)
  | oauthCallback (code : GoString) (state : Token) (ipAddress userAgent : GoString)
  | samlSLO (samlRequest signature sigAlg : GoString)
deriving DecidableEq

/-- The result of an operation that creates an account. -/
def created : Except GoString Nat → Result
  | .error message => .error message
  | .ok userID => .user userID

/-- The body of an operation. -/
def bodyOf (cfg : Config) : Op → Body Result
  | .auth op => do return .auth (← lift (Auth.bodyOf cfg.auth op))
  | .register email password firstName lastName =>
      Sso.register cfg email password firstName lastName
  | .createUserWithoutPassword email firstName lastName => do
      return created (← Sso.createUserWithoutPassword cfg email firstName lastName)
  | .createUserWithPassword email firstName lastName password => do
      return created (← Sso.createUserWithPassword cfg email firstName lastName password)
  | .createSSOUser email firstName lastName => do
      return created (← Sso.createSSOUser cfg email firstName lastName)
  | .setupInitialize email password firstName lastName =>
      Sso.setupInitialize cfg email password firstName lastName
  | .getUserByEmail email => Sso.getUserByEmail email
  | .forgotPassword email => Sso.forgotPassword cfg email
  | .samlCallback samlResponse relayState ipAddress userAgent =>
      Sso.handleSAMLCallback cfg samlResponse relayState ipAddress userAgent
  | .oauthCallback code state ipAddress userAgent =>
      Sso.handleOAuthCallback cfg code state ipAddress userAgent
  | .samlSLO samlRequest signature sigAlg => Sso.handleSAMLSLO cfg samlRequest signature sigAlg

/-- The services: any number of operations at a time, while time passes. -/
def ssoSystem (cfg : Config) : System Database Op Call Answer Result where
  body := bodyOf cfg
  exec := Database.exec
  fallible := fun c => c ≠ .auth .timeNow
  sticky := false
  enabled := fun _ _ => True
  begin := fun db _ => db
  done := fun db _ _ => db
  stop := fun db _ => db
  env := fun db db' => ∃ t, db.auth.now ≤ t ∧ db' = { db with auth := { db.auth with now := t } }

instance (cfg : Config) (db : Database) (op : Op) : Decidable ((ssoSystem cfg).enabled db op) :=
  inferInstanceAs (Decidable True)

/-- The commands of an operation that runs alone. -/
def machine : Machine Database Call Answer :=
  ⟨Database.exec, fun c => c ≠ .auth .timeNow⟩

theorem run_send {α : Type} (c : Call) (f : Option (Answer c) → Body α) (db : Database) :
    machine.run (send c >>= f) db = machine.run (f (some (db.exec c).2)) (db.exec c).1 :=
  rfl

theorem run_timeNow {α : Type} (f : Int → Body α) (db : Database) :
    machine.run (timeNow >>= f) db = machine.run (f db.auth.now) db :=
  rfl

/-- A program of the auth service runs as it does there. -/
theorem runFailing_lift {α : Type} (position : Option Nat) (p : Auth.Body α) (db : Database) :
    machine.runFailing position (lift p) db =
      ({ db with auth := (Auth.machine.runFailing position p db.auth).1 },
        (Auth.machine.runFailing position p db.auth).2) := by
  induction p generalizing position db with
  | ret a => rw [lift, Machine.runFailing_ret, Machine.runFailing_ret]
  | cmd c k ih =>
      rw [lift, Machine.runFailing_cmd, Machine.runFailing_cmd]
      split_ifs
      · exact ih _ _ _
      · exact ih _ _ _

/-- Without failures it does so as well. -/
theorem run_lift {α : Type} (p : Auth.Body α) (db : Database) :
    machine.run (lift p) db =
      ({ db with auth := (Auth.machine.run p db.auth).1 }, (Auth.machine.run p db.auth).2) := by
  rw [← Machine.runFailing_none, runFailing_lift, Machine.runFailing_none]

/-- A world of the services. -/
abbrev SsoWorld := World Database Op Call Answer Result

/-! ## A small instance -/

/-- A configuration in which everything is allowed and every code is that of one Google user. -/
def signInConfig : Config where
  rbac :=
    { auth := Auth.plainConfig
      registrationEnabled := true
      allowedEmailDomains := []
      emailSender := false
      userResolver := true
      userCreator := true
      passwordResetInit := false
      keyPrefix := fun _ => "vmx_000000".toList }
  rateLimiter := false
  emailSender := false
  equalFold := fun a b => toLower a = toLower b
  assertion := fun _ _ _ => none
  googleUser := fun _ _ _ => some ⟨"1001".toList, "user@x".toList, [], [], [], []⟩
  gitHubUser := fun _ _ _ => none
  logoutRequest := fun _ => none
  logoutSignature := fun _ _ _ _ => false

/-- Sign-in with Google, with automatic creation of accounts. -/
def googleSignIn : SSOConfig where
  provider := .google
  isEnabled := true
  allowedDomains := []
  autoCreateUser := true
  samlEntityID := []
  samlCertificate := []
  googleHostedDomain := []
  gitHubOrgs := []

/-- Two users and the configuration, without identities. -/
def twoAccounts : Database where
  auth := Auth.twoUsers
  configs := Ledger.empty.add googleSignIn
  identities := .empty
  states := .empty
  cooldowns := .empty

end Sso
end Veilence
