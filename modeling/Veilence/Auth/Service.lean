import Veilence.Foundation.Sequential
import Veilence.Auth.Database

/-!
# The auth service

The operations of the auth service on users, refresh tokens and sessions, each as a
program of single calls.  The code looks at the errors of some calls and drops those of
others.

The password hasher and the case mapping of Unicode are parameters.
-/

namespace Veilence
namespace Auth

open Go Foundation

/-- The body of an operation or of a part of it. -/
abbrev Body (α : Type) := Prog Call Answer α

/-- A single call. -/
abbrev send (c : Call) : Body (Option (Answer c)) :=
  Prog.call c

/-- The configuration: whether a login needs a verified e-mail address, the password
hasher, and {lit}`strings.ToLower`. -/
structure Config where
  requireEmailVerification : Bool
  hash : Nat → GoString → Option GoString
  compare : GoString → GoString → Bool
  lower : GoString → GoString

/-- The lifetime of an access token. -/
def accessTokenDuration : Int :=
  15 * 60 * 1000000000

/-- The lifetime of a refresh token. -/
def refreshTokenDuration : Int :=
  7 * 24 * 3600 * 1000000000

/-- The lifetime of a session. -/
def sessionDuration : Int :=
  7 * 24 * 3600 * 1000000000

/-- The maximum number of concurrent sessions of a user. -/
def maxSessionsPerUser : Nat :=
  10

/-- An access token and a refresh token. -/
structure TokenPair where
  accessToken : AccessToken
  refreshToken : Token
deriving DecidableEq

/-- What an operation returns; an error with the text it begins with. -/
inductive Result where
  | ok
  | user (user : User)
  | login (user : User) (tokens : TokenPair)
  | tokens (tokens : TokenPair)
  | tokensFor (tokens : TokenPair) (expiresIn : Int)
  | sessions (sessions : List (Nat × Session))
  | cleaned (count : Nat)
  | error (message : GoString)
deriving DecidableEq

/-- {lit}`time.Now`, which does not fail. -/
def timeNow : Body Int := do
  return (← send .timeNow).getD 0

/-! ## Passwords and e-mail addresses -/

/-- The minimum length of a password. -/
def passwordMinLength : Nat :=
  8

/-- The maximum length of a password. -/
def passwordMaxLength : Nat :=
  72

/-- {lit}`hashPassword`. -/
def hashPassword (cfg : Config) (password : GoString) : Body (Option GoString) := do
  match ← send .salt with
  | none => return none
  | some salt => return cfg.hash salt password

/-- {lit}`checkPassword`. -/
def checkPassword (cfg : Config) (password hash : GoString) : Bool :=
  cfg.compare hash password

/-- {lit}`normalizeEmail`. -/
def normalizeEmail (cfg : Config) (email : GoString) : GoString :=
  let email := cfg.lower (trimSpace email)
  match email.span (· ≠ '@') with
  | (_, []) => email
  | (loc, rest) => loc.takeWhile (· ≠ '+') ++ rest

/-- The part of an e-mail address that a password must not contain. -/
def localPartOf (email : GoString) : GoString :=
  match email.span (· ≠ '@') with
  | (_, []) => email
  | ([], _) => email
  | (loc, _) => loc

/-- {lit}`ValidatePasswordWithContext`: the message of the error, if there is one. -/
def validatePasswordWithContext (cfg : Config) (password email : GoString) :
    Option GoString :=
  if runeCount password < passwordMinLength then
    some ("password must be at least ".toList ++ itoa passwordMinLength ++ " characters".toList)
  else if passwordMaxLength < runeCount password then
    some ("password must be at most ".toList ++ itoa passwordMaxLength ++ " characters".toList)
  else if email ≠ [] ∧ 3 ≤ (localPartOf email).length ∧
      cfg.lower (localPartOf email) <:+: cfg.lower password then
    some "password must not contain your email address".toList
  else none

/-! ## Tokens and sessions -/

/-- {lit}`generateTokenPair`. -/
def generateTokenPair (userID : Nat) (user : User) : Body (Except GoString TokenPair) := do
  match ← send (.generateAccessToken userID user.email accessTokenDuration) with
  | none => return .error "generating access token".toList
  | some accessToken =>
  match ← send .generateRefreshToken with
  | none => return .error "generating refresh token".toList
  | some refreshToken =>
  let now ← timeNow
  match ← send (.createRefreshToken
      { userID := userID
        tokenHash := hashRefreshToken refreshToken
        expiresAt := now + refreshTokenDuration }) with
  | some true => return .ok ⟨accessToken, refreshToken⟩
  | _ => return .error "storing refresh token".toList

/-- The loop that deletes the oldest sessions; whether every deletion succeeded. -/
def deleteOldestSessions (userID : Nat) : (count : Nat) → Body Bool
  | 0 => return true
  | count + 1 => do
      if maxSessionsPerUser ≤ count + 1 then
        match ← send (.deleteOldestSessionByUserID userID) with
        | none => return false
        | some _ => deleteOldestSessions userID count
      else return true

/-- {lit}`CreateSession`. -/
def createSession (userID : Nat) (tokenHash : TokenHash)
    (ipAddress userAgent authProvider : GoString) : Body (Except GoString Session) := do
  match ← send (.countSessionsByUserID userID) with
  | none => return .error "counting sessions".toList
  | some count =>
  match ← deleteOldestSessions userID count with
  | false => return .error "deleting oldest session".toList
  | true =>
  let lastActive ← timeNow
  let now ← timeNow
  let session : Session :=
    { userID := userID
      tokenHash := tokenHash
      ipAddress := ipAddress
      userAgent := userAgent.take 512
      authProvider := authProvider
      createdAt := 0
      lastActive := lastActive
      expiresAt := now + sessionDuration }
  match ← send (.createSession session) with
  | some true => return .ok session
  | _ => return .error "creating session".toList

/-! ## Signing in -/

/-- Store the time of the login; an error is dropped. -/
def touchLogin (userID : Nat) (user : User) : Body User := do
  let now ← timeNow
  let user := { user with lastLoginAt := some now }
  let _ ← send (.updateUser userID user)
  return user

/-- {lit}`CreateSessionForUser`. -/
def createSessionForUser (userID : Nat) (provider ipAddress userAgent : GoString) :
    Body Result := do
  match ← send (.findUserByID userID) with
  | some (some user) =>
      match ← generateTokenPair userID user with
      | .error message =>
          return .error ("CreateSessionForUser: generating tokens: ".toList ++ message)
      | .ok tokens =>
          let _ ← createSession userID (hashRefreshToken tokens.refreshToken) ipAddress userAgent
            provider
          let _ ← touchLogin userID user
          return .tokensFor tokens (accessTokenDuration / 1000000000)
  | _ => return .error "CreateSessionForUser: finding user".toList

/-- {lit}`Login`. -/
def login (cfg : Config) (email password ipAddress userAgent : GoString) : Body Result := do
  match ← send (.findUserByEmail (normalizeEmail cfg email)) with
  | some (some (userID, user)) =>
      if user.isActive = false then return .error "account is deactivated".toList
      else if checkPassword cfg password user.passwordHash = false then
        return .error "invalid email or password".toList
      else if cfg.requireEmailVerification = true ∧ user.emailVerified = false then
        return .error "email_verification_required".toList
      else
        match ← generateTokenPair userID user with
        | .error message => return .error ("generating tokens: ".toList ++ message)
        | .ok tokens =>
            let _ ← createSession userID (hashRefreshToken tokens.refreshToken) ipAddress
              userAgent "local".toList
            let user ← touchLogin userID user
            return .login user tokens
  | _ => return .error "invalid email or password".toList

/-! ## Refreshing and signing out -/

/-- Set the last activity of the session that was found; an error is dropped. -/
def touchSession : Option Nat → Body Unit
  | none => return ()
  | some sessionID => do
      let now ← timeNow
      let _ ← send (.updateSessionLastActive sessionID now)
      return ()

/-- Give the session that was found the hash of the new token; errors are logged. -/
def moveSession (newTokenHash : TokenHash) : Option Nat → Body Unit
  | none => return ()
  | some sessionID => do
      let _ ← send (.updateSessionTokenHash sessionID newTokenHash)
      touchSession (some sessionID)

/-- The rotation in {lit}`RefreshTokens`, from the lookup of the session on.  The error of
the {lit}`Delete` is dropped, and whether it removed a row is not looked at. -/
def rotate (tokenHash : TokenHash) (storedID userID : Nat) (user : User) : Body Result := do
  let session := ((← send (.findSessionByTokenHash tokenHash)).getD none).map Prod.fst
  touchSession session
  let _ ← send (.deleteRefreshToken storedID)
  match ← generateTokenPair userID user with
  | .error message => return .error ("generating tokens: ".toList ++ message)
  | .ok tokens =>
      moveSession (hashRefreshToken tokens.refreshToken) session
      return .tokens tokens

/-- {lit}`RefreshTokens`. -/
def refreshTokens (cfg : Config) (refreshToken : Token) : Body Result := do
  let tokenHash := hashRefreshToken refreshToken
  match ← send (.findRefreshTokenByTokenHash tokenHash) with
  | some (some (storedID, stored)) =>
      let now ← timeNow
      if stored.expiresAt < now then
        let _ ← send (.deleteRefreshToken storedID)
        return .error "refresh token expired".toList
      else
        match ← send (.findUserByID stored.userID) with
        | some (some user) =>
            if user.isActive = false then return .error "account is deactivated".toList
            else if cfg.requireEmailVerification = true ∧ user.emailVerified = false then
              let _ ← send (.deleteRefreshToken storedID)
              return .error "email_verification_required".toList
            else rotate tokenHash storedID stored.userID user
        | _ => return .error "finding user".toList
  | _ => return .error "invalid refresh token".toList

/-- {lit}`Logout`. -/
def logout (refreshToken : Token) : Body Result := do
  let tokenHash := hashRefreshToken refreshToken
  match ← send (.findSessionByTokenHash tokenHash) with
  | some (some (sessionID, _)) => let _ ← send (.deleteSession sessionID)
  | _ => pure ()
  match ← send (.deleteRefreshTokenByTokenHash tokenHash) with
  | none => return .error "deleting refresh token".toList
  | some _ => return .ok

/-! ## Sessions -/

/-- {lit}`ListSessions`. -/
def listSessions (userID : Nat) : Body Result := do
  match ← send (.findSessionsByUserID userID) with
  | none => return .error "listing sessions".toList
  | some sessions => return .sessions sessions

/-- {lit}`RevokeSession`.  A stored hash is never empty. -/
def revokeSession (userID sessionID : Nat) : Body Result := do
  match ← send (.findSessionByID sessionID) with
  | some (some session) =>
      if session.userID ≠ userID then return .error "session not found".toList
      else
        match ← send (.deleteSession sessionID) with
        | none => return .error "deleting session".toList
        | some _ =>
            let _ ← send (.deleteRefreshTokenByTokenHash session.tokenHash)
            return .ok
  | _ => return .error "session not found".toList

/-- {lit}`CleanExpiredSessions`. -/
def cleanExpiredSessions : Body Result := do
  match ← send .deleteExpiredSessions with
  | none => return .error "cleaning expired sessions".toList
  | some count => return .cleaned count

/-! ## Changing a user -/

/-- {lit}`UpdateProfile`. -/
def updateProfile (userID : Nat) (firstName lastName : GoString) : Body Result := do
  match ← send (.findUserByID userID) with
  | some (some user) =>
      let user := { user with firstName := firstName, lastName := lastName }
      match ← send (.updateUser userID user) with
      | none => return .error "updating user profile".toList
      | some _ => return .user user
  | _ => return .error "finding user".toList

/-- {lit}`VerifyEmail`. -/
def verifyEmail (rawToken : Token) : Body Result := do
  match ← send (.findEmailVerificationByTokenHash (hashRefreshToken rawToken)) with
  | none => return .error "finding verification token".toList
  | some none => return .error "invalid or expired verification token".toList
  | some (some (storedID, stored)) =>
      let now ← timeNow
      if stored.expiresAt < now then
        return .error "invalid or expired verification token".toList
      else
        match ← send (.findUserByID stored.userID) with
        | some (some user) =>
            match ← send (.updateUser stored.userID { user with emailVerified := true }) with
            | none => return .error "updating user email verification".toList
            | some _ =>
                let _ ← send (.deleteEmailVerification storedID)
                return .ok
        | _ => return .error "finding user".toList

/-- The row after {lit}`ResetPassword`. -/
def resetUser (user : User) (passwordHash : GoString) : User :=
  { user with
    passwordHash := passwordHash
    emailVerified := if user.emailVerified = false then true else user.emailVerified
    mustChangePassword := if user.mustChangePassword then false else user.mustChangePassword }

/-- {lit}`ResetPassword`. -/
def resetPassword (cfg : Config) (rawToken : Token) (newPassword : GoString) :
    Body Result := do
  match ← send (.findPasswordResetByTokenHash (hashRefreshToken rawToken)) with
  | none => return .error "finding reset token".toList
  | some none => return .error "invalid or expired reset token".toList
  | some (some (storedID, stored)) =>
      if stored.usedAt.isSome then return .error "reset token already used".toList
      else
        let now ← timeNow
        if stored.expiresAt < now then return .error "invalid or expired reset token".toList
        else
          match ← send (.findUserByID stored.userID) with
          | some (some user) =>
              match validatePasswordWithContext cfg newPassword user.email with
              | some message => return .error message
              | none =>
              match ← hashPassword cfg newPassword with
              | none => return .error "hashing password".toList
              | some passwordHash =>
              match ← send (.updateUser stored.userID (resetUser user passwordHash)) with
              | none => return .error "updating password".toList
              | some _ =>
                  let _ ← send (.markPasswordResetUsed storedID)
                  let _ ← send (.deleteRefreshTokensByUserID stored.userID)
                  let _ ← send (.deleteSessionsByUserID stored.userID)
                  return .ok
          | _ => return .error "finding user".toList

/-- Delete the refresh tokens and the sessions of a user, except those of one token;
errors are logged. -/
def invalidate (userID : Nat) : Option TokenHash → Body Unit
  | some currentTokenHash => do
      let _ ← send (.deleteRefreshTokensByUserIDExceptTokenHash userID currentTokenHash)
      let _ ← send (.deleteSessionsByUserIDExceptTokenHash userID currentTokenHash)
      return ()
  | none => do
      let _ ← send (.deleteRefreshTokensByUserID userID)
      let _ ← send (.deleteSessionsByUserID userID)
      return ()

/-- The row after {lit}`ChangePassword`. -/
def changedUser (user : User) (passwordHash : GoString) : User :=
  { user with
    passwordHash := passwordHash
    mustChangePassword := if user.mustChangePassword then false else user.mustChangePassword }

/-- {lit}`ChangePassword`; without a current token everything is invalidated. -/
def changePassword (cfg : Config) (userID : Nat) (currentPassword newPassword : GoString)
    (currentTokenHash : Option TokenHash) : Body Result := do
  match ← send (.findUserByID userID) with
  | some (some user) =>
      if checkPassword cfg currentPassword user.passwordHash = false then
        return .error "current password is incorrect".toList
      else if checkPassword cfg newPassword user.passwordHash then
        return .error "new password must be different from current password".toList
      else
        match validatePasswordWithContext cfg newPassword user.email with
        | some message => return .error message
        | none =>
        match ← hashPassword cfg newPassword with
        | none => return .error "hashing new password".toList
        | some passwordHash =>
        match ← send (.updateUser userID (changedUser user passwordHash)) with
        | none => return .error "updating password".toList
        | some _ =>
            invalidate userID currentTokenHash
            return .ok
  | _ => return .error "finding user".toList

/-! ## Administration -/

/-- The fields that {lit}`AdminUpdateUser` changes. -/
structure AdminUserUpdate where
  firstName : Option GoString
  lastName : Option GoString
  isSuperAdmin : Option Bool
  isActive : Option Bool
deriving DecidableEq

/-- Whether one super admin would be left at most, when a super admin is about to lose a
role; the error of the check otherwise. -/
def guardLastSuperAdmin (loses : Bool) : Body (Except GoString Unit) := do
  if loses then
    match ← send .countSuperAdmins with
    | none => return .error "AdminUpdateUser: counting super admins".toList
    | some count =>
        if count ≤ 1 then
          return .error "cannot demote or deactivate the last super admin".toList
        else return .ok ()
  else return .ok ()

/-- The activation and deactivation in {lit}`AdminUpdateUser`; errors are logged. -/
def setActive (targetUserID : Nat) (target : User) : Option Bool → Body User
  | none => return target
  | some true => return { target with isActive := true, deactivatedAt := none }
  | some false => do
      let now ← timeNow
      let _ ← send (.deleteSessionsByUserID targetUserID)
      let _ ← send (.deleteRefreshTokensByUserID targetUserID)
      return { target with isActive := false, deactivatedAt := some now }

/-- The changes of {lit}`AdminUpdateUser` to the row that it has read, and the write. -/
def applyUpdates (targetUserID : Nat) (target : User) (updates : AdminUserUpdate) :
    Body Result := do
  let target :=
    { target with
      firstName := updates.firstName.getD target.firstName
      lastName := updates.lastName.getD target.lastName }
  match ← guardLastSuperAdmin (updates.isSuperAdmin = some false ∧ target.isSuperAdmin) with
  | .error message => return .error message
  | .ok _ =>
  let target := { target with isSuperAdmin := updates.isSuperAdmin.getD target.isSuperAdmin }
  match ← guardLastSuperAdmin (updates.isActive = some false ∧ target.isSuperAdmin) with
  | .error message => return .error message
  | .ok _ =>
  let target ← setActive targetUserID target updates.isActive
  match ← send (.updateUser targetUserID target) with
  | none => return .error "AdminUpdateUser: updating user".toList
  | some _ => return .user target

/-- {lit}`AdminUpdateUser`. -/
def adminUpdateUser (cfg : Config) (callerID targetUserID : Nat) (confirmPassword : GoString)
    (updates : AdminUserUpdate) : Body Result := do
  match ← send (.findUserByID callerID) with
  | some (some caller) =>
      if checkPassword cfg confirmPassword caller.passwordHash = false then
        return .error "current password is incorrect".toList
      else if callerID = targetUserID then
        return .error "AdminUpdateUser: cannot modify your own account".toList
      else
        match ← send (.findUserByID targetUserID) with
        | some (some target) => applyUpdates targetUserID target updates
        | _ => return .error "AdminUpdateUser: finding target user".toList
  | _ => return .error "AdminUpdateUser: finding caller".toList

/-! ## The service as a system -/

/-- The operations of the service. -/
inductive Op where
  | createSessionForUser (userID : Nat) (provider ipAddress userAgent : GoString)
  | login (email password ipAddress userAgent : GoString)
  | refreshTokens (refreshToken : Token)
  | logout (refreshToken : Token)
  | listSessions (userID : Nat)
  | revokeSession (userID sessionID : Nat)
  | cleanExpiredSessions
  | updateProfile (userID : Nat) (firstName lastName : GoString)
  | verifyEmail (rawToken : Token)
  | resetPassword (rawToken : Token) (newPassword : GoString)
  | changePassword (userID : Nat) (currentPassword newPassword : GoString)
      (currentTokenHash : Option TokenHash)
  | adminUpdateUser (callerID targetUserID : Nat) (confirmPassword : GoString)
      (updates : AdminUserUpdate)
deriving DecidableEq

/-- The body of an operation. -/
def bodyOf (cfg : Config) : Op → Body Result
  | .createSessionForUser userID provider ipAddress userAgent =>
      Auth.createSessionForUser userID provider ipAddress userAgent
  | .login email password ipAddress userAgent =>
      Auth.login cfg email password ipAddress userAgent
  | .refreshTokens refreshToken => Auth.refreshTokens cfg refreshToken
  | .logout refreshToken => Auth.logout refreshToken
  | .listSessions userID => Auth.listSessions userID
  | .revokeSession userID sessionID => Auth.revokeSession userID sessionID
  | .cleanExpiredSessions => Auth.cleanExpiredSessions
  | .updateProfile userID firstName lastName => Auth.updateProfile userID firstName lastName
  | .verifyEmail rawToken => Auth.verifyEmail rawToken
  | .resetPassword rawToken newPassword => Auth.resetPassword cfg rawToken newPassword
  | .changePassword userID currentPassword newPassword currentTokenHash =>
      Auth.changePassword cfg userID currentPassword newPassword currentTokenHash
  | .adminUpdateUser callerID targetUserID confirmPassword updates =>
      Auth.adminUpdateUser cfg callerID targetUserID confirmPassword updates

/-- The auth service: any number of operations at a time, while time passes. -/
def authSystem (cfg : Config) : System Database Op Call Answer Result where
  body := bodyOf cfg
  exec := Database.exec
  fallible := fun c => c ≠ .timeNow
  sticky := false
  enabled := fun _ _ => True
  begin := fun db _ => db
  done := fun db _ _ => db
  stop := fun db _ => db
  env := fun db db' => ∃ t, db.now ≤ t ∧ db' = { db with now := t }

instance (cfg : Config) (db : Database) (op : Op) : Decidable ((authSystem cfg).enabled db op) :=
  inferInstanceAs (Decidable True)

/-- The commands of an operation that runs alone. -/
def machine : Machine Database Call Answer :=
  ⟨Database.exec, fun c => c ≠ .timeNow⟩

theorem run_send {α : Type} (c : Call) (f : Option (Answer c) → Body α) (db : Database) :
    machine.run (send c >>= f) db = machine.run (f (some (db.exec c).2)) (db.exec c).1 :=
  rfl

theorem run_timeNow {α : Type} (f : Int → Body α) (db : Database) :
    machine.run (timeNow >>= f) db = machine.run (f db.now) db :=
  rfl

/-- A world of the auth service. -/
abbrev AuthWorld := World Database Op Call Answer Result

/-! ## A small instance -/

/-- The configuration with a hasher that keeps the password. -/
def plainConfig : Config where
  requireEmailVerification := false
  hash := fun _ password => some password
  compare := fun hash password => hash = password
  lower := toLower

/-- An active user with a password. -/
def activeUser (email password : String) (isSuperAdmin : Bool) : User where
  email := email.toList
  passwordHash := password.toList
  firstName := []
  lastName := []
  isActive := true
  isSuperAdmin := isSuperAdmin
  deactivatedAt := none
  emailVerified := true
  lastLoginAt := none
  mustChangePassword := false

/-- A super admin and another user, without tokens and sessions. -/
def twoUsers : Database where
  users := (Table.single 0 (activeUser "root@x" "secret-0" true)).insert 1
    (activeUser "user@x" "secret-1" false)
  refreshTokens := .empty
  sessions := .empty
  passwordResets := .empty
  emailVerifications := .empty
  drawn := 0
  now := 0

/-- So many commands of a call. -/
def execs (i commands : Nat) : List (Label Op) :=
  List.replicate commands (.exec i)

/-- The steps of a call that runs alone. -/
def aloneLabels (i : Nat) (op : Op) (commands : Nat) : List (Label Op) :=
  [[.start i op], execs i commands, [.finish i]].flatten

end Auth
end Veilence
