import Veilence.Rbac.Service
import Veilence.Auth.Service

/-!
# The rows and the calls of single sign-on

The tables of SSO configurations, linked identities and pending sign-ins beside those of the
auth service, and the calls of the services that create accounts and sign users in: to the
repositories, to the identity providers and to the rate limiter.  A call either succeeds and
takes effect at once or fails without effect.

A state value is a random token.  What an identity provider answers to a code or says in a
response is a function of the request; that a request fails is a failure of its call.  The
transaction of a first workspace touches no table here, so that all it does is to succeed or
to fail.

Main results:

- Theorem {lit}`createUser_cases`: what the creation of an account does.
- Theorem {lit}`createIdentity_cases`: what the creation of an identity does.
-/

namespace Veilence
namespace Sso

open Go Foundation

open Auth (Token TokenHash User fitsColumn rowsWhere)

/-! ## Rows -/

/-- {lit}`SSOProvider`. -/
inductive Provider where
  | saml
  | google
  | github
deriving DecidableEq

/-- {lit}`string(provider)`. -/
def Provider.name : Provider → GoString
  | .saml => "saml".toList
  | .google => "google".toList
  | .github => "github".toList

/-- A configuration.  The other fields are read by the packages of the providers only. -/
structure SSOConfig where
  provider : Provider
  isEnabled : Bool
  allowedDomains : List GoString
  autoCreateUser : Bool
  samlEntityID : GoString
  samlCertificate : GoString
  googleHostedDomain : GoString
  gitHubOrgs : List GoString
deriving DecidableEq

/-- An external identity that is linked to a user. -/
structure UserIdentity where
  userID : Nat
  provider : Provider
  providerUserID : GoString
  email : GoString
deriving DecidableEq

/-- What a pending sign-in is for: a login, or a link to the account of a user. -/
inductive Mode where
  | login
  | link (userID : Nat)
deriving DecidableEq

/-- A pending sign-in. -/
structure SSOState where
  configID : Nat
  state : Token
  provider : Provider
  callbackURL : GoString
  mode : Mode
  codeVerifier : GoString
  samlRequestID : GoString
  expiresAt : Int
deriving DecidableEq

/-- The tables; the cooldowns are the keys of the rate limiter with their ends. -/
structure Database where
  auth : Auth.Database
  configs : Ledger SSOConfig
  identities : Ledger UserIdentity
  states : Ledger SSOState
  cooldowns : Table GoString Int

/-! ## Rows that are accepted -/

/-- The users with an e-mail address. -/
def Database.usersWith (db : Database) (email : GoString) : List (Nat × User) :=
  db.auth.users.entries.filter fun e => e.2.email = email

/-- The text columns and the unique index accept the row of a new user. -/
def Database.acceptsUser (db : Database) (user : User) : Bool :=
  fitsColumn 255 user.email && fitsColumn 100 user.firstName && fitsColumn 100 user.lastName &&
    (db.usersWith user.email).isEmpty

/-- The columns, the foreign key and the unique indexes accept an identity, beside the rows other
than the one with a given ID. -/
def Database.acceptsIdentity (db : Database) (id : Option Nat) (identity : UserIdentity) : Bool :=
  fitsColumn 255 identity.providerUserID && fitsColumn 255 identity.email &&
    (db.auth.users.get? identity.userID).isSome &&
    (db.identities.rows.entries.filter fun e => some e.1 ≠ id ∧ e.2.provider = identity.provider ∧
      (e.2.providerUserID = identity.providerUserID ∨ e.2.userID = identity.userID)).isEmpty

/-! ## Calls -/

/-- The calls of the services. -/
inductive Call where
  | auth (c : Auth.Call)
  | createUser (user : User)
  | countAllUsers
  | drawToken
  | beginTransaction
  | createOwned
  | allow (key : GoString) (cooldown : Int)
  | deleteExpiredPasswordResetsByUserID (userID : Nat)
  | createPasswordReset (row : Auth.PasswordResetToken)
  | deleteEmailVerificationsByUserID (userID : Nat)
  | createEmailVerification (row : Auth.EmailVerificationToken)
  | sendEmail (email : GoString)
  | findByState (state : Token)
  | deleteState (id : Nat)
  | findConfigByID (id : Nat)
  | findConfigBySAMLEntityID (entityID : GoString)
  | validateResponse (config : SSOConfig) (samlResponse requestID : GoString)
  | exchangeGoogle (config : SSOConfig) (code codeVerifier : GoString)
  | exchangeGitHub (config : SSOConfig) (code codeVerifier : GoString)
  | findIdentity (provider : Provider) (providerUserID : GoString)
  | createIdentity (identity : UserIdentity)
  | updateIdentity (id : Nat) (identity : UserIdentity)
deriving DecidableEq

/-- What a call answers.  A {lit}`Bool` says whether the database accepted a row, or whether a
key is not in its cooldown; a number is the ID of a new row. -/
abbrev Answer : Call → Type
  | .auth c => Auth.Answer c
  | .createUser _ => Option Nat
  | .countAllUsers => Nat
  | .drawToken => Token
  | .allow _ _ => Bool
  | .createPasswordReset _ => Bool
  | .createEmailVerification _ => Bool
  | .findByState _ => Option (Nat × SSOState)
  | .findConfigByID _ => Option SSOConfig
  | .findConfigBySAMLEntityID _ => Option SSOConfig
  | .findIdentity _ _ => Option (Nat × UserIdentity)
  | .createIdentity _ => Option Nat
  | .updateIdentity _ _ => Bool
  | _ => Unit

/-- Carry out a call. -/
def Database.exec (db : Database) : (c : Call) → Database × Answer c
  | .auth c => ({ db with auth := (db.auth.exec c).1 }, (db.auth.exec c).2)
  | .createUser user =>
      if db.acceptsUser user then
        ({ db with auth := { db.auth with
            users := db.auth.users.insert db.auth.users.freshKey user } },
          some db.auth.users.freshKey)
      else (db, none)
  | .countAllUsers => (db, db.auth.users.entries.length)
  | .drawToken =>
      ({ db with auth := { db.auth with drawn := db.auth.drawn + 1 } }, ⟨db.auth.drawn⟩)
  | .beginTransaction => (db, ())
  | .createOwned => (db, ())
  | .allow key cooldown =>
      if (db.cooldowns.get? key).any (db.auth.now < ·) then (db, false)
      else ({ db with cooldowns := db.cooldowns.insert key (db.auth.now + cooldown) }, true)
  | .deleteExpiredPasswordResetsByUserID userID =>
      ({ db with auth := { db.auth with
          passwordResets := db.auth.passwordResets.removeWhere fun t =>
            t.userID = userID ∧ (t.expiresAt < db.auth.now ∨ t.usedAt.isSome) } }, ())
  | .createPasswordReset row =>
      if (rowsWhere db.auth.passwordResets fun t => t.tokenHash = row.tokenHash).isEmpty then
        ({ db with auth := { db.auth with
            passwordResets := db.auth.passwordResets.add row } }, true)
      else (db, false)
  | .deleteEmailVerificationsByUserID userID =>
      ({ db with auth := { db.auth with
          emailVerifications :=
            db.auth.emailVerifications.removeWhere fun t => t.userID = userID } }, ())
  | .createEmailVerification row =>
      if (rowsWhere db.auth.emailVerifications fun t => t.tokenHash = row.tokenHash).isEmpty then
        ({ db with auth := { db.auth with
            emailVerifications := db.auth.emailVerifications.add row } }, true)
      else (db, false)
  | .sendEmail _ => (db, ())
  | .findByState state =>
      (db, (rowsWhere db.states fun s => s.state = state ∧ db.auth.now < s.expiresAt).head?)
  | .deleteState id => ({ db with states := db.states.remove id }, ())
  | .findConfigByID id => (db, db.configs.get? id)
  | .findConfigBySAMLEntityID entityID =>
      (db, (rowsWhere db.configs fun c =>
        c.samlEntityID = entityID ∧ c.provider = .saml).head?.map Prod.snd)
  | .validateResponse _ _ _ => (db, ())
  | .exchangeGoogle _ _ _ => (db, ())
  | .exchangeGitHub _ _ _ => (db, ())
  | .findIdentity provider providerUserID =>
      (db, (rowsWhere db.identities fun i =>
        i.provider = provider ∧ i.providerUserID = providerUserID).head?)
  | .createIdentity identity =>
      if db.acceptsIdentity none identity then
        ({ db with identities := db.identities.add identity }, some db.identities.next)
      else (db, none)
  | .updateIdentity id identity =>
      if db.acceptsIdentity (some id) identity then
        ({ db with identities := db.identities.put id identity }, true)
      else (db, false)

/-! ## What some calls do -/

/-- The database with a new user. -/
def Database.withUser (db : Database) (user : User) : Database :=
  { db with auth := { db.auth with users := db.auth.users.insert db.auth.users.freshKey user } }

/-- The database with a new identity. -/
def Database.withIdentity (db : Database) (identity : UserIdentity) : Database :=
  { db with identities := db.identities.add identity }

/-- An account is created, or its row is rejected. -/
theorem createUser_cases (db : Database) (user : User) :
    (db.acceptsUser user = true ∧
      db.exec (.createUser user) = (db.withUser user, some db.auth.users.freshKey)) ∨
    (db.acceptsUser user = false ∧ db.exec (.createUser user) = (db, none)) := by
  simp only [Database.exec]
  cases haccepts : db.acceptsUser user with
  | true => exact Or.inl ⟨rfl, if_pos rfl⟩
  | false => exact Or.inr ⟨rfl, if_neg Bool.false_ne_true⟩

/-- An identity is created, or its row is rejected. -/
theorem createIdentity_cases (db : Database) (identity : UserIdentity) :
    (db.acceptsIdentity none identity = true ∧
      db.exec (.createIdentity identity) = (db.withIdentity identity, some db.identities.next)) ∨
    (db.acceptsIdentity none identity = false ∧
      db.exec (.createIdentity identity) = (db, none)) := by
  simp only [Database.exec]
  cases haccepts : db.acceptsIdentity none identity with
  | true => exact Or.inl ⟨rfl, if_pos rfl⟩
  | false => exact Or.inr ⟨rfl, if_neg Bool.false_ne_true⟩

end Sso
end Veilence
