import Veilence.Auth.Tokens
import Veilence.Sso.Service

/-!
# A first login that fails

The first login of a user of an identity provider creates an account and then an identity that
is linked to it, by two calls outside a transaction.  If the second one fails, the account stays
without an identity, and every later login of the same user is turned away because of its e-mail
address.  After a failure at any other point a login can be repeated, if it could succeed at all.

Main results:

- Theorem {lit}`signsIn_iff`: the states in which a login without failures succeeds.
- Theorem {lit}`resumes_iff`: after which failing calls a later login succeeds.
- Theorem {lit}`locked_out`: an account that its owner cannot sign in to.
-/

namespace Veilence
namespace Sso

open Go Foundation

open Auth (TokenPair User rowsWhere NextIsNew)

open Machine (advance advance_eq_some runFailing_cmd runFailing_ret)

/-! ## What is there of a provider user -/

section States

variable (cfg : Config) (config : SSOConfig) (db : Database) (u : ProviderUser)

/-- The identity of a provider user. -/
def Database.identityOf : Option (Nat × UserIdentity) :=
  (rowsWhere db.identities fun i =>
    i.provider = u.provider ∧ i.providerUserID = u.providerUserID).head?

/-- The account that a first login creates. -/
def newAccount : User :=
  Rbac.newUser (Auth.normalizeEmail cfg.auth (cfg.auth.lower u.email)) u.firstName u.lastName [] false

/-- The identity that a first login creates. -/
def newIdentity (userID : Nat) : UserIdentity :=
  ⟨userID, u.provider, u.providerUserID, u.email⟩

/-- The domain of the e-mail address is allowed, by the instance and by the configuration. -/
structure DomainAllowed : Prop where
  rbac : Rbac.emailDomainAllowed cfg.rbac u.email cfg.rbac.allowedEmailDomains = true
  config : Rbac.emailDomainAllowed cfg.rbac u.email config.allowedDomains = true

/-- The identity is linked to an active user. -/
def Linked : Prop :=
  ∃ id identity user, db.identityOf u = some (id, identity) ∧
    db.auth.users.get? identity.userID = some user ∧ user.isActive = true

/-- The identity is linked to a deactivated user, or there is no identity but an account with the
e-mail address in lower case. -/
def TurnedAway : Prop :=
  (∃ id identity user, db.identityOf u = some (id, identity) ∧
    db.auth.users.get? identity.userID = some user ∧ user.isActive = false) ∨
  (db.identityOf u = none ∧ db.usersWith (cfg.auth.lower u.email) ≠ [])

/-- There is neither an identity nor an account, and both can be created. -/
structure Creatable : Prop where
  identity : db.identityOf u = none
  email : db.usersWith (cfg.auth.lower u.email) = []
  account : db.acceptsUser (newAccount cfg u) = true
  valid : (newIdentity u db.auth.users.freshKey).validate = none
  accepted : (db.withUser (newAccount cfg u)).acceptsIdentity none
    (newIdentity u db.auth.users.freshKey) = true

end States

/-- The state at a later time. -/
def Database.later (db : Database) (t : Int) : Database :=
  { db with auth := { db.auth with now := t } }

/-- If a login in which the call at a position fails returns an error, a later login of the same
provider user in which no call fails returns tokens. -/
def Resumes (cfg : Config) (config : SSOConfig) (db : Database) (u : ProviderUser) (req : Request)
    (position : Nat) : Prop :=
  let failed := machine.runFailing (some position) (resolveAndIssueJWT cfg config u req) db
  ∀ message, failed.2 = .error message → ∀ t, failed.1.auth.now ≤ t → ∀ laterReq : Request,
    ∃ tokens, (machine.run (resolveAndIssueJWT cfg config u laterReq) (failed.1.later t)).2 =
      .callback (.signedIn laterReq.callbackURL tokens)

/-- The user can sign in, and it is not the creation of the identity that fails; or the user is
turned away for a reason that the call has come to. -/
inductive Resumable (cfg : Config) (db : Database) (u : ProviderUser) (position : Nat) : Prop where
  | linked (hlinked : Linked db u)
  | creatable (hcreatable : Creatable cfg db u) (hposition : position ≠ 4)
  | turnedAway (hturned : TurnedAway cfg db u) (hposition : 2 ≤ position)

/-! ## The end of a login -/

/-- A run that has drawn tokens at most. -/
def DrewOnly (db db' : Auth.Database) : Prop :=
  ∃ drawn, db.drawn ≤ drawn ∧ db' = { db with drawn := drawn }

theorem DrewOnly.refl (db : Auth.Database) : DrewOnly db db :=
  ⟨db.drawn, le_refl _, rfl⟩

/-- The clock changes nothing. -/
theorem runFailing_timeNow {α : Type} (position : Option Nat) (f : Int → Auth.Body α)
    (db : Auth.Database) : ∃ rest now, Auth.machine.runFailing position (Auth.timeNow >>= f) db =
      Auth.machine.runFailing rest (f now) db := by
  rcases position with _ | _ | n
  · exact ⟨_, _, rfl⟩
  · exact ⟨_, _, rfl⟩
  · exact ⟨_, _, rfl⟩

/-- New tokens are there, or the run has drawn tokens at most. -/
theorem runFailing_generateTokenPair {α : Type} (db : Auth.Database) (position : Option Nat)
    (userID : Nat) (user : User) (f : Except GoString TokenPair → Auth.Body α) :
    (∃ rest message db', DrewOnly db db' ∧
      Auth.machine.runFailing position (Auth.generateTokenPair userID user >>= f) db =
        Auth.machine.runFailing rest (f (.error message)) db') ∨
    ∃ rest tokens db',
      Auth.machine.runFailing position (Auth.generateTokenPair userID user >>= f) db =
        Auth.machine.runFailing rest (f (.ok tokens)) db' := by
  have hdrew : DrewOnly db { db with drawn := db.drawn + 1 } := ⟨_, Nat.le_succ _, rfl⟩
  have haccess : Auth.machine.exec db
      (.generateAccessToken userID user.email Auth.accessTokenDuration) =
        (db, ⟨userID, user.email, db.now + Auth.accessTokenDuration⟩) := rfl
  have hdraw : Auth.machine.exec db .generateRefreshToken =
      ({ db with drawn := db.drawn + 1 }, ⟨db.drawn⟩) := rfl
  have hstore : ∀ db' row, Auth.machine.exec db' (.createRefreshToken row) =
      db'.exec (.createRefreshToken row) := fun _ _ => rfl
  unfold Auth.generateTokenPair
  rw [Auth.send, Prog.call_bind, Prog.cmd_bind, runFailing_cmd, haccess]
  split_ifs
  · exact Or.inl ⟨_, _, db, .refl db, rfl⟩
  dsimp only
  rw [Auth.send, Prog.call_bind, Prog.cmd_bind, runFailing_cmd, hdraw]
  split_ifs
  · exact Or.inl ⟨_, _, db, .refl db, rfl⟩
  dsimp only
  rw [Prog.bind_assoc]
  obtain ⟨rest, now, hrun⟩ := runFailing_timeNow _ _ _
  rw [hrun, Auth.send, Prog.call_bind, Prog.cmd_bind, runFailing_cmd, hstore]
  split_ifs
  · exact Or.inl ⟨_, _, _, hdrew, rfl⟩
  rcases Auth.createRefreshToken_cases { db with drawn := db.drawn + 1 } _ with
    ⟨-, hstored⟩ | hrejected
  · rw [hstored]
    exact Or.inr ⟨_, _, _, rfl⟩
  · rw [hrejected]
    exact Or.inl ⟨_, _, _, hdrew, rfl⟩

/-- The run has drawn tokens at most, or it returns tokens. -/
def Harmless (db : Auth.Database) (run : Auth.Database × Auth.Result) : Prop :=
  DrewOnly db run.1 ∨ ∃ tokens expiresIn, run.2 = .tokensFor tokens expiresIn

/-- A program that ends with an error. -/
theorem harmless_ret {db db' : Auth.Database} (hdrew : DrewOnly db db') (position : Option Nat)
    (result : Auth.Result) :
    Harmless db (Auth.machine.runFailing position (.ret result) db') := by
  rw [runFailing_ret]
  exact Or.inl hdrew

/-- A session that is not created has drawn tokens at most. -/
theorem harmless_createSessionForUser (db : Auth.Database) (position : Option Nat) (userID : Nat)
    (provider ipAddress userAgent : GoString) :
    Harmless db (Auth.machine.runFailing position
      (Auth.createSessionForUser userID provider ipAddress userAgent) db) := by
  have hexec : Auth.machine.exec db (.findUserByID userID) = (db, db.users.get? userID) := rfl
  unfold Auth.createSessionForUser
  rw [Auth.send, Prog.call_bind, runFailing_cmd]
  split_ifs
  · exact harmless_ret (.refl db) _ _
  rw [hexec]
  cases db.users.get? userID with
  | none => exact harmless_ret (.refl db) _ _
  | some user =>
      dsimp only
      rcases runFailing_generateTokenPair db (advance position) userID user _ with
        ⟨rest, message, db', hdrew, hrun⟩ | ⟨rest, tokens, db', hrun⟩
      · rw [hrun]
        exact harmless_ret hdrew _ _
      · -- with tokens they are returned, whatever fails
        right
        rw [hrun]
        refine Machine.runFailing_bind_result
          (Q := fun result => ∃ tokens expiresIn, result = Auth.Result.tokensFor tokens expiresIn)
          (fun _ _ _ => ?_) _ _ _
        refine Machine.runFailing_bind_result
          (Q := fun result => ∃ tokens expiresIn, result = Auth.Result.tokensFor tokens expiresIn)
          (fun _ _ _ => ?_) _ _ _
        rw [Prog.pure_eq, runFailing_ret]
        exact ⟨_, _, rfl⟩

/-- The result of the session in the result of the login. -/
def sessionResult (req : Request) : Auth.Result → Result
  | .tokensFor tokens _ => .callback (.signedIn req.callbackURL tokens)
  | _ => .error "resolveAndIssueJWT: creating session".toList

theorem createSession_eq (userID : Nat) (provider : Provider) (req : Request) :
    createSession userID provider req =
      lift (Auth.createSessionForUser userID provider.name req.ipAddress req.userAgent) >>=
        fun r => .ret (sessionResult req r) := by
  unfold createSession
  congr 1
  funext r
  cases r <;> rfl

/-- A session that is not created has drawn tokens at most. -/
theorem createSession_error {db : Database} {position : Option Nat} {userID : Nat}
    {provider : Provider} {req : Request} {message : GoString}
    (herror : (machine.runFailing position (createSession userID provider req) db).2 =
      .error message) :
    ∃ auth, DrewOnly db.auth auth ∧
      (machine.runFailing position (createSession userID provider req) db).1 =
        { db with auth := auth } := by
  rw [createSession_eq, Machine.runFailing_map, runFailing_lift] at herror ⊢
  rcases harmless_createSessionForUser db.auth position userID provider.name req.ipAddress
    req.userAgent with hdrew | ⟨tokens, expiresIn, hresult⟩
  · exact ⟨_, hdrew, rfl⟩
  · rw [hresult] at herror
    exact absurd herror (by simp [sessionResult])

/-- A session is created for a user who is there, if no call fails. -/
theorem run_createSession {db : Database} {userID : Nat} {user : User}
    (huser : db.auth.users.get? userID = some user) (hnew : NextIsNew db.auth)
    (provider : Provider) (req : Request) :
    ∃ tokens, (machine.run (createSession userID provider req) db).2 =
      .callback (.signedIn req.callbackURL tokens) := by
  rw [createSession_eq, Machine.run_bind, run_lift]
  unfold Auth.createSessionForUser
  rw [Auth.run_send, show db.auth.exec (.findUserByID userID) =
    (db.auth, db.auth.users.get? userID) from rfl, huser]
  dsimp only
  rcases Auth.run_generateTokenPair db.auth userID user with ⟨_, accessToken, hrun⟩ | ⟨hold, _⟩
  · rw [Machine.run_bind_of hrun]
    dsimp only
    rw [Machine.run_bind, Machine.run_bind]
    exact ⟨_, rfl⟩
  · exact absurd hnew hold

/-! ## The parts of a login -/

/-- A run that has changed nothing and returns an error. -/
def Fails (run : Database × Result) (db : Database) : Prop :=
  ∃ message, run = (db, .error message)

/-- A run that has changed nothing and sends the browser on without tokens. -/
def Refuses (run : Database × Result) (db : Database) : Prop :=
  ∃ result, run = (db, .callback result) ∧ result.tokenPair = none

theorem machine_exec (db : Database) (c : Call) : machine.exec db c = db.exec c :=
  rfl

theorem fails_ret (db : Database) (position : Option Nat) (message : GoString) :
    Fails (machine.runFailing position (.ret (.error message)) db) db :=
  ⟨message, runFailing_ret _ _ _⟩

section Parts

variable {cfg : Config} {config : SSOConfig} {db : Database} {u : ProviderUser} {req : Request}
  {position : Option Nat}

/-- The creation of an account fails, or the account is there. -/
theorem runFailing_createSSOUser {α : Type} (cfg : Config) (db : Database)
    (position : Option Nat) (email firstName lastName : GoString) (f : Except GoString Nat → Body α) :
    ((position = some 0 ∨ position = some 1 ∨ db.acceptsUser (Rbac.newUser
        (Auth.normalizeEmail cfg.auth email) firstName lastName [] false) = false) ∧
      ∃ rest message,
        machine.runFailing position (createSSOUser cfg email firstName lastName >>= f) db =
          machine.runFailing rest (f (.error message)) db) ∨
    (position ≠ some 0 ∧ position ≠ some 1 ∧ db.acceptsUser (Rbac.newUser
        (Auth.normalizeEmail cfg.auth email) firstName lastName [] false) = true ∧
      machine.runFailing position (createSSOUser cfg email firstName lastName >>= f) db =
        machine.runFailing (advance (advance position)) (f (.ok db.auth.users.freshKey))
          (db.withUser (Rbac.newUser
            (Auth.normalizeEmail cfg.auth email) firstName lastName [] false))) := by
  have hexec : machine.exec db (.auth (.findUserByEmail (Auth.normalizeEmail cfg.auth email))) =
      (db, (db.usersWith (Auth.normalizeEmail cfg.auth email)).head?) := rfl
  unfold createSSOUser checkExistingUser storeUser
  dsimp only
  rw [Prog.bind_assoc, send, Prog.call_bind, Prog.cmd_bind, runFailing_cmd]
  split_ifs with hfirst
  · exact Or.inl ⟨Or.inl hfirst, _, _, rfl⟩
  rw [hexec]
  cases hrows : db.usersWith (Auth.normalizeEmail cfg.auth email) with
  | cons row rows =>
    left
    refine ⟨Or.inr (Or.inr ?_), _, _, rfl⟩
    have hemail : db.usersWith (Rbac.newUser
        (Auth.normalizeEmail cfg.auth email) firstName lastName [] false).email = row :: rows := hrows
    simp [Database.acceptsUser, hemail]
  | nil =>
    dsimp only [List.head?_nil]
    rw [Prog.pure_eq, Prog.ret_bind]
    dsimp only
    rw [Prog.bind_assoc, send, Prog.call_bind, runFailing_cmd]
    split_ifs with hsecond
    · exact Or.inl ⟨Or.inr (Or.inl (advance_eq_some.mp hsecond)), _, _, rfl⟩
    have hsecond' : position ≠ some 1 := fun heq => hsecond (advance_eq_some.mpr heq)
    rcases createUser_cases db (Rbac.newUser (Auth.normalizeEmail cfg.auth email) firstName lastName
      [] false) with ⟨haccepts, hexec⟩ | ⟨hrejects, hexec⟩
    · rw [machine_exec, hexec]
      exact Or.inr ⟨hfirst, hsecond', haccepts, rfl⟩
    · rw [machine_exec, hexec]
      exact Or.inl ⟨Or.inr (Or.inr hrejects), _, _, rfl⟩

/-- What comes of the creation of an account and an identity: nothing has changed, there is an
account without an identity, or there are both and the login goes on. -/
inductive NewOutcome (cfg : Config) (db : Database) (u : ProviderUser) (req : Request)
    (position : Option Nat) (run : Database × Result) : Prop where
  | unchanged (hfirst : position = some 0 ∨ position = some 1 ∨
      db.acceptsUser (newAccount cfg u) = false) (hfails : Fails run db)
  | orphaned (hposition : position ≠ some 0 ∧ position ≠ some 1)
      (haccount : db.acceptsUser (newAccount cfg u) = true)
      (hidentity : position = some 2 ∨ (newIdentity u db.auth.users.freshKey).validate ≠ none ∨
        (db.withUser (newAccount cfg u)).acceptsIdentity none
          (newIdentity u db.auth.users.freshKey) = false)
      (hfails : Fails run (db.withUser (newAccount cfg u)))
  | linked (hposition : position ≠ some 0 ∧ position ≠ some 1 ∧ position ≠ some 2)
      (haccount : db.acceptsUser (newAccount cfg u) = true)
      (hvalid : (newIdentity u db.auth.users.freshKey).validate = none)
      (haccepted : (db.withUser (newAccount cfg u)).acceptsIdentity none
        (newIdentity u db.auth.users.freshKey) = true)
      (hrun : run = machine.runFailing (advance (advance (advance position)))
        (createSession db.auth.users.freshKey u.provider req)
        ((db.withUser (newAccount cfg u)).withIdentity (newIdentity u db.auth.users.freshKey)))

theorem runFailing_loginNew (cfg : Config) (db : Database) (u : ProviderUser) (req : Request)
    (position : Option Nat) :
    NewOutcome cfg db u req position (machine.runFailing position (loginNew cfg u req) db) := by
  unfold loginNew
  rcases runFailing_createSSOUser cfg db position (cfg.auth.lower u.email) u.firstName
    u.lastName _ with
    ⟨hfirst, rest, message, hrun⟩ | ⟨hzero, hone, haccount, hrun⟩
  · rw [hrun]
    exact .unchanged hfirst (fails_ret _ _ _)
  · rw [hrun]
    dsimp only
    split
    · rename_i message hinvalid
      refine .orphaned ⟨hzero, hone⟩ haccount (Or.inr (Or.inl ?_)) (fails_ret _ _ _)
      rw [newIdentity, hinvalid]
      exact Option.some_ne_none message
    · rename_i hvalid
      rw [send, Prog.call_bind, runFailing_cmd]
      split_ifs with htwo
      · refine .orphaned ⟨hzero, hone⟩ haccount (Or.inl ?_) (fails_ret _ _ _)
        simpa using htwo
      have htwo' : position ≠ some 2 := by simpa using htwo
      rcases createIdentity_cases (db.withUser (newAccount cfg u))
        (newIdentity u db.auth.users.freshKey) with ⟨haccepts, hexec⟩ | ⟨hrejects, hexec⟩
      · rw [machine_exec]
        erw [hexec]
        exact .linked ⟨hzero, hone, htwo'⟩ haccount hvalid haccepts rfl
      · rw [machine_exec]
        erw [hexec]
        exact .orphaned ⟨hzero, hone⟩ haccount (Or.inr (Or.inr hrejects)) (fails_ret _ _ _)

/-- A login with an identity that is linked to an active user. -/
theorem runFailing_loginExisting {userID : Nat} {user : User} (position : Option Nat)
    (provider : Provider) (req : Request)
    (huser : db.auth.users.get? userID = some user) (hactive : user.isActive = true) :
    (position = some 0 ∧
      Fails (machine.runFailing position (loginExisting userID provider req) db) db) ∨
    (position ≠ some 0 ∧ machine.runFailing position (loginExisting userID provider req) db =
      machine.runFailing (advance position) (createSession userID provider req) db) := by
  unfold loginExisting
  rw [send, Prog.call_bind, runFailing_cmd]
  by_cases hfirst : position = some 0
  · rw [if_pos hfirst]
    exact Or.inl ⟨hfirst, fails_ret _ _ _⟩
  rw [if_neg hfirst, machine_exec,
    show db.exec (.auth (.findUserByID userID)) = (db, db.auth.users.get? userID) from rfl, huser]
  dsimp only
  rw [if_neg (by simp [hactive])]
  exact Or.inr ⟨hfirst, rfl⟩

/-- A login with an identity whose user is not active. -/
theorem runFailing_loginExisting_refused (position : Option Nat) (userID : Nat)
    (provider : Provider) (req : Request)
    (hinactive : ∀ user, db.auth.users.get? userID = some user → user.isActive = false) :
    ((position = some 0 ∨ db.auth.users.get? userID = none) ∧
      Fails (machine.runFailing position (loginExisting userID provider req) db) db) ∨
    (position ≠ some 0 ∧ (db.auth.users.get? userID).isSome = true ∧
      Refuses (machine.runFailing position (loginExisting userID provider req) db) db) := by
  unfold loginExisting
  rw [send, Prog.call_bind, runFailing_cmd]
  split_ifs with hfirst
  · exact Or.inl ⟨Or.inl hfirst, fails_ret _ _ _⟩
  rw [machine_exec,
    show db.exec (.auth (.findUserByID userID)) = (db, db.auth.users.get? userID) from rfl]
  cases huser : db.auth.users.get? userID with
  | none => exact Or.inl ⟨Or.inr rfl, fails_ret _ _ _⟩
  | some user =>
      dsimp only
      rw [if_pos (hinactive user huser)]
      exact Or.inr ⟨hfirst, rfl, _, runFailing_ret _ _ _, rfl⟩

/-- A login without an identity: the look-up of the e-mail address. -/
theorem runFailing_loginUnlinked (cfg : Config) (db : Database) (u : ProviderUser) (req : Request)
    (position : Option Nat) (hauto : config.autoCreateUser = true) :
    (position = some 0 ∧
      Fails (machine.runFailing position (loginUnlinked cfg config u req) db) db) ∨
    (position ≠ some 0 ∧ db.usersWith (cfg.auth.lower u.email) ≠ [] ∧
      Refuses (machine.runFailing position (loginUnlinked cfg config u req) db) db) ∨
    (position ≠ some 0 ∧ db.usersWith (cfg.auth.lower u.email) = [] ∧
      machine.runFailing position (loginUnlinked cfg config u req) db =
        machine.runFailing (advance position) (loginNew cfg u req) db) := by
  unfold loginUnlinked
  rw [send, Prog.call_bind, runFailing_cmd]
  by_cases hfirst : position = some 0
  · rw [if_pos hfirst]
    exact Or.inl ⟨hfirst, fails_ret _ _ _⟩
  rw [if_neg hfirst]
  right
  rw [machine_exec, show db.exec (.auth (.findUserByEmail (cfg.auth.lower u.email))) =
    (db, (db.usersWith (cfg.auth.lower u.email)).head?) from rfl]
  cases hrows : db.usersWith (cfg.auth.lower u.email) with
  | cons row rows =>
      exact Or.inl ⟨hfirst, List.cons_ne_nil _ _, _, runFailing_ret _ _ _, rfl⟩
  | nil =>
      dsimp only [List.head?_nil]
      rw [if_neg (by simp [hauto])]
      exact Or.inr ⟨hfirst, rfl, rfl⟩

/-- A login: the look-up of the identity. -/
theorem runFailing_resolve (position : Option Nat) (req : Request)
    (hallowed : DomainAllowed cfg config u) (db : Database) :
    (position = some 0 ∧
      Fails (machine.runFailing position (resolveAndIssueJWT cfg config u req) db) db) ∨
    (position ≠ some 0 ∧
      (∀ id identity, db.identityOf u = some (id, identity) →
        machine.runFailing position (resolveAndIssueJWT cfg config u req) db =
          machine.runFailing (advance position) (loginExisting identity.userID u.provider req) db) ∧
      (db.identityOf u = none →
        machine.runFailing position (resolveAndIssueJWT cfg config u req) db =
          machine.runFailing (advance position) (loginUnlinked cfg config u req) db)) := by
  unfold resolveAndIssueJWT
  rw [if_neg (by simp [hallowed.rbac]), if_neg (by simp [hallowed.config]), send, Prog.call_bind,
    runFailing_cmd]
  split_ifs with hfirst
  · exact Or.inl ⟨hfirst, fails_ret _ _ _⟩
  right
  rw [machine_exec, show db.exec (.findIdentity u.provider u.providerUserID) =
    (db, db.identityOf u) from rfl]
  refine ⟨hfirst, fun id identity hidentity => ?_, fun hidentity => ?_⟩
  · rw [hidentity]
  · rw [hidentity]

/-! ## A whole login -/

/-- The failing call is one of the first two, the look-ups. -/
def AtLookUp (position : Option Nat) : Prop :=
  position = some 0 ∨ position = some 1

/-- After the first look-up the second one is next. -/
theorem atLookUp_of_advance (hfirst : advance position = some 0) : AtLookUp position :=
  Or.inr (advance_eq_some.mp hfirst)

theorem not_atLookUp (hfirst : position ≠ some 0) (hsecond : advance position ≠ some 0) :
    ¬AtLookUp position := by
  rintro (hzero | hone)
  · exact hfirst hzero
  · exact hsecond (advance_eq_some.mpr hone)

/-- A user whose identity is linked. -/
theorem runFailing_linked (position : Option Nat) (req : Request) (hallowed : DomainAllowed cfg config u) (hlinked : Linked db u) :
    (AtLookUp position ∧
      Fails (machine.runFailing position (resolveAndIssueJWT cfg config u req) db) db) ∨
    ∃ userID user, db.auth.users.get? userID = some user ∧
      machine.runFailing position (resolveAndIssueJWT cfg config u req) db =
        machine.runFailing (advance (advance position)) (createSession userID u.provider req) db := by
  obtain ⟨id, identity, user, hidentity, huser, hactive⟩ := hlinked
  rcases runFailing_resolve position req hallowed db with
    ⟨hfirst, hfails⟩ | ⟨_, hrun, _⟩
  · exact Or.inl ⟨Or.inl hfirst, hfails⟩
  · rw [hrun id identity hidentity]
    rcases runFailing_loginExisting (advance position) u.provider req huser hactive with ⟨hsecond, hfails⟩ | ⟨_, hrun⟩
    · exact Or.inl ⟨atLookUp_of_advance hsecond, hfails⟩
    · exact Or.inr ⟨_, user, huser, hrun⟩

/-- A user who is turned away. -/
theorem runFailing_turnedAway (position : Option Nat) (req : Request)
    (hallowed : DomainAllowed cfg config u)
    (hauto : config.autoCreateUser = true) (hturned : TurnedAway cfg db u) :
    (AtLookUp position ∧
      Fails (machine.runFailing position (resolveAndIssueJWT cfg config u req) db) db) ∨
    (¬AtLookUp position ∧
      Refuses (machine.runFailing position (resolveAndIssueJWT cfg config u req) db) db) := by
  rcases runFailing_resolve position req hallowed db with
    ⟨hfirst, hfails⟩ | ⟨hfirst, hrun, hrun'⟩
  · exact Or.inl ⟨Or.inl hfirst, hfails⟩
  rcases hturned with ⟨id, identity, user, hidentity, huser, hinactive⟩ | ⟨hidentity, hemail⟩
  · rw [hrun id identity hidentity]
    have honly : ∀ user', db.auth.users.get? identity.userID = some user' → user'.isActive = false := by
      intro user' huser'
      rw [← Option.some.inj (huser.symm.trans huser'), hinactive]
    rcases runFailing_loginExisting_refused (advance position) identity.userID u.provider req
      honly with ⟨hsecond | hnone, hfails⟩ | ⟨hsecond, _, hrefuses⟩
    · exact Or.inl ⟨atLookUp_of_advance hsecond, hfails⟩
    · exact absurd (hnone.symm.trans huser) (by simp)
    · exact Or.inr ⟨not_atLookUp hfirst hsecond, hrefuses⟩
  · rw [hrun' hidentity]
    rcases runFailing_loginUnlinked cfg db u req (advance position) hauto with
      ⟨hsecond, hfails⟩ | ⟨hsecond, _, hrefuses⟩ | ⟨_, hnone, _⟩
    · exact Or.inl ⟨atLookUp_of_advance hsecond, hfails⟩
    · exact Or.inr ⟨not_atLookUp hfirst hsecond, hrefuses⟩
    · exact absurd hnone hemail

/-- A user of whom nothing is there. -/
theorem runFailing_new (position : Option Nat) (req : Request)
    (hallowed : DomainAllowed cfg config u)
    (hauto : config.autoCreateUser = true) (hidentity : db.identityOf u = none)
    (hemail : db.usersWith (cfg.auth.lower u.email) = []) :
    (AtLookUp position ∧
      Fails (machine.runFailing position (resolveAndIssueJWT cfg config u req) db) db) ∨
    (¬AtLookUp position ∧ NewOutcome cfg db u req (advance (advance position))
      (machine.runFailing position (resolveAndIssueJWT cfg config u req) db)) := by
  rcases runFailing_resolve position req hallowed db with
    ⟨hfirst, hfails⟩ | ⟨hfirst, _, hrun⟩
  · exact Or.inl ⟨Or.inl hfirst, hfails⟩
  rw [hrun hidentity]
  rcases runFailing_loginUnlinked cfg db u req (advance position) hauto with
    ⟨hsecond, hfails⟩ | ⟨_, hsome, _⟩ | ⟨hsecond, _, hrun⟩
  · exact Or.inl ⟨atLookUp_of_advance hsecond, hfails⟩
  · exact absurd hemail hsome
  · rw [hrun]
    exact Or.inr ⟨not_atLookUp hfirst hsecond, runFailing_loginNew _ _ _ _ _⟩

/-- An identity whose user is not there. -/
theorem runFailing_dangling (position : Option Nat) (req : Request)
    (hallowed : DomainAllowed cfg config u) {id : Nat}
    {identity : UserIdentity} (hidentity : db.identityOf u = some (id, identity))
    (huser : db.auth.users.get? identity.userID = none) :
    Fails (machine.runFailing position (resolveAndIssueJWT cfg config u req) db) db := by
  rcases runFailing_resolve position req hallowed db with
    ⟨_, hfails⟩ | ⟨_, hrun, _⟩
  · exact hfails
  rw [hrun id identity hidentity]
  have honly : ∀ user, db.auth.users.get? identity.userID = some user → user.isActive = false :=
    fun user huser' => absurd (huser.symm.trans huser') (by simp)
  rcases runFailing_loginExisting_refused (advance position) identity.userID u.provider req
    honly with ⟨_, hfails⟩ | ⟨_, hsome, _⟩
  · exact hfails
  · rw [huser] at hsome
    exact absurd hsome (by simp)

end Parts

/-! ## Who can sign in -/

/-- The identity is linked to an active user, or everything can be created. -/
def CanSignIn (cfg : Config) (db : Database) (u : ProviderUser) : Prop :=
  Linked db u ∨ Creatable cfg db u

section Standing

variable {cfg : Config} {config : SSOConfig} {db db' : Database} {u : ProviderUser} {req : Request}

/-- What can be there of a provider user. -/
theorem standing_cases (cfg : Config) (db : Database) (u : ProviderUser) :
    Linked db u ∨ TurnedAway cfg db u ∨
      (db.identityOf u = none ∧ db.usersWith (cfg.auth.lower u.email) = []) ∨
      ∃ id identity, db.identityOf u = some (id, identity) ∧
        db.auth.users.get? identity.userID = none := by
  cases hidentity : db.identityOf u with
  | none =>
      by_cases hemail : db.usersWith (cfg.auth.lower u.email) = []
      · exact Or.inr (Or.inr (Or.inl ⟨rfl, hemail⟩))
      · exact Or.inr (Or.inl (Or.inr ⟨hidentity, hemail⟩))
  | some row =>
      obtain ⟨id, identity⟩ := row
      cases huser : db.auth.users.get? identity.userID with
      | none => exact Or.inr (Or.inr (Or.inr ⟨id, identity, rfl, huser⟩))
      | some user =>
          cases hactive : user.isActive with
          | true => exact Or.inl ⟨id, identity, user, hidentity, huser, hactive⟩
          | false => exact Or.inr (Or.inl (Or.inl ⟨id, identity, user, hidentity, huser, hactive⟩))

/-- Whoever is turned away cannot sign in. -/
theorem not_canSignIn_of_turnedAway (hturned : TurnedAway cfg db u) : ¬CanSignIn cfg db u := by
  rintro (⟨id, identity, user, hidentity, huser, hactive⟩ | hcreatable)
  · rcases hturned with ⟨id', identity', user', hidentity', huser', hinactive⟩ | ⟨hnone, _⟩
    · obtain ⟨rfl, rfl⟩ := Prod.mk.inj (Option.some.inj (hidentity.symm.trans hidentity'))
      obtain rfl := Option.some.inj (huser.symm.trans huser')
      exact absurd (hactive.symm.trans hinactive) (by simp)
    · exact absurd (hidentity.symm.trans hnone) (by simp)
  · rcases hturned with ⟨id', identity', user', hidentity', _⟩ | ⟨_, hemail⟩
    · exact absurd (hcreatable.identity.symm.trans hidentity') (by simp)
    · exact hemail hcreatable.email

/-- An identity whose user is not there does not let anybody sign in. -/
theorem not_canSignIn_of_dangling {id : Nat} {identity : UserIdentity}
    (hidentity : db.identityOf u = some (id, identity))
    (huser : db.auth.users.get? identity.userID = none) : ¬CanSignIn cfg db u := by
  rintro (⟨id', identity', user, hidentity', huser', _⟩ | hcreatable)
  · obtain ⟨rfl, rfl⟩ := Prod.mk.inj (Option.some.inj (hidentity.symm.trans hidentity'))
    exact absurd (huser.symm.trans huser') (by simp)
  · exact absurd (hcreatable.identity.symm.trans hidentity) (by simp)

/-- Without an identity everything has to be created. -/
theorem canSignIn_iff_creatable (hidentity : db.identityOf u = none) :
    CanSignIn cfg db u ↔ Creatable cfg db u := by
  constructor
  · rintro (⟨id, identity, user, hsome, _⟩ | hcreatable)
    · exact absurd (hsome.symm.trans hidentity) (by simp)
    · exact hcreatable
  · exact Or.inr

/-- An account without the identity stands in the way. -/
theorem not_canSignIn_withUser (hidentity : db.identityOf u = none) :
    ¬CanSignIn cfg (db.withUser (newAccount cfg u)) u := by
  have hnone : (db.withUser (newAccount cfg u)).identityOf u = none := hidentity
  rw [canSignIn_iff_creatable hnone]
  intro hcreatable
  have haccount := hcreatable.account
  have hmem : (db.auth.users.freshKey, newAccount cfg u) ∈
      (db.withUser (newAccount cfg u)).usersWith (newAccount cfg u).email := by
    apply List.mem_filter.mpr
    refine ⟨Table.get?_eq_some_iff.mp ?_, by simp⟩
    exact (Table.get?_insert _ _ _ _).trans (if_pos rfl)
  simp only [Database.acceptsUser, Bool.and_eq_true] at haccount
  rw [List.isEmpty_iff.mp haccount.2] at hmem
  exact List.not_mem_nil hmem

/-- An account with the identity lets the user sign in. -/
theorem linked_withIdentity (hidentity : db.identityOf u = none) :
    Linked ((db.withUser (newAccount cfg u)).withIdentity (newIdentity u db.auth.users.freshKey))
      u := by
  -- no former identity is the user's, so the one that is found is the new one
  have hrows : (rowsWhere (db.identities.add (newIdentity u db.auth.users.freshKey)) fun i =>
      i.provider = u.provider ∧ i.providerUserID = u.providerUserID) ≠ [] := by
    apply List.ne_nil_of_mem
    apply Auth.mem_rowsWhere.mpr
    refine ⟨(Ledger.get?_add _ _ db.identities.next).trans (if_pos rfl), ?_⟩
    simp [newIdentity]
  obtain ⟨⟨id, identity⟩, hhead⟩ := Option.isSome_iff_exists.mp (List.isSome_head?.mpr hrows)
  obtain ⟨hget, hcond⟩ := Auth.of_head?_rowsWhere hhead
  refine ⟨id, identity, newAccount cfg u, hhead, ?_, rfl⟩
  rcases Ledger.of_get?_add hget with ⟨_, rfl⟩ | hold
  · exact (Table.get?_insert _ _ _ _).trans (if_pos rfl)
  · have hmem : (id, identity) ∈ rowsWhere db.identities fun i =>
        i.provider = u.provider ∧ i.providerUserID = u.providerUserID :=
      Auth.mem_rowsWhere.mpr ⟨hold, hcond⟩
    rw [List.head?_eq_none_iff.mp hidentity] at hmem
    exact absurd hmem List.not_mem_nil

/-- Only the accounts and the identities matter. -/
theorem CanSignIn.congr (hcan : CanSignIn cfg db u) (husers : db'.auth.users = db.auth.users)
    (hidentities : db'.identities = db.identities) : CanSignIn cfg db' u := by
  rcases hcan with ⟨id, identity, user, hidentity, huser, hactive⟩ | hcreatable
  · left
    refine ⟨id, identity, user, ?_, husers ▸ huser, hactive⟩
    rw [Database.identityOf, hidentities]
    exact hidentity
  · right
    constructor
    · rw [Database.identityOf, hidentities]
      exact hcreatable.identity
    · rw [Database.usersWith, husers]
      exact hcreatable.email
    · rw [Database.acceptsUser, Database.usersWith, husers]
      exact hcreatable.account
    · rw [husers]
      exact hcreatable.valid
    · have haccepted := hcreatable.accepted
      simp only [Database.acceptsIdentity, Database.withUser, husers, hidentities] at haccepted ⊢
      exact haccepted

/-- The run returns tokens. -/
def SignsIn (run : Database × Result) (req : Request) : Prop :=
  ∃ tokens, run.2 = .callback (.signedIn req.callbackURL tokens)

theorem Fails.not_signsIn {run : Database × Result} (hfails : Fails run db') :
    ¬SignsIn run req := by
  obtain ⟨message, rfl⟩ := hfails
  rintro ⟨tokens, htokens⟩
  exact nomatch htokens

theorem Refuses.not_signsIn {run : Database × Result} (hrefuses : Refuses run db') :
    ¬SignsIn run req := by
  obtain ⟨result, rfl, hnone⟩ := hrefuses
  rintro ⟨tokens, htokens⟩
  obtain rfl := Result.callback.inj htokens
  exact nomatch hnone

/-- A login in which no call fails succeeds exactly if the user can sign in. -/
theorem signsIn_iff (hallowed : DomainAllowed cfg config u) (hauto : config.autoCreateUser = true)
    (hnew : NextIsNew db.auth) (req : Request) :
    SignsIn (machine.run (resolveAndIssueJWT cfg config u req) db) req ↔ CanSignIn cfg db u := by
  have hlook : ¬AtLookUp none := by simp [AtLookUp]
  have hsession : ∀ {db' : Database} {userID : Nat} {user : User},
      db'.auth.users.get? userID = some user → NextIsNew db'.auth →
        SignsIn (machine.runFailing none (createSession userID u.provider req) db') req := by
    intro db' userID user huser hnew'
    rw [Machine.runFailing_none]
    exact run_createSession huser hnew' u.provider req
  rw [← Machine.runFailing_none]
  rcases standing_cases cfg db u with hlinked | hturned | ⟨hidentity, hemail⟩ |
    ⟨id, identity, hidentity, huser⟩
  · refine iff_of_true ?_ (Or.inl hlinked)
    rcases runFailing_linked none req hallowed hlinked with
      ⟨hposition, _⟩ | ⟨userID, user, huser, hrun⟩
    · exact absurd hposition hlook
    · rw [hrun]
      exact hsession huser hnew
  · refine iff_of_false ?_ (not_canSignIn_of_turnedAway hturned)
    rcases runFailing_turnedAway none req hallowed hauto hturned with
      ⟨hposition, _⟩ | ⟨_, hrefuses⟩
    · exact absurd hposition hlook
    · exact hrefuses.not_signsIn
  · rw [canSignIn_iff_creatable hidentity]
    rcases runFailing_new none req hallowed hauto hidentity hemail with
      ⟨hposition, _⟩ | ⟨_, houtcome⟩
    · exact absurd hposition hlook
    · cases houtcome with
      | unchanged hfirst hfails =>
          refine iff_of_false hfails.not_signsIn fun hcreatable => ?_
          rcases hfirst with hzero | hone | hrejects
          · exact nomatch hzero
          · exact nomatch hone
          · exact absurd (hcreatable.account.symm.trans hrejects) (by simp)
      | orphaned _ _ hfailed hfails =>
          refine iff_of_false hfails.not_signsIn fun hcreatable => ?_
          rcases hfailed with htwo | hinvalid | hrejects
          · exact nomatch htwo
          · exact hinvalid hcreatable.valid
          · exact absurd (hcreatable.accepted.symm.trans hrejects) (by simp)
      | linked _ haccount hvalid haccepted hrun =>
          refine iff_of_true ?_ ⟨hidentity, hemail, haccount, hvalid, haccepted⟩
          rw [hrun]
          exact hsession ((Table.get?_insert _ _ _ _).trans (if_pos rfl)) hnew
  · exact iff_of_false (runFailing_dangling none req hallowed hidentity huser).not_signsIn
      (not_canSignIn_of_dangling hidentity huser)

/-! ## Which failures can be repaired -/

/-- What a login leaves of the stored tokens. -/
structure KeepsTokens (db db' : Database) : Prop where
  tokens : db'.auth.refreshTokens = db.auth.refreshTokens
  drawn : db.auth.drawn ≤ db'.auth.drawn

theorem KeepsTokens.refl (db : Database) : KeepsTokens db db :=
  ⟨rfl, le_refl _⟩

/-- A later login depends on the accounts and the identities that the failed one has left. -/
theorem resumes_iff_canSignIn (hallowed : DomainAllowed cfg config u)
    (hauto : config.autoCreateUser = true) (hvalid : db.auth.Valid) {position : Nat}
    (hkeeps : ∀ message, (machine.runFailing (some position)
      (resolveAndIssueJWT cfg config u req) db).2 = .error message →
        KeepsTokens db (machine.runFailing (some position)
          (resolveAndIssueJWT cfg config u req) db).1) :
    Resumes cfg config db u req position ↔
      ∀ message, (machine.runFailing (some position)
        (resolveAndIssueJWT cfg config u req) db).2 = .error message →
          CanSignIn cfg (machine.runFailing (some position)
            (resolveAndIssueJWT cfg config u req) db).1 u := by
  unfold Resumes
  dsimp only
  generalize machine.runFailing (some position) (resolveAndIssueJWT cfg config u req) db = failed
    at hkeeps ⊢
  have hlater : ∀ message, failed.2 = .error message → ∀ t laterReq,
      SignsIn (machine.run (resolveAndIssueJWT cfg config u laterReq) (failed.1.later t)) laterReq ↔
        CanSignIn cfg failed.1 u := by
    intro message herror t laterReq
    have hnew : NextIsNew (failed.1.later t).auth := by
      obtain ⟨htokens, hdrawn⟩ := hkeeps message herror
      exact (hvalid.shrink (fun id row hget => htokens ▸ hget) hdrawn).nextIsNew
    rw [signsIn_iff hallowed hauto hnew laterReq]
    exact ⟨fun hcan => hcan.congr rfl rfl, fun hcan => hcan.congr rfl rfl⟩
  constructor
  · intro hresumes message herror
    exact (hlater message herror failed.1.auth.now ⟨[], [], []⟩).mp
      (hresumes message herror _ (le_refl _) _)
  · intro hcan message herror t _ laterReq
    exact (hlater message herror t laterReq).mpr (hcan message herror)

/-- After an error that has left a state behind. -/
theorem resumes_iff_of_fails (hallowed : DomainAllowed cfg config u)
    (hauto : config.autoCreateUser = true) (hvalid : db.auth.Valid) (req : Request)
    (position : Nat) (hkeeps : KeepsTokens db db')
    (hfails : Fails (machine.runFailing (some position)
      (resolveAndIssueJWT cfg config u req) db) db') :
    Resumes cfg config db u req position ↔ CanSignIn cfg db' u := by
  obtain ⟨message, hrun⟩ := hfails
  rw [resumes_iff_canSignIn hallowed hauto hvalid, hrun]
  · exact ⟨fun h => h message rfl, fun h _ _ => h⟩
  · rw [hrun]
    exact fun _ _ => hkeeps

/-- After the creation of a session has failed for a user who can sign in. -/
theorem resumes_of_session (hallowed : DomainAllowed cfg config u)
    (hauto : config.autoCreateUser = true) (hvalid : db.auth.Valid) {position userID : Nat}
    {rest : Option Nat} (hkeeps : KeepsTokens db db') (hcan : CanSignIn cfg db' u)
    (hrun : machine.runFailing (some position) (resolveAndIssueJWT cfg config u req) db =
      machine.runFailing rest (createSession userID u.provider req) db') :
    Resumes cfg config db u req position := by
  have hleft : ∀ message, (machine.runFailing rest (createSession userID u.provider req) db').2 =
      .error message → KeepsTokens db (machine.runFailing rest
        (createSession userID u.provider req) db').1 ∧
          CanSignIn cfg (machine.runFailing rest (createSession userID u.provider req) db').1 u := by
    intro message herror
    obtain ⟨auth, ⟨drawn, hdrawn, rfl⟩, hstore⟩ := createSession_error herror
    rw [hstore]
    exact ⟨⟨hkeeps.tokens, hkeeps.drawn.trans hdrawn⟩, hcan.congr rfl rfl⟩
  rw [resumes_iff_canSignIn hallowed hauto hvalid, hrun]
  · exact fun message herror => (hleft message herror).2
  · rw [hrun]
    exact fun message herror => (hleft message herror).1

/-- After a user has been turned away there is nothing to repeat. -/
theorem resumes_of_refuses {position : Nat}
    (hrefuses : Refuses (machine.runFailing (some position)
      (resolveAndIssueJWT cfg config u req) db) db') :
    Resumes cfg config db u req position := by
  obtain ⟨result, hrun, _⟩ := hrefuses
  unfold Resumes
  dsimp only
  rw [hrun]
  exact fun _ herror => nomatch herror

theorem atLookUp_some_iff {position : Nat} : AtLookUp (some position) ↔ position < 2 := by
  simp only [AtLookUp, Option.some.injEq]
  omega

/-- After an error a later login of the same user succeeds exactly if the user can sign in and it
is not the creation of the identity that has failed, or the user was to be turned away and the
look-ups have not failed. -/
theorem resumes_iff (hallowed : DomainAllowed cfg config u) (hauto : config.autoCreateUser = true)
    (hvalid : db.auth.Valid) (req : Request) (position : Nat) :
    Resumes cfg config db u req position ↔ Resumable cfg db u position := by
  have hfails := fun {db' : Database} (hkeeps : KeepsTokens db db') =>
    resumes_iff_of_fails hallowed hauto hvalid req position hkeeps
  rcases standing_cases cfg db u with hlinked | hturned | ⟨hidentity, hemail⟩ |
    ⟨id, identity, hidentity, huser⟩
  · refine iff_of_true ?_ (.linked hlinked)
    rcases runFailing_linked (some position) req hallowed hlinked with
      ⟨_, hfailed⟩ | ⟨userID, user, _, hrun⟩
    · exact (hfails (.refl db) hfailed).mpr (Or.inl hlinked)
    · exact resumes_of_session hallowed hauto hvalid (.refl db) (Or.inl hlinked) hrun
  · have hnot := not_canSignIn_of_turnedAway hturned
    rcases runFailing_turnedAway (some position) req hallowed hauto hturned with
      ⟨hlook, hfailed⟩ | ⟨hlook, hrefuses⟩
    · refine iff_of_false (fun hresumes => hnot ((hfails (.refl db) hfailed).mp hresumes)) ?_
      rintro (hlinked | ⟨hcreatable, _⟩ | ⟨_, hposition⟩)
      · exact hnot (Or.inl hlinked)
      · exact hnot (Or.inr hcreatable)
      · have hlt := atLookUp_some_iff.mp hlook
        omega
    · refine iff_of_true (resumes_of_refuses hrefuses) (.turnedAway hturned ?_)
      have hle := mt atLookUp_some_iff.mpr hlook
      omega
  · have hresumable : Resumable cfg db u position ↔ Creatable cfg db u ∧ position ≠ 4 := by
      constructor
      · rintro (⟨_, _, _, hsome, _⟩ | ⟨hcreatable, hposition⟩ | ⟨hturned, _⟩)
        · exact absurd (hsome.symm.trans hidentity) (by simp)
        · exact ⟨hcreatable, hposition⟩
        · rcases hturned with ⟨_, _, _, hsome, _⟩ | ⟨_, hother⟩
          · exact absurd (hsome.symm.trans hidentity) (by simp)
          · exact absurd hemail hother
      · exact fun h => .creatable h.1 h.2
    rw [hresumable]
    rcases runFailing_new (some position) req hallowed hauto hidentity hemail with
      ⟨hlook, hfailed⟩ | ⟨_, houtcome⟩
    · rw [hfails (.refl db) hfailed, canSignIn_iff_creatable hidentity]
      have hlt := atLookUp_some_iff.mp hlook
      exact ⟨fun hcreatable => ⟨hcreatable, by omega⟩, And.left⟩
    · cases houtcome with
      | unchanged hfirst hfailed =>
          rw [hfails (.refl db) hfailed, canSignIn_iff_creatable hidentity]
          refine ⟨fun hcreatable => ⟨hcreatable, ?_⟩, And.left⟩
          rintro rfl
          have hrejects : db.acceptsUser (newAccount cfg u) = false := by
            simpa [advance] using hfirst
          exact absurd (hcreatable.account.symm.trans hrejects) (by simp)
      | orphaned _ _ hfailed hfails' =>
          have hkeeps : KeepsTokens db (db.withUser (newAccount cfg u)) := ⟨rfl, le_refl _⟩
          rw [hfails hkeeps hfails']
          refine iff_of_false (not_canSignIn_withUser hidentity) ?_
          rintro ⟨hcreatable, hposition⟩
          rcases hfailed with htwo | hinvalid | hrejects
          · simp only [advance_eq_some, Option.some.injEq] at htwo
            exact hposition htwo
          · exact hinvalid hcreatable.valid
          · exact absurd (hcreatable.accepted.symm.trans hrejects) (by simp)
      | linked hposition haccount hvalid' haccepted hrun =>
          refine iff_of_true ?_ ⟨⟨hidentity, hemail, haccount, hvalid', haccepted⟩, ?_⟩
          · have hkeeps : KeepsTokens db ((db.withUser (newAccount cfg u)).withIdentity
                (newIdentity u db.auth.users.freshKey)) := ⟨rfl, le_refl _⟩
            exact resumes_of_session hallowed hauto hvalid hkeeps
              (Or.inl (linked_withIdentity hidentity)) hrun
          · rintro rfl
            exact hposition.2.2 rfl
  · have hfailed := runFailing_dangling (some position) req hallowed hidentity huser
    rw [hfails (.refl db) hfailed]
    have hnot : ¬CanSignIn cfg db u := not_canSignIn_of_dangling hidentity huser
    refine iff_of_false hnot ?_
    rintro (hlinked | ⟨hcreatable, _⟩ | ⟨hturned, _⟩)
    · exact hnot (Or.inl hlinked)
    · exact hnot (Or.inr hcreatable)
    · rcases hturned with ⟨_, _, user, hsome, huser', _⟩ | ⟨hnone, _⟩
      · obtain ⟨rfl, rfl⟩ := Prod.mk.inj (Option.some.inj (hidentity.symm.trans hsome))
        exact absurd (huser.symm.trans huser') (by simp)
      · exact absurd (hidentity.symm.trans hnone) (by simp)

end Standing

/-! ## A newcomer -/

/-- A Google user of whom nothing is there. -/
def newcomer : ProviderUser :=
  ⟨.google, "2002".toList, "c@x".toList, [], []⟩

/-- A login of the newcomer. -/
def newcomerLogin : Body Result :=
  resolveAndIssueJWT signInConfig googleSignIn newcomer ⟨"https://app".toList, [], []⟩

theorem newcomer_allowed : DomainAllowed signInConfig googleSignIn newcomer :=
  ⟨by decide +kernel, by decide +kernel⟩

theorem newcomer_creatable : Creatable signInConfig twoAccounts newcomer where
  identity := rfl
  email := by decide +kernel
  account := by decide +kernel
  valid := rfl
  accepted := by decide +kernel

/-- When the creation of the account fails the login can be repeated. -/
theorem resumes_iff_newcomer :
    Resumes signInConfig googleSignIn twoAccounts newcomer ⟨"https://app".toList, [], []⟩ 3 :=
  (resumes_iff newcomer_allowed rfl Auth.twoUsers_valid _ 3).mpr
    (.creatable newcomer_creatable (by decide))

/-- The creation of the identity fails, and the account that is left turns its owner away. -/
theorem newcomer_lockedOut :
    (machine.runFailing (some 4) newcomerLogin twoAccounts).2 =
        .error "resolveAndIssueJWT: creating identity".toList ∧
      (machine.run newcomerLogin (machine.runFailing (some 4) newcomerLogin twoAccounts).1).2 =
        .callback (.failed "https://app".toList "identity_not_linked"
          "An account with this email exists. Link your SSO identity from account settings first.") := by
  decide +kernel

/-- A first login in which the creation of the identity fails locks the user out. -/
theorem locked_out :
    (machine.runFailing (some 4) newcomerLogin twoAccounts).2 =
        .error "resolveAndIssueJWT: creating identity".toList ∧
      ¬Resumes signInConfig googleSignIn twoAccounts newcomer
        ⟨"https://app".toList, [], []⟩ 4 := by
  obtain ⟨herror, hlater⟩ := newcomer_lockedOut
  refine ⟨herror, fun hresumes => ?_⟩
  obtain ⟨tokens, htokens⟩ := hresumes _ herror _ (le_refl _) ⟨"https://app".toList, [], []⟩
  have hboth := hlater.symm.trans htokens
  exact absurd (Result.callback.inj hboth) (by simp [CallbackResult.failed, CallbackResult.signedIn])

end Sso
end Veilence
