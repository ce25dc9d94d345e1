import Veilence.Auth.Service

/-!
# The cap on the sessions of a user

A login creates a session and deletes the oldest ones if the user has ten.  The number of
sessions is that of the unexpired ones, the oldest session is taken among all of them, and
the refresh token of a session that is deleted stays.

Operations run one after the other here, without failures, and time passes between them.

Main results:

- Theorem {lit}`capKept_iff`: which operations keep the cap and delete the right session.
- Theorem {lit}`sessionCap_of_run`: the cap and the choice of the session in every run of
  such operations.
- Theorem {lit}`eleven_sessions`: a run without them, after which a user has eleven sessions.
-/

namespace Veilence
namespace Auth

open Go Foundation

/-! ## The unexpired sessions of a user -/

/-- The sessions of a user. -/
def sessionsOf (db : Database) (userID : Nat) : List (Nat × Session) :=
  rowsWhere db.sessions fun s => s.userID = userID

/-- The sessions of a user that have not expired. -/
def unexpired (db : Database) (userID : Nat) : List (Nat × Session) :=
  rowsWhere db.sessions fun s => s.userID = userID ∧ db.now < s.expiresAt

theorem mem_unexpired {db : Database} {userID id : Nat} {s : Session} :
    (id, s) ∈ unexpired db userID ↔
      db.sessions.get? id = some s ∧ s.userID = userID ∧ db.now < s.expiresAt := by
  rw [unexpired, mem_rowsWhere, decide_eq_true_iff]

/-- The oldest session is a session, and no session is older. -/
theorem of_oldestSession {rows : List (Nat × Session)} {row : Nat × Session}
    (holdest : oldestSession rows = some row) :
    row ∈ rows ∧ ∀ other ∈ rows, row.2.createdAt ≤ other.2.createdAt := by
  induction rows generalizing row with
  | nil => exact nomatch holdest
  | cons first rows ih =>
      unfold oldestSession at holdest
      cases hrest : oldestSession rows with
      | none =>
          rw [hrest] at holdest
          obtain rfl := Option.some.inj holdest
          cases rows with
          | nil => simp
          | cons second rows =>
              unfold oldestSession at hrest
              split at hrest
              · exact nomatch hrest
              · split_ifs at hrest
      | some other =>
          obtain ⟨hmem, hle⟩ := ih hrest
          rw [hrest] at holdest
          dsimp only at holdest
          split_ifs at holdest with hlt
          · obtain rfl := Option.some.inj holdest
            refine ⟨List.mem_cons_of_mem _ hmem, fun row hrow => ?_⟩
            rcases List.mem_cons.mp hrow with rfl | hrow
            · omega
            · exact hle row hrow
          · obtain rfl := Option.some.inj holdest
            refine ⟨List.mem_cons_self, fun row hrow => ?_⟩
            rcases List.mem_cons.mp hrow with rfl | hrow
            · omega
            · have := hle row hrow
              omega

theorem oldestSession_isSome {rows : List (Nat × Session)} (hrows : rows ≠ []) :
    ∃ row, oldestSession rows = some row := by
  cases rows with
  | nil => exact absurd rfl hrows
  | cons first rows =>
      unfold oldestSession
      split
      · exact ⟨_, rfl⟩
      · split_ifs
        · exact ⟨_, rfl⟩
        · exact ⟨_, rfl⟩

/-! ### Counting rows -/

/-- The keys of the rows that satisfy a condition are different. -/
theorem nodup_keys_rowsWhere {V : Type} (t : Ledger V) (cond : V → Bool) :
    ((rowsWhere t cond).map Prod.fst).Nodup :=
  t.rows.nodup.sublist (List.filter_sublist.map Prod.fst)

/-- Rows with keys of other rows are at most as many. -/
theorem length_rowsWhere_le {V : Type} (t : Ledger V) (cond : V → Bool) (keys : List Nat)
    (hkeys : ∀ id v, t.get? id = some v → cond v = true → id ∈ keys) :
    (rowsWhere t cond).length ≤ keys.length := by
  have hsub : (rowsWhere t cond).map Prod.fst ⊆ keys := by
    intro id hid
    obtain ⟨⟨id', v⟩, hmem, rfl⟩ := List.mem_map.mp hid
    obtain ⟨hget, hcond⟩ := mem_rowsWhere.mp hmem
    exact hkeys id' v hget hcond
  simpa using ((nodup_keys_rowsWhere t cond).subperm hsub).length_le

/-! ## What the operations do to the sessions -/

/-- The operations on sessions: logins, refreshes, logouts, revocations and cleanups. -/
def Op.onSessions : Op → Bool
  | .createSessionForUser _ _ _ _ | .login _ _ _ _ | .refreshTokens _ | .logout _
  | .revokeSession _ _ | .cleanExpiredSessions => true
  | _ => false

/-- The operations that call {lit}`CreateSession`. -/
def Op.isLogin : Op → Bool
  | .createSessionForUser _ _ _ _ | .login _ _ _ _ => true
  | _ => false

/-- No stored refresh token has the hash of the next token that is drawn. -/
def NextIsNew (db : Database) : Prop :=
  (rowsWhere db.refreshTokens fun t => t.tokenHash = hashRefreshToken ⟨db.drawn⟩).isEmpty = true

/-- The operation signs the user in, so that it comes to {lit}`CreateSession`. -/
def SignsIn (cfg : Config) (db : Database) (userID : Nat) : Op → Prop
  | .login email password _ _ =>
      ∃ user, (db.users.entries.filter fun e => e.2.email = normalizeEmail cfg email).head? =
          some (userID, user) ∧
        user.isActive = true ∧ checkPassword cfg password user.passwordHash = true ∧
        (cfg.requireEmailVerification = true → user.emailVerified = true) ∧ NextIsNew db
  | .createSessionForUser id _ _ _ => id = userID ∧ (db.users.get? id).isSome = true ∧ NextIsNew db
  | _ => False

/-- The user has fewer than ten unexpired sessions, or the oldest one of all has not expired and
its refresh token is gone. -/
def Room (db : Database) (userID : Nat) : Prop :=
  (unexpired db userID).length < maxSessionsPerUser ∨
    ∃ id s, oldestSession (sessionsOf db userID) = some (id, s) ∧ db.now < s.expiresAt ∧
      ∀ tokenID token, db.refreshTokens.get? tokenID = some token → token.tokenHash ≠ s.tokenHash

/-- The session is rightly evicted: there were ten unexpired sessions, it is the oldest of them,
and its refresh token goes with it. -/
structure Evicted (db db' : Database) (s : Session) : Prop where
  full : (unexpired db s.userID).length = maxSessionsPerUser
  live : db.now < s.expiresAt
  oldest : ∀ other ∈ unexpired db s.userID, s.createdAt ≤ other.2.createdAt
  token : ∀ tokenID token, db.refreshTokens.get? tokenID = some token →
    token.tokenHash = s.tokenHash → db'.refreshTokens.get? tokenID = none

/-- After an operation every user has at most ten unexpired sessions, and what a login has
deleted is rightly evicted. -/
structure CapKept (op : Op) (db db' : Database) : Prop where
  cap : ∀ userID, (unexpired db' userID).length ≤ maxSessionsPerUser
  evicted : op.isLogin = true → ∀ id s, db.sessions.get? id = some s →
    db'.sessions.get? id = none → Evicted db db' s

/-! ### Operations without new sessions -/

/-- The sessions are former ones, of the same users and with the same ends. -/
structure Fewer (db db' : Database) : Prop where
  now : db'.now = db.now
  rows : ∀ id s', db'.sessions.get? id = some s' →
    ∃ s, db.sessions.get? id = some s ∧ s.userID = s'.userID ∧ s.expiresAt = s'.expiresAt

theorem Fewer.refl (db : Database) : Fewer db db :=
  ⟨rfl, fun _ s hget => ⟨s, hget, rfl, rfl⟩⟩

theorem Fewer.trans {db db' db'' : Database} (h : Fewer db db') (h' : Fewer db' db'') :
    Fewer db db'' := by
  refine ⟨h'.now.trans h.now, fun id s'' hget => ?_⟩
  obtain ⟨s', hget', huser', hexpires'⟩ := h'.rows id s'' hget
  obtain ⟨s, hget, huser, hexpires⟩ := h.rows id s' hget'
  exact ⟨s, hget, huser.trans huser', hexpires.trans hexpires'⟩

/-- Former sessions keep a cap. -/
theorem Fewer.length_le {db db' : Database} (h : Fewer db db') (userID : Nat) :
    (unexpired db' userID).length ≤ (unexpired db userID).length := by
  have hle := length_rowsWhere_le db'.sessions
    (fun s => decide (s.userID = userID ∧ db'.now < s.expiresAt))
    ((unexpired db userID).map Prod.fst) ?_
  · rwa [List.length_map] at hle
  · intro id s' hget hcond
    obtain ⟨huser', hlive⟩ := of_decide_eq_true hcond
    obtain ⟨s, hget, huser, hexpires⟩ := h.rows id s' hget
    refine List.mem_map.mpr ⟨(id, s), mem_unexpired.mpr ⟨hget, huser.trans huser', ?_⟩, rfl⟩
    rw [hexpires, ← h.now]
    exact hlive

/-- A session that is changed keeps its user and its end. -/
theorem fewer_modify (db : Database) (id : Nat) {f : Session → Session}
    (huser : ∀ s, (f s).userID = s.userID) (hexpires : ∀ s, (f s).expiresAt = s.expiresAt) :
    Fewer db { db with sessions := db.sessions.modify id f } := by
  refine ⟨rfl, fun id' s' hget => ?_⟩
  rw [Ledger.get?_modify] at hget
  split_ifs at hget with hid
  · obtain ⟨s, hs, rfl⟩ := Option.map_eq_some_iff.mp hget
    exact ⟨s, hid ▸ hs, (huser s).symm, (hexpires s).symm⟩
  · exact ⟨s', hget, rfl, rfl⟩

theorem fewer_removeWhere (db : Database) (p : Session → Bool) :
    Fewer db { db with sessions := db.sessions.removeWhere p } := by
  refine ⟨rfl, fun id s hget => ⟨s, ?_, rfl, rfl⟩⟩
  rw [Ledger.get?_removeWhere] at hget
  exact (Option.filter_eq_some_iff.mp hget).1

theorem fewer_remove (db : Database) (id : Nat) :
    Fewer db { db with sessions := db.sessions.remove id } := by
  refine ⟨rfl, fun id' s hget => ⟨s, ?_, rfl, rfl⟩⟩
  rw [Ledger.get?_remove] at hget
  split_ifs at hget
  exact hget

/-- The call that adds a session. -/
def Call.createsSession : Call → Bool
  | .createSession _ => true
  | _ => false

/-- Only {lit}`Create` adds a session. -/
theorem fewer_exec (db : Database) {c : Call} (hc : c.createsSession = false) :
    Fewer db (db.exec c).1 := by
  have hrefl : ∀ db', db'.sessions = db.sessions → db'.now = db.now → Fewer db db' := by
    intro db' hsessions hnow
    exact ⟨hnow, fun id s hget => ⟨s, hsessions ▸ hget, rfl, rfl⟩⟩
  cases c with
  | createSession s => exact nomatch hc
  | createRefreshToken row =>
      simp only [Database.exec]
      split_ifs
      · exact hrefl _ rfl rfl
      · exact Fewer.refl db
  | updateSessionLastActive id lastActive =>
      exact fewer_modify db id (fun _ => rfl) fun _ => rfl
  | updateSessionTokenHash id tokenHash =>
      simp only [Database.exec]
      split_ifs
      · exact fewer_modify db id (fun _ => rfl) fun _ => rfl
      · exact Fewer.refl db
  | deleteSession id => exact fewer_remove db id
  | deleteExpiredSessions => exact fewer_removeWhere db _
  | deleteOldestSessionByUserID userID =>
      simp only [Database.exec]
      split
      · exact fewer_remove db _
      · exact Fewer.refl db
  | deleteSessionsByUserID userID => exact fewer_removeWhere db _
  | deleteSessionsByUserIDExceptTokenHash userID tokenHash => exact fewer_removeWhere db _
  | _ => exact hrefl _ rfl rfl

/-- No command of a program creates a session. -/
def WithoutSession {α : Type} : Body α → Prop
  | .ret _ => True
  | .cmd c k => c.createsSession = false ∧ ∀ r, WithoutSession (k r)

theorem WithoutSession.bind {α β : Type} {p : Body β} {f : β → Body α} (hp : WithoutSession p)
    (hf : ∀ b, WithoutSession (f b)) : WithoutSession (p >>= f) := by
  induction p with
  | ret b => exact hf b
  | cmd c k ih => exact ⟨hp.1, fun r => ih r (hp.2 r)⟩

theorem WithoutSession.fewer {α : Type} {p : Body α} (hp : WithoutSession p) (db : Database) :
    Fewer db (machine.run p db).1 := by
  induction p generalizing db with
  | ret a => exact Fewer.refl db
  | cmd c k ih => exact (fewer_exec db hp.1).trans (ih _ (hp.2 _) _)

theorem withoutSession_send {α : Type} {c : Call} {f : Option (Answer c) → Body α}
    (hc : c.createsSession = false) (hf : ∀ r, WithoutSession (f r)) :
    WithoutSession (send c >>= f) :=
  ⟨hc, hf⟩

theorem withoutSession_timeNow {α : Type} {f : Int → Body α}
    (hf : ∀ now, WithoutSession (f now)) : WithoutSession (timeNow >>= f) :=
  ⟨rfl, fun _ => hf _⟩

theorem withoutSession_generateTokenPair (userID : Nat) (user : User) :
    WithoutSession (generateTokenPair userID user) := by
  unfold generateTokenPair
  apply withoutSession_send rfl
  rintro (_ | accessToken)
  · trivial
  apply withoutSession_send rfl
  rintro (_ | refreshToken)
  · trivial
  apply withoutSession_timeNow
  intro now
  apply withoutSession_send rfl
  rintro (_ | _ | _) <;> trivial

theorem withoutSession_touchSession (session : Option Nat) :
    WithoutSession (touchSession session) := by
  cases session with
  | none => trivial
  | some id =>
      apply withoutSession_timeNow
      intro now
      exact withoutSession_send rfl fun _ => trivial

theorem withoutSession_moveSession (newTokenHash : TokenHash) (session : Option Nat) :
    WithoutSession (moveSession newTokenHash session) := by
  cases session with
  | none => trivial
  | some id => exact withoutSession_send rfl fun _ => withoutSession_touchSession _

theorem withoutSession_rotate (tokenHash : TokenHash) (storedID userID : Nat) (user : User) :
    WithoutSession (rotate tokenHash storedID userID user) := by
  unfold rotate
  apply withoutSession_send rfl
  intro session
  apply (withoutSession_touchSession _).bind
  intro _
  apply withoutSession_send rfl
  intro _
  apply (withoutSession_generateTokenPair userID user).bind
  rintro (message | tokens)
  · trivial
  · exact (withoutSession_moveSession _ _).bind fun _ => trivial

theorem withoutSession_refreshTokens (cfg : Config) (refreshToken : Token) :
    WithoutSession (refreshTokens cfg refreshToken) := by
  unfold refreshTokens
  apply withoutSession_send rfl
  rintro (_ | _ | ⟨storedID, stored⟩)
  · trivial
  · trivial
  apply withoutSession_timeNow
  intro now
  split_ifs
  · exact withoutSession_send rfl fun _ => trivial
  apply withoutSession_send rfl
  rintro (_ | _ | user)
  · trivial
  · trivial
  dsimp only
  split_ifs
  · trivial
  · exact withoutSession_send rfl fun _ => trivial
  · exact withoutSession_rotate _ _ _ _

theorem withoutSession_logout (refreshToken : Token) : WithoutSession (logout refreshToken) := by
  unfold logout
  apply withoutSession_send rfl
  rintro (_ | _ | ⟨sessionID, session⟩)
  · apply withoutSession_send rfl
    rintro (_ | _) <;> trivial
  · apply withoutSession_send rfl
    rintro (_ | _) <;> trivial
  · apply withoutSession_send rfl
    intro _
    apply withoutSession_send rfl
    rintro (_ | _) <;> trivial

theorem withoutSession_revokeSession (userID sessionID : Nat) :
    WithoutSession (revokeSession userID sessionID) := by
  unfold revokeSession
  apply withoutSession_send rfl
  rintro (_ | _ | session)
  · trivial
  · trivial
  dsimp only
  split_ifs
  · trivial
  · apply withoutSession_send rfl
    rintro (_ | _)
    · trivial
    · exact withoutSession_send rfl fun _ => trivial

theorem withoutSession_cleanExpiredSessions : WithoutSession cleanExpiredSessions := by
  unfold cleanExpiredSessions
  apply withoutSession_send rfl
  rintro (_ | _) <;> trivial

/-- The operations on sessions other than logins create none. -/
theorem withoutSession_bodyOf (cfg : Config) {op : Op} (hop : op.onSessions = true)
    (hlogin : op.isLogin = false) : WithoutSession (bodyOf cfg op) := by
  cases op with
  | refreshTokens token => exact withoutSession_refreshTokens cfg token
  | logout token => exact withoutSession_logout token
  | revokeSession userID sessionID => exact withoutSession_revokeSession userID sessionID
  | cleanExpiredSessions => exact withoutSession_cleanExpiredSessions
  | createSessionForUser _ _ _ _ => exact nomatch hlogin
  | login _ _ _ _ => exact nomatch hlogin
  | _ => exact nomatch hop

/-! ### Logins -/

/-- The sessions after the oldest one of a user has been deleted, if the user has ten. -/
def makeRoom (db : Database) (userID : Nat) : Ledger Session :=
  if (unexpired db userID).length < maxSessionsPerUser then db.sessions
  else
    match oldestSession (sessionsOf db userID) with
    | some (id, _) => db.sessions.remove id
    | none => db.sessions

/-- A session is created for a user after room has been made, unless its row is rejected. -/
structure SessionMade (db db' : Database) (userID : Nat) : Prop where
  now : db'.now = db.now
  sessions : db'.sessions = makeRoom db userID ∨
    ∃ s, s.userID = userID ∧ db'.sessions = (makeRoom db userID).add s
  tokens : ∀ id row, db.refreshTokens.get? id = some row → db'.refreshTokens.get? id = some row

/-- The loop deletes one session if the user has ten. -/
theorem run_deleteOldestSessions {db : Database} {userID : Nat}
    (hcap : (unexpired db userID).length ≤ maxSessionsPerUser) :
    machine.run (deleteOldestSessions userID (unexpired db userID).length) db =
      ({ db with sessions := makeRoom db userID }, true) := by
  unfold makeRoom
  split_ifs with hroom
  · cases hlength : (unexpired db userID).length with
    | zero => rfl
    | succ count =>
        unfold deleteOldestSessions
        rw [if_neg (by omega)]
        rfl
  · have hlength : (unexpired db userID).length = 9 + 1 := by
      unfold maxSessionsPerUser at hroom hcap
      omega
    have hexec : db.exec (.deleteOldestSessionByUserID userID) =
        match oldestSession (sessionsOf db userID) with
        | some (id, _) => ({ db with sessions := db.sessions.remove id }, ())
        | none => (db, ()) := rfl
    have hrun : machine.run (deleteOldestSessions userID (9 + 1)) db =
        ((db.exec (.deleteOldestSessionByUserID userID)).1, true) := rfl
    rw [hlength, hrun, hexec]
    cases oldestSession (sessionsOf db userID) with
    | none => rfl
    | some row => rfl

theorem sessionMade_createSession {db : Database} {userID : Nat}
    (hcap : (unexpired db userID).length ≤ maxSessionsPerUser) (tokenHash : TokenHash)
    (ipAddress userAgent authProvider : GoString) :
    SessionMade db (machine.run (createSession userID tokenHash ipAddress userAgent authProvider)
      db).1 userID := by
  have hcount : db.exec (.countSessionsByUserID userID) =
      (db, (unexpired db userID).length) := rfl
  unfold createSession
  rw [run_send, hcount]
  dsimp only
  rw [Machine.run_bind_of (run_deleteOldestSessions hcap)]
  dsimp only
  rw [run_timeNow, run_timeNow, run_send]
  simp only [Database.exec]
  split_ifs
  · exact ⟨rfl, Or.inr ⟨_, rfl, rfl⟩, fun _ _ hrow => hrow⟩
  · exact ⟨rfl, Or.inl rfl, fun _ _ hrow => hrow⟩

/-- The database after a new token pair. -/
def Database.withToken (db : Database) (userID : Nat) : Database :=
  { db with
    refreshTokens := db.refreshTokens.add
      ⟨userID, hashRefreshToken ⟨db.drawn⟩, db.now + refreshTokenDuration⟩
    drawn := db.drawn + 1 }

/-- A new token is stored, or there is one with its hash. -/
theorem run_generateTokenPair (db : Database) (userID : Nat) (user : User) :
    (NextIsNew db ∧ ∃ accessToken, machine.run (generateTokenPair userID user) db =
        (db.withToken userID, .ok ⟨accessToken, ⟨db.drawn⟩⟩)) ∨
      (¬NextIsNew db ∧ ∃ message, machine.run (generateTokenPair userID user) db =
        ({ db with drawn := db.drawn + 1 }, .error message)) := by
  unfold generateTokenPair
  rw [run_send, show db.exec (.generateAccessToken userID user.email accessTokenDuration) =
    (db, ⟨userID, user.email, db.now + accessTokenDuration⟩) from rfl]
  dsimp only
  rw [run_send, show db.exec .generateRefreshToken =
    ({ db with drawn := db.drawn + 1 }, ⟨db.drawn⟩) from rfl]
  dsimp only
  rw [run_timeNow, run_send]
  simp only [Database.exec]
  split_ifs with hnew
  · exact Or.inl ⟨hnew, _, rfl⟩
  · exact Or.inr ⟨hnew, _, rfl⟩

/-- A new token gives every user the same room. -/
theorem SessionMade.of_withToken {db db' : Database} {userID : Nat}
    (h : SessionMade (db.withToken userID) db' userID) : SessionMade db db' userID where
  now := h.now
  sessions := h.sessions
  tokens := fun id row hrow => h.tokens id row (Ledger.get?_add_of_some hrow)

/-- The end of a login, from the session on. -/
theorem sessionMade_touchLogin {db db' : Database} {userID : Nat} (h : SessionMade db db' userID)
    (user : User) : SessionMade db (machine.run (touchLogin userID user) db').1 userID :=
  ⟨h.now, h.sessions, h.tokens⟩

/-- The sessions stay the same. -/
structure SessionsKept (db db' : Database) : Prop where
  now : db'.now = db.now
  sessions : db'.sessions = db.sessions

/-- A login makes a session for the user who signs in, and for nobody else. -/
def LoginOutcome (cfg : Config) (op : Op) (db db' : Database) : Prop :=
  (∃ userID, SignsIn cfg db userID op ∧ SessionMade db db' userID) ∨
    ((∀ userID, ¬SignsIn cfg db userID op) ∧ SessionsKept db db')

theorem loginOutcome_createSessionForUser (cfg : Config) {db : Database}
    (hcap : ∀ userID, (unexpired db userID).length ≤ maxSessionsPerUser) (userID : Nat)
    (provider ipAddress userAgent : GoString) :
    LoginOutcome cfg (.createSessionForUser userID provider ipAddress userAgent) db
      (machine.run (createSessionForUser userID provider ipAddress userAgent) db).1 := by
  unfold createSessionForUser
  rw [run_send, show db.exec (.findUserByID userID) = (db, db.users.get? userID) from rfl]
  cases huser : db.users.get? userID with
  | none =>
      refine Or.inr ⟨fun id h => ?_, rfl, rfl⟩
      have hsome := h.2.1
      rw [huser] at hsome
      exact nomatch hsome
  | some user =>
  dsimp only
  rcases run_generateTokenPair db userID user with ⟨hnew, accessToken, hrun⟩ | ⟨hnew, message, hrun⟩
  · left
    refine ⟨userID, ⟨rfl, by rw [huser]; rfl, hnew⟩, ?_⟩
    rw [Machine.run_bind_of hrun]
    dsimp only
    rw [Machine.run_bind, Machine.run_bind]
    have hcap' : (unexpired (db.withToken userID) userID).length ≤ maxSessionsPerUser :=
      hcap userID
    apply SessionMade.of_withToken
    exact sessionMade_touchLogin (sessionMade_createSession hcap' _ _ _ _) user
  · right
    rw [Machine.run_bind_of hrun]
    exact ⟨fun id h => hnew h.2.2, rfl, rfl⟩

theorem loginOutcome_login (cfg : Config) {db : Database}
    (hcap : ∀ userID, (unexpired db userID).length ≤ maxSessionsPerUser)
    (email password ipAddress userAgent : GoString) :
    LoginOutcome cfg (.login email password ipAddress userAgent) db
      (machine.run (login cfg email password ipAddress userAgent) db).1 := by
  unfold login
  rw [run_send, show db.exec (.findUserByEmail (normalizeEmail cfg email)) =
    (db, (db.users.entries.filter fun e => e.2.email = normalizeEmail cfg email).head?) from rfl]
  cases hfound : (db.users.entries.filter fun e => e.2.email = normalizeEmail cfg email).head? with
  | none =>
      refine Or.inr ⟨?_, rfl, rfl⟩
      rintro id ⟨user, hhead, -⟩
      exact nomatch hfound.symm.trans hhead
  | some row =>
  obtain ⟨userID, user⟩ := row
  -- nobody else can sign in
  have hnobody : (¬(user.isActive = true ∧ checkPassword cfg password user.passwordHash = true ∧
      (cfg.requireEmailVerification = true → user.emailVerified = true) ∧ NextIsNew db)) →
      ∀ id, ¬SignsIn cfg db id (.login email password ipAddress userAgent) := by
    rintro hnot id ⟨other, hhead, hrest⟩
    obtain ⟨rfl, rfl⟩ := Prod.mk.inj (Option.some.inj (hfound.symm.trans hhead))
    exact hnot hrest
  dsimp only
  split_ifs with hinactive hpassword hverified
  · refine Or.inr ⟨hnobody fun h => ?_, rfl, rfl⟩
    exact nomatch hinactive.symm.trans h.1
  · refine Or.inr ⟨hnobody fun h => ?_, rfl, rfl⟩
    exact nomatch hpassword.symm.trans h.2.1
  · refine Or.inr ⟨hnobody fun h => ?_, rfl, rfl⟩
    exact nomatch hverified.2.symm.trans (h.2.2.1 hverified.1)
  rcases run_generateTokenPair db userID user with ⟨hnew, accessToken, hrun⟩ | ⟨hnew, message, hrun⟩
  · left
    refine ⟨userID, ⟨user, hfound, by simpa using hinactive, by simpa using hpassword, ?_, hnew⟩, ?_⟩
    · intro hrequired
      by_contra hnot
      exact hverified ⟨hrequired, by simpa using hnot⟩
    · rw [Machine.run_bind_of hrun]
      dsimp only
      rw [Machine.run_bind, Machine.run_bind]
      have hcap' : (unexpired (db.withToken userID) userID).length ≤ maxSessionsPerUser :=
        hcap userID
      apply SessionMade.of_withToken
      exact sessionMade_touchLogin (sessionMade_createSession hcap' _ _ _ _) user
  · right
    rw [Machine.run_bind_of hrun]
    exact ⟨hnobody fun h => hnew h.2.2.2, rfl, rfl⟩

/-! ## Which operations keep the cap -/

section Step

variable {cfg : Config} {db db' : Database} {userID : Nat}

/-- What is left after room has been made. -/
theorem get?_makeRoom {id : Nat} {s : Session} (hget : (makeRoom db userID).get? id = some s) :
    db.sessions.get? id = some s := by
  unfold makeRoom at hget
  split_ifs at hget
  · exact hget
  · cases holdest : oldestSession (sessionsOf db userID) with
    | none =>
        rw [holdest] at hget
        exact hget
    | some row =>
        rw [holdest] at hget
        dsimp only at hget
        rw [Ledger.get?_remove] at hget
        split_ifs at hget
        exact hget

/-- A session that is gone after room has been made is the oldest one of a user with ten. -/
theorem of_get?_makeRoom_eq_none {id : Nat} {s : Session} (hget : db.sessions.get? id = some s)
    (hgone : (makeRoom db userID).get? id = none) :
    ¬(unexpired db userID).length < maxSessionsPerUser ∧
      oldestSession (sessionsOf db userID) = some (id, s) := by
  unfold makeRoom at hgone
  split_ifs at hgone with hroom
  · exact nomatch hget.symm.trans hgone
  refine ⟨hroom, ?_⟩
  cases holdest : oldestSession (sessionsOf db userID) with
  | none =>
      rw [holdest] at hgone
      exact nomatch hget.symm.trans hgone
  | some row =>
      obtain ⟨oldID, old⟩ := row
      rw [holdest] at hgone
      dsimp only at hgone
      rw [Ledger.get?_remove] at hgone
      split_ifs at hgone with hid
      · subst hid
        obtain ⟨hold, -⟩ := mem_rowsWhere.mp (of_oldestSession holdest).1
        rw [Option.some.inj (hget.symm.trans hold)]
      · exact nomatch hget.symm.trans hgone

/-- A session is gone after a login exactly if it is gone after room has been made. -/
theorem SessionMade.get?_eq_none (h : SessionMade db db' userID) {id : Nat} {s : Session}
    (hget : db.sessions.get? id = some s) :
    db'.sessions.get? id = none ↔ (makeRoom db userID).get? id = none := by
  rcases h.sessions with heq | ⟨new, -, heq⟩
  · rw [heq]
  · have hlt : id < db.sessions.next := Ledger.lt_of_get? hget
    have hnext : (makeRoom db userID).next = db.sessions.next := by
      unfold makeRoom
      split_ifs
      · rfl
      · cases oldestSession (sessionsOf db userID) <;> rfl
    rw [heq, Ledger.get?_add, if_neg (by omega)]

/-- The unexpired sessions of a user after room has been made for one. -/
theorem length_makeRoom_lt (hcap : (unexpired db userID).length ≤ maxSessionsPerUser)
    (hroom : Room db userID) :
    (rowsWhere (makeRoom db userID) fun s => s.userID = userID ∧ db.now < s.expiresAt).length <
      maxSessionsPerUser := by
  unfold makeRoom
  split_ifs with hfew
  · exact hfew
  rcases hroom with hfew' | ⟨id, s, holdest, hlive, -⟩
  · exact absurd hfew' hfew
  obtain ⟨hold, huser⟩ := mem_rowsWhere.mp (of_oldestSession holdest).1
  have hmem : id ∈ (unexpired db userID).map Prod.fst :=
    List.mem_map.mpr ⟨(id, s), mem_unexpired.mpr ⟨hold, of_decide_eq_true huser, hlive⟩, rfl⟩
  rw [holdest]
  dsimp only
  have hle := length_rowsWhere_le (db.sessions.remove id)
    (fun s => decide (s.userID = userID ∧ db.now < s.expiresAt))
    (((unexpired db userID).map Prod.fst).erase id) ?_
  · rw [List.length_erase_of_mem hmem, List.length_map] at hle
    unfold maxSessionsPerUser at *
    omega
  · intro id' s' hget hcond
    rw [Ledger.get?_remove] at hget
    split_ifs at hget with hid
    refine (List.mem_erase_of_ne hid).mpr (List.mem_map.mpr ⟨(id', s'), ?_, rfl⟩)
    obtain ⟨huser', hlive'⟩ := of_decide_eq_true hcond
    exact mem_unexpired.mpr ⟨hget, huser', hlive'⟩

/-- A user with room has at most ten unexpired sessions after a login. -/
theorem SessionMade.cap (h : SessionMade db db' userID)
    (hcap : ∀ userID, (unexpired db userID).length ≤ maxSessionsPerUser) (hroom : Room db userID)
    (other : Nat) : (unexpired db' other).length ≤ maxSessionsPerUser := by
  -- the keys of the sessions that were there before
  have hold : ∀ id s, (makeRoom db userID).get? id = some s → s.userID = other →
      db.now < s.expiresAt → id ∈ (rowsWhere (makeRoom db userID) fun s =>
        s.userID = other ∧ db.now < s.expiresAt).map Prod.fst := by
    intro id s hget huser hlive
    exact List.mem_map.mpr
      ⟨(id, s), mem_rowsWhere.mpr ⟨hget, decide_eq_true ⟨huser, hlive⟩⟩, rfl⟩
  have hfewer : (rowsWhere (makeRoom db userID) fun s =>
      s.userID = other ∧ db.now < s.expiresAt).length ≤ (unexpired db other).length := by
    have hle := length_rowsWhere_le (makeRoom db userID)
      (fun s => decide (s.userID = other ∧ db.now < s.expiresAt))
      ((unexpired db other).map Prod.fst) ?_
    · rwa [List.length_map] at hle
    · intro id s hget hcond
      obtain ⟨huser, hlive⟩ := of_decide_eq_true hcond
      exact List.mem_map.mpr ⟨(id, s), mem_unexpired.mpr ⟨get?_makeRoom hget, huser, hlive⟩, rfl⟩
  unfold unexpired
  rw [h.now]
  rcases h.sessions with heq | ⟨new, hnew, heq⟩
  · rw [heq]
    exact hfewer.trans (hcap other)
  rw [heq]
  by_cases hother : other = userID
  · subst hother
    have hlt := length_makeRoom_lt (hcap other) hroom
    have hle := length_rowsWhere_le ((makeRoom db other).add new)
      (fun s => decide (s.userID = other ∧ db.now < s.expiresAt))
      ((makeRoom db other).next :: (rowsWhere (makeRoom db other) fun s =>
        s.userID = other ∧ db.now < s.expiresAt).map Prod.fst) ?_
    · rw [List.length_cons, List.length_map] at hle
      omega
    · intro id s hget hcond
      obtain ⟨huser, hlive⟩ := of_decide_eq_true hcond
      rcases Ledger.of_get?_add hget with ⟨rfl, -⟩ | hget
      · exact List.mem_cons_self
      · exact List.mem_cons_of_mem _ (hold id s hget huser hlive)
  · have hle := length_rowsWhere_le ((makeRoom db userID).add new)
      (fun s => decide (s.userID = other ∧ db.now < s.expiresAt))
      ((rowsWhere (makeRoom db userID) fun s =>
        s.userID = other ∧ db.now < s.expiresAt).map Prod.fst) ?_
    · rw [List.length_map] at hle
      exact hle.trans (hfewer.trans (hcap other))
    · intro id s hget hcond
      obtain ⟨huser, hlive⟩ := of_decide_eq_true hcond
      rcases Ledger.of_get?_add hget with ⟨-, rfl⟩ | hget
      · exact absurd (huser.symm.trans hnew) hother
      · exact hold id s hget huser hlive

/-- A user with room loses only a session that is rightly evicted. -/
theorem SessionMade.capKept (h : SessionMade db db' userID)
    (hcap : ∀ userID, (unexpired db userID).length ≤ maxSessionsPerUser) (hroom : Room db userID)
    (op : Op) : CapKept op db db' := by
  refine ⟨h.cap hcap hroom, fun _ id s hget hgone => ?_⟩
  obtain ⟨hfull, holdest⟩ := of_get?_makeRoom_eq_none hget ((h.get?_eq_none hget).mp hgone)
  obtain ⟨hmem, hle⟩ := of_oldestSession holdest
  obtain ⟨-, huser⟩ := mem_rowsWhere.mp hmem
  obtain rfl := of_decide_eq_true huser
  rcases hroom with hfew | ⟨id', s', holdest', hlive, htoken⟩
  · exact absurd hfew hfull
  obtain ⟨rfl, rfl⟩ := Prod.mk.inj (Option.some.inj (holdest.symm.trans holdest'))
  have hcap := hcap s.userID
  refine ⟨by omega, hlive, fun other hother => ?_, fun tokenID token hrow heq => ?_⟩
  · obtain ⟨hother, huser, -⟩ := mem_unexpired.mp hother
    exact hle other (mem_rowsWhere.mpr ⟨hother, decide_eq_true huser⟩)
  · exact absurd heq (htoken tokenID token hrow)

/-- Nobody else keeps the cap and evicts the right session. -/
theorem SessionMade.room (h : SessionMade db db' userID) {op : Op} (hop : op.isLogin = true)
    (hkept : CapKept op db db') : Room db userID := by
  by_contra hnot
  have hfull : ¬(unexpired db userID).length < maxSessionsPerUser := fun hfew => hnot (Or.inl hfew)
  have hsome : sessionsOf db userID ≠ [] := by
    intro hempty
    have hle := length_rowsWhere_le db.sessions
      (fun s => decide (s.userID = userID ∧ db.now < s.expiresAt)) [] ?_
    · have hzero : (unexpired db userID).length ≤ 0 := hle
      unfold maxSessionsPerUser at hfull
      omega
    · intro id s hget hcond
      have hmem : (id, s) ∈ sessionsOf db userID :=
        mem_rowsWhere.mpr ⟨hget, decide_eq_true (of_decide_eq_true hcond).1⟩
      rw [hempty] at hmem
      exact absurd hmem List.not_mem_nil
  obtain ⟨⟨id, s⟩, holdest⟩ := oldestSession_isSome hsome
  obtain ⟨hget, -⟩ := mem_rowsWhere.mp (of_oldestSession holdest).1
  have hgone : (makeRoom db userID).get? id = none := by
    unfold makeRoom
    rw [if_neg hfull, holdest]
    dsimp only
    rw [Ledger.get?_remove, if_pos rfl]
  have hevicted := hkept.evicted hop id s hget ((h.get?_eq_none hget).mpr hgone)
  refine hnot (Or.inr ⟨id, s, holdest, hevicted.live, fun tokenID token hrow heq => ?_⟩)
  exact nomatch (h.tokens tokenID token hrow).symm.trans (hevicted.token tokenID token hrow heq)

/-- A login is for one user. -/
theorem SignsIn.unique {op : Op} {other : Nat} (h : SignsIn cfg db userID op)
    (h' : SignsIn cfg db other op) : userID = other := by
  cases op with
  | login email password ipAddress userAgent =>
      obtain ⟨user, hhead, -⟩ := h
      obtain ⟨user', hhead', -⟩ := h'
      exact (Prod.mk.inj (Option.some.inj (hhead.symm.trans hhead'))).1
  | createSessionForUser id provider ipAddress userAgent => exact h.1.symm.trans h'.1
  | _ => exact h.elim

/-- An operation keeps the cap and evicts the right session exactly if the user who signs in has
room. -/
theorem capKept_iff (cfg : Config) {db : Database} {op : Op} (hop : op.onSessions = true)
    (hcap : ∀ userID, (unexpired db userID).length ≤ maxSessionsPerUser) :
    CapKept op db (machine.run (bodyOf cfg op) db).1 ↔
      ∀ userID, SignsIn cfg db userID op → Room db userID := by
  cases hlogin : op.isLogin with
  | false =>
      refine iff_of_true ⟨fun userID => ?_, fun h => ?_⟩ fun userID h => ?_
      · have hfewer := (withoutSession_bodyOf cfg hop hlogin).fewer db
        exact (hfewer.length_le userID).trans (hcap userID)
      · exact nomatch hlogin.symm.trans h
      · cases op with
        | login _ _ _ _ => exact nomatch hlogin
        | createSessionForUser _ _ _ _ => exact nomatch hlogin
        | _ => exact h.elim
  | true =>
      have houtcome : LoginOutcome cfg op db (machine.run (bodyOf cfg op) db).1 := by
        cases op with
        | login email password ipAddress userAgent =>
            exact loginOutcome_login cfg hcap email password ipAddress userAgent
        | createSessionForUser userID provider ipAddress userAgent =>
            exact loginOutcome_createSessionForUser cfg hcap userID provider ipAddress userAgent
        | _ => exact nomatch hlogin
      rcases houtcome with ⟨userID, hsigns, hmade⟩ | ⟨hnobody, hkept⟩
      · constructor
        · intro hcapKept other hother
          rw [← hsigns.unique hother]
          exact hmade.room hlogin hcapKept
        · exact fun hroom => hmade.capKept hcap (hroom userID hsigns) op
      · refine iff_of_true ⟨fun userID => ?_, fun _ id s hget hgone => ?_⟩ fun userID h => ?_
        · unfold unexpired
          rw [hkept.sessions, hkept.now]
          exact hcap userID
        · rw [hkept.sessions, hget] at hgone
          exact nomatch hgone
        · exact absurd h (hnobody userID)

end Step

/-! ## Runs -/

/-- An operation on sessions from its start to its end, or time that passes. -/
inductive SerialStep (cfg : Config) : Database → Option Op → Database → Prop where
  | call {db : Database} {op : Op} (hop : op.onSessions = true) :
      SerialStep cfg db (some op) (machine.run (bodyOf cfg op) db).1
  | time {db : Database} {t : Int} (ht : db.now ≤ t) :
      SerialStep cfg db none { db with now := t }

/-- The user who signs in has room. -/
def HasRoom (cfg : Config) (db : Database) (l : Option Op) : Prop :=
  ∀ op userID, l = some op → SignsIn cfg db userID op → Room db userID

/-- Time that passes keeps the cap. -/
theorem length_unexpired_le {db : Database} {t : Int} (ht : db.now ≤ t) (userID : Nat) :
    (unexpired { db with now := t } userID).length ≤ (unexpired db userID).length := by
  have hle := length_rowsWhere_le db.sessions
    (fun s => decide (s.userID = userID ∧ t < s.expiresAt)) ((unexpired db userID).map Prod.fst) ?_
  · rwa [List.length_map] at hle
  · intro id s hget hcond
    obtain ⟨huser, hlive⟩ := of_decide_eq_true hcond
    exact List.mem_map.mpr ⟨(id, s), mem_unexpired.mpr ⟨hget, huser, by omega⟩, rfl⟩

/-- In a run in which every user who signs in has room, every operation keeps the cap and evicts
the right session. -/
theorem sessionCap_of_run {cfg : Config} {db₀ db : Database}
    (hcap : ∀ userID, (unexpired db₀ userID).length ≤ maxSessionsPerUser)
    (hrun : Run (SerialStep cfg) (HasRoom cfg) db₀ db) :
    (∀ userID, (unexpired db userID).length ≤ maxSessionsPerUser) ∧
      ∀ op db', SerialStep cfg db (some op) db' → HasRoom cfg db (some op) → CapKept op db db' := by
  have hcaps : ∀ userID, (unexpired db userID).length ≤ maxSessionsPerUser := by
    apply hrun.invariant (I := fun db => ∀ userID, (unexpired db userID).length ≤ maxSessionsPerUser)
    · exact hcap
    · intro db l db' hinv hroom hstep
      cases hstep with
      | call hop =>
          exact ((capKept_iff cfg hop hinv).mpr fun userID => hroom _ userID rfl).cap
      | time ht => exact fun userID => (length_unexpired_le ht userID).trans (hinv userID)
  refine ⟨hcaps, fun op db' hstep hroom => ?_⟩
  cases hstep with
  | call hop => exact (capKept_iff cfg hop hcaps).mpr fun userID => hroom op userID rfl

/-! ## Logins of one user -/

/-- A login of the user. -/
def userLogin : Op :=
  .login "user@x".toList "secret-1".toList "10.0.0.1".toList "browser".toList

/-- Logins of the user one after the other. -/
def logins (count : Nat) (db : Database) : Database :=
  (fun db => (machine.run (bodyOf plainConfig userLogin) db).1)^[count] db

theorem logins_succ (count : Nat) (db : Database) :
    logins (count + 1) db = (machine.run (bodyOf plainConfig userLogin) (logins count db)).1 :=
  Function.iterate_succ_apply' _ _ _

theorem step_logins (count : Nat) (db : Database) :
    SerialStep plainConfig (logins count db) (some userLogin) (logins (count + 1) db) := by
  rw [logins_succ]
  exact .call rfl

theorem run_logins (count : Nat) (db : Database) :
    Run (SerialStep plainConfig) (fun _ _ => True) db (logins count db) := by
  induction count with
  | zero => exact Run.refl db
  | succ count ih => exact ih.snoc (step_logins count db) trivial

/-- A first login. -/
theorem sessionCap_of_run_login :
    CapKept userLogin twoUsers (logins 1 twoUsers) ∧ (unexpired (logins 1 twoUsers) 1).length = 1 := by
  have hnone : ∀ userID, (unexpired twoUsers userID).length = 0 := fun _ => rfl
  refine ⟨?_, by decide +kernel⟩
  have hrun : Run (SerialStep plainConfig) (HasRoom plainConfig) twoUsers twoUsers := Run.refl _
  refine (sessionCap_of_run (fun userID => ?_) hrun).2 userLogin _ (.call rfl) ?_
  · exact (hnone userID).le.trans (Nat.zero_le _)
  · intro op userID _ _
    left
    rw [hnone userID]
    decide

/-- A week, the lifetime of a session, passes. -/
def aWeekLater (db : Database) : Database :=
  { db with now := db.now + sessionDuration }

theorem step_aWeekLater (cfg : Config) (db : Database) :
    SerialStep cfg db none (aWeekLater db) := by
  apply SerialStep.time
  unfold sessionDuration
  omega

/-- Eleven logins a week after another one. -/
def laterLogins : Database :=
  logins 11 (aWeekLater (logins 1 twoUsers))

theorem run_laterLogins :
    Run (SerialStep plainConfig) (fun _ _ => True) twoUsers laterLogins := by
  have hfirst := run_logins 1 twoUsers
  have hlater := hfirst.snoc (step_aWeekLater plainConfig _) trivial
  exact hlater.trans (run_logins 11 _)

theorem length_laterLogins : (unexpired laterLogins 1).length = 11 := by
  decide +kernel

/-- The eleventh login evicts a session and keeps its refresh token. -/
theorem not_capKept_logins : ¬CapKept userLogin (logins 10 twoUsers) (logins 11 twoUsers) := by
  intro hkept
  have hsession : ((logins 10 twoUsers).sessions.get? 9).map Session.tokenHash =
      some (hashRefreshToken ⟨9⟩) := by decide +kernel
  have htoken : ((logins 10 twoUsers).refreshTokens.get? 9).map RefreshToken.tokenHash =
      some (hashRefreshToken ⟨9⟩) := by decide +kernel
  have hgone : (logins 11 twoUsers).sessions.get? 9 = none := by decide +kernel
  have hstays : ((logins 11 twoUsers).refreshTokens.get? 9).isSome = true := by decide +kernel
  obtain ⟨s, hs, hhash⟩ := Option.map_eq_some_iff.mp hsession
  obtain ⟨token, htoken, hhash'⟩ := Option.map_eq_some_iff.mp htoken
  have hnone := (hkept.evicted rfl 9 s hs hgone).token 9 token htoken (hhash'.trans hhash.symm)
  rw [hnone] at hstays
  exact nomatch hstays

theorem refreshTokens_logins :
    (machine.run (refreshTokens plainConfig ⟨9⟩) (logins 11 twoUsers)).2 =
      .tokens ⟨⟨1, "user@x".toList, accessTokenDuration⟩, ⟨11⟩⟩ := by
  decide +kernel

/-- A user has eleven sessions when the oldest one has expired and no cleanup has removed it; and
the refresh token of a session that has been evicted can still be exchanged. -/
theorem eleven_sessions :
    (∃ db, Run (SerialStep plainConfig) (fun _ _ => True) twoUsers db ∧
      (unexpired db 1).length = 11) ∧
    ∃ db db', Run (SerialStep plainConfig) (fun _ _ => True) twoUsers db ∧
      SerialStep plainConfig db (some userLogin) db' ∧ ¬CapKept userLogin db db' ∧
      (machine.run (refreshTokens plainConfig ⟨9⟩) db').2 =
        .tokens ⟨⟨1, "user@x".toList, accessTokenDuration⟩, ⟨11⟩⟩ :=
  ⟨⟨laterLogins, run_laterLogins, length_laterLogins⟩, logins 10 twoUsers, logins 11 twoUsers,
    run_logins 10 twoUsers, step_logins 10 twoUsers, not_capKept_logins, refreshTokens_logins⟩

end Auth
end Veilence
