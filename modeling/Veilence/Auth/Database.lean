import Mathlib
import Veilence.Foundation.Ledger
import Veilence.Go.Text
import Veilence.Go.Utf8

/-!
# The rows and the calls of the auth service

The tables of users, refresh tokens, sessions, password reset tokens and e-mail
verification tokens, and the calls that the auth service makes: to the repositories, to
the token provider and to the clock.  A call either succeeds and takes effect at once or
fails without effect.

A random token is the number of its draw, so no two draws give the same token, and a
client that makes one up presents a number that was not drawn.  The hash of a token tells
the token: SHA-256 is taken to be without collisions.  A user row carries no creation or
update time, which nothing reads.

Main results:

- Theorem {lit}`users_of_exec`: only {lit}`Update` changes a user row.
- Theorem {lit}`refreshTokens_of_exec`: most calls at most remove refresh tokens.
-/

namespace Veilence
namespace Auth

open Go Foundation

/-! ## Tokens -/

/-- A random token. -/
structure Token where
  serial : Nat
deriving DecidableEq

/-- What is stored of a random token. -/
structure TokenHash where
  token : Token
deriving DecidableEq

/-- {lit}`hashRefreshToken`. -/
def hashRefreshToken (token : Token) : TokenHash :=
  ⟨token⟩

/-- A signed access token, by its claims. -/
structure AccessToken where
  userID : Nat
  email : GoString
  expiresAt : Int
deriving DecidableEq

/-! ## Rows -/

/-- A user, filed under the ID. -/
structure User where
  email : GoString
  passwordHash : GoString
  firstName : GoString
  lastName : GoString
  isActive : Bool
  isSuperAdmin : Bool
  deactivatedAt : Option Int
  emailVerified : Bool
  lastLoginAt : Option Int
  mustChangePassword : Bool
deriving DecidableEq

/-- A stored refresh token. -/
structure RefreshToken where
  userID : Nat
  tokenHash : TokenHash
  expiresAt : Int
deriving DecidableEq

/-- A session of a user. -/
structure Session where
  userID : Nat
  tokenHash : TokenHash
  ipAddress : GoString
  userAgent : GoString
  authProvider : GoString
  createdAt : Int
  lastActive : Int
  expiresAt : Int
deriving DecidableEq

/-- A token for resetting a password. -/
structure PasswordResetToken where
  userID : Nat
  tokenHash : TokenHash
  expiresAt : Int
  usedAt : Option Int
deriving DecidableEq

/-- A token for verifying an e-mail address. -/
structure EmailVerificationToken where
  userID : Nat
  tokenHash : TokenHash
  expiresAt : Int
deriving DecidableEq

/-- A text column accepts valid UTF-8 without NUL up to a number of characters. -/
def fitsColumn (limit : Nat) (s : GoString) : Bool :=
  utf8Valid s && !s.contains '\x00' && runeCount s ≤ limit

/-- The text columns of a session row accept their values. -/
def Session.fits (session : Session) : Bool :=
  fitsColumn 45 session.ipAddress && fitsColumn 512 session.userAgent &&
    fitsColumn 20 session.authProvider

/-! ## The state -/

/-- The database, with the number of tokens drawn so far and the time. -/
structure Database where
  users : Table Nat User
  refreshTokens : Ledger RefreshToken
  sessions : Ledger Session
  passwordResets : Ledger PasswordResetToken
  emailVerifications : Ledger EmailVerificationToken
  drawn : Nat
  now : Int

/-- The rows of a ledger that satisfy a condition. -/
def rowsWhere {V : Type} (t : Ledger V) (cond : V → Bool) : List (Nat × V) :=
  t.rows.entries.filter fun e => cond e.2

theorem mem_rowsWhere {V : Type} {t : Ledger V} {cond : V → Bool} {id : Nat} {v : V} :
    (id, v) ∈ rowsWhere t cond ↔ t.get? id = some v ∧ cond v = true := by
  simp [rowsWhere, Ledger.get?, Table.get?_eq_some_iff]

/-- No row satisfies a condition. -/
theorem isEmpty_rowsWhere {V : Type} {t : Ledger V} {cond : V → Bool} :
    (rowsWhere t cond).isEmpty = true ↔ ∀ id v, t.get? id = some v → cond v = false := by
  rw [List.isEmpty_iff, List.eq_nil_iff_forall_not_mem]
  constructor
  · intro hnone id v hget
    simpa [hget] using mt mem_rowsWhere.mpr (hnone (id, v))
  · rintro hnone ⟨id, v⟩ hmem
    obtain ⟨hget, hcond⟩ := mem_rowsWhere.mp hmem
    simp [hnone id v hget] at hcond

/-- The first row that satisfies a condition is a row that does. -/
theorem of_head?_rowsWhere {V : Type} {t : Ledger V} {cond : V → Bool} {id : Nat} {v : V}
    (hhead : (rowsWhere t cond).head? = some (id, v)) : t.get? id = some v ∧ cond v = true :=
  mem_rowsWhere.mp (List.mem_of_mem_head? hhead)

/-- The session that was created first, the first one in case of a tie. -/
def oldestSession : List (Nat × Session) → Option (Nat × Session)
  | [] => none
  | row :: rows =>
      match oldestSession rows with
      | none => some row
      | some other => if other.2.createdAt < row.2.createdAt then some other else some row

/-! ## Calls -/

/-- The calls of the auth service. -/
inductive Call where
  | timeNow
  | salt
  | generateAccessToken (userID : Nat) (email : GoString) (duration : Int)
  | generateRefreshToken
  | findUserByID (id : Nat)
  | findUserByEmail (email : GoString)
  | updateUser (id : Nat) (user : User)
  | countSuperAdmins
  | findRefreshTokenByTokenHash (tokenHash : TokenHash)
  | createRefreshToken (token : RefreshToken)
  | deleteRefreshToken (id : Nat)
  | deleteRefreshTokenByTokenHash (tokenHash : TokenHash)
  | deleteRefreshTokensByUserID (userID : Nat)
  | deleteRefreshTokensByUserIDExceptTokenHash (userID : Nat) (exceptTokenHash : TokenHash)
  | findSessionByID (id : Nat)
  | findSessionsByUserID (userID : Nat)
  | findSessionByTokenHash (tokenHash : TokenHash)
  | createSession (session : Session)
  | updateSessionLastActive (id : Nat) (lastActive : Int)
  | updateSessionTokenHash (id : Nat) (tokenHash : TokenHash)
  | deleteSession (id : Nat)
  | deleteExpiredSessions
  | countSessionsByUserID (userID : Nat)
  | deleteOldestSessionByUserID (userID : Nat)
  | deleteSessionsByUserID (userID : Nat)
  | deleteSessionsByUserIDExceptTokenHash (userID : Nat) (exceptTokenHash : TokenHash)
  | findPasswordResetByTokenHash (tokenHash : TokenHash)
  | markPasswordResetUsed (id : Nat)
  | findEmailVerificationByTokenHash (tokenHash : TokenHash)
  | deleteEmailVerification (id : Nat)
deriving DecidableEq

/-- What a call answers.  A {lit}`Bool` says whether the database accepted a row, a query
for one row answers with what it found. -/
abbrev Answer : Call → Type
  | .timeNow => Int
  | .salt => Nat
  | .generateAccessToken _ _ _ => AccessToken
  | .generateRefreshToken => Token
  | .findUserByID _ => Option User
  | .findUserByEmail _ => Option (Nat × User)
  | .countSuperAdmins => Nat
  | .findRefreshTokenByTokenHash _ => Option (Nat × RefreshToken)
  | .createRefreshToken _ => Bool
  | .findSessionByID _ => Option Session
  | .findSessionsByUserID _ => List (Nat × Session)
  | .findSessionByTokenHash _ => Option (Nat × Session)
  | .createSession _ => Bool
  | .updateSessionTokenHash _ _ => Bool
  | .deleteExpiredSessions => Nat
  | .countSessionsByUserID _ => Nat
  | .findPasswordResetByTokenHash _ => Option (Nat × PasswordResetToken)
  | .markPasswordResetUsed _ => Bool
  | .findEmailVerificationByTokenHash _ => Option (Nat × EmailVerificationToken)
  | _ => Unit

/-- Carry out a call.  The unique indexes on the token hashes and the column types reject
rows. -/
def Database.exec (db : Database) : (c : Call) → Database × Answer c
  | .timeNow => (db, db.now)
  | .salt => ({ db with drawn := db.drawn + 1 }, db.drawn)
  | .generateAccessToken userID email duration => (db, ⟨userID, email, db.now + duration⟩)
  | .generateRefreshToken => ({ db with drawn := db.drawn + 1 }, ⟨db.drawn⟩)
  | .findUserByID id => (db, db.users.get? id)
  | .findUserByEmail email =>
      (db, (db.users.entries.filter fun e => e.2.email = email).head?)
  | .updateUser id user => ({ db with users := db.users.insert id user }, ())
  | .countSuperAdmins =>
      (db, (db.users.entries.filter fun e => e.2.isSuperAdmin && e.2.isActive).length)
  | .findRefreshTokenByTokenHash tokenHash =>
      (db, (rowsWhere db.refreshTokens fun t => t.tokenHash = tokenHash).head?)
  | .createRefreshToken token =>
      if (rowsWhere db.refreshTokens fun t => t.tokenHash = token.tokenHash).isEmpty then
        ({ db with refreshTokens := db.refreshTokens.add token }, true)
      else (db, false)
  | .deleteRefreshToken id => ({ db with refreshTokens := db.refreshTokens.remove id }, ())
  | .deleteRefreshTokenByTokenHash tokenHash =>
      ({ db with refreshTokens :=
          db.refreshTokens.removeWhere fun t => t.tokenHash = tokenHash }, ())
  | .deleteRefreshTokensByUserID userID =>
      ({ db with refreshTokens := db.refreshTokens.removeWhere fun t => t.userID = userID }, ())
  | .deleteRefreshTokensByUserIDExceptTokenHash userID exceptTokenHash =>
      ({ db with refreshTokens :=
          db.refreshTokens.removeWhere fun t =>
            t.userID = userID ∧ t.tokenHash ≠ exceptTokenHash }, ())
  | .findSessionByID id => (db, db.sessions.get? id)
  | .findSessionsByUserID userID =>
      (db, (rowsWhere db.sessions fun s => s.userID = userID ∧ db.now < s.expiresAt).insertionSort
        fun a b => b.2.lastActive ≤ a.2.lastActive)
  | .findSessionByTokenHash tokenHash =>
      (db, (rowsWhere db.sessions fun s => s.tokenHash = tokenHash).head?)
  | .createSession session =>
      if session.fits && (rowsWhere db.sessions fun s => s.tokenHash = session.tokenHash).isEmpty
      then
        ({ db with sessions := db.sessions.add { session with createdAt := db.now } }, true)
      else (db, false)
  | .updateSessionLastActive id lastActive =>
      ({ db with sessions := db.sessions.modify id fun s => { s with lastActive := lastActive } },
        ())
  | .updateSessionTokenHash id tokenHash =>
      if (db.sessions.rows.entries.filter fun e => e.1 ≠ id ∧ e.2.tokenHash = tokenHash).isEmpty
      then
        ({ db with sessions := db.sessions.modify id fun s => { s with tokenHash := tokenHash } },
          true)
      else (db, false)
  | .deleteSession id => ({ db with sessions := db.sessions.remove id }, ())
  | .deleteExpiredSessions =>
      ({ db with sessions := db.sessions.removeWhere fun s => s.expiresAt ≤ db.now },
        (rowsWhere db.sessions fun s => s.expiresAt ≤ db.now).length)
  | .countSessionsByUserID userID =>
      (db, (rowsWhere db.sessions fun s => s.userID = userID ∧ db.now < s.expiresAt).length)
  | .deleteOldestSessionByUserID userID =>
      match oldestSession (rowsWhere db.sessions fun s => s.userID = userID) with
      | some (id, _) => ({ db with sessions := db.sessions.remove id }, ())
      | none => (db, ())
  | .deleteSessionsByUserID userID =>
      ({ db with sessions := db.sessions.removeWhere fun s => s.userID = userID }, ())
  | .deleteSessionsByUserIDExceptTokenHash userID exceptTokenHash =>
      ({ db with sessions :=
          db.sessions.removeWhere fun s =>
            s.userID = userID ∧ s.tokenHash ≠ exceptTokenHash }, ())
  | .findPasswordResetByTokenHash tokenHash =>
      (db, (rowsWhere db.passwordResets fun t => t.tokenHash = tokenHash).head?)
  | .markPasswordResetUsed id =>
      ({ db with passwordResets :=
          db.passwordResets.modify id fun t => { t with usedAt := some db.now } },
        (db.passwordResets.get? id).isSome)
  | .findEmailVerificationByTokenHash tokenHash =>
      (db, (rowsWhere db.emailVerifications fun t => t.tokenHash = tokenHash).head?)
  | .deleteEmailVerification id =>
      ({ db with emailVerifications := db.emailVerifications.remove id }, ())

/-! ## What a call leaves as it is -/

/-- Only {lit}`Update` changes a user row. -/
theorem users_of_exec (db : Database) {c : Call} (hc : ∀ id row, c ≠ .updateUser id row) :
    (db.exec c).1.users = db.users := by
  cases c with
  | updateUser id row => exact absurd rfl (hc id row)
  | createRefreshToken token =>
      simp only [Database.exec]
      split_ifs <;> rfl
  | createSession session =>
      simp only [Database.exec]
      split_ifs <;> rfl
  | updateSessionTokenHash id tokenHash =>
      simp only [Database.exec]
      split_ifs <;> rfl
  | deleteOldestSessionByUserID userID =>
      simp only [Database.exec]
      split <;> rfl
  | _ => rfl

/-- The calls that draw, store, find or delete one refresh token. -/
def Call.OnTokens : Call → Prop
  | .generateRefreshToken | .createRefreshToken _ | .deleteRefreshToken _
  | .findRefreshTokenByTokenHash _ => True
  | _ => False

/-- The other calls only remove refresh tokens. -/
theorem refreshTokens_of_exec {db : Database} {c : Call} (hc : ¬c.OnTokens) :
    (∀ id row, (db.exec c).1.refreshTokens.get? id = some row →
      db.refreshTokens.get? id = some row) ∧
      (db.exec c).1.refreshTokens.next = db.refreshTokens.next ∧
      db.drawn ≤ (db.exec c).1.drawn := by
  have hremove : ∀ p : RefreshToken → Bool, ∀ id row,
      (db.refreshTokens.removeWhere p).get? id = some row →
        db.refreshTokens.get? id = some row := by
    intro p id row hrow
    rw [Ledger.get?_removeWhere] at hrow
    exact (Option.filter_eq_some_iff.mp hrow).1
  cases c with
  | generateRefreshToken => exact absurd trivial hc
  | createRefreshToken row => exact absurd trivial hc
  | deleteRefreshToken id => exact absurd trivial hc
  | findRefreshTokenByTokenHash tokenHash => exact absurd trivial hc
  | salt => exact ⟨fun _ _ hrow => hrow, rfl, Nat.le_succ _⟩
  | deleteRefreshTokenByTokenHash tokenHash => exact ⟨hremove _, rfl, Nat.le_refl _⟩
  | deleteRefreshTokensByUserID userID => exact ⟨hremove _, rfl, Nat.le_refl _⟩
  | deleteRefreshTokensByUserIDExceptTokenHash userID exceptTokenHash =>
      exact ⟨hremove _, rfl, Nat.le_refl _⟩
  | createSession session =>
      simp only [Database.exec]
      split_ifs <;> exact ⟨fun _ _ hrow => hrow, rfl, Nat.le_refl _⟩
  | updateSessionTokenHash id tokenHash =>
      simp only [Database.exec]
      split_ifs <;> exact ⟨fun _ _ hrow => hrow, rfl, Nat.le_refl _⟩
  | deleteOldestSessionByUserID userID =>
      simp only [Database.exec]
      split <;> exact ⟨fun _ _ hrow => hrow, rfl, Nat.le_refl _⟩
  | _ => exact ⟨fun _ _ hrow => hrow, rfl, Nat.le_refl _⟩

end Auth
end Veilence
