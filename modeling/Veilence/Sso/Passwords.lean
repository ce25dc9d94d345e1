import Veilence.Go.Utf8Texts
import Veilence.Sso.Emails

/-!
# Passwords that are accepted and hashed

Two validators bound the length of a password in characters, and bcrypt bounds it in bytes.  Four
operations set a password: the registration, the creation of a user by an admin, the reset and the
change.

bcrypt hashes the password with a NUL behind it, repeated up to 72 bytes, and rejects a password
of more than 72 bytes when it hashes one, but not when it compares one.

Main results:

- Theorem {lit}`bcryptKey_injective`: the keys of short passwords without NUL differ.
- Theorem {lit}`works_iff`: the accepted passwords that work.
- Theorem {lit}`long_password_fails`: an accepted password that cannot be set.
-/

namespace Veilence
namespace Sso

open Go Foundation

open Auth (Token TokenHash User hashRefreshToken rowsWhere passwordMinLength passwordMaxLength
  checkPassword validatePasswordWithContext normalizeEmail)

/-! ## The validators -/

/-- {lit}`ValidatePassword` of the requests: the message of the error, if there is one. -/
def validatePassword (password : GoString) : Option GoString :=
  if password = [] then some "password is required".toList
  else if runeCount password < passwordMinLength then
    some ("password must be at least ".toList ++ itoa passwordMinLength ++ " characters".toList)
  else if passwordMaxLength < runeCount password then
    some ("password exceeds maximum length (".toList ++ itoa passwordMaxLength ++
      " characters max)".toList)
  else none

/-- Both validators accept a password for the user with an e-mail address. -/
def Accepted (cfg : Auth.Config) (email password : GoString) : Prop :=
  validatePassword password = none ∧ validatePasswordWithContext cfg password email = none

instance (cfg : Auth.Config) (email password : GoString) :
    Decidable (Accepted cfg email password) :=
  inferInstanceAs (Decidable (_ ∧ _))

/-- An accepted password has at most 72 characters. -/
theorem runeCount_le_of_accepted {cfg : Auth.Config} {email password : GoString}
    (haccepted : Accepted cfg email password) : runeCount password ≤ 72 := by
  have hvalid := haccepted.2
  unfold validatePasswordWithContext at hvalid
  split_ifs at hvalid with hshort hlong hlocal
  exact Nat.le_of_not_lt hlong

/-! ## bcrypt -/

/-- A password of at most 72 bytes without NUL. -/
def FitsBcrypt (password : GoString) : Prop :=
  password.length ≤ 72 ∧ '\x00' ∉ password

instance (password : GoString) : Decidable (FitsBcrypt password) :=
  inferInstanceAs (Decidable (_ ∧ _))

/-- A password hasher like bcrypt: it rejects passwords of more than 72 bytes, and it tells two
passwords apart by their keys, which differ for passwords that fit. -/
structure Bcrypt {K : Type} (cfg : Auth.Config) (key : GoString → K) : Prop where
  rejects : ∀ salt password, cfg.hash salt password = none ↔ 72 < password.length
  compares : ∀ salt password hash, cfg.hash salt password = some hash →
    ∀ other, cfg.compare hash other = true ↔ key other = key password
  injective : ∀ password other, FitsBcrypt password → FitsBcrypt other →
    key password = key other → password = other

/-! ## Setting a password -/

/-- The operations that set a password. -/
inductive PasswordOp where
  | register (email firstName lastName : GoString)
  | createUserWithPassword (email firstName lastName : GoString)
  | resetPassword (rawToken : Token)
  | changePassword (userID : Nat) (currentPassword : GoString)
      (currentTokenHash : Option TokenHash)

/-- The operation with the password. -/
def PasswordOp.op (password : GoString) : PasswordOp → Op
  | .register email firstName lastName => .register email password firstName lastName
  | .createUserWithPassword email firstName lastName =>
      .createUserWithPassword email firstName lastName password
  | .resetPassword rawToken => .auth (.resetPassword rawToken password)
  | .changePassword userID currentPassword currentTokenHash =>
      .auth (.changePassword userID currentPassword password currentTokenHash)

/-- The user whose password an operation sets, with the e-mail address. -/
def PasswordOp.user (cfg : Config) (db : Database) : PasswordOp → Option (Nat × GoString)
  | .register email _ _ | .createUserWithPassword email _ _ =>
      some (db.auth.users.freshKey, normalizeEmail cfg.auth email)
  | .resetPassword rawToken =>
      (rowsWhere db.auth.passwordResets fun t => t.tokenHash = hashRefreshToken rawToken).head?.bind
        fun stored => (db.auth.users.get? stored.2.userID).map fun user =>
          (stored.2.userID, user.email)
  | .changePassword userID _ _ =>
      (db.auth.users.get? userID).map fun user => (userID, user.email)

/-- The errors that are about the password itself. -/
def passwordErrors : List GoString :=
  ["hashing password".toList, "hashing new password".toList,
    "password must be at least ".toList ++ itoa passwordMinLength ++ " characters".toList,
    "password must be at most ".toList ++ itoa passwordMaxLength ++ " characters".toList,
    "password must not contain your email address".toList]

/-- The operation has failed because of the password. -/
def Result.BlamesPassword : Result → Prop
  | .error message | .auth (.error message) => message ∈ passwordErrors
  | _ => False

/-- The operation has set the password. -/
def Result.SetsPassword : Result → Prop
  | .user _ | .auth .ok => True
  | _ => False

/-- Among the passwords that are accepted for a user, just one is the password of a row. -/
def Checks (cfg : Auth.Config) (email password : GoString) (user : User) : Prop :=
  ∀ other, Accepted cfg email other →
    (checkPassword cfg other user.passwordHash = true ↔ other = password)

/-- Whatever the database holds, no operation fails because of the password, and an operation that
sets it stores a row that just this password opens. -/
def Works (cfg : Config) (email password : GoString) : Prop :=
  ∀ (db : Database) (op : PasswordOp) (id : Nat), op.user cfg db = some (id, email) →
    ¬(machine.run (bodyOf cfg (op.op password)) db).2.BlamesPassword ∧
      ((machine.run (bodyOf cfg (op.op password)) db).2.SetsPassword →
        ∃ user, (machine.run (bodyOf cfg (op.op password)) db).1.auth.users.get? id = some user ∧
          Checks cfg.auth email password user)

/-! ## One operation -/

variable {cfg : Config} {password : GoString}

/-- An operation has not failed because of the password, and if it has set it, the row holds one
of its hashes. -/
def Stores (cfg : Config) (password : GoString) (id : Nat) (out : Database × Result) : Prop :=
  ¬out.2.BlamesPassword ∧
    (out.2.SetsPassword → ∃ user salt, out.1.auth.users.get? id = some user ∧
      cfg.auth.hash salt password = some user.passwordHash)

/-- An operation has failed for another reason. -/
theorem stores_of_error {id : Nat} {db : Database} {message : GoString}
    (hother : message ∉ passwordErrors) : Stores cfg password id (db, .error message) :=
  ⟨hother, False.elim⟩

/-- An operation of the auth service has failed for another reason. -/
theorem stores_of_auth_error {id : Nat} {db : Database} {message : GoString}
    (hother : message ∉ passwordErrors) : Stores cfg password id (db, .auth (.error message)) :=
  ⟨hother, False.elim⟩

/-- The check for an existing user changes nothing. -/
theorem run_checkExistingUser (email : GoString) (db : Database) :
    machine.run (checkExistingUser email) db = (db, .ok ()) ∨
      machine.run (checkExistingUser email) db =
        (db, .error "email already registered".toList) := by
  unfold checkExistingUser
  rw [run_send]
  dsimp only [Database.exec, Auth.Database.exec]
  cases (db.auth.users.entries.filter fun e => e.2.email = email).head? with
  | none => exact Or.inl rfl
  | some found => exact Or.inr rfl

/-- A password that bcrypt hashes is hashed. -/
theorem run_hashPassword (hhash : ∀ salt, ∃ hash, cfg.auth.hash salt password = some hash)
    (db : Database) :
    ∃ db' salt hash, cfg.auth.hash salt password = some hash ∧
      machine.run (hashPassword cfg password) db = (db', .ok hash) ∧
      db'.auth.users = db.auth.users := by
  obtain ⟨hash, hsome⟩ := hhash db.auth.drawn
  refine ⟨{ db with auth := { db.auth with drawn := db.auth.drawn + 1 } }, db.auth.drawn, hash,
    hsome, ?_, rfl⟩
  unfold hashPassword
  rw [run_send]
  dsimp only [Database.exec, Auth.Database.exec]
  rw [hsome]
  rfl

/-- A new user is stored under the next ID. -/
theorem run_storeUser (user : User) (failure : GoString) (db : Database) :
    machine.run (storeUser user failure) db = (db.withUser user, .ok db.auth.users.freshKey) ∨
      machine.run (storeUser user failure) db = (db, .error failure) := by
  unfold storeUser
  rw [run_send]
  rcases createUser_cases db user with ⟨-, hexec⟩ | ⟨-, hexec⟩
  · rw [hexec]
    exact Or.inl rfl
  · rw [hexec]
    exact Or.inr rfl

/-- An e-mail changes nothing. -/
theorem run_sendEmail (email : GoString) (db : Database) :
    machine.run (sendEmail cfg email) db = (db, ()) := by
  unfold sendEmail
  split_ifs <;> rfl

/-- The rate limiter changes no account. -/
theorem users_run_heldBack (key : GoString) (db : Database) :
    (machine.run (heldBack cfg key) db).1.auth = db.auth := by
  unfold heldBack
  by_cases hlimited : cfg.rateLimiter = true
  · rw [if_pos hlimited, run_send]
    rcases allow_cases db key emailCooldown with hheld | hpass
    · rw [hheld]
      rfl
    · rw [hpass]
      rfl
  · rw [if_neg hlimited]
    rfl

/-- The e-mail after a registration changes no account. -/
theorem users_run_sendPostRegistrationVerification (userID : Nat) (db : Database) :
    (machine.run (sendPostRegistrationVerification cfg userID) db).1.auth.users =
      db.auth.users := by
  unfold sendPostRegistrationVerification
  by_cases hrequired : cfg.auth.requireEmailVerification = false
  · rw [if_pos hrequired]
    rfl
  · rw [if_neg hrequired]
    unfold generateEmailVerificationToken
    rw [machine.run_bind, ← users_run_heldBack ("verify_email:".toList ++ itoa userID) db]
    generalize machine.run (heldBack cfg ("verify_email:".toList ++ itoa userID)) db = out
    obtain ⟨db', held⟩ := out
    cases held with
    | true => rfl
    | false =>
        rw [if_neg Bool.false_ne_true, run_send, run_send]
        dsimp only
        rw [run_timeNow, run_send]
        dsimp only [Database.exec]
        split_ifs with hunique hsender
        · dsimp only
          rw [run_send]
          dsimp only [Database.exec, Auth.Database.exec]
          cases db'.auth.users.get? userID with
          | none => rfl
          | some user => rw [run_sendEmail]
        · rfl
        · rfl
        · rfl

/-- The new row holds the hash, whatever comes after. -/
theorem stores_of_withUser {db db' db'' : Database} {user : User} {salt : Nat}
    (hhash : cfg.auth.hash salt password = some user.passwordHash)
    (hbefore : db'.auth.users = db.auth.users)
    (hafter : db''.auth.users = (db'.withUser user).auth.users) :
    Stores cfg password db.auth.users.freshKey (db'', .user db'.auth.users.freshKey) := by
  refine ⟨False.elim, fun _ => ⟨user, salt, ?_, hhash⟩⟩
  dsimp only
  rw [hafter, ← hbefore]
  exact Table.get?_insert_self _ _ _

/-- No domain is refused because of the password. -/
theorem not_mem_passwordErrors_of_validateEmailDomain {email message : GoString}
    (hrefused : Rbac.validateEmailDomain cfg.rbac email = some message) :
    message ∉ passwordErrors := by
  have hmessage : message = "invalid email address".toList ∨
      message = "email domain is not allowed".toList := by
    unfold Rbac.validateEmailDomain at hrefused
    split_ifs at hrefused
    split at hrefused
    · exact Or.inl (Option.some.inj hrefused).symm
    · exact Or.inr (Option.some.inj hrefused).symm
  rcases hmessage with rfl | rfl <;> decide +kernel

example : "creating user".toList ∉ passwordErrors := by
  decide +kernel

section Operations

variable (hhash : ∀ salt, ∃ hash, cfg.auth.hash salt password = some hash)

include hhash

theorem stores_register {email firstName lastName : GoString} {db : Database}
    (hvalid : validatePasswordWithContext cfg.auth password (normalizeEmail cfg.auth email) = none) :
    Stores cfg password db.auth.users.freshKey
      (machine.run (register cfg email password firstName lastName) db) := by
  unfold register
  dsimp only
  by_cases henabled : cfg.rbac.registrationEnabled = false
  · rw [if_pos henabled]
    exact stores_of_error (by decide +kernel)
  · rw [if_neg henabled]
    cases hdomain : Rbac.validateEmailDomain cfg.rbac (normalizeEmail cfg.auth email) with
    | some message => exact stores_of_error (not_mem_passwordErrors_of_validateEmailDomain hdomain)
    | none =>
        rcases run_checkExistingUser (normalizeEmail cfg.auth email) db with hfree | htaken
        · dsimp only
          rw [machine.run_bind_of hfree]
          dsimp only
          rw [hvalid]
          obtain ⟨db', salt, hash, hsome, hrun, husers⟩ := run_hashPassword hhash db
          dsimp only
          rw [machine.run_bind_of hrun]
          dsimp only
          rcases run_storeUser (registeredUser (normalizeEmail cfg.auth email) firstName lastName
            hash) "creating user".toList db' with hstored | hrejected
          · rw [machine.run_bind_of hstored]
            dsimp only
            rw [machine.run_bind]
            exact stores_of_withUser hsome husers
              (users_run_sendPostRegistrationVerification _ _)
          · rw [machine.run_bind_of hrejected]
            exact stores_of_error (by decide +kernel)
        · dsimp only
          rw [machine.run_bind_of htaken]
          exact stores_of_error (by decide +kernel)

theorem stores_createUserWithPassword {email firstName lastName : GoString} {db : Database}
    (hvalid : validatePasswordWithContext cfg.auth password (normalizeEmail cfg.auth email) = none) :
    Stores cfg password db.auth.users.freshKey
      (machine.run (bodyOf cfg (.createUserWithPassword email firstName lastName password)) db) := by
  unfold bodyOf
  rw [machine.run_bind]
  unfold createUserWithPassword
  dsimp only
  cases hdomain : Rbac.validateEmailDomain cfg.rbac (normalizeEmail cfg.auth email) with
  | some message => exact stores_of_error (not_mem_passwordErrors_of_validateEmailDomain hdomain)
  | none =>
      dsimp only
      rw [hvalid]
      dsimp only
      rcases run_checkExistingUser (normalizeEmail cfg.auth email) db with hfree | htaken
      · rw [machine.run_bind_of hfree]
        dsimp only
        obtain ⟨db', salt, hash, hsome, hrun, husers⟩ := run_hashPassword hhash db
        rw [machine.run_bind_of hrun]
        dsimp only
        rcases run_storeUser (Rbac.newUser (normalizeEmail cfg.auth email) firstName lastName hash
          true) "creating user".toList db' with hstored | hrejected
        · rw [hstored]
          exact stores_of_withUser hsome husers rfl
        · rw [hrejected]
          exact stores_of_error (by decide +kernel)
      · rw [machine.run_bind_of htaken]
        exact stores_of_error (by decide +kernel)

/-- A password that bcrypt hashes is hashed by the auth service. -/
theorem run_auth_hashPassword (db : Auth.Database) :
    ∃ db' salt hash, cfg.auth.hash salt password = some hash ∧
      Auth.machine.run (Auth.hashPassword cfg.auth password) db = (db', some hash) ∧
      db'.users = db.users := by
  obtain ⟨hash, hsome⟩ := hhash db.drawn
  refine ⟨{ db with drawn := db.drawn + 1 }, db.drawn, hash, hsome, ?_, rfl⟩
  unfold Auth.hashPassword
  rw [Auth.run_send]
  dsimp only [Auth.Database.exec]
  rw [hsome]
  rfl

example : "reset token already used".toList ∉ passwordErrors := by
  decide +kernel

theorem stores_resetPassword {rawToken : Token} {id : Nat} {email : GoString} {db : Database}
    (huser : (PasswordOp.resetPassword rawToken).user cfg db = some (id, email))
    (hvalid : validatePasswordWithContext cfg.auth password email = none) :
    Stores cfg password id
      (machine.run (bodyOf cfg (.auth (.resetPassword rawToken password))) db) := by
  unfold bodyOf
  rw [machine.run_bind, run_lift]
  unfold Auth.bodyOf Auth.resetPassword
  rw [Auth.run_send]
  dsimp only [PasswordOp.user] at huser
  dsimp only [Auth.Database.exec]
  cases htoken : (rowsWhere db.auth.passwordResets fun t =>
    t.tokenHash = hashRefreshToken rawToken).head? with
  | none => exact stores_of_auth_error (by decide +kernel)
  | some found =>
      obtain ⟨storedID, stored⟩ := found
      rw [htoken] at huser
      dsimp only [Option.bind_some] at huser
      cases hrow : db.auth.users.get? stored.userID with
      | none =>
          rw [hrow] at huser
          exact absurd huser.symm (Option.some_ne_none _)
      | some user =>
          rw [hrow] at huser
          obtain ⟨rfl, rfl⟩ := Prod.mk.inj (Option.some.inj huser)
          dsimp only
          by_cases hused : stored.usedAt.isSome = true
          · rw [if_pos hused]
            exact stores_of_auth_error (by decide +kernel)
          · rw [if_neg hused, Auth.run_timeNow]
            by_cases hexpired : stored.expiresAt < db.auth.now
            · rw [if_pos hexpired]
              exact stores_of_auth_error (by decide +kernel)
            · rw [if_neg hexpired, Auth.run_send]
              dsimp only [Auth.Database.exec]
              rw [hrow]
              dsimp only
              rw [hvalid]
              dsimp only
              obtain ⟨db', salt, hash, hsome, hrun, -⟩ := run_auth_hashPassword hhash db.auth
              rw [Auth.machine.run_bind_of hrun]
              dsimp only
              rw [Auth.run_send, Auth.run_send, Auth.run_send, Auth.run_send]
              refine ⟨False.elim, fun _ => ⟨Auth.resetUser user hash, salt, ?_, hsome⟩⟩
              exact Table.get?_insert_self _ _ _

theorem stores_changePassword {currentPassword : GoString} {currentTokenHash : Option TokenHash}
    {id : Nat} {email : GoString} {db : Database}
    (huser : (PasswordOp.changePassword id currentPassword currentTokenHash).user cfg db =
      some (id, email))
    (hvalid : validatePasswordWithContext cfg.auth password email = none) :
    Stores cfg password id (machine.run
      (bodyOf cfg (.auth (.changePassword id currentPassword password currentTokenHash))) db) := by
  unfold bodyOf
  rw [machine.run_bind, run_lift]
  unfold Auth.bodyOf Auth.changePassword
  rw [Auth.run_send]
  dsimp only [PasswordOp.user] at huser
  dsimp only [Auth.Database.exec]
  cases hrow : db.auth.users.get? id with
  | none => exact stores_of_auth_error (by decide +kernel)
  | some user =>
      rw [hrow] at huser
      obtain ⟨-, rfl⟩ := Prod.mk.inj (Option.some.inj huser)
      dsimp only
      by_cases hcurrent : checkPassword cfg.auth currentPassword user.passwordHash = false
      · rw [if_pos hcurrent]
        exact stores_of_auth_error (by decide +kernel)
      · rw [if_neg hcurrent]
        by_cases hsame : checkPassword cfg.auth password user.passwordHash = true
        · rw [if_pos hsame]
          exact stores_of_auth_error (by decide +kernel)
        · rw [if_neg hsame, hvalid]
          dsimp only
          obtain ⟨db', salt, hash, hsome, hrun, -⟩ := run_auth_hashPassword hhash db.auth
          rw [Auth.machine.run_bind_of hrun]
          dsimp only
          rw [Auth.run_send]
          have hstored := db'.users.get?_insert_self id (Auth.changedUser user hash)
          cases currentTokenHash with
          | none => exact ⟨False.elim, fun _ => ⟨_, salt, hstored, hsome⟩⟩
          | some tokenHash => exact ⟨False.elim, fun _ => ⟨_, salt, hstored, hsome⟩⟩

/-- Every operation stores a hash of the password. -/
theorem stores_op {op : PasswordOp} {id : Nat} {email : GoString} {db : Database}
    (huser : op.user cfg db = some (id, email))
    (hvalid : validatePasswordWithContext cfg.auth password email = none) :
    Stores cfg password id (machine.run (bodyOf cfg (op.op password)) db) := by
  cases op with
  | register email' firstName lastName =>
      obtain ⟨rfl, rfl⟩ := Prod.mk.inj (Option.some.inj huser)
      exact stores_register hhash hvalid
  | createUserWithPassword email' firstName lastName =>
      obtain ⟨rfl, rfl⟩ := Prod.mk.inj (Option.some.inj huser)
      exact stores_createUserWithPassword hhash hvalid
  | resetPassword rawToken => exact stores_resetPassword hhash huser hvalid
  | changePassword userID currentPassword currentTokenHash =>
      have hid : userID = id := by
        obtain ⟨user, -, hpair⟩ := Option.map_eq_some_iff.mp huser
        exact (Prod.mk.inj hpair).1
      subst hid
      exact stores_changePassword hhash huser hvalid

end Operations

/-! ## The passwords that work -/

/-- One user, with a token to reset the password. -/
def resettable (email : GoString) : Database where
  auth :=
    { users := Table.single 0 { Auth.activeUser "" "" false with email := email }
      refreshTokens := .empty
      sessions := .empty
      passwordResets := Ledger.empty.add ⟨0, hashRefreshToken ⟨0⟩, 1, none⟩
      emailVerifications := .empty
      drawn := 1
      now := 0 }
  configs := .empty
  identities := .empty
  states := .empty
  cooldowns := .empty

/-- The reset of that password comes down to the hashing. -/
theorem run_resettable {email : GoString}
    (hvalid : validatePasswordWithContext cfg.auth password email = none) :
    (machine.run (bodyOf cfg ((PasswordOp.resetPassword ⟨0⟩).op password)) (resettable email)).2 =
      if cfg.auth.hash 1 password = none then .auth (.error "hashing password".toList)
      else .auth .ok := by
  unfold PasswordOp.op bodyOf
  dsimp only
  rw [machine.run_bind, run_lift]
  unfold Auth.bodyOf Auth.resetPassword
  dsimp only
  rw [Auth.run_send]
  have htoken : (resettable email).auth.exec
      (.findPasswordResetByTokenHash (hashRefreshToken ⟨0⟩)) =
        ((resettable email).auth, some (0, ⟨0, hashRefreshToken ⟨0⟩, 1, none⟩)) := rfl
  have hnow : (resettable email).auth.now = 0 := rfl
  have huser : (resettable email).auth.exec (.findUserByID 0) =
      ((resettable email).auth, some { Auth.activeUser "" "" false with email := email }) := rfl
  rw [htoken]
  dsimp only [Option.isSome_none]
  rw [if_neg Bool.false_ne_true, Auth.run_timeNow, hnow, if_neg (by decide), Auth.run_send, huser]
  dsimp only
  rw [hvalid]
  dsimp only
  unfold Auth.hashPassword
  rw [Prog.bind_assoc, Auth.run_send]
  have hsalt : (resettable email).auth.exec .salt =
      ({ (resettable email).auth with drawn := 2 }, 1) := rfl
  rw [hsalt]
  dsimp only [Prog.pure_eq, Prog.ret_bind]
  cases cfg.auth.hash 1 password with
  | none => rfl
  | some hash => rfl

/-- A key at a position of a string and its NUL, which are repeated. -/
def bcryptKey (password : GoString) : GoString :=
  (List.range 72).map fun i => (password ++ ['\x00']).getD (i % (password.length + 1)) '\x00'

/-- A position of the key that is not behind the NUL. -/
theorem get?_bcryptKey (password : GoString) {i : Nat} (hi : i < 72)
    (hlast : i ≤ password.length) :
    (bcryptKey password)[i]? = (password ++ ['\x00'])[i]? := by
  unfold bcryptKey
  rw [List.getElem?_map, List.getElem?_range hi, Option.map_some, Nat.mod_eq_of_lt (by omega),
    List.getD_eq_getElem?_getD]
  have hbound : i < (password ++ ['\x00']).length := by
    simp only [List.length_append, List.length_singleton]
    omega
  rw [List.getElem?_eq_getElem hbound, Option.getD_some]

/-- The key of a shorter password has a NUL where the other password goes on. -/
theorem length_le_of_bcryptKey_eq {password other : GoString} (hother : FitsBcrypt other)
    (hkey : bcryptKey password = bcryptKey other) :
    other.length ≤ password.length := by
  by_contra hlonger
  have hbound : password.length < 72 := by
    have := hother.1
    omega
  have hnul : (bcryptKey password)[password.length]? = some '\x00' := by
    rw [get?_bcryptKey password hbound le_rfl, List.getElem?_append_right le_rfl, Nat.sub_self]
    rfl
  rw [hkey, get?_bcryptKey other hbound (by omega), List.getElem?_append_left (by omega)] at hnul
  exact hother.2 (List.mem_of_getElem? hnul)

/-- Passwords without NUL of at most 72 bytes are told apart by their keys. -/
theorem bcryptKey_injective (password other : GoString) (hfits : FitsBcrypt password)
    (hother : FitsBcrypt other) (hkey : bcryptKey password = bcryptKey other) : password = other := by
  have hlength : password.length = other.length :=
    le_antisymm (length_le_of_bcryptKey_eq hfits hkey.symm)
      (length_le_of_bcryptKey_eq hother hkey)
  ext i c
  by_cases hi : i < password.length
  · have hbound : i < 72 := lt_of_lt_of_le hi hfits.1
    have hleft := get?_bcryptKey password hbound (by omega)
    have hright := get?_bcryptKey other hbound (by omega)
    rw [List.getElem?_append_left hi] at hleft
    rw [List.getElem?_append_left (by omega)] at hright
    rw [← hleft, ← hright, hkey]
  · rw [List.getElem?_eq_none (by omega), List.getElem?_eq_none (by omega)]

/-- With a NUL inside, two accepted passwords can have one key. -/
example : bcryptKey "password\x00password".toList = bcryptKey "password".toList := by
  decide +kernel

/-- An accepted password works exactly if it has at most 72 bytes and no other accepted password
has its key. -/
theorem works_iff {K : Type} {key : GoString → K} (hbcrypt : Bcrypt cfg.auth key)
    {email : GoString} (haccepted : Accepted cfg.auth email password) :
    Works cfg email password ↔ password.length ≤ 72 ∧
      ∀ other, Accepted cfg.auth email other → ¬(FitsBcrypt password ∧ FitsBcrypt other) →
        key other = key password → other = password := by
  have hhash : password.length ≤ 72 → ∀ salt, ∃ hash, cfg.auth.hash salt password = some hash := by
    intro hlength salt
    have hsome := mt (hbcrypt.rejects salt password).mp (by omega)
    exact Option.ne_none_iff_exists'.mp hsome
  constructor
  · intro hworks
    have hrun := run_resettable haccepted.2
    obtain ⟨hblames, hsets⟩ := hworks (resettable email) (.resetPassword ⟨0⟩) 0 rfl
    have hlength : password.length ≤ 72 := by
      by_contra hlong
      rw [if_pos ((hbcrypt.rejects 1 password).mpr (by omega))] at hrun
      rw [hrun] at hblames
      exact hblames (show _ ∈ passwordErrors by decide +kernel)
    refine ⟨hlength, fun other hother _ hkey => ?_⟩
    -- The reset has stored a hash, which the other password opens as well.
    obtain ⟨hash, hsome⟩ := hhash hlength 1
    rw [if_neg (by rw [hsome]; exact Option.some_ne_none hash)] at hrun
    have hset : (machine.run (bodyOf cfg ((PasswordOp.resetPassword ⟨0⟩).op password))
        (resettable email)).2.SetsPassword := by
      rw [hrun]
      trivial
    obtain ⟨user, hget, hchecks⟩ := hsets hset
    have huser : (PasswordOp.resetPassword ⟨0⟩).user cfg (resettable email) = some (0, email) :=
      rfl
    obtain ⟨user', salt, hget', hstored⟩ := (stores_op (hhash hlength) huser haccepted.2).2 hset
    obtain rfl := Option.some.inj (hget.symm.trans hget')
    exact (hchecks other hother).mp ((hbcrypt.compares salt password _ hstored other).mpr hkey)
  · intro hcondition db op id huser
    obtain ⟨hlength, hkeys⟩ := hcondition
    obtain ⟨hblames, hsets⟩ := stores_op (hhash hlength) huser haccepted.2
    refine ⟨hblames, fun hset => ?_⟩
    obtain ⟨user, salt, hget, hstored⟩ := hsets hset
    refine ⟨user, hget, fun other hother => ?_⟩
    unfold checkPassword
    rw [hbcrypt.compares salt password _ hstored other]
    constructor
    · intro hkey
      by_cases hfits : FitsBcrypt password ∧ FitsBcrypt other
      · exact (hbcrypt.injective password other hfits.1 hfits.2 hkey.symm).symm
      · exact hkeys other hother hfits hkey
    · intro heq
      rw [heq]

/-- A character of one byte. -/
theorem runeCount_ascii {c : Char} (hc : c.toNat < 0x80) (s : GoString) :
    runeCount (c :: s) = runeCount s + 1 := by
  have hvalid : utf8Valid [c] = true := by
    rw [utf8Valid_one (by simp [byteIn]; omega)]
    rfl
  have hwidth : runeWidth (c :: s) = 1 := by
    unfold runeWidth
    rw [List.take_succ_cons, List.take_zero, if_pos hvalid]
  unfold runeCount
  rw [runeCountAfter, hwidth]

/-- Characters of one byte before others. -/
theorem runeCount_append_of_ascii {s : GoString} (hascii : ∀ c ∈ s, c.toNat < 0x80)
    (t : GoString) : runeCount (s ++ t) = s.length + runeCount t := by
  induction s with
  | nil => simp
  | cons c s ih =>
      rw [List.cons_append, runeCount_ascii (hascii c List.mem_cons_self),
        ih fun d hd => hascii d (List.mem_cons_of_mem c hd), List.length_cons]
      omega

/-- Only the empty string has no character. -/
theorem eq_nil_of_runeCount {s : GoString} (hcount : runeCount s = 0) : s = [] := by
  cases s with
  | nil => rfl
  | cons c rest =>
      unfold runeCount at hcount
      rw [runeCountAfter] at hcount
      omega

/-- A password of 72 bytes shares its key with longer strings only, and these have too many
characters if each of the bytes is one. -/
theorem eq_of_bcryptKey_eq {password other : GoString} (hlength : password.length = 72)
    (hascii : ∀ c ∈ password, 0 < c.toNat ∧ c.toNat < 0x80) (hcount : runeCount other ≤ 72)
    (hkey : bcryptKey other = bcryptKey password) : other = password := by
  have hnul : '\x00' ∉ password := fun hmem => absurd (hascii _ hmem).1 (by decide)
  have hlong : 72 ≤ other.length := by
    have hle := length_le_of_bcryptKey_eq ⟨hlength.le, hnul⟩ hkey
    omega
  have htake : other.take 72 = password := by
    ext i c
    by_cases hi : i < 72
    · have hleft := get?_bcryptKey other hi (by omega)
      have hright := get?_bcryptKey password hi (by omega)
      rw [List.getElem?_append_left (by omega)] at hleft
      rw [List.getElem?_append_left (by omega)] at hright
      rw [List.getElem?_take_of_lt hi, ← hleft, ← hright, hkey]
    · rw [List.getElem?_eq_none (by rw [List.length_take]; omega),
        List.getElem?_eq_none (by omega)]
  have hsplit := List.take_append_drop 72 other
  rw [htake] at hsplit
  rw [← hsplit, runeCount_append_of_ascii (fun c hc => (hascii c hc).2), hlength] at hcount
  have hrest : other.drop 72 = [] := eq_nil_of_runeCount (by omega)
  rw [← hsplit, hrest, List.append_nil]

/-- The configuration with a hasher like bcrypt. -/
def bcryptConfig : Config :=
  { signInConfig with
    rbac := { signInConfig.rbac with
      auth := { Auth.plainConfig with
        hash := fun _ password => if 72 < password.length then none else some (bcryptKey password)
        compare := fun hash password => hash = bcryptKey password } } }

theorem bcrypt_bcryptConfig : Bcrypt bcryptConfig.auth bcryptKey where
  rejects := by
    intro salt password
    show (if 72 < password.length then none else some (bcryptKey password)) = none ↔ _
    simp
  compares := by
    intro salt password hash hsome other
    have hsome : (if 72 < password.length then none else some (bcryptKey password)) = some hash :=
      hsome
    show decide (hash = bcryptKey other) = true ↔ _
    split_ifs at hsome
    obtain rfl := Option.some.inj hsome
    rw [decide_eq_true_iff]
    exact eq_comm
  injective := bcryptKey_injective

/-- A password of 72 letters. -/
def letters : GoString :=
  List.replicate 72 'a'

/-- That password works. -/
theorem works_letters : Works bcryptConfig "user@x".toList letters := by
  refine (works_iff bcrypt_bcryptConfig (by decide +kernel)).mpr
    ⟨by decide +kernel, fun other hother _ hkey => ?_⟩
  refine eq_of_bcryptKey_eq List.length_replicate (fun c hc => ?_)
    (runeCount_le_of_accepted hother) hkey
  rw [List.eq_of_mem_replicate hc]
  decide

/-- A password of 37 letters and 74 bytes. -/
def accents : GoString :=
  (List.replicate 37 "\xc3\xa9".toList).flatten

/-- It is accepted, and nobody can register with it. -/
theorem long_password_fails :
    Accepted bcryptConfig.auth "user@x".toList accents ∧
      (machine.run (bodyOf bcryptConfig (.register "user@x".toList accents [] []))
        { twoAccounts with auth := { Auth.twoUsers with users := .empty } }).2 =
          .error "hashing password".toList := by
  decide +kernel

end Sso
end Veilence
