import Veilence.Auth.Service

/-!
# What the operations write

What a call of the auth service has in hand tells what it may write: a refresh token that
it has drawn and not stored yet, the ID of the refresh token that it has found, and the
user row that it has read last.  A call stores only a token that it has drawn, deletes by
ID only the refresh token that it has found, and writes back the user row that it has read
last, changed in no field that another operation is there to set.

Main results:

- Theorem {lit}`careful_bodyOf`: every operation writes only what it has in hand.
-/

namespace Veilence
namespace Auth

open Go Foundation

/-! ## The fields of a user row -/

/-- The fields that decide who can sign in and with which rights. -/
inductive Field where
  | passwordHash
  | isActive
  | isSuperAdmin
  | emailVerified
  | mustChangePassword
deriving DecidableEq

instance : Fintype Field where
  elems := {.passwordHash, .isActive, .isSuperAdmin, .emailVerified, .mustChangePassword}
  complete := fun f => by cases f <;> decide

/-- Two rows have the same value in a field. -/
def Field.Same : Field → User → User → Prop
  | .passwordHash, u, v => u.passwordHash = v.passwordHash
  | .isActive, u, v => u.isActive = v.isActive
  | .isSuperAdmin, u, v => u.isSuperAdmin = v.isSuperAdmin
  | .emailVerified, u, v => u.emailVerified = v.emailVerified
  | .mustChangePassword, u, v => u.mustChangePassword = v.mustChangePassword

instance : (f : Field) → (u v : User) → Decidable (f.Same u v)
  | .passwordHash, _, _ => inferInstanceAs (Decidable (_ = _))
  | .isActive, _, _ => inferInstanceAs (Decidable (_ = _))
  | .isSuperAdmin, _, _ => inferInstanceAs (Decidable (_ = _))
  | .emailVerified, _, _ => inferInstanceAs (Decidable (_ = _))
  | .mustChangePassword, _, _ => inferInstanceAs (Decidable (_ = _))

/-- A row has its own values. -/
theorem Field.Same.refl (f : Field) (u : User) : f.Same u u := by
  cases f <;> rfl

theorem Field.Same.trans {f : Field} {u v w : User} (huv : f.Same u v) (hvw : f.Same v w) :
    f.Same u w := by
  cases f <;> exact Eq.trans huv hvw

/-- The fields that an operation is there to set. -/
def Op.sets : Op → Field → Bool
  | .resetPassword _ _, .passwordHash => true
  | .resetPassword _ _, .emailVerified => true
  | .resetPassword _ _, .mustChangePassword => true
  | .changePassword _ _ _ _, .passwordHash => true
  | .changePassword _ _ _ _, .mustChangePassword => true
  | .verifyEmail _, .emailVerified => true
  | .adminUpdateUser _ _ _ updates, .isActive => updates.isActive.isSome
  | .adminUpdateUser _ _ _ updates, .isSuperAdmin => updates.isSuperAdmin.isSome
  | _, _ => false

/-! ## What a call has in hand -/

/-- The user row that a call has read last. -/
def rowRead (seen : Option (Nat × User)) : (c : Call) → Option (Answer c) → Option (Nat × User)
  | .findUserByID id, some (some user) => some (id, user)
  | .findUserByEmail _, some (some (id, user)) => some (id, user)
  | _, _ => seen

/-- A token drawn and not stored yet, the ID of the refresh token found, whether a token
has been stored, and the user row read last. -/
structure Hand where
  held : Option Token
  found : Option Nat
  stored : Bool
  seen : Option (Nat × User)

/-- What a call has when it starts. -/
def Hand.empty : Hand :=
  ⟨none, none, false, none⟩

/-- The tokens that a call has after a command. -/
def Hand.nextTokens (h : Hand) : (c : Call) → Option (Answer c) → Hand
  | .generateRefreshToken, some token => { h with held := some token }
  | .createRefreshToken _, some true => { h with held := none, stored := true }
  | .createRefreshToken _, _ => { h with held := none }
  | .findRefreshTokenByTokenHash _, some (some (id, _)) => { h with found := some id }
  | _, _ => h

/-- What a call has after a command. -/
def Hand.next (h : Hand) (c : Call) (r : Option (Answer c)) : Hand :=
  { h.nextTokens c r with seen := rowRead h.seen c r }

/-- The row is the one that the call has read last, with the values that it is not there
to set. -/
def Rewrites (op : Op) (seen : Option (Nat × User)) (id : Nat) (row : User) : Prop :=
  ∃ user, seen = some (id, user) ∧ ∀ f, op.sets f = false → f.Same row user

/-- The commands that a call may send with what it has in hand. -/
def Permitted (op : Op) (h : Hand) : Call → Prop
  | .createRefreshToken row => h.held = some row.tokenHash.token
  | .deleteRefreshToken id => h.found = some id
  | .findRefreshTokenByTokenHash tokenHash =>
      ∃ token, op = .refreshTokens token ∧ tokenHash = hashRefreshToken token
  | .updateUser id row => Rewrites op h.seen id row
  | _ => True

/-- Every command of a body is permitted, and the result is right for what the call then
has. -/
def Careful {α : Type} (op : Op) (final : Hand → α → Prop) : Hand → Body α → Prop
  | h, .ret a => final h a
  | h, .cmd c k => Permitted op h c ∧ ∀ r, Careful op final (h.next c r) (k r)

/-- An exchange returns new tokens only after it has stored one, or an error. -/
def Final (op : Op) (h : Hand) (a : Result) : Prop :=
  ∀ token, op = .refreshTokens token →
    (∃ message, a = .error message) ∨ ((∃ tokens, a = .tokens tokens) ∧ h.stored = true)

section Bodies

variable {cfg : Config} {op : Op} {h : Hand} {α β : Type} {final : Hand → α → Prop}

/-- A body in two parts. -/
theorem Careful.bind {first : Hand → β → Prop} {p : Body β} (hp : Careful op first h p)
    {f : β → Body α} (hf : ∀ h' b, first h' b → Careful op final h' (f b)) :
    Careful op final h (p >>= f) := by
  induction p generalizing h with
  | ret b => exact hf h b hp
  | cmd c k ih =>
      rw [Prog.cmd_bind]
      exact ⟨hp.1, fun r => ih r (hp.2 r)⟩

/-- What a body guarantees at its end may be weakened. -/
theorem Careful.mono {final' : Hand → α → Prop} {p : Body α} (hp : Careful op final h p)
    (hfinal : ∀ h' a, final h' a → final' h' a) : Careful op final' h p := by
  induction p generalizing h with
  | ret a => exact hfinal h a hp
  | cmd c k ih => exact ⟨hp.1, fun r => ih r (hp.2 r)⟩

theorem careful_send {c : Call} {f : Option (Answer c) → Body α} (hc : Permitted op h c)
    (hf : ∀ r, Careful op final (h.next c r) (f r)) : Careful op final h (send c >>= f) :=
  ⟨hc, hf⟩

/-- The clock changes nothing. -/
theorem careful_timeNow {f : Int → Body α} (hf : ∀ now, Careful op final h (f now)) :
    Careful op final h (timeNow >>= f) :=
  ⟨trivial, fun r => hf (r.getD 0)⟩

/-! ## Every operation writes what it has in hand -/

/-- A new pair has been stored. -/
theorem careful_generateTokenPair (userID : Nat) (user : User) :
    Careful op (fun h' r => h'.seen = h.seen ∧ ∀ tokens, r = .ok tokens → h'.stored = true) h
      (generateTokenPair userID user) := by
  unfold generateTokenPair
  refine careful_send trivial fun r => ?_
  cases r with
  | none => exact ⟨rfl, by simp⟩
  | some accessToken =>
      refine careful_send trivial fun r => ?_
      cases r with
      | none => exact ⟨rfl, by simp⟩
      | some refreshToken =>
          apply careful_timeNow
          intro now
          refine careful_send rfl fun r => ?_
          match r with
          | none => exact ⟨rfl, by simp⟩
          | some false => exact ⟨rfl, by simp⟩
          | some true => exact ⟨rfl, fun _ _ => rfl⟩

theorem careful_deleteOldestSessions (userID count : Nat) :
    Careful op (fun h' _ => h' = h) h (deleteOldestSessions userID count) := by
  induction count with
  | zero => rfl
  | succ count ih =>
      unfold deleteOldestSessions
      split_ifs
      · refine careful_send trivial fun r => ?_
        cases r with
        | none => rfl
        | some _ => exact ih
      · rfl

theorem careful_createSession (userID : Nat) (tokenHash : TokenHash)
    (ipAddress userAgent authProvider : GoString) :
    Careful op (fun h' _ => h' = h) h
      (createSession userID tokenHash ipAddress userAgent authProvider) := by
  unfold createSession
  refine careful_send trivial fun r => ?_
  cases r with
  | none => rfl
  | some count =>
      apply (careful_deleteOldestSessions userID count).bind
      rintro h' (_ | _) rfl
      · rfl
      · apply careful_timeNow
        intro lastActive
        apply careful_timeNow
        intro now
        refine careful_send trivial fun r => ?_
        match r with
        | none => rfl
        | some false => rfl
        | some true => rfl

/-- The time of the login belongs to no field that is set by another operation. -/
theorem careful_touchLogin {userID : Nat} {user : User} (hseen : h.seen = some (userID, user)) :
    Careful op (fun _ _ => True) h (touchLogin userID user) := by
  unfold touchLogin
  apply careful_timeNow
  intro now
  refine careful_send ⟨user, hseen, fun f _ => by cases f <;> rfl⟩ ?_
  exact fun _ => trivial

theorem careful_createSessionForUser (userID : Nat) (provider ipAddress userAgent : GoString) :
    Careful op (fun _ _ => True) h
      (createSessionForUser userID provider ipAddress userAgent) := by
  unfold createSessionForUser
  refine careful_send trivial ?_
  rintro (_ | _ | user)
  · trivial
  · trivial
  · apply (careful_generateTokenPair userID user).bind
    rintro h' (message | tokens) ⟨hseen, -⟩
    · trivial
    · apply (careful_createSession _ _ _ _ _).bind
      rintro _ _ rfl
      exact (careful_touchLogin hseen).bind fun _ _ _ => trivial

theorem careful_login (email password ipAddress userAgent : GoString) :
    Careful op (fun _ _ => True) h (login cfg email password ipAddress userAgent) := by
  unfold login
  refine careful_send trivial ?_
  rintro (_ | _ | ⟨userID, user⟩)
  · trivial
  · trivial
  · dsimp only
    split_ifs
    · trivial
    · trivial
    · trivial
    · apply (careful_generateTokenPair userID user).bind
      rintro h' (message | tokens) ⟨hseen, -⟩
      · trivial
      · apply (careful_createSession _ _ _ _ _).bind
        rintro _ _ rfl
        exact (careful_touchLogin hseen).bind fun _ _ _ => trivial

theorem careful_touchSession (session : Option Nat) :
    Careful op (fun h' _ => h' = h) h (touchSession session) := by
  cases session with
  | none => rfl
  | some sessionID =>
      unfold touchSession
      apply careful_timeNow
      intro now
      exact careful_send trivial fun _ => rfl

theorem careful_moveSession (newTokenHash : TokenHash) (session : Option Nat) :
    Careful op (fun h' _ => h' = h) h (moveSession newTokenHash session) := by
  cases session with
  | none => rfl
  | some sessionID =>
      unfold moveSession
      exact careful_send trivial fun _ => careful_touchSession _

/-- The rotation deletes what has been found and returns what it has stored. -/
theorem careful_rotate {tokenHash : TokenHash} {storedID : Nat} (userID : Nat) (user : User)
    (hfound : h.found = some storedID) :
    Careful op (Final op) h (rotate tokenHash storedID userID user) := by
  unfold rotate
  refine careful_send trivial fun r => ?_
  apply (careful_touchSession _).bind
  rintro _ _ rfl
  refine careful_send hfound fun r => ?_
  apply (careful_generateTokenPair userID user).bind
  rintro h' (message | tokens) ⟨-, hstored⟩
  · exact fun _ _ => Or.inl ⟨_, rfl⟩
  · apply (careful_moveSession _ _).bind
    rintro _ _ rfl
    exact fun _ _ => Or.inr ⟨⟨tokens, rfl⟩, hstored tokens rfl⟩

theorem careful_refreshTokens (refreshToken : Token) :
    Careful (.refreshTokens refreshToken) (Final (.refreshTokens refreshToken)) h
      (refreshTokens cfg refreshToken) := by
  have herror : ∀ h' message, Final (.refreshTokens refreshToken) h' (.error message) :=
    fun _ message _ _ => Or.inl ⟨message, rfl⟩
  unfold refreshTokens
  refine careful_send ⟨refreshToken, rfl, rfl⟩ ?_
  rintro (_ | _ | ⟨storedID, stored⟩)
  · exact herror _ _
  · exact herror _ _
  · apply careful_timeNow
    intro now
    split_ifs
    · exact careful_send rfl fun _ => herror _ _
    · refine careful_send trivial ?_
      rintro (_ | _ | user)
      · exact herror _ _
      · exact herror _ _
      · dsimp only
        split_ifs
        · exact herror _ _
        · exact careful_send rfl fun _ => herror _ _
        · exact careful_rotate _ _ rfl

theorem careful_logout (refreshToken : Token) :
    Careful op (fun _ _ => True) h (logout refreshToken) := by
  unfold logout
  refine careful_send trivial ?_
  rintro (_ | _ | ⟨sessionID, session⟩)
  · exact careful_send trivial fun r => by cases r <;> trivial
  · exact careful_send trivial fun r => by cases r <;> trivial
  · refine careful_send trivial fun _ => ?_
    exact careful_send trivial fun r => by cases r <;> trivial

theorem careful_revokeSession (userID sessionID : Nat) :
    Careful op (fun _ _ => True) h (revokeSession userID sessionID) := by
  unfold revokeSession
  refine careful_send trivial ?_
  rintro (_ | _ | session)
  · trivial
  · trivial
  · dsimp only
    split_ifs
    · trivial
    · refine careful_send trivial fun r => ?_
      cases r with
      | none => trivial
      | some _ => exact careful_send trivial fun _ => trivial

theorem careful_updateProfile (userID : Nat) (firstName lastName : GoString) :
    Careful op (fun _ _ => True) h (updateProfile userID firstName lastName) := by
  unfold updateProfile
  refine careful_send trivial ?_
  rintro (_ | _ | user)
  · trivial
  · trivial
  · refine careful_send ⟨user, rfl, fun f _ => by cases f <;> rfl⟩ ?_
    exact fun r => by cases r <;> trivial

theorem careful_verifyEmail (rawToken : Token) :
    Careful (.verifyEmail rawToken) (fun _ _ => True) h (verifyEmail rawToken) := by
  unfold verifyEmail
  refine careful_send trivial ?_
  rintro (_ | _ | ⟨storedID, stored⟩)
  · trivial
  · trivial
  · apply careful_timeNow
    intro now
    split_ifs
    · trivial
    · refine careful_send trivial ?_
      rintro (_ | _ | user)
      · trivial
      · trivial
      · refine careful_send
          ⟨user, rfl, fun f hf => by cases f <;> first | rfl | simp [Op.sets] at hf⟩ fun r => ?_
        cases r with
        | none => trivial
        | some _ => exact careful_send trivial fun _ => trivial

theorem careful_hashPassword (password : GoString) :
    Careful op (fun h' _ => h' = h) h (hashPassword cfg password) := by
  unfold hashPassword
  refine careful_send trivial fun r => ?_
  cases r <;> rfl

theorem careful_resetPassword (rawToken : Token) (newPassword : GoString) :
    Careful (.resetPassword rawToken newPassword) (fun _ _ => True) h
      (resetPassword cfg rawToken newPassword) := by
  unfold resetPassword
  refine careful_send trivial ?_
  rintro (_ | _ | ⟨storedID, stored⟩)
  · trivial
  · trivial
  · dsimp only
    split_ifs
    · trivial
    · apply careful_timeNow
      intro now
      split_ifs
      · trivial
      · refine careful_send trivial ?_
        rintro (_ | _ | user)
        · trivial
        · trivial
        · dsimp only
          split
          · trivial
          · apply (careful_hashPassword newPassword).bind
            rintro _ (_ | passwordHash) rfl
            · trivial
            · refine careful_send
                ⟨user, rfl, fun f hf => by cases f <;> first | rfl | simp [Op.sets] at hf⟩ fun r => ?_
              cases r with
              | none => trivial
              | some _ =>
                  refine careful_send trivial fun _ => ?_
                  refine careful_send trivial fun _ => ?_
                  exact careful_send trivial fun _ => trivial

theorem careful_invalidate (userID : Nat) (currentTokenHash : Option TokenHash) :
    Careful op (fun _ _ => True) h (invalidate userID currentTokenHash) := by
  cases currentTokenHash with
  | none =>
      refine careful_send trivial fun _ => ?_
      exact careful_send trivial fun _ => trivial
  | some tokenHash =>
      refine careful_send trivial fun _ => ?_
      exact careful_send trivial fun _ => trivial

theorem careful_changePassword (userID : Nat) (currentPassword newPassword : GoString)
    (currentTokenHash : Option TokenHash) :
    Careful (.changePassword userID currentPassword newPassword currentTokenHash)
      (fun _ _ => True) h
      (changePassword cfg userID currentPassword newPassword currentTokenHash) := by
  unfold changePassword
  refine careful_send trivial ?_
  rintro (_ | _ | user)
  · trivial
  · trivial
  · dsimp only
    split_ifs
    · trivial
    · trivial
    · split
      · trivial
      · apply (careful_hashPassword newPassword).bind
        rintro _ (_ | passwordHash) rfl
        · trivial
        · refine careful_send
            ⟨user, rfl, fun f hf => by cases f <;> first | rfl | simp [Op.sets] at hf⟩ fun r => ?_
          cases r with
          | none => trivial
          | some _ => exact (careful_invalidate _ _).bind fun _ _ _ => trivial

theorem careful_guardLastSuperAdmin (loses : Bool) :
    Careful op (fun h' _ => h' = h) h (guardLastSuperAdmin loses) := by
  unfold guardLastSuperAdmin
  split_ifs
  · refine careful_send trivial ?_
    rintro (_ | count)
    · rfl
    · dsimp only
      split_ifs <;> rfl
  · rfl

/-- The row that is written has the flags that it should have. -/
theorem careful_setActive (targetUserID : Nat) (target : User) (isActive : Option Bool) :
    Careful op
      (fun h' row => h' = h ∧ ∀ f : Field, (f = .isActive → isActive = none) → f.Same row target) h
      (setActive targetUserID target isActive) := by
  match isActive with
  | none => exact ⟨rfl, fun f _ => .refl f _⟩
  | some true => exact ⟨rfl, fun f hf => by cases f <;> first | rfl | simp at hf⟩
  | some false =>
      unfold setActive
      apply careful_timeNow
      intro now
      refine careful_send trivial fun _ => ?_
      refine careful_send trivial fun _ => ?_
      exact ⟨rfl, fun f hf => by cases f <;> first | rfl | simp at hf⟩

theorem careful_applyUpdates {callerID targetUserID : Nat} {confirmPassword : GoString}
    {target : User} {updates : AdminUserUpdate} (hseen : h.seen = some (targetUserID, target)) :
    Careful (.adminUpdateUser callerID targetUserID confirmPassword updates) (fun _ _ => True) h
      (applyUpdates targetUserID target updates) := by
  unfold applyUpdates
  apply (careful_guardLastSuperAdmin _).bind
  rintro _ (_ | _) rfl
  · trivial
  · apply (careful_guardLastSuperAdmin _).bind
    rintro _ (_ | _) rfl
    · trivial
    · apply (careful_setActive _ _ _).bind
      rintro _ row ⟨rfl, hrow⟩
      apply careful_send
      · refine ⟨target, hseen, fun f hf => (hrow f ?_).trans ?_⟩
        · rintro rfl
          simpa [Op.sets] using hf
        · cases f with
          | isSuperAdmin => simp_all [Op.sets, Field.Same]
          | _ => rfl
      · exact fun r => by cases r <;> trivial

theorem careful_adminUpdateUser (callerID targetUserID : Nat) (confirmPassword : GoString)
    (updates : AdminUserUpdate) :
    Careful (.adminUpdateUser callerID targetUserID confirmPassword updates) (fun _ _ => True) h
      (adminUpdateUser cfg callerID targetUserID confirmPassword updates) := by
  unfold adminUpdateUser
  refine careful_send trivial ?_
  rintro (_ | _ | caller)
  · trivial
  · trivial
  · dsimp only
    split_ifs
    · trivial
    · trivial
    · refine careful_send trivial ?_
      rintro (_ | _ | target)
      · trivial
      · trivial
      · exact careful_applyUpdates rfl

/-- Every operation writes only what it has in hand. -/
theorem careful_bodyOf (op : Op) : Careful op (Final op) h (bodyOf cfg op) := by
  have hother : (∀ token, op ≠ .refreshTokens token) → ∀ p : Body Result,
      Careful op (fun _ _ => True) h p → Careful op (Final op) h p := by
    intro hop p hp
    exact hp.mono fun _ _ _ token heq => absurd heq (hop token)
  cases op with
  | createSessionForUser userID provider ipAddress userAgent =>
      exact hother (by simp) _ (careful_createSessionForUser _ _ _ _)
  | login email password ipAddress userAgent => exact hother (by simp) _ (careful_login _ _ _ _)
  | refreshTokens refreshToken => exact careful_refreshTokens refreshToken
  | logout refreshToken => exact hother (by simp) _ (careful_logout _)
  | listSessions userID =>
      exact hother (by simp) _ (careful_send trivial fun r => by cases r <;> trivial)
  | revokeSession userID sessionID => exact hother (by simp) _ (careful_revokeSession _ _)
  | cleanExpiredSessions =>
      exact hother (by simp) _ (careful_send trivial fun r => by cases r <;> trivial)
  | updateProfile userID firstName lastName =>
      exact hother (by simp) _ (careful_updateProfile _ _ _)
  | verifyEmail rawToken => exact hother (by simp) _ (careful_verifyEmail _)
  | resetPassword rawToken newPassword => exact hother (by simp) _ (careful_resetPassword _ _)
  | changePassword userID currentPassword newPassword currentTokenHash =>
      exact hother (by simp) _ (careful_changePassword _ _ _ _)
  | adminUpdateUser callerID targetUserID confirmPassword updates =>
      exact hother (by simp) _ (careful_adminUpdateUser _ _ _ _)

end Bodies

end Auth
end Veilence
