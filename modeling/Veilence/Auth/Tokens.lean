import Veilence.Foundation.Outline
import Veilence.Auth.Rotation
import Veilence.Auth.SessionCap

/-!
# Refresh tokens in the bodies

What the operations of the auth service do with refresh tokens.  A call stores only a token that
it has drawn, the tokens that it returns are stored for the user of the access token, and only
the operations that end sessions or replace tokens remove any.

Main results:

- Theorem {lit}`safe_bodyOf`: every operation keeps to this.
- Theorem {lit}`run_refreshTokens`: a stored token can be exchanged.
-/

namespace Veilence
namespace Auth

open Go Foundation

/-- What a call of the service has been answered. -/
abbrev Answers := Memory Call Answer

/-! ## The rule -/

/-- The operations that remove refresh tokens. -/
def Op.removesTokens : Op → Bool
  | .refreshTokens _ => true
  | .logout _ => true
  | .revokeSession _ _ => true
  | .resetPassword _ _ => true
  | .changePassword _ _ _ _ => true
  | .adminUpdateUser _ _ _ _ => true
  | _ => false

/-- The calls that remove refresh tokens. -/
def Call.removesTokens : Call → Bool
  | .deleteRefreshToken _ => true
  | .deleteRefreshTokenByTokenHash _ => true
  | .deleteRefreshTokensByUserID _ => true
  | .deleteRefreshTokensByUserIDExceptTokenHash _ _ => true
  | _ => false

/-- A call stores a token that it has drawn, and removes tokens only if it may. -/
def TokenRule (removes : Bool) (m : Answers) : Call → Prop
  | .createRefreshToken row => Told m .generateRefreshToken row.tokenHash.token
  | c => c.removesTokens = true → removes = true

/-- The tokens that a result gives to the client. -/
def Result.pair : Result → Option TokenPair
  | .login _ pair => some pair
  | .tokens pair => some pair
  | .tokensFor pair _ => some pair
  | _ => none

/-- The call has stored the refresh token for the user of the access token. -/
def Backed (m : Answers) (tokens : TokenPair) : Prop :=
  ∃ row email duration, Told m (.createRefreshToken row) true ∧
    row.tokenHash = hashRefreshToken tokens.refreshToken ∧
      Told m (.generateAccessToken row.userID email duration) tokens.accessToken

/-- The tokens that a call returns are stored. -/
def BackedResult (m : Answers) (a : Result) : Prop :=
  ∀ tokens, a.pair = some tokens → Backed m tokens

/-- What has been stored is not forgotten. -/
theorem Backed.mono {m m' : Answers} {tokens : TokenPair} (hbacked : Backed m tokens)
    (hm : m <:+ m') : Backed m' tokens := by
  obtain ⟨row, email, duration, hstored, hhash, haccess⟩ := hbacked
  exact ⟨row, email, duration, hstored.mono hm, hhash, haccess.mono hm⟩

/-- What a part of a body leaves open. -/
abbrev anything {α : Type} : Answers → α → Prop :=
  fun _ _ => True

/-! ## Every operation keeps to the rule -/

section Bodies

variable {cfg : Config} {removes : Bool} {m : Answers} {α : Type} {final : Answers → α → Prop}

/-- A call that neither stores nor removes a token. -/
theorem safe_send {c : Call} {f : Option (Answer c) → Body α} (hc : TokenRule false m c)
    (hf : ∀ r, Safe TokenRule removes final (remember m c r) (f r)) :
    Safe TokenRule removes final m (send c >>= f) := by
  refine safe_call ?_ hf
  cases c with
  | createRefreshToken row => exact hc
  | _ => exact fun hremoves => absurd (hc hremoves) (by simp)

theorem safe_timeNow {f : Int → Body α}
    (hf : ∀ m' now, m <:+ m' → Safe TokenRule removes final m' (f now)) :
    Safe TokenRule removes final m (timeNow >>= f) :=
  safe_send nofun fun r => hf _ (r.getD 0) (suffix_remember m _ r)

/-- New tokens are stored. -/
theorem safe_generateTokenPair (userID : Nat) (user : User) :
    Safe TokenRule removes (fun m' r => ∀ tokens, r = .ok tokens → Backed m' tokens) m
      (generateTokenPair userID user) := by
  unfold generateTokenPair
  refine safe_send nofun fun r => ?_
  cases r with
  | none => exact nofun
  | some accessToken =>
      refine safe_send nofun fun r => ?_
      cases r with
      | none => exact nofun
      | some refreshToken =>
          have hdrawn := told_remember
            (remember m (.generateAccessToken userID user.email accessTokenDuration)
              (some accessToken)) .generateRefreshToken refreshToken
          have haccess := told_remember m
            (.generateAccessToken userID user.email accessTokenDuration) accessToken
          apply safe_timeNow
          intro m' now hm
          refine safe_send (hdrawn.mono hm) fun r => ?_
          match r with
          | none => exact nofun
          | some false => exact nofun
          | some true =>
              rintro tokens ⟨⟩
              refine ⟨_, user.email, accessTokenDuration, told_remember _ _ _, rfl, ?_⟩
              exact ((haccess.mono (suffix_remember _ _ _)).mono hm).mono (suffix_remember _ _ _)

theorem safe_deleteOldestSessions (userID count : Nat) :
    Safe TokenRule removes anything m (deleteOldestSessions userID count) := by
  induction count generalizing m with
  | zero => trivial
  | succ count ih =>
      unfold deleteOldestSessions
      split_ifs
      · refine safe_send id fun r => ?_
        cases r with
        | none => trivial
        | some _ => exact ih
      · trivial

theorem safe_createSession (userID : Nat) (tokenHash : TokenHash)
    (ipAddress userAgent authProvider : GoString) :
    Safe TokenRule removes anything m
      (createSession userID tokenHash ipAddress userAgent authProvider) := by
  unfold createSession
  refine safe_send nofun fun r => ?_
  cases r with
  | none => trivial
  | some count =>
      apply (safe_deleteOldestSessions userID count).bind
      rintro m (_ | _) -
      · trivial
      · apply safe_timeNow
        intro m lastActive _
        apply safe_timeNow
        intro m now _
        refine safe_send nofun ?_
        rintro (_ | _ | _) <;> trivial

theorem safe_touchLogin (userID : Nat) (user : User) :
    Safe TokenRule removes anything m (touchLogin userID user) := by
  unfold touchLogin
  apply safe_timeNow
  intro m now _
  exact safe_send nofun fun _ => trivial

theorem safe_createSessionForUser (userID : Nat) (provider ipAddress userAgent : GoString) :
    Safe TokenRule removes BackedResult m
      (createSessionForUser userID provider ipAddress userAgent) := by
  unfold createSessionForUser
  refine safe_send nofun ?_
  rintro (_ | _ | user)
  · exact nofun
  · exact nofun
  · apply (safe_generateTokenPair userID user).bind
    rintro m (message | tokens) hbacked
    · exact nofun
    · apply (safe_createSession _ _ _ _ _).grow.bind
      rintro m' _ ⟨hm', -⟩
      apply (safe_touchLogin userID user).grow.bind
      rintro m'' _ ⟨hm'', -⟩ _ ⟨⟩
      exact (hbacked tokens rfl).mono (hm'.trans hm'')

theorem safe_login (email password ipAddress userAgent : GoString) :
    Safe TokenRule removes BackedResult m (login cfg email password ipAddress userAgent) := by
  unfold login
  refine safe_send nofun ?_
  rintro (_ | _ | ⟨userID, user⟩)
  · exact nofun
  · exact nofun
  · dsimp only
    split_ifs
    · exact nofun
    · exact nofun
    · exact nofun
    · apply (safe_generateTokenPair userID user).bind
      rintro m (message | tokens) hbacked
      · exact nofun
      · apply (safe_createSession _ _ _ _ _).grow.bind
        rintro m' _ ⟨hm', -⟩
        apply (safe_touchLogin userID user).grow.bind
        rintro m'' _ ⟨hm'', -⟩ _ ⟨⟩
        exact (hbacked tokens rfl).mono (hm'.trans hm'')

theorem safe_touchSession (session : Option Nat) :
    Safe TokenRule removes anything m (touchSession session) := by
  cases session with
  | none => trivial
  | some sessionID =>
      unfold touchSession
      apply safe_timeNow
      intro m now _
      exact safe_send nofun fun _ => trivial

theorem safe_moveSession (newTokenHash : TokenHash) (session : Option Nat) :
    Safe TokenRule removes anything m (moveSession newTokenHash session) := by
  cases session with
  | none => trivial
  | some sessionID =>
      unfold moveSession
      exact safe_send nofun fun _ => safe_touchSession _

/-- A call that removes tokens. -/
theorem safe_remove {c : Call} {f : Option (Answer c) → Body α} (hc : c.removesTokens = true)
    (hf : ∀ r, Safe TokenRule true final (remember m c r) (f r)) :
    Safe TokenRule true final m (send c >>= f) := by
  refine safe_call ?_ hf
  cases c with
  | createRefreshToken row => exact absurd hc (by simp [Call.removesTokens])
  | _ => exact fun _ => rfl

theorem safe_rotate (tokenHash : TokenHash) (storedID userID : Nat) (user : User) :
    Safe TokenRule true BackedResult m (rotate tokenHash storedID userID user) := by
  unfold rotate
  refine safe_send nofun fun r => ?_
  apply (safe_touchSession _).bind
  intro m _ _
  refine safe_remove rfl fun _ => ?_
  apply (safe_generateTokenPair userID user).bind
  rintro m (message | tokens) hbacked
  · exact nofun
  · apply (safe_moveSession _ _).grow.bind
    rintro m' _ ⟨hm', -⟩ _ ⟨⟩
    exact (hbacked tokens rfl).mono hm'

theorem safe_refreshTokens (refreshToken : Token) :
    Safe TokenRule true BackedResult m (refreshTokens cfg refreshToken) := by
  unfold refreshTokens
  refine safe_send nofun ?_
  rintro (_ | _ | ⟨storedID, stored⟩)
  · exact nofun
  · exact nofun
  · apply safe_timeNow
    intro m now _
    split_ifs
    · exact safe_remove rfl fun _ => nofun
    · refine safe_send nofun ?_
      rintro (_ | _ | user)
      · exact nofun
      · exact nofun
      · dsimp only
        split_ifs
        · exact nofun
        · exact safe_remove rfl fun _ => nofun
        · exact safe_rotate _ _ _ _

/-! ## The operations without tokens in the result -/

theorem safe_logout (refreshToken : Token) :
    Safe TokenRule true BackedResult m (logout refreshToken) := by
  unfold logout
  refine safe_send nofun ?_
  rintro (_ | _ | ⟨sessionID, session⟩)
  · refine safe_remove rfl fun r => ?_
    cases r <;> exact nofun
  · refine safe_remove rfl fun r => ?_
    cases r <;> exact nofun
  · refine safe_send nofun fun _ => safe_remove rfl fun r => ?_
    cases r <;> exact nofun

theorem safe_revokeSession (userID sessionID : Nat) :
    Safe TokenRule true BackedResult m (revokeSession userID sessionID) := by
  unfold revokeSession
  refine safe_send nofun ?_
  rintro (_ | _ | session)
  · exact nofun
  · exact nofun
  · dsimp only
    split_ifs
    · exact nofun
    · refine safe_send nofun fun r => ?_
      cases r with
      | none => exact nofun
      | some _ => exact safe_remove rfl fun _ => nofun

theorem safe_updateProfile (userID : Nat) (firstName lastName : GoString) :
    Safe TokenRule removes BackedResult m (updateProfile userID firstName lastName) := by
  unfold updateProfile
  refine safe_send nofun ?_
  rintro (_ | _ | user)
  · exact nofun
  · exact nofun
  · refine safe_send nofun fun r => ?_
    cases r <;> exact nofun

theorem safe_verifyEmail (rawToken : Token) :
    Safe TokenRule removes BackedResult m (verifyEmail rawToken) := by
  unfold verifyEmail
  refine safe_send nofun ?_
  rintro (_ | _ | ⟨storedID, stored⟩)
  · exact nofun
  · exact nofun
  · apply safe_timeNow
    intro m now _
    split_ifs
    · exact nofun
    · refine safe_send nofun ?_
      rintro (_ | _ | user)
      · exact nofun
      · exact nofun
      · refine safe_send nofun fun r => ?_
        cases r with
        | none => exact nofun
        | some _ => exact safe_send nofun fun _ => nofun

theorem safe_hashPassword (password : GoString) :
    Safe TokenRule removes anything m (hashPassword cfg password) := by
  unfold hashPassword
  refine safe_send nofun fun r => ?_
  cases r <;> trivial

theorem safe_resetPassword (rawToken : Token) (newPassword : GoString) :
    Safe TokenRule true BackedResult m (resetPassword cfg rawToken newPassword) := by
  unfold resetPassword
  refine safe_send nofun ?_
  rintro (_ | _ | ⟨storedID, stored⟩)
  · exact nofun
  · exact nofun
  · dsimp only
    split_ifs
    · exact nofun
    · apply safe_timeNow
      intro m now _
      split_ifs
      · exact nofun
      · refine safe_send nofun ?_
        rintro (_ | _ | user)
        · exact nofun
        · exact nofun
        · dsimp only
          split
          · exact nofun
          · apply (safe_hashPassword newPassword).bind
            rintro m (_ | passwordHash) -
            · exact nofun
            · refine safe_send nofun fun r => ?_
              cases r with
              | none => exact nofun
              | some _ =>
                  refine safe_send nofun fun _ => ?_
                  refine safe_remove rfl fun _ => ?_
                  exact safe_send nofun fun _ => nofun

theorem safe_invalidate (userID : Nat) (currentTokenHash : Option TokenHash) :
    Safe TokenRule true anything m (invalidate userID currentTokenHash) := by
  cases currentTokenHash with
  | none => exact safe_remove rfl fun _ => safe_send nofun fun _ => trivial
  | some tokenHash => exact safe_remove rfl fun _ => safe_send nofun fun _ => trivial

theorem safe_changePassword (userID : Nat) (currentPassword newPassword : GoString)
    (currentTokenHash : Option TokenHash) :
    Safe TokenRule true BackedResult m
      (changePassword cfg userID currentPassword newPassword currentTokenHash) := by
  unfold changePassword
  refine safe_send nofun ?_
  rintro (_ | _ | user)
  · exact nofun
  · exact nofun
  · dsimp only
    split_ifs
    · exact nofun
    · exact nofun
    · split
      · exact nofun
      · apply (safe_hashPassword newPassword).bind
        rintro m (_ | passwordHash) -
        · exact nofun
        · refine safe_send nofun fun r => ?_
          cases r with
          | none => exact nofun
          | some _ =>
              apply (safe_invalidate userID currentTokenHash).bind
              intro m _ _
              exact nofun

theorem safe_guardLastSuperAdmin (loses : Bool) :
    Safe TokenRule removes anything m (guardLastSuperAdmin loses) := by
  unfold guardLastSuperAdmin
  split_ifs
  · refine safe_send nofun ?_
    rintro (_ | count)
    · trivial
    · dsimp only
      split_ifs <;> trivial
  · trivial

theorem safe_setActive (targetUserID : Nat) (target : User) (isActive : Option Bool) :
    Safe TokenRule true anything m (setActive targetUserID target isActive) := by
  match isActive with
  | none => trivial
  | some true => trivial
  | some false =>
      unfold setActive
      apply safe_timeNow
      intro m now _
      exact safe_send nofun fun _ => safe_remove rfl fun _ => trivial

theorem safe_adminUpdateUser (callerID targetUserID : Nat) (confirmPassword : GoString)
    (updates : AdminUserUpdate) :
    Safe TokenRule true BackedResult m
      (adminUpdateUser cfg callerID targetUserID confirmPassword updates) := by
  unfold adminUpdateUser
  refine safe_send nofun ?_
  rintro (_ | _ | caller)
  · exact nofun
  · exact nofun
  · dsimp only
    split_ifs
    · exact nofun
    · exact nofun
    · refine safe_send nofun ?_
      rintro (_ | _ | target)
      · exact nofun
      · exact nofun
      · unfold applyUpdates
        apply (safe_guardLastSuperAdmin _).bind
        rintro m (_ | _) -
        · exact nofun
        · apply (safe_guardLastSuperAdmin _).bind
          rintro m (_ | _) -
          · exact nofun
          · apply (safe_setActive _ _ _).bind
            intro m row _
            refine safe_send nofun fun r => ?_
            cases r <;> exact nofun

/-- Every operation stores only what it has drawn, returns only tokens that are stored, and
removes none unless it is there to. -/
theorem safe_bodyOf (op : Op) :
    Safe TokenRule op.removesTokens BackedResult m (bodyOf cfg op) := by
  cases op with
  | createSessionForUser userID provider ipAddress userAgent =>
      exact safe_createSessionForUser _ _ _ _
  | login email password ipAddress userAgent => exact safe_login _ _ _ _
  | refreshTokens refreshToken => exact safe_refreshTokens refreshToken
  | logout refreshToken => exact safe_logout refreshToken
  | listSessions userID =>
      refine safe_send nofun fun r => ?_
      cases r <;> exact nofun
  | revokeSession userID sessionID => exact safe_revokeSession _ _
  | cleanExpiredSessions =>
      refine safe_send nofun fun r => ?_
      cases r <;> exact nofun
  | updateProfile userID firstName lastName => exact safe_updateProfile _ _ _
  | verifyEmail rawToken => exact safe_verifyEmail rawToken
  | resetPassword rawToken newPassword => exact safe_resetPassword _ _
  | changePassword userID currentPassword newPassword currentTokenHash =>
      exact safe_changePassword _ _ _ _
  | adminUpdateUser callerID targetUserID confirmPassword updates =>
      exact safe_adminUpdateUser _ _ _ _

end Bodies

/-! ## What a call does to the stored tokens -/

section Rows

variable {db : Database} {c : Call}

/-- A refresh token is stored, or its row is rejected. -/
theorem createRefreshToken_cases (db : Database) (row : RefreshToken) :
    ((rowsWhere db.refreshTokens fun t => t.tokenHash = row.tokenHash).isEmpty = true ∧
      db.exec (.createRefreshToken row) =
        ({ db with refreshTokens := db.refreshTokens.add row }, true)) ∨
    db.exec (.createRefreshToken row) = (db, false) := by
  simp only [Database.exec]
  split_ifs with hfree
  · exact Or.inl ⟨hfree, rfl⟩
  · exact Or.inr rfl

/-- Only the storing of a token adds a row. -/
theorem get?_of_get?_exec (hc : ∀ row, c ≠ .createRefreshToken row) {id : Nat} {row : RefreshToken}
    (hget : (db.exec c).1.refreshTokens.get? id = some row) :
    db.refreshTokens.get? id = some row := by
  cases c with
  | createRefreshToken row => exact absurd rfl (hc row)
  | generateRefreshToken => exact hget
  | findRefreshTokenByTokenHash tokenHash => exact hget
  | deleteRefreshToken id' =>
      simp only [Database.exec, Ledger.get?_remove] at hget
      split_ifs at hget
      exact hget
  | _ => exact (refreshTokens_of_exec (by simp [Call.OnTokens])).1 id row hget

/-- No call takes a draw back. -/
theorem drawn_le_exec (db : Database) (c : Call) : db.drawn ≤ (db.exec c).1.drawn := by
  cases c with
  | createRefreshToken row =>
      rcases createRefreshToken_cases db row with ⟨-, hexec⟩ | hexec
      · exact le_of_eq (by rw [hexec])
      · exact le_of_eq (by rw [hexec])
  | generateRefreshToken => exact Nat.le_succ _
  | findRefreshTokenByTokenHash tokenHash => exact le_refl _
  | deleteRefreshToken id => exact le_refl _
  | _ => exact (refreshTokens_of_exec (by simp [Call.OnTokens])).2.2

/-- Only some calls remove rows. -/
theorem get?_exec_of_get? (hc : c.removesTokens = false) {id : Nat} {row : RefreshToken}
    (hget : db.refreshTokens.get? id = some row) :
    (db.exec c).1.refreshTokens.get? id = some row := by
  cases c with
  | createRefreshToken new =>
      rcases createRefreshToken_cases db new with ⟨-, hexec⟩ | hexec
      · rw [hexec]
        exact Ledger.get?_add_of_some hget
      · rw [hexec]
        exact hget
  | deleteRefreshToken id' => exact nomatch hc
  | deleteRefreshTokenByTokenHash tokenHash => exact nomatch hc
  | deleteRefreshTokensByUserID userID => exact nomatch hc
  | deleteRefreshTokensByUserIDExceptTokenHash userID exceptTokenHash => exact nomatch hc
  | createSession session =>
      simp only [Database.exec]
      split_ifs <;> exact hget
  | updateSessionTokenHash id' tokenHash =>
      simp only [Database.exec]
      split_ifs <;> exact hget
  | deleteOldestSessionByUserID userID =>
      simp only [Database.exec]
      split <;> exact hget
  | _ => exact hget

/-- A database whose rows are among those of a valid one. -/
theorem Database.Valid.shrink {db' : Database} (hvalid : db.Valid)
    (hkept : ∀ id row, db'.refreshTokens.get? id = some row → db.refreshTokens.get? id = some row)
    (hdrawn : db.drawn ≤ db'.drawn) : db'.Valid where
  drawn := fun id row hget => (hvalid.drawn id row (hkept id row hget)).trans_le hdrawn
  unique := fun id id' row row' hget hget' =>
    hvalid.unique id id' row row' (hkept id row hget) (hkept id' row' hget')

/-- The unique index keeps the stored hashes apart. -/
theorem Database.Valid.exec (hvalid : db.Valid)
    (hdrawn : ∀ row, c = .createRefreshToken row → row.tokenHash.token.serial < db.drawn) :
    (db.exec c).1.Valid := by
  by_cases hcreate : ∃ row, c = .createRefreshToken row
  · obtain ⟨new, rfl⟩ := hcreate
    rcases createRefreshToken_cases db new with ⟨hfree, hexec⟩ | hexec
    · rw [hexec]
      have hnew : ∀ id row, db.refreshTokens.get? id = some row → row.tokenHash ≠ new.tokenHash :=
        fun id row hget heq => by simpa [heq] using isEmpty_rowsWhere.mp hfree id row hget
      constructor
      · intro id row hget
        rcases Ledger.of_get?_add hget with ⟨-, rfl⟩ | hold
        · exact hdrawn _ rfl
        · exact hvalid.drawn id row hold
      · intro id id' row row' hget hget' hhash
        rcases Ledger.of_get?_add hget with ⟨rfl, rfl⟩ | hold
        · rcases Ledger.of_get?_add hget' with ⟨rfl, -⟩ | hold'
          · rfl
          · exact absurd hhash.symm (hnew id' row' hold')
        · rcases Ledger.of_get?_add hget' with ⟨-, rfl⟩ | hold'
          · exact absurd hhash (hnew id row hold)
          · exact hvalid.unique id id' row row' hold hold' hhash
    · rw [hexec]
      exact hvalid
  · refine hvalid.shrink (fun id row hget => ?_) (drawn_le_exec db c)
    exact get?_of_get?_exec (fun row heq => hcreate ⟨row, heq⟩) hget

end Rows

theorem twoUsers_valid : twoUsers.Valid where
  drawn := fun _ _ hget => nomatch hget
  unique := fun _ _ _ _ hget => nomatch hget

/-! ## An exchange that nothing disturbs -/

section Exchange

variable {cfg : Config} {db : Database}

/-- The next token is none of those that are stored. -/
theorem Database.Valid.nextIsNew (hvalid : db.Valid) : NextIsNew db := by
  apply isEmpty_rowsWhere.mpr
  intro id row hget
  have hlt := hvalid.drawn id row hget
  apply decide_eq_false
  intro heq
  rw [heq] at hlt
  exact absurd hlt (Nat.lt_irrefl _)

/-- The row of a stored token is found by its hash. -/
theorem Database.Valid.find (hvalid : db.Valid) {id : Nat} {row : RefreshToken}
    (hget : db.refreshTokens.get? id = some row) :
    (rowsWhere db.refreshTokens fun t => t.tokenHash = row.tokenHash).head? = some (id, row) := by
  cases hhead : (rowsWhere db.refreshTokens fun t => t.tokenHash = row.tokenHash).head? with
  | none =>
      have hmem : (id, row) ∈ rowsWhere db.refreshTokens fun t => t.tokenHash = row.tokenHash :=
        mem_rowsWhere.mpr ⟨hget, decide_eq_true rfl⟩
      rw [List.head?_eq_none_iff.mp hhead] at hmem
      exact absurd hmem List.not_mem_nil
  | some found =>
      obtain ⟨id', row'⟩ := found
      obtain ⟨hget', hhash⟩ := get?_of_head? hhead
      obtain rfl := hvalid.unique id' id row' row hget' hget hhash
      obtain rfl := Option.some.inj (hget.symm.trans hget')
      rfl

/-- The touch of a session changes only sessions. -/
theorem run_touchSession (session : Option Nat) (db : Database) :
    ∃ sessions, machine.run (touchSession session) db = ({ db with sessions := sessions }, ()) := by
  cases session with
  | none => exact ⟨db.sessions, rfl⟩
  | some sessionID => exact ⟨_, rfl⟩

/-- The rotation returns new tokens. -/
theorem run_rotate (hvalid : db.Valid) (tokenHash : TokenHash) (storedID userID : Nat)
    (user : User) : ∃ accessToken, (machine.run (rotate tokenHash storedID userID user) db).2 =
      .tokens ⟨accessToken, ⟨db.drawn⟩⟩ := by
  unfold rotate
  rw [run_send, show db.exec (.findSessionByTokenHash tokenHash) =
    (db, (rowsWhere db.sessions fun s => s.tokenHash = tokenHash).head?) from rfl]
  dsimp only
  obtain ⟨sessions, htouch⟩ := run_touchSession
    (((some (rowsWhere db.sessions fun s => s.tokenHash = tokenHash).head?).getD none).map
      Prod.fst) db
  rw [Machine.run_bind_of htouch, run_send]
  dsimp only [Database.exec]
  have hnew : NextIsNew
      { db with sessions := sessions, refreshTokens := db.refreshTokens.remove storedID } := by
    apply Database.Valid.nextIsNew
    refine hvalid.shrink (fun id row hget => ?_) (le_refl _)
    rw [Ledger.get?_remove] at hget
    split_ifs at hget
    exact hget
  rcases run_generateTokenPair
      { db with sessions := sessions, refreshTokens := db.refreshTokens.remove storedID }
      userID user with ⟨_, accessToken, hrun⟩ | ⟨hold, _⟩
  · rw [Machine.run_bind_of hrun]
    dsimp only
    rw [Machine.run_bind]
    exact ⟨accessToken, rfl⟩
  · exact absurd hnew hold

/-- A stored token can be exchanged before it expires, by an active user whose e-mail address is
verified if that is required. -/
theorem run_refreshTokens (hvalid : db.Valid) {id : Nat} {row : RefreshToken} {user : User}
    (hget : db.refreshTokens.get? id = some row) (hexpiry : db.now ≤ row.expiresAt)
    (huser : db.users.get? row.userID = some user) (hactive : user.isActive = true)
    (hverified : cfg.requireEmailVerification = true → user.emailVerified = true) :
    ∃ tokens, (machine.run (refreshTokens cfg row.tokenHash.token) db).2 = .tokens tokens ∧
      tokens.refreshToken ≠ row.tokenHash.token := by
  have hfind : db.exec (.findRefreshTokenByTokenHash row.tokenHash) = (db, some (id, row)) :=
    congrArg (Prod.mk db) (hvalid.find hget)
  have huser' : db.exec (.findUserByID row.userID) = (db, some user) :=
    congrArg (Prod.mk db) huser
  have hnot : ¬(cfg.requireEmailVerification = true ∧ user.emailVerified = false) := by
    rintro ⟨hrequired, hunverified⟩
    exact nomatch (hverified hrequired).symm.trans hunverified
  unfold refreshTokens
  rw [show hashRefreshToken row.tokenHash.token = row.tokenHash from rfl, run_send, hfind]
  dsimp only
  rw [run_timeNow, if_neg (Int.not_lt.mpr hexpiry), run_send, huser']
  dsimp only
  rw [if_neg (by simp [hactive]), if_neg hnot]
  obtain ⟨accessToken, hrun⟩ := run_rotate hvalid row.tokenHash id row.userID user
  refine ⟨_, hrun, fun heq => ?_⟩
  have hlt := hvalid.drawn id row hget
  rw [← heq] at hlt
  exact absurd hlt (Nat.lt_irrefl _)

/-- A token that is not stored cannot be exchanged. -/
theorem run_refreshTokens_unknown {refreshToken : Token}
    (hunknown : ∀ id row, db.refreshTokens.get? id = some row →
      row.tokenHash ≠ hashRefreshToken refreshToken) :
    (machine.run (refreshTokens cfg refreshToken) db).2 =
      .error "invalid refresh token".toList := by
  have hrows : (rowsWhere db.refreshTokens fun t =>
      t.tokenHash = hashRefreshToken refreshToken) = [] := by
    apply List.isEmpty_iff.mp
    apply isEmpty_rowsWhere.mpr
    exact fun id row hget => decide_eq_false (hunknown id row hget)
  have hfind : db.exec (.findRefreshTokenByTokenHash (hashRefreshToken refreshToken)) =
      (db, none) := congrArg (fun rows => (db, rows.head?)) hrows
  unfold refreshTokens
  rw [run_send, hfind]
  rfl

end Exchange

end Auth
end Veilence
