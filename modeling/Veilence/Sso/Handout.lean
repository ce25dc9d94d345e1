import Veilence.Auth.Tokens
import Veilence.Sso.Discipline

/-!
# Refresh tokens that are handed out

{lit}`Login`, {lit}`RefreshTokens`, {lit}`CreateSessionForUser` and the callbacks store the
refresh token that they hand out, for the user of the access token beside it.  The row stays
until the end of a session, an exchange or {lit}`AdminUpdateUser` removes it, so until then the
token can be exchanged.  The first-time setup draws a token, hands it out and stores nothing.

Main results:

- Theorem {lit}`exchanges_of_run`: which tokens that a run has handed out can be exchanged.
- Theorem {lit}`not_exchanges_of_setup`: those of the setup never can.
-/

namespace Veilence
namespace Sso

open Go Foundation

open Auth (Token TokenPair RefreshToken User hashRefreshToken rowsWhere)

/-! ## What happens to refresh tokens -/

/-- The operations that end sessions or exchange tokens. -/
def Op.endsSessions : Op → Bool
  | .auth (.refreshTokens _) => true
  | .auth (.logout _) => true
  | .auth (.revokeSession _ _) => true
  | .auth (.resetPassword _ _) => true
  | .auth (.changePassword _ _ _ _) => true
  | .samlSLO _ _ _ => true
  | _ => false

/-- The operation is {lit}`AdminUpdateUser`, which removes the tokens of a user whom it
deactivates. -/
def Op.administers : Op → Bool
  | .auth (.adminUpdateUser _ _ _ _) => true
  | _ => false

/-- The operation is the first-time setup. -/
def Op.isSetup : Op → Bool
  | .setupInitialize _ _ _ _ => true
  | _ => false

/-- The rows of refresh tokens that have been stored, those that have been removed, with the
operation, and the tokens that have been handed out, with the operation. -/
structure Story where
  stored : List RefreshToken
  removed : List (Op × RefreshToken)
  handed : List (Op × TokenPair)

/-- Nothing has happened. -/
def Story.empty : Story :=
  ⟨[], [], []⟩

/-- The row that a call has stored. -/
def storedBy : (c : Call) → Answer c → List RefreshToken
  | .auth (.createRefreshToken row), true => [row]
  | _, _ => []

/-- The rows that a call removes. -/
def Database.removedBy (db : Database) (c : Call) : List RefreshToken :=
  (db.auth.refreshTokens.rows.entries.filter fun e =>
    ((db.exec c).1.auth.refreshTokens.get? e.1).isNone).map Prod.snd

/-- The story of a run. -/
def story : Recorder Database Op Call Answer Result Story where
  ran := fun g db op c r =>
    { g with
      stored := storedBy c r ++ g.stored
      removed := (db.removedBy c).map (Prod.mk op) ++ g.removed }
  returned := fun g _ op a =>
    { g with handed := a.tokens.toList.map (Prod.mk op) ++ g.handed }

/-! ## Tokens that should work -/

/-- The user of a token is active, the token has not expired, and no end of a session and no
exchange has removed it.  A token that is not stored expires as if it had been stored when it
was drawn. -/
structure Due (db : Database) (g : Story) (tokens : TokenPair) : Prop where
  active : ∃ user, db.auth.users.get? tokens.accessToken.userID = some user ∧ user.isActive = true
  unexpired : ∀ row ∈ g.stored, row.tokenHash = hashRefreshToken tokens.refreshToken →
    db.auth.now ≤ row.expiresAt
  unstored : (∀ row ∈ g.stored, row.tokenHash ≠ hashRefreshToken tokens.refreshToken) →
    db.auth.now ≤
      tokens.accessToken.expiresAt - Auth.accessTokenDuration + Auth.refreshTokenDuration
  kept : ∀ op row, (op, row) ∈ g.removed →
    row.tokenHash = hashRefreshToken tokens.refreshToken → op.endsSessions = false

/-- The token does not come from the setup, {lit}`AdminUpdateUser` has not removed it, and the
e-mail address of the user is verified if that is required. -/
structure Renewable (cfg : Config) (db : Database) (g : Story) (op : Op) (tokens : TokenPair) :
    Prop where
  origin : op.isSetup = false
  kept : ∀ op row, (op, row) ∈ g.removed →
    row.tokenHash = hashRefreshToken tokens.refreshToken → op.administers = false
  verified : cfg.auth.requireEmailVerification = true → ∀ user,
    db.auth.users.get? tokens.accessToken.userID = some user → user.emailVerified = true

/-- An exchange in which no call fails returns a new pair. -/
def Exchanges (cfg : Config) (db : Database) (tokens : TokenPair) : Prop :=
  ∃ new, (machine.run (bodyOf cfg (.auth (.refreshTokens tokens.refreshToken))) db).2 =
    .auth (.tokens new) ∧ new.refreshToken ≠ tokens.refreshToken

/-! ## The bodies -/

/-- The operations that remove refresh tokens. -/
def Op.removesTokens : Op → Bool
  | .auth op => op.removesTokens
  | .samlSLO _ _ _ => true
  | _ => false

/-- A call stores a token that it has drawn, and removes tokens only if it may. -/
def TokenRule (op : Op) (m : Answers) : Call → Prop
  | .auth (.createRefreshToken row) => Told m (.auth .generateRefreshToken) row.tokenHash.token
  | .auth c => c.removesTokens = true → op.removesTokens = true
  | _ => True

/-- The call has stored the refresh token for the user of the access token. -/
def Backed (m : Answers) (tokens : TokenPair) : Prop :=
  ∃ row email duration, Told m (.auth (.createRefreshToken row)) true ∧
    row.tokenHash = hashRefreshToken tokens.refreshToken ∧
      Told m (.auth (.generateAccessToken row.userID email duration)) tokens.accessToken

/-- The tokens that a call returns are stored, if it is not the setup. -/
def BackedResult (op : Op) (m : Answers) (a : Result) : Prop :=
  ∀ tokens, a.tokens = some tokens → op.isSetup = true ∨ Backed m tokens

/-- What has been stored is not forgotten. -/
theorem BackedResult.mono {op : Op} {m m' : Answers} {a : Result}
    (hbacked : BackedResult op m a) (hm : m <:+ m') : BackedResult op m' a := by
  intro tokens htokens
  rcases hbacked tokens htokens with hsetup | ⟨row, email, duration, hstored, hhash, haccess⟩
  · exact Or.inl hsetup
  · exact Or.inr ⟨row, email, duration, hstored.mono hm, hhash, haccess.mono hm⟩

/-- Only these operations remove refresh tokens. -/
theorem Op.removesTokens_cases {op : Op} (hop : op.removesTokens = true) :
    op.endsSessions = true ∨ op.administers = true := by
  cases op with
  | auth op =>
      cases op with
      | adminUpdateUser callerID targetUserID confirmPassword updates => exact Or.inr rfl
      | createSessionForUser userID provider ipAddress userAgent => exact nomatch hop
      | login email password ipAddress userAgent => exact nomatch hop
      | listSessions userID => exact nomatch hop
      | cleanExpiredSessions => exact nomatch hop
      | updateProfile userID firstName lastName => exact nomatch hop
      | verifyEmail rawToken => exact nomatch hop
      | _ => exact Or.inl rfl
  | samlSLO samlRequest signature sigAlg => exact Or.inl rfl
  | _ => exact nomatch hop

section Bodies

variable {cfg : Config} {op : Op} {m : Answers} {α : Type}

/-- The answers that the auth service has got are among those of the call. -/
def Sees (m : Answers) (authAnswers : Auth.Answers) : Prop :=
  ∀ c r, Told authAnswers c r → Told m (.auth c) r

/-- Nothing has been answered. -/
theorem sees_nil (m : Answers) : Sees m [] :=
  fun _ _ htold => absurd htold List.not_mem_nil

/-- A program of the auth service keeps to the rule here as it does there. -/
theorem safe_lift_tokens {removes : Bool} (hremoves : removes = true → op.removesTokens = true)
    {final : Auth.Answers → α → Prop} {p : Auth.Body α} {authAnswers : Auth.Answers}
    (hp : Safe Auth.TokenRule removes final authAnswers p) (hsees : Sees m authAnswers) :
    Safe TokenRule op (fun m' a => ∃ authAnswers', Sees m' authAnswers' ∧ final authAnswers' a) m
      (lift p) := by
  induction p generalizing m authAnswers with
  | ret a => exact ⟨authAnswers, hsees, hp⟩
  | cmd c k ih =>
      refine ⟨?_, fun r => ih r (hp.2 r) ?_⟩
      · have hrule := hp.1
        cases c with
        | createRefreshToken row => exact hsees _ _ hrule
        | _ => exact fun hc => hremoves (hrule hc)
      · cases r with
        | none => exact hsees
        | some r =>
            intro c' r' htold
            rcases List.mem_cons.mp htold with heq | hold
            · cases heq
              exact told_remember _ _ _
            · exact (hsees c' r' hold).mono (suffix_remember _ _ _)

/-- Tokens that are stored there are stored here. -/
theorem backed_of_auth {authAnswers : Auth.Answers} {tokens : TokenPair}
    (hbacked : Auth.Backed authAnswers tokens) (hsees : Sees m authAnswers) : Backed m tokens := by
  obtain ⟨row, email, duration, hstored, hhash, haccess⟩ := hbacked
  exact ⟨row, email, duration, hsees _ _ hstored, hhash, hsees _ _ haccess⟩

theorem tokens_auth (r : Auth.Result) : (Result.auth r).tokens = r.pair := by
  cases r <;> rfl

/-- The session at the end of a callback. -/
theorem safe_createSession_tokens (userID : Nat) (provider : Provider) (req : Request) :
    Safe TokenRule op (BackedResult op) m (createSession userID provider req) := by
  have hsession : Safe Auth.TokenRule false Auth.BackedResult []
      (Auth.createSessionForUser userID provider.name req.ipAddress req.userAgent) :=
    Auth.safe_createSessionForUser _ _ _ _
  unfold createSession
  apply (safe_lift_tokens (fun hfalse => absurd hfalse Bool.false_ne_true) hsession
    (sees_nil m)).bind
  rintro m r ⟨authAnswers, hsees, hbacked⟩
  cases r with
  | tokensFor tokens expiresIn =>
      rintro _ ⟨⟩
      exact Or.inr (backed_of_auth (hbacked tokens rfl) hsees)
  | _ => exact nofun

/-- Calls that neither store nor remove a token pass, and so do results without tokens. -/
theorem lenient_tokens (op : Op) : Lenient TokenRule op (BackedResult op) where
  command := by
    intro m c hc
    cases c with
    | auth c =>
        cases c with
        | createRefreshToken row => exact absurd hc (by simp [Call.guarded])
        | deleteRefreshToken id => exact absurd hc (by simp [Call.guarded])
        | deleteRefreshTokenByTokenHash tokenHash => exact absurd hc (by simp [Call.guarded])
        | deleteRefreshTokensByUserID userID => exact absurd hc (by simp [Call.guarded])
        | deleteRefreshTokensByUserIDExceptTokenHash userID exceptTokenHash =>
            exact absurd hc (by simp [Call.guarded])
        | _ => exact nofun
    | _ => trivial
  result := by
    intro m a ha tokens htokens
    exact absurd (ha.symm.trans htokens) (by simp)

/-- Every operation keeps to the rule. -/
theorem safe_tokens (cfg : Config) (op : Op) :
    Safe TokenRule op (BackedResult op) [] (bodyOf cfg op) := by
  have hlenient := lenient_tokens op
  have hcreate : ∀ email, MayCreate cfg TokenRule op email := fun _ _ _ _ => trivial
  have hcreated : ∀ {p : Body (Except GoString Nat)}, Safe TokenRule op anything [] p →
      Safe TokenRule op (BackedResult op) [] (p >>= fun r => .ret (created r)) :=
    fun hp => hp.bind fun m r _ => hlenient.created m r
  have hframed : ∀ {state : Token} {p : Body Result},
      Framed TokenRule op (BackedResult op) state p →
        Safe TokenRule op (BackedResult op) [] p := by
    rintro state p ⟨handler, f, rfl, hf⟩
    unfold withState
    refine safe_call trivial ?_
    rintro (_ | _ | ⟨id, ssoState⟩)
    · exact nofun
    · exact nofun
    · apply (hf ssoState _).bind
      intro m result hbacked
      exact safe_call trivial fun r => hbacked.mono (suffix_remember m _ r)
  cases op with
  | auth op =>
      have hbody : Safe Auth.TokenRule op.removesTokens Auth.BackedResult []
          (Auth.bodyOf cfg.auth op) := Auth.safe_bodyOf op
      have hremoves : op.removesTokens = true → (Op.auth op).removesTokens = true := id
      apply (safe_lift_tokens hremoves hbody (sees_nil [])).bind
      rintro m r ⟨authAnswers, hsees, hbacked⟩ tokens htokens
      rw [tokens_auth] at htokens
      exact Or.inr (backed_of_auth (hbacked tokens htokens) hsees)
  | register email password firstName lastName =>
      exact safe_register hlenient (hcreate _) _ _ _
  | createUserWithoutPassword email firstName lastName =>
      exact hcreated (safe_createUserWithoutPassword hlenient.command (hcreate _) _ _)
  | createUserWithPassword email firstName lastName password =>
      exact hcreated (safe_createUserWithPassword hlenient.command (hcreate _) _ _ _)
  | createSSOUser email firstName lastName =>
      exact hcreated (safe_createSSOUser hlenient.command (hcreate _) _ _)
  | setupInitialize email password firstName lastName =>
      refine safe_setupInitialize hlenient (hcreate _) ?_ _ _ _
      exact fun _ _ _ _ _ => Or.inl rfl
  | getUserByEmail email => exact safe_getUserByEmail hlenient _
  | forgotPassword email => exact safe_forgotPassword hlenient _
  | samlCallback samlResponse relayState ipAddress userAgent =>
      exact hframed (framed_handleSAMLCallback hlenient hcreate
        (fun _ _ _ _ => safe_createSession_tokens _ _ _) _ _ _ _)
  | oauthCallback code state ipAddress userAgent =>
      exact hframed (framed_handleOAuthCallback hlenient hcreate
        (fun _ _ _ _ => safe_createSession_tokens _ _ _) _ _ _ _)
  | samlSLO samlRequest signature sigAlg =>
      exact safe_handleSAMLSLO hlenient (fun _ _ _ => rfl) _ _ _

end Bodies

/-! ## The invariant -/

/-- A row that has been stored is there or has been removed, by an operation that may do so, and
a token that has been handed out has been stored for its user, unless it comes from the setup. -/
structure Accounted (db : Database) (g : Story) : Prop where
  valid : db.auth.Valid
  stored : ∀ row ∈ g.stored, (∃ id, db.auth.refreshTokens.get? id = some row) ∨
    ∃ op, (op, row) ∈ g.removed
  removed : ∀ op row, (op, row) ∈ g.removed → op.removesTokens = true
  handed : ∀ op tokens, (op, tokens) ∈ g.handed → op.isSetup = true ∨ ∃ row ∈ g.stored,
    row.tokenHash = hashRefreshToken tokens.refreshToken ∧
      row.userID = tokens.accessToken.userID

/-- What an answer says of the tokens. -/
def TokenFact (db : Database) (g : Story) : (c : Call) → Answer c → Prop
  | .auth (.createRefreshToken row), true => row ∈ g.stored
  | .auth .generateRefreshToken, token => token.serial < db.auth.drawn
  | .auth (.generateAccessToken userID _ _), accessToken => accessToken.userID = userID
  | _, _ => True

/-- The outline of the tokens that are handed out. -/
def handingOut : Outline Database Op Call Answer Result Story where
  permitted := TokenRule
  result := BackedResult
  inv := Accounted
  grows := fun db g db' g' => g.stored ⊆ g'.stored ∧ db.auth.drawn ≤ db'.auth.drawn
  fact := TokenFact

section Rows

variable {db db' : Database} {g g' : Story} {c : Call}

/-- The calls outside the auth service leave the refresh tokens as they are. -/
theorem refreshTokens_of_exec (hc : ∀ call, c ≠ .auth call) :
    (db.exec c).1.auth.refreshTokens = db.auth.refreshTokens ∧
      db.auth.drawn ≤ (db.exec c).1.auth.drawn := by
  cases c with
  | auth call => exact absurd rfl (hc call)
  | createUser user =>
      simp only [Database.exec]
      split_ifs <;> exact ⟨rfl, le_refl _⟩
  | drawToken => exact ⟨rfl, Nat.le_succ _⟩
  | allow key cooldown =>
      simp only [Database.exec]
      split_ifs <;> exact ⟨rfl, le_refl _⟩
  | createPasswordReset row =>
      simp only [Database.exec]
      split_ifs <;> exact ⟨rfl, le_refl _⟩
  | createEmailVerification row =>
      simp only [Database.exec]
      split_ifs <;> exact ⟨rfl, le_refl _⟩
  | createIdentity identity =>
      simp only [Database.exec]
      split_ifs <;> exact ⟨rfl, le_refl _⟩
  | updateIdentity id identity =>
      simp only [Database.exec]
      split_ifs <;> exact ⟨rfl, le_refl _⟩
  | _ => exact ⟨rfl, le_refl _⟩

theorem drawn_le_exec (db : Database) (c : Call) : db.auth.drawn ≤ (db.exec c).1.auth.drawn := by
  by_cases hc : ∃ call, c = .auth call
  · obtain ⟨call, rfl⟩ := hc
    exact Auth.drawn_le_exec db.auth call
  · exact (refreshTokens_of_exec fun call heq => hc ⟨call, heq⟩).2

/-- A removed row was there before. -/
theorem mem_removedBy {row : RefreshToken} :
    row ∈ db.removedBy c ↔ ∃ id, db.auth.refreshTokens.get? id = some row ∧
      (db.exec c).1.auth.refreshTokens.get? id = none := by
  simp only [Database.removedBy, List.mem_map, List.mem_filter, Option.isNone_iff_eq_none]
  constructor
  · rintro ⟨⟨id, row⟩, ⟨hmem, hgone⟩, rfl⟩
    exact ⟨id, Table.get?_eq_some_iff.mpr hmem, hgone⟩
  · rintro ⟨id, hget, hgone⟩
    exact ⟨(id, row), ⟨Table.get?_eq_some_iff.mp hget, hgone⟩, rfl⟩

/-- Only a call that removes refresh tokens removes a row. -/
theorem call_of_mem_removedBy {row : RefreshToken} (hrow : row ∈ db.removedBy c) :
    ∃ call, c = .auth call ∧ call.removesTokens = true := by
  obtain ⟨id, hget, hgone⟩ := mem_removedBy.mp hrow
  by_cases hc : ∃ call, c = .auth call
  · obtain ⟨call, rfl⟩ := hc
    refine ⟨call, rfl, ?_⟩
    by_contra hnot
    have hkept := Auth.get?_exec_of_get? (Bool.eq_false_iff.mpr hnot) hget
    exact nomatch hkept.symm.trans hgone
  · rw [(refreshTokens_of_exec fun call heq => hc ⟨call, heq⟩).1, hget] at hgone
    exact nomatch hgone

/-- A row that was there is there or has been removed by the call. -/
theorem get?_exec_or_mem_removedBy (c : Call) {id : Nat} {row : RefreshToken}
    (hget : db.auth.refreshTokens.get? id = some row) :
    (∃ id, (db.exec c).1.auth.refreshTokens.get? id = some row) ∨ row ∈ db.removedBy c := by
  cases hafter : (db.exec c).1.auth.refreshTokens.get? id with
  | none => exact Or.inr (mem_removedBy.mpr ⟨id, hget, hafter⟩)
  | some row' =>
      left
      refine ⟨id, ?_⟩
      by_cases hc : ∃ call, c = .auth call
      · obtain ⟨call, rfl⟩ := hc
        cases hremoves : call.removesTokens with
        | false => exact Auth.get?_exec_of_get? hremoves hget
        | true =>
            have hsame : db.auth.refreshTokens.get? id = some row' := by
              refine Auth.get?_of_get?_exec (fun new heq => ?_) hafter
              exact nomatch heq ▸ hremoves
            rw [hafter, ← hsame, hget]
      · rw [(refreshTokens_of_exec fun call heq => hc ⟨call, heq⟩).1, hget]

/-- The unique index keeps the stored hashes apart. -/
theorem valid_exec (hvalid : db.auth.Valid) (hdrawn : ∀ row,
    c = .auth (.createRefreshToken row) → row.tokenHash.token.serial < db.auth.drawn) :
    (db.exec c).1.auth.Valid := by
  by_cases hc : ∃ call, c = .auth call
  · obtain ⟨call, rfl⟩ := hc
    exact hvalid.exec fun row heq => hdrawn row (heq ▸ rfl)
  · obtain ⟨hsame, hdrawn'⟩ : (db.exec c).1.auth.refreshTokens = db.auth.refreshTokens ∧
        db.auth.drawn ≤ (db.exec c).1.auth.drawn :=
      refreshTokens_of_exec fun call heq => hc ⟨call, heq⟩
    exact hvalid.shrink (fun id row hget => hsame ▸ hget) hdrawn'

/-- Only the storing of a token stores a row. -/
theorem eq_of_mem_storedBy {r : Answer c} {row : RefreshToken} (hrow : row ∈ storedBy c r) :
    c = .auth (.createRefreshToken row) := by
  unfold storedBy at hrow
  split at hrow
  · rw [List.mem_singleton.mp hrow]
  · exact absurd hrow List.not_mem_nil

/-- A row that has been stored is there. -/
theorem get?_of_mem_storedBy {row : RefreshToken} (hrow : row ∈ storedBy c (db.exec c).2) :
    ∃ id, (db.exec c).1.auth.refreshTokens.get? id = some row := by
  obtain rfl := eq_of_mem_storedBy hrow
  simp only [Database.exec] at hrow ⊢
  rcases Auth.createRefreshToken_cases db.auth row with ⟨-, hexec⟩ | hexec
  · rw [hexec]
    exact ⟨db.auth.refreshTokens.next, (Ledger.get?_add _ _ _).trans (if_pos rfl)⟩
  · rw [hexec] at hrow
    exact absurd hrow List.not_mem_nil

/-- A fact about the tokens stays true. -/
theorem TokenFact.mono {r : Answer c} (hfact : TokenFact db g c r) (hstored : g.stored ⊆ g'.stored)
    (hdrawn : db.auth.drawn ≤ db'.auth.drawn) : TokenFact db' g' c r := by
  unfold TokenFact at hfact ⊢
  split
  · exact hstored hfact
  · exact lt_of_lt_of_le hfact hdrawn
  · exact hfact
  · trivial

/-- An answer says what it says. -/
theorem tokenFact_exec (db : Database) (g : Story) (op : Op) (c : Call) :
    TokenFact (db.exec c).1 (story.ran g db op c (db.exec c).2) c (db.exec c).2 := by
  cases c with
  | auth call =>
      cases call with
      | createRefreshToken row =>
          simp only [Database.exec]
          rcases Auth.createRefreshToken_cases db.auth row with ⟨-, hexec⟩ | hexec
          · rw [hexec]
            exact List.mem_cons_self
          · rw [hexec]
            trivial
      | generateRefreshToken => exact Nat.lt_succ_self _
      | generateAccessToken userID email duration => rfl
      | _ => trivial
  | _ => trivial

/-- A call keeps the account. -/
theorem Accounted.exec (hacc : Accounted db g) {op : Op} {m : Answers}
    (hknows : handingOut.Knows db g m) (hrule : TokenRule op m c) :
    Accounted (db.exec c).1 (story.ran g db op c (db.exec c).2) where
  valid := by
    apply valid_exec hacc.valid
    rintro row rfl
    exact hknows _ hrule
  stored := by
    intro row hrow
    rcases List.mem_append.mp hrow with hnew | hold
    · exact Or.inl (get?_of_mem_storedBy hnew)
    · rcases hacc.stored row hold with ⟨id, hget⟩ | ⟨op', hremoved⟩
      · refine (get?_exec_or_mem_removedBy c hget).imp_right fun hgone => ⟨op, ?_⟩
        exact List.mem_append_left _ (List.mem_map_of_mem hgone)
      · exact Or.inr ⟨op', List.mem_append_right _ hremoved⟩
  removed := by
    intro op' row hmem
    rcases List.mem_append.mp hmem with hnew | hold
    · obtain ⟨row', hgone, heq⟩ := List.mem_map.mp hnew
      obtain ⟨rfl, rfl⟩ := Prod.mk.inj heq
      obtain ⟨call, rfl, hremoves⟩ := call_of_mem_removedBy hgone
      cases call with
      | createRefreshToken new => exact nomatch hremoves
      | _ => exact hrule hremoves
    · exact hacc.removed op' row hold
  handed := by
    intro op' tokens hmem
    refine (hacc.handed op' tokens hmem).imp_right ?_
    rintro ⟨row, hrow, hrest⟩
    exact ⟨row, List.mem_append_right _ hrow, hrest⟩

end Rows

/-- Every operation keeps to the outline. -/
theorem sound_handingOut (cfg : Config) :
    handingOut.Sound (ssoSystem cfg) story fun _ _ _ => True where
  refl := fun _ _ => ⟨List.Subset.refl _, le_refl _⟩
  trans := fun _ _ _ _ _ _ hfirst hlast =>
    ⟨List.Subset.trans hfirst.1 hlast.1, le_trans hfirst.2 hlast.2⟩
  stable := fun _ _ _ _ _ _ hgrows hfact => TokenFact.mono hfact hgrows.1 hgrows.2
  safe := safe_tokens cfg
  exec := by
    intro db g op m c hinv hknows hrule _
    refine ⟨⟨Accounted.exec hinv hknows hrule, ?_, drawn_le_exec db c⟩, tokenFact_exec db g op c⟩
    exact List.subset_append_right _ _
  begins := fun _ _ _ hinv _ => ⟨hinv, List.Subset.refl _, le_refl _⟩
  finish := by
    intro db g op m a hinv hknows hbacked
    refine ⟨⟨hinv.valid, hinv.stored, hinv.removed, ?_⟩, List.Subset.refl _, le_refl _⟩
    intro op' tokens hmem
    rcases List.mem_append.mp hmem with hnew | hold
    · obtain ⟨tokens', htokens, heq⟩ := List.mem_map.mp hnew
      obtain ⟨rfl, rfl⟩ := Prod.mk.inj heq
      refine (hbacked _ (Option.mem_toList.mp htokens)).imp_right ?_
      rintro ⟨row, email, duration, hstored, hhash, haccess⟩
      exact ⟨row, hknows _ hstored, hhash, (hknows _ haccess).symm⟩
    · exact hinv.handed op' tokens hold
  stop := fun _ _ _ hinv => ⟨hinv, List.Subset.refl _, le_refl _⟩
  env := by
    rintro db g _ hinv ⟨t, _, rfl⟩
    exact ⟨⟨⟨hinv.valid.drawn, hinv.valid.unique⟩, hinv.stored, hinv.removed, hinv.handed⟩,
      List.Subset.refl _, le_refl _⟩

/-! ## Which tokens can be exchanged -/

/-- An exchange runs as in the auth service. -/
theorem run_exchange (cfg : Config) (db : Database) (refreshToken : Token) :
    (machine.run (bodyOf cfg (.auth (.refreshTokens refreshToken))) db).2 =
      .auth (Auth.machine.run (Auth.refreshTokens cfg.auth refreshToken) db.auth).2 := by
  have hbody : bodyOf cfg (.auth (.refreshTokens refreshToken)) =
      lift (Auth.refreshTokens cfg.auth refreshToken) >>= fun r => .ret (.auth r) := rfl
  rw [hbody, Machine.run_bind, run_lift]
  rfl

/-- In every run a token that has been handed out can be exchanged before it expires, as long as
its user is active and no end of a session and no exchange has removed it, if it does not come
from the setup, {lit}`AdminUpdateUser` has not removed it, and the e-mail address of the user is
verified where that is required. -/
theorem exchanges_of_run {cfg : Config} {db : Database} (hvalid : db.auth.Valid) {w : SsoWorld}
    {g : Story} (hrun : Run ((ssoSystem cfg).Tracked ((ssoSystem cfg).record story))
      (fun _ _ => True) (World.initial db, Story.empty) (w, g)) {op : Op} {tokens : TokenPair}
    (hhanded : (op, tokens) ∈ g.handed) (hdue : Due w.store g tokens)
    (hrenewable : Renewable cfg w.store g op tokens) : Exchanges cfg w.store tokens := by
  have hacc : Accounted w.store g := by
    refine (sound_handingOut cfg).invariant (fun _ _ _ _ _ _ _ _ _ _ => trivial) hrun ⟨hvalid, ?_, ?_, ?_⟩
    · exact fun _ hrow => absurd hrow List.not_mem_nil
    · exact fun _ _ hrow => absurd hrow List.not_mem_nil
    · exact fun _ _ hmem => absurd hmem List.not_mem_nil
  rcases hacc.handed op tokens hhanded with hsetup | ⟨row, hrow, hhash, huser⟩
  · exact nomatch hrenewable.origin.symm.trans hsetup
  rcases hacc.stored row hrow with ⟨id, hget⟩ | ⟨op', hremoved⟩
  · obtain ⟨user, hfound, hactive⟩ := hdue.active
    rw [← huser] at hfound
    obtain ⟨new, hnew, hne⟩ := Auth.run_refreshTokens hacc.valid hget
      (hdue.unexpired row hrow hhash) hfound hactive
      (fun hrequired => hrenewable.verified hrequired user (huser ▸ hfound))
    rw [show row.tokenHash.token = tokens.refreshToken from congrArg Auth.TokenHash.token hhash]
      at hnew hne
    exact ⟨new, (run_exchange cfg w.store _).trans (congrArg Result.auth hnew), hne⟩
  · -- nothing has removed the row
    rcases Op.removesTokens_cases (hacc.removed op' row hremoved) with hends | hadmin
    · exact nomatch (hdue.kept op' row hremoved hhash).symm.trans hends
    · exact nomatch (hrenewable.kept op' row hremoved hhash).symm.trans hadmin

/-- The user signs in with the password. -/
def passwordLogin : Op :=
  .auth Auth.userLogin

/-- The token of a login can be exchanged. -/
theorem exchanges_of_run_login :
    ∃ (w : SsoWorld) (g : Story), g.handed = [(passwordLogin, Auth.tokensWith 0)] ∧
      Exchanges signInConfig w.store (Auth.tokensWith 0) := by
  obtain ⟨w, g, hsteps, htest⟩ := System.exists_of_trackedSteps? (ssoSystem signInConfig)
    ((ssoSystem signInConfig).record story) (fun _ _ => true)
    (World.initial twoAccounts, Story.empty) (Label.alone 0 passwordLogin 11)
    (fun s => s.2.handed = [(passwordLogin, Auth.tokensWith 0)] ∧ s.2.removed = [] ∧
      (∀ row ∈ s.2.stored, s.1.store.auth.now ≤ row.expiresAt) ∧
      s.1.store.auth.now ≤ Auth.refreshTokenDuration ∧
      (s.1.store.auth.users.get? 1).any User.isActive = true)
    (by decide +kernel)
  obtain ⟨hhanded, hremoved, hstored, hnow, hactive⟩ := of_decide_eq_true htest
  have hrun : Run ((ssoSystem signInConfig).Tracked ((ssoSystem signInConfig).record story))
      (fun _ _ => True) (World.initial twoAccounts, Story.empty) (w, g) :=
    System.tracked_of_trackedSteps? (fun _ _ _ => trivial) hsteps
  have hmem : (passwordLogin, Auth.tokensWith 0) ∈ g.handed := by
    rw [hhanded]
    exact List.mem_cons_self
  have hdue : Due w.store g (Auth.tokensWith 0) := by
    refine ⟨?_, fun row hrow _ => hstored row hrow, fun _ => ?_, ?_⟩
    · exact (Option.any_eq_true _ _).mp hactive
    · exact hnow
    · rw [hremoved]
      exact nofun
  have hrenewable : Renewable signInConfig w.store g passwordLogin (Auth.tokensWith 0) := by
    refine ⟨rfl, ?_, nofun⟩
    rw [hremoved]
    exact nofun
  exact ⟨w, g, hhanded, exchanges_of_run Auth.twoUsers_valid hrun hmem hdue hrenewable⟩

/-! ## The token of the setup -/

/-- A run that hands out a token of its own has stored none. -/
def DrawsOnly (db : Database) (run : Database × Result) : Prop :=
  ∀ userID tokens, run.2 = .initialized userID tokens →
    run.1.auth.refreshTokens = db.auth.refreshTokens ∧ db.auth.drawn ≤ tokens.refreshToken.serial

/-- The end of the setup, after the account is there. -/
theorem drawsOnly_setup (cfg : Config) (db : Database) (email password firstName lastName : GoString) :
    DrawsOnly db (machine.run (setupInitialize cfg email password firstName lastName) db) := by
  have hcount : db.exec .countAllUsers = (db, db.auth.users.entries.length) := rfl
  have hsalt : db.exec (.auth .salt) =
      ({ db with auth := { db.auth with drawn := db.auth.drawn + 1 } }, db.auth.drawn) := rfl
  unfold setupInitialize
  rw [run_send, hcount]
  dsimp only
  split_ifs
  · exact nofun
  split
  · exact nofun
  unfold hashPassword
  rw [Prog.bind_assoc, run_send, hsalt]
  dsimp only
  split
  · exact nofun
  rw [Prog.pure_eq, Prog.ret_bind]
  dsimp only
  rw [run_send]
  dsimp only [Database.exec]
  unfold storeUser
  rw [Prog.bind_assoc, run_send]
  rcases createUser_cases { db with auth := { db.auth with drawn := db.auth.drawn + 1 } } _ with
    ⟨-, hexec⟩ | ⟨-, hexec⟩
  · rw [hexec]
    dsimp only
    rw [Prog.pure_eq, Prog.ret_bind]
    intro userID tokens htokens
    obtain ⟨rfl, rfl⟩ := Result.initialized.inj htokens
    exact ⟨rfl, Nat.le_succ _⟩
  · rw [hexec]
    exact nofun

/-- After the setup its token cannot be exchanged. -/
theorem not_exchanges_of_setup {cfg : Config} {db : Database} (hvalid : db.auth.Valid)
    {email password firstName lastName : GoString} {userID : Nat} {tokens : TokenPair}
    (hsetup : (machine.run (setupInitialize cfg email password firstName lastName) db).2 =
      .initialized userID tokens) :
    ¬Exchanges cfg (machine.run (setupInitialize cfg email password firstName lastName) db).1
      tokens := by
  obtain ⟨hrows, hdrawn⟩ := drawsOnly_setup cfg db email password firstName lastName _ _ hsetup
  rintro ⟨new, hnew, -⟩
  rw [run_exchange, Auth.run_refreshTokens_unknown] at hnew
  · exact nomatch Result.auth.inj hnew
  · intro id row hget heq
    rw [hrows] at hget
    have hlt := hvalid.drawn id row hget
    rw [heq] at hlt
    exact absurd hlt (Nat.not_lt.mpr hdrawn)

/-- A database without users. -/
def noAccounts : Database where
  auth := { Auth.twoUsers with users := .empty }
  configs := .empty
  identities := .empty
  states := .empty
  cooldowns := .empty

/-- The first user is created. -/
def firstSetup : Op :=
  .setupInitialize "root@x".toList "first-secret".toList [] []

/-- The token that the setup hands out cannot be exchanged, although it has just been handed out
and nothing has been removed. -/
theorem setup_token_lost :
    ∃ (w : SsoWorld) (g : Story) (tokens : TokenPair),
      Run ((ssoSystem signInConfig).Tracked ((ssoSystem signInConfig).record story))
        (fun _ _ => True) (World.initial noAccounts, Story.empty) (w, g) ∧
      (firstSetup, tokens) ∈ g.handed ∧ Due w.store g tokens ∧
      ¬Exchanges signInConfig w.store tokens := by
  obtain ⟨w, g, hsteps, htest⟩ := System.exists_of_trackedSteps? (ssoSystem signInConfig)
    ((ssoSystem signInConfig).record story) (fun _ _ => true)
    (World.initial noAccounts, Story.empty) (Label.alone 0 firstSetup 7)
    (fun s => s.2.handed = [(firstSetup, ⟨⟨1, "root@x".toList, Auth.accessTokenDuration⟩, ⟨1⟩⟩)] ∧
      s.2.removed = [] ∧ s.2.stored = [] ∧ s.1.store.auth.now ≤ Auth.refreshTokenDuration ∧
      (s.1.store.auth.users.get? 1).any User.isActive = true ∧
      (machine.run (bodyOf signInConfig (.auth (.refreshTokens ⟨1⟩))) s.1.store).2 =
        .auth (.error "invalid refresh token".toList))
    (by decide +kernel)
  obtain ⟨hhanded, hremoved, hstored, hnow, hactive, hlost⟩ := of_decide_eq_true htest
  refine ⟨w, g, ⟨⟨1, "root@x".toList, Auth.accessTokenDuration⟩, ⟨1⟩⟩,
    System.tracked_of_trackedSteps? (fun _ _ _ => trivial) hsteps, ?_, ⟨?_, ?_, ?_, ?_⟩, ?_⟩
  · rw [hhanded]
    exact List.mem_cons_self
  · exact (Option.any_eq_true _ _).mp hactive
  · rw [show g.stored = [] from hstored]
    exact nofun
  · exact fun _ => hnow
  · rw [show g.removed = [] from hremoved]
    exact nofun
  · rintro ⟨new, hnew, -⟩
    exact absurd (hlost.symm.trans hnew) (by simp)

end Sso
end Veilence
