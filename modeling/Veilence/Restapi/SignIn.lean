import Veilence.Auth.Tokens
import Veilence.Restapi.ClientAddress
import Veilence.Sso.Database

/-!
# Signing in and the list of sessions

{lit}`Login` and {lit}`CreateSessionForUser` give the client a pair of tokens and then create a
session with the remote address and the user agent of the request.  An error of the insertion is
logged only.  The address goes into a column of 45 characters as it is, with the brackets, the zone
and the port of a socket address, and the user agent is cut after 512 bytes, wherever a character
ends.

Main results:

- Theorem {lit}`listed_signIn_iff`: the sign-ins whose session the user can see and revoke.
- Theorem {lit}`signIn_unlisted`: sign-ins that give out tokens without a session.
-/

namespace Veilence
namespace Restapi

open Go Foundation Auth

/-! ## Sign-ins -/

/-- A byte of a header value that {lit}`net/http` accepts. -/
def isHeaderByte (c : Char) : Bool :=
  c = '\t' || byteIn 0x20 0x7E c || byteIn 0x80 0xFF c

/-- A sign-in: with a password, or by a provider for a user. -/
inductive SignIn where
  | withPassword (email password : GoString)
  | withProvider (userID : Nat) (provider : Sso.Provider)

/-- The operation of the auth service for a sign-in. -/
def SignIn.op (ipAddress userAgent : GoString) : SignIn → Auth.Op
  | .withPassword email password => .login email password ipAddress userAgent
  | .withProvider userID provider => .createSessionForUser userID provider.name ipAddress userAgent

/-- The session list of the user of an access token shows the refresh token. -/
def Listed (db : Auth.Database) (tokens : TokenPair) : Prop :=
  ∃ row ∈ (db.exec (.findSessionsByUserID tokens.accessToken.userID)).2,
    row.2.tokenHash = hashRefreshToken tokens.refreshToken

instance (db : Auth.Database) (tokens : TokenPair) : Decidable (Listed db tokens) :=
  inferInstanceAs (Decidable (∃ row ∈ _, _))

/-- No session has the hash. -/
def Unused (db : Auth.Database) (tokenHash : TokenHash) : Prop :=
  ∀ id s, db.sessions.get? id = some s → s.tokenHash ≠ tokenHash

/-- The columns of a session take the address and the cut user agent. -/
def Storable (ipAddress userAgent : GoString) : Prop :=
  fitsColumn 45 ipAddress = true ∧ utf8Valid (userAgent.take 512) = true

instance (ipAddress userAgent : GoString) : Decidable (Storable ipAddress userAgent) :=
  inferInstanceAs (Decidable (_ ∧ _))

/-! ## Columns -/

theorem runeCountAfter_le (skip : Nat) (s : GoString) : runeCountAfter skip s ≤ s.length := by
  induction s generalizing skip with
  | nil => simp [runeCountAfter]
  | cons c rest ih =>
      cases skip with
      | zero =>
          have hle := ih (runeWidth (c :: rest) - 1)
          simp only [runeCountAfter, List.length_cons]
          omega
      | succ skip =>
          have hle := ih skip
          simp only [runeCountAfter, List.length_cons]
          omega

/-- A header value holds no NUL. -/
theorem nul_notMem {s : GoString} (hs : s.all isHeaderByte = true) : '\x00' ∉ s := by
  intro hmem
  exact absurd (List.all_eq_true.mp hs _ hmem) (by decide)

/-- A cut header value has to be cut between two characters only. -/
theorem fitsColumn_take_iff {s : GoString} (hs : s.all isHeaderByte = true) (limit : Nat) :
    fitsColumn limit (s.take limit) = true ↔ utf8Valid (s.take limit) = true := by
  have hnul : '\x00' ∉ s.take limit := fun hmem => nul_notMem hs (List.mem_of_mem_take hmem)
  have hcount : runeCount (s.take limit) ≤ limit :=
    (runeCountAfter_le 0 _).trans (List.length_take_le _ _)
  simp [fitsColumn, hnul, hcount]

theorem fitsColumn_name (provider : Sso.Provider) : fitsColumn 20 provider.name = true := by
  cases provider <;> decide +kernel

example : fitsColumn 20 "google-workspace".toList = true := by
  decide +kernel

/-! ## The steps of a sign-in -/

section Steps

variable {db : Auth.Database} {userID : Nat} {user : User} {tokens : TokenPair}

/-- The loop succeeds and adds no session. -/
theorem exists_run_deleteOldestSessions (db : Auth.Database) (userID count : Nat) :
    ∃ sessions : Ledger Session,
      machine.run (deleteOldestSessions userID count) db =
        ({ db with sessions := sessions }, true) ∧
        ∀ id s, sessions.get? id = some s → db.sessions.get? id = some s := by
  induction count generalizing db with
  | zero => exact ⟨db.sessions, rfl, fun _ _ hget => hget⟩
  | succ count ih =>
      unfold deleteOldestSessions
      split_ifs
      · rw [run_send]
        dsimp only [Auth.Database.exec]
        split
        · case _ id s _ =>
          obtain ⟨sessions, hrun, hkept⟩ := ih { db with sessions := db.sessions.remove id }
          refine ⟨sessions, hrun, fun id' s' hget => ?_⟩
          have hleft := hkept id' s' hget
          rw [Ledger.get?_remove] at hleft
          split_ifs at hleft
          exact hleft
        · exact ih db
      · exact ⟨db.sessions, rfl, fun _ _ hget => hget⟩

/-- A session that is created is new, and it is stored just if its columns take it. -/
theorem exists_run_createSession {tokenHash : TokenHash} (hnew : Unused db tokenHash)
    (userID : Nat) (ipAddress userAgent authProvider : GoString) :
    ∃ (sessions : Ledger Session) (session : Session),
      (∀ id s, sessions.get? id = some s → db.sessions.get? id = some s) ∧
        session.userID = userID ∧ session.tokenHash = tokenHash ∧ db.now < session.expiresAt ∧
        (machine.run (createSession userID tokenHash ipAddress userAgent authProvider) db).1 =
          if fitsColumn 45 ipAddress && fitsColumn 512 (userAgent.take 512) &&
              fitsColumn 20 authProvider then
            { db with sessions := sessions.add session }
          else { db with sessions := sessions } := by
  obtain ⟨sessions, hrun, hkept⟩ := exists_run_deleteOldestSessions db userID
    (db.exec (.countSessionsByUserID userID)).2
  have hfree : (rowsWhere sessions fun s => s.tokenHash = tokenHash).isEmpty = true := by
    rw [isEmpty_rowsWhere]
    intro id s hget
    exact decide_eq_false (hnew id s (hkept id s hget))
  have hlive : db.now < db.now + sessionDuration := by
    unfold sessionDuration
    omega
  refine ⟨sessions,
    { userID := userID
      tokenHash := tokenHash
      ipAddress := ipAddress
      userAgent := userAgent.take 512
      authProvider := authProvider
      createdAt := db.now
      lastActive := db.now
      expiresAt := db.now + sessionDuration }, hkept, rfl, rfl, hlive, ?_⟩
  · unfold createSession
    rw [run_send]
    dsimp only
    rw [show (db.exec (.countSessionsByUserID userID)).1 = db from rfl,
      Machine.run_bind_of hrun]
    dsimp only
    rw [run_timeNow, run_timeNow, run_send]
    simp only [Auth.Database.exec, Session.fits, hfree, Bool.and_true]
    split_ifs
    · rfl
    · rfl

/-- A session is listed for the user as long as it has not expired. -/
theorem listed_iff : Listed db tokens ↔ ∃ id s, db.sessions.get? id = some s ∧
    s.userID = tokens.accessToken.userID ∧ db.now < s.expiresAt ∧
      s.tokenHash = hashRefreshToken tokens.refreshToken := by
  unfold Listed
  simp only [Auth.Database.exec, List.mem_insertionSort]
  constructor
  · rintro ⟨⟨id, s⟩, hmem, hhash⟩
    rw [mem_rowsWhere, decide_eq_true_iff] at hmem
    exact ⟨id, s, hmem.1, hmem.2.1, hmem.2.2, hhash⟩
  · rintro ⟨id, s, hget, huser, hlive, hhash⟩
    refine ⟨(id, s), ?_, hhash⟩
    rw [mem_rowsWhere, decide_eq_true_iff]
    exact ⟨hget, huser, hlive⟩

/-- The session of a new token is listed just if its columns take it. -/
theorem listed_createSession_iff (hnew : Unused db (hashRefreshToken tokens.refreshToken))
    (ipAddress userAgent authProvider : GoString) :
    Listed (machine.run (createSession tokens.accessToken.userID
        (hashRefreshToken tokens.refreshToken) ipAddress userAgent authProvider) db).1 tokens ↔
      (fitsColumn 45 ipAddress && fitsColumn 512 (userAgent.take 512) &&
        fitsColumn 20 authProvider) = true := by
  obtain ⟨sessions, session, hkept, huser, hhash, hlive, hrun⟩ :=
    exists_run_createSession hnew tokens.accessToken.userID ipAddress userAgent authProvider
  rw [hrun, listed_iff]
  split_ifs with hfits
  · refine iff_of_true ?_ hfits
    exact ⟨sessions.next, session, by rw [Ledger.get?_add, if_pos rfl], huser, hlive, hhash⟩
  · refine iff_of_false ?_ hfits
    rintro ⟨id, s, hget, -, -, hs⟩
    exact hnew id s (hkept id s hget) hs

/-- New tokens are those of the user, with the token that is drawn next. -/
theorem of_generateTokenPair {userID : Nat} {user : User} {db' : Auth.Database}
    (hrun : machine.run (generateTokenPair userID user) db = (db', .ok tokens)) :
    tokens.accessToken.userID = userID ∧ tokens.refreshToken = ⟨db.drawn⟩ ∧
      db'.sessions = db.sessions := by
  unfold generateTokenPair at hrun
  rw [run_send] at hrun
  simp only [Auth.Database.exec] at hrun
  rw [run_send] at hrun
  simp only [Auth.Database.exec] at hrun
  rw [run_timeNow, run_send] at hrun
  simp only [Auth.Database.exec] at hrun
  split_ifs at hrun
  · obtain ⟨rfl, htokens⟩ := Prod.mk.inj hrun
    obtain rfl := Except.ok.inj htokens
    exact ⟨rfl, rfl, rfl⟩
  · have herror := (Prod.mk.inj hrun).2
    cases herror

/-- The session of a pair of tokens after the end of a sign-in. -/
theorem listed_signedIn_iff {userID : Nat} {user : User} {db' : Auth.Database}
    (hnew : Unused db (hashRefreshToken ⟨db.drawn⟩))
    (hrun : machine.run (generateTokenPair userID user) db = (db', .ok tokens))
    (ipAddress userAgent authProvider : GoString) :
    Listed (machine.run (touchLogin userID user) (machine.run (createSession userID
        (hashRefreshToken tokens.refreshToken) ipAddress userAgent authProvider) db').1).1
        tokens ↔
      (fitsColumn 45 ipAddress && fitsColumn 512 (userAgent.take 512) &&
        fitsColumn 20 authProvider) = true := by
  obtain ⟨rfl, htoken, hsessions⟩ := of_generateTokenPair hrun
  have hnew' : Unused db' (hashRefreshToken tokens.refreshToken) := by
    rw [htoken]
    intro id s hget
    rw [hsessions] at hget
    exact hnew id s hget
  rw [← listed_createSession_iff hnew' ipAddress userAgent authProvider]
  exact Iff.rfl

end Steps

/-! ## Every sign-in -/

theorem listed_createSessionForUser_iff {db : Auth.Database}
    (hnew : Unused db (hashRefreshToken ⟨db.drawn⟩)) {userID : Nat}
    {provider ipAddress userAgent : GoString} {tokens : TokenPair}
    (htokens : (machine.run (createSessionForUser userID provider ipAddress userAgent) db).2.pair =
      some tokens) :
    Listed (machine.run (createSessionForUser userID provider ipAddress userAgent) db).1 tokens ↔
      (fitsColumn 45 ipAddress && fitsColumn 512 (userAgent.take 512) &&
        fitsColumn 20 provider) = true := by
  have hexec : db.exec (.findUserByID userID) = (db, db.users.get? userID) := rfl
  unfold createSessionForUser at htokens ⊢
  rw [run_send, hexec] at htokens ⊢
  cases huser : db.users.get? userID with
  | none =>
      rw [huser] at htokens
      exact absurd htokens.symm (Option.some_ne_none tokens)
  | some user =>
      rw [huser] at htokens
      dsimp only at htokens ⊢
      rcases hrun : machine.run (generateTokenPair userID user) db with ⟨db', result⟩
      rw [Machine.run_bind_of hrun] at htokens ⊢
      cases result with
      | error message => exact absurd htokens.symm (Option.some_ne_none tokens)
      | ok pair =>
          dsimp only at htokens ⊢
          rw [Machine.run_bind, Machine.run_bind] at htokens ⊢
          obtain rfl : pair = tokens := Option.some.inj htokens
          exact listed_signedIn_iff hnew hrun ipAddress userAgent provider

theorem listed_login_iff {cfg : Config} {db : Auth.Database}
    (hnew : Unused db (hashRefreshToken ⟨db.drawn⟩)) {email password : GoString}
    {ipAddress userAgent : GoString} {tokens : TokenPair}
    (htokens : (machine.run (login cfg email password ipAddress userAgent) db).2.pair =
      some tokens) :
    Listed (machine.run (login cfg email password ipAddress userAgent) db).1 tokens ↔
      (fitsColumn 45 ipAddress && fitsColumn 512 (userAgent.take 512) &&
        fitsColumn 20 "local".toList) = true := by
  unfold login at htokens ⊢
  rw [run_send] at htokens ⊢
  simp only [Auth.Database.exec] at htokens ⊢
  split at htokens
  case h_2 => exact absurd htokens.symm (Option.some_ne_none tokens)
  case h_1 userID user hfound =>
    split_ifs at htokens ⊢
    · exact absurd htokens.symm (Option.some_ne_none tokens)
    · exact absurd htokens.symm (Option.some_ne_none tokens)
    · exact absurd htokens.symm (Option.some_ne_none tokens)
    · rcases hrun : machine.run (generateTokenPair userID user) db with ⟨db', result⟩
      rw [Machine.run_bind_of hrun] at htokens ⊢
      cases result with
      | error message => exact absurd htokens.symm (Option.some_ne_none tokens)
      | ok pair =>
          dsimp only at htokens ⊢
          rw [Machine.run_bind, Machine.run_bind] at htokens ⊢
          obtain rfl : pair = tokens := Option.some.inj htokens
          exact listed_signedIn_iff hnew hrun ipAddress userAgent _

/-- A sign-in that gives out tokens has its session listed just if the columns take the address
and the cut user agent. -/
theorem listed_signIn_iff (cfg : Config) (db : Auth.Database) (way : SignIn)
    {ipAddress userAgent : GoString} (hagent : userAgent.all isHeaderByte = true)
    (hnew : Unused db (hashRefreshToken ⟨db.drawn⟩)) {tokens : TokenPair}
    (htokens : (machine.run (bodyOf cfg (way.op ipAddress userAgent)) db).2.pair = some tokens) :
    Listed (machine.run (bodyOf cfg (way.op ipAddress userAgent)) db).1 tokens ↔
      Storable ipAddress userAgent := by
  have hcut := fitsColumn_take_iff hagent 512
  cases way with
  | withPassword email password =>
      have hlocal : fitsColumn 20 "local".toList = true := by decide +kernel
      have hlisted := listed_login_iff hnew htokens
      rw [hlocal, Bool.and_true, Bool.and_eq_true] at hlisted
      rw [Storable, ← hcut]
      exact hlisted
  | withProvider userID provider =>
      have hlisted := listed_createSessionForUser_iff hnew htokens
      rw [fitsColumn_name, Bool.and_true, Bool.and_eq_true] at hlisted
      rw [Storable, ← hcut]
      exact hlisted

/-! ## Sign-ins of one user -/

/-- The address of an IPv6 client at the listener, with eight long groups. -/
def longAddress : RemoteAddr :=
  .ipv6Port "2001:4860:4860:1234:5678:9abc:def0:8888".toList [] "54321".toList

/-- A user agent of 513 bytes whose last character has two of them. -/
def longAgent : GoString :=
  List.replicate 511 'a' ++ ['\xc3', '\xa9']

/-- A sign-in of the user with the right password. -/
def userSignIn : SignIn :=
  .withPassword "user@x".toList "secret-1".toList

/-- The tokens that the sign-in gives out. -/
def userTokens : TokenPair :=
  ⟨⟨1, "user@x".toList, accessTokenDuration⟩, ⟨0⟩⟩

theorem listed_signIn_iff_short :
    Listed (machine.run (bodyOf plainConfig
        (userSignIn.op "192.0.2.1:54321".toList "curl".toList)) twoUsers).1 userTokens ↔
      Storable "192.0.2.1:54321".toList "curl".toList :=
  listed_signIn_iff plainConfig twoUsers userSignIn (by decide +kernel)
    (fun id s hget => by simp [twoUsers, Ledger.get?_empty] at hget) (by decide +kernel)

/-- A long address, and a user agent that is cut within a character: the user gets tokens, and the
list shows no session. -/
theorem signIn_unlisted :
    longAddress.Valid ∧ longAgent.all isHeaderByte = true ∧
      (machine.run (bodyOf plainConfig (userSignIn.op longAddress.text "curl".toList))
        twoUsers).2.pair = some userTokens ∧
      ¬Listed (machine.run (bodyOf plainConfig (userSignIn.op longAddress.text "curl".toList))
        twoUsers).1 userTokens ∧
      (machine.run (bodyOf plainConfig (userSignIn.op "192.0.2.1:54321".toList longAgent))
        twoUsers).2.pair = some userTokens ∧
      ¬Listed (machine.run (bodyOf plainConfig (userSignIn.op "192.0.2.1:54321".toList longAgent))
        twoUsers).1 userTokens := by
  have hvalid : longAddress.Valid := ⟨by decide +kernel, by decide +kernel⟩
  have hagent : longAgent.all isHeaderByte = true := by decide +kernel
  refine ⟨hvalid, hagent, ?_, ?_, ?_, ?_⟩
  · decide +kernel
  · decide +kernel
  · decide +kernel
  · decide +kernel

end Restapi
end Veilence
