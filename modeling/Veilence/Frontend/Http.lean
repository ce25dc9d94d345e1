import Veilence.Auth.Rotation
import Veilence.Auth.Tokens
import Veilence.Foundation.Transition

/-!
# Tabs that share their tokens

The tabs of a browser share the token storage.  A request that is not authorized refreshes the
tokens, once for all waiting requests of its tab, and clears the storage if that fails; the backend
rotates refresh tokens.

Main results:

- Theorem {lit}`Inv.step`: what one step preserves of the tokens that are stored, sent and issued.
- Theorem {lit}`spared_of_unreplaced`: in every run in which the storage is cleared only while it
  holds no other refresh token than the one that was sent, no pair is removed that was stored after
  that one was read, and the session stays signed in.
-/

namespace Veilence
namespace Frontend

open Go Foundation

open Auth (AccessToken Token TokenPair)

/-! ## The storage -/

/-- What {lit}`localStorage` holds for all tabs. -/
structure Storage where
  accessToken : Option AccessToken
  refreshToken : Option Token
  workspaceID : Option GoString
deriving DecidableEq

namespace Storage

/-- {lit}`storeTokens`. -/
def storeTokens (s : Storage) (tokens : TokenPair) : Storage :=
  { s with accessToken := some tokens.accessToken, refreshToken := some tokens.refreshToken }

/-- {lit}`clearTokens`. -/
def clearTokens (s : Storage) : Storage :=
  { s with accessToken := none, refreshToken := none }

/-- {lit}`clearWorkspaceId`. -/
def clearWorkspaceID (s : Storage) : Storage :=
  { s with workspaceID := none }

end Storage

/-! ## Tabs, refreshes and calls -/

/-- The variables of the module in a tab; a promise is named by the number of its refresh. -/
structure Tab where
  isRefreshing : Bool
  refreshPromise : Option Nat

/-- How far a refresh has come: the request has not been answered, the tab has not seen what was
answered, or the promise is resolved. -/
inductive Progress where
  | requested
  | answered (tokens : Option TokenPair)
  | resolved (refreshed : Bool)

/-- A run of the function in {lit}`attemptTokenRefresh`, with the token that it has read. -/
structure Refresh where
  tab : Nat
  refreshToken : Option Token
  progress : Progress

/-- How far a call has come: its first request is under way, it waits for a refresh, or its second
request is under way. -/
inductive Stage where
  | requested
  | awaiting (refresh : Nat)
  | retried

/-- A call of {lit}`fetchApi`, with the token in its header. -/
structure FetchCall where
  tab : Nat
  skipAuth : Bool
  authorization : Option AccessToken
  stage : Stage

/-- What has happened to the storage: a refresh has read its token or stored a pair, or a call has
cleared the storage because a refresh has failed. -/
inductive Event where
  | read (refresh : Nat)
  | stored (refresh tab : Nat)
  | cleared (refresh tab : Nat)
deriving DecidableEq

/-- The storage, the tabs, their refreshes and calls, the database of the backend, and what has
happened, the latest first. -/
structure Browser where
  storage : Storage
  tabs : Nat → Tab
  refreshes : Nat → Option Refresh
  calls : Nat → Option FetchCall
  db : Auth.Database
  log : List Event

namespace Browser

/-- No call has been made. -/
def initial (storage : Storage) (db : Auth.Database) : Browser where
  storage := storage
  tabs _ := ⟨false, none⟩
  refreshes _ := none
  calls _ := none
  db := db
  log := []

variable (b : Browser)

/-- {lit}`fetchApi` up to its first request. -/
def start (i tab : Nat) (skipAuth : Bool) : Browser :=
  { b with
    calls := Function.update b.calls i (some
      { tab := tab
        skipAuth := skipAuth
        authorization := if skipAuth then none else b.storage.accessToken
        stage := .requested }) }

/-- A call has come to its end, or to another stage. -/
def setCall (i : Nat) (call : Option FetchCall) : Browser :=
  { b with calls := Function.update b.calls i call }

/-- A refresh begins and reads its token.  Without one its promise is resolved before the variable
is set to it. -/
def beginRefresh (r tab : Nat) : Browser :=
  match b.storage.refreshToken with
  | none =>
      { b with
        tabs := Function.update b.tabs tab ⟨false, some r⟩
        refreshes := Function.update b.refreshes r (some ⟨tab, none, .resolved false⟩)
        log := .read r :: b.log }
  | some token =>
      { b with
        tabs := Function.update b.tabs tab ⟨true, some r⟩
        refreshes := Function.update b.refreshes r (some ⟨tab, some token, .requested⟩)
        log := .read r :: b.log }

/-- {lit}`attemptTokenRefresh`, with the promise that it returns. -/
def attemptTokenRefresh (r tab : Nat) : Browser × Nat :=
  match b.tabs tab with
  | ⟨true, some promise⟩ => (b, promise)
  | _ => (b.beginRefresh r tab, r)

/-- The answer to the first request of a call.  A call that is not authorized waits for a
refresh. -/
def respond (i : Nat) (call : FetchCall) (status r : Nat) : Browser :=
  if status = 401 ∧ call.skipAuth = false then
    let (b', promise) := b.attemptTokenRefresh r call.tab
    b'.setCall i (some { call with stage := .awaiting promise })
  else b.setCall i none

/-- A refresh has been answered. -/
def answer (r : Nat) (refresh : Refresh) (tokens : Option TokenPair) (db : Auth.Database) :
    Browser :=
  { b with
    refreshes := Function.update b.refreshes r (some { refresh with progress := .answered tokens })
    db := db }

/-- A tab sees the answer to its refresh: it stores a pair, resets the variables and resolves the
promise. -/
def settle (r : Nat) (refresh : Refresh) : Option TokenPair → Browser
  | some tokens =>
      { b with
        storage := b.storage.storeTokens tokens
        tabs := Function.update b.tabs refresh.tab ⟨false, none⟩
        refreshes := Function.update b.refreshes r
          (some { refresh with progress := .resolved true })
        log := .stored r refresh.tab :: b.log }
  | none =>
      { b with
        tabs := Function.update b.tabs refresh.tab ⟨false, none⟩
        refreshes := Function.update b.refreshes r
          (some { refresh with progress := .resolved false }) }

/-- A call goes on after a refresh: it sends its request again, or clears the storage. -/
def resume (i : Nat) (call : FetchCall) (r : Nat) : Bool → Browser
  | true =>
      b.setCall i (some
        { call with
          authorization := b.storage.accessToken.or call.authorization
          stage := .retried })
  | false =>
      { b with
        storage := b.storage.clearTokens.clearWorkspaceID
        calls := Function.update b.calls i none
        log := .cleared r call.tab :: b.log }

end Browser

/-! ## The steps -/

/-- What a step is about. -/
inductive Label where
  | start (i tab : Nat) (skipAuth : Bool)
  | respond (i status r : Nat)
  | exchange (r : Nat)
  | fail (r : Nat)
  | settle (r : Nat)
  | resume (i : Nat)
  | finish (i : Nat)
  | env

/-- The pair in what the backend returns. -/
def pairOf : Auth.Result → Option TokenPair
  | .tokens tokens => some tokens
  | _ => none

/-- Any number of calls in any number of tabs.  The backend answers one refresh after another, its
calls may fail, and a request or its answer may be lost; requests are answered with any status, and
the database changes in other ways as well. -/
inductive Step (cfg : Auth.Config) : Browser → Label → Browser → Prop where
  | start {b : Browser} {i tab : Nat} {skipAuth : Bool} (hfree : b.calls i = none) :
      Step cfg b (.start i tab skipAuth) (b.start i tab skipAuth)
  | respond {b : Browser} {i status r : Nat} {call : FetchCall} (hcall : b.calls i = some call)
      (hstage : call.stage = .requested) (hfree : b.refreshes r = none) :
      Step cfg b (.respond i status r) (b.respond i call status r)
  | exchange {b : Browser} {r : Nat} {refresh : Refresh} {token : Token} {result : Auth.Result}
      {db : Auth.Database} (hrefresh : b.refreshes r = some refresh)
      (hprogress : refresh.progress = .requested) (htoken : refresh.refreshToken = some token)
      (hsteps : Auth.machine.Steps (Auth.refreshTokens cfg token) b.db (.ret result) db) :
      Step cfg b (.exchange r) (b.answer r refresh (pairOf result) db)
  | fail {b : Browser} {r : Nat} {refresh : Refresh} (hrefresh : b.refreshes r = some refresh)
      (hprogress : ∀ refreshed, refresh.progress ≠ .resolved refreshed) :
      Step cfg b (.fail r) (b.answer r refresh none b.db)
  | settle {b : Browser} {r : Nat} {refresh : Refresh} {tokens : Option TokenPair}
      (hrefresh : b.refreshes r = some refresh) (hprogress : refresh.progress = .answered tokens) :
      Step cfg b (.settle r) (b.settle r refresh tokens)
  | resume {b : Browser} {i r : Nat} {call : FetchCall} {refresh : Refresh} {refreshed : Bool}
      (hcall : b.calls i = some call) (hstage : call.stage = .awaiting r)
      (hrefresh : b.refreshes r = some refresh)
      (hprogress : refresh.progress = .resolved refreshed) :
      Step cfg b (.resume i) (b.resume i call r refreshed)
  | finish {b : Browser} {i : Nat} {call : FetchCall} (hcall : b.calls i = some call)
      (hstage : call.stage = .retried) : Step cfg b (.finish i) (b.setCall i none)
  | env {b : Browser} {db : Auth.Database} (hdrawn : b.db.drawn ≤ db.drawn) :
      Step cfg b .env { b with db := db }

/-! ## Pairs that are removed -/

/-- The tab that has stored the pair which the storage holds, if that was after a refresh has read
its token. -/
def storedSince (r : Nat) : List Event → Option Nat
  | [] => none
  | .read r' :: log => if r' = r then none else storedSince r log
  | .stored _ tab :: _ => some tab
  | .cleared _ _ :: _ => none

/-- A call clears the storage only if no tab has stored the pair in it since the refresh that has
failed has read its token. -/
def Spared : List Event → Prop
  | [] => True
  | .cleared r _ :: log => storedSince r log = none ∧ Spared log
  | _ :: log => Spared log

/-- After a pair has been stored the storage holds a refresh token, unless it has been cleared
because of a refresh that has read its token since. -/
def StaysSignedIn (b : Browser) : Prop :=
  ∀ later r tab earlier, b.log = later ++ .stored r tab :: earlier →
    (∀ r' tab', .cleared r' tab' ∈ later → .read r' ∉ later) →
    b.storage.refreshToken ≠ none

/-- The storage is cleared only while it holds no refresh token other than the one that the refresh
has sent. -/
def unreplaced (b : Browser) : Label → Bool
  | .resume i =>
      match b.calls i with
      | some ⟨_, _, _, .awaiting r⟩ =>
          match b.refreshes r with
          | some ⟨_, token, .resolved false⟩ =>
              b.storage.refreshToken = none || b.storage.refreshToken = token
          | _ => true
      | _ => true
  | _ => true

/-! ## What an exchange issues -/

section Issuing

variable {cfg : Auth.Config} {db : Auth.Database} {n : Nat}

/-- The tokens that are issued from a number of draws on. -/
def Issued (n : Nat) (db : Auth.Database) (tokens : Option TokenPair) : Prop :=
  ∀ pair, tokens = some pair → n ≤ pair.refreshToken.serial ∧ pair.refreshToken.serial < db.drawn

/-- A part of a call that issues tokens from a number of draws on. -/
def Issues (n : Nat) (p : Auth.Body Auth.Result) (db : Auth.Database) : Prop :=
  Auth.machine.Always (fun db => n ≤ db.drawn) (fun db result => Issued n db (pairOf result)) p db

/-- Draws are never taken back. -/
theorem always_drawn {m : Nat} (hm : n ≤ m) {α : Type} (p : Auth.Body α) (hdb : m ≤ db.drawn) :
    Auth.machine.Always (fun db => n ≤ db.drawn) (fun db _ => m ≤ db.drawn) p db := by
  induction p generalizing db with
  | ret a => exact ⟨hm.trans hdb, hdb⟩
  | cmd c k ih =>
      refine ⟨hm.trans hdb, ih _ (hdb.trans (Auth.drawn_le_exec db c)), ?_⟩
      intro _
      exact ih _ hdb

/-- A part that returns an error. -/
theorem issues_error (hdb : n ≤ db.drawn) (message : GoString) :
    Issues n (.ret (.error message)) db :=
  ⟨hdb, nofun⟩

/-- A command, with what follows it or its failure. -/
theorem always_call {α : Type} {post : Auth.Database → α → Prop} {c : Auth.Call}
    {f : Option (Auth.Answer c) → Auth.Body α} {m : Nat} (hn : n ≤ m) (hdb : m ≤ db.drawn)
    (hf : ∀ answer db', m ≤ db'.drawn →
      Auth.machine.Always (fun db => n ≤ db.drawn) post (f answer) db') :
    Auth.machine.Always (fun db => n ≤ db.drawn) post (Auth.send c >>= f) db := by
  refine ⟨hn.trans hdb, hf _ _ (hdb.trans (Auth.drawn_le_exec db c)), ?_⟩
  intro _
  exact hf _ _ hdb

/-- The draw of a token, with what follows it or its failure. -/
theorem always_draw {α : Type} {post : Auth.Database → α → Prop} {f : Option Token → Auth.Body α}
    (hdb : n ≤ db.drawn)
    (hnone : Auth.machine.Always (fun db => n ≤ db.drawn) post (f none) db)
    (hsome : Auth.machine.Always (fun db => n ≤ db.drawn) post (f (some ⟨db.drawn⟩))
      { db with drawn := db.drawn + 1 }) :
    Auth.machine.Always (fun db => n ≤ db.drawn) post (Auth.send .generateRefreshToken >>= f) db :=
  ⟨hdb, hsome, fun _ => hnone⟩

/-- A part whose result does not matter, with what follows it. -/
theorem always_bind {α β : Type} {post : Auth.Database → α → Prop} {p : Auth.Body β}
    {f : β → Auth.Body α} {m : Nat} (hn : n ≤ m) (hdb : m ≤ db.drawn)
    (hf : ∀ a db', m ≤ db'.drawn →
      Auth.machine.Always (fun db => n ≤ db.drawn) post (f a) db') :
    Auth.machine.Always (fun db => n ≤ db.drawn) post (p >>= f) db := by
  apply Machine.Always.bind
  refine (always_drawn hn p hdb).mono ?_
  intro db' a hdb'
  exact hf a db' hdb'

/-- A new pair has a new refresh token. -/
theorem always_generateTokenPair (userID : Nat) (user : Auth.User) (hdb : n ≤ db.drawn) :
    Auth.machine.Always (fun db => n ≤ db.drawn)
      (fun db result => n ≤ db.drawn ∧ Issued n db result.toOption)
      (Auth.generateTokenPair userID user) db := by
  have herror : ∀ (db' : Auth.Database) (message : GoString), n ≤ db'.drawn →
      Auth.machine.Always (fun db => n ≤ db.drawn)
        (fun db result => n ≤ db.drawn ∧ Issued n db result.toOption)
        (.ret (.error message) : Auth.Body (Except GoString TokenPair)) db' := by
    intro db' message hdb'
    exact ⟨hdb', hdb', nofun⟩
  unfold Auth.generateTokenPair
  refine always_call le_rfl hdb fun answer db hdb => ?_
  cases answer with
  | none => exact herror db _ hdb
  | some accessToken =>
      have hdrawn : n ≤ db.drawn + 1 := hdb.trans (Nat.le_succ _)
      refine always_draw hdb (herror db _ hdb) ?_
      dsimp only
      refine always_bind hdrawn le_rfl fun now db' hdb' => ?_
      refine always_call hdrawn hdb' fun answer db' hdb' => ?_
      split
      · refine ⟨hdrawn.trans hdb', hdrawn.trans hdb', ?_⟩
        rintro pair ⟨⟩
        exact ⟨hdb, hdb'⟩
      · exact herror db' _ (hdrawn.trans hdb')

theorem issues_rotate (tokenHash : Auth.TokenHash) (storedID userID : Nat) (user : Auth.User)
    (hdb : n ≤ db.drawn) : Issues n (Auth.rotate tokenHash storedID userID user) db := by
  refine always_call le_rfl hdb fun _ db hdb => ?_
  refine always_bind le_rfl hdb fun _ db hdb => ?_
  refine always_call le_rfl hdb fun _ db hdb => ?_
  apply Machine.Always.bind
  refine (always_generateTokenPair userID user hdb).mono ?_
  rintro db' (message | tokens) ⟨hdb', hissued⟩
  · exact issues_error hdb' _
  · obtain ⟨hnew, hdrawn⟩ := hissued tokens rfl
    apply Machine.Always.bind
    refine (always_drawn (hnew.trans (Nat.le_succ _)) _ hdrawn).mono ?_
    intro db'' _ hdrawn'
    refine ⟨hnew.trans (Nat.le_of_succ_le hdrawn'), ?_⟩
    rintro pair ⟨⟩
    exact ⟨hnew, hdrawn'⟩

/-- A refresh token that is issued has not been issued before. -/
theorem issues_refreshTokens (refreshToken : Token) (hdb : n ≤ db.drawn) :
    Issues n (Auth.refreshTokens cfg refreshToken) db := by
  refine always_call le_rfl hdb fun answer db hdb => ?_
  rcases answer with _ | _ | ⟨storedID, stored⟩
  · exact issues_error hdb _
  · exact issues_error hdb _
  · refine always_bind le_rfl hdb fun now db hdb => ?_
    split_ifs with hexpired
    · exact always_call le_rfl hdb fun _ _ hdb => issues_error hdb _
    · refine always_call le_rfl hdb fun answer db hdb => ?_
      rcases answer with _ | _ | user
      · exact issues_error hdb _
      · exact issues_error hdb _
      · dsimp only
        split_ifs with hinactive hunverified
        · exact issues_error hdb _
        · exact always_call le_rfl hdb fun _ _ hdb => issues_error hdb _
        · exact issues_rotate _ _ _ _ hdb

/-- What an exchange issues is new. -/
theorem issued_of_steps {token : Token} {result : Auth.Result} {db' : Auth.Database}
    (hsteps : Auth.machine.Steps (Auth.refreshTokens cfg token) db (.ret result) db') :
    db.drawn ≤ db'.drawn ∧ Issued db.drawn db' (pairOf result) :=
  (issues_refreshTokens token le_rfl).of_steps hsteps

end Issuing

/-! ## What holds in every state -/

/-- A token is in the storage or has been read by a refresh. -/
def Known (b : Browser) (token : Token) : Prop :=
  b.storage.refreshToken = some token ∨
    ∃ r refresh, b.refreshes r = some refresh ∧ refresh.refreshToken = some token

/-- A token has been sent to a refresh that has not stored it. -/
def InFlight (b : Browser) (r : Nat) (token : Token) : Prop :=
  ∃ refresh tokens, b.refreshes r = some refresh ∧ refresh.progress = .answered (some tokens) ∧
    tokens.refreshToken = token

/-- The storage has not been cleared since a pair has been stored. -/
def lastStored : List Event → Bool
  | [] => false
  | .read _ :: log => lastStored log
  | .stored _ _ :: _ => true
  | .cleared _ _ :: _ => false

/-- What holds in every state: tokens that are known or in flight have been issued, those in flight
are new and different, and a pair that has been stored since a refresh has read its token is another
one. -/
structure Inv (b : Browser) : Prop where
  known : ∀ token, Known b token → token.serial < b.db.drawn
  inFlight : ∀ r token, InFlight b r token → token.serial < b.db.drawn ∧ ¬Known b token
  alone : ∀ r r' token, InFlight b r token → InFlight b r' token → r = r'
  held : ∀ r refresh tab, b.refreshes r = some refresh → storedSince r b.log = some tab →
    ∃ token, b.storage.refreshToken = some token ∧ refresh.refreshToken ≠ some token
  spared : Spared b.log
  signedIn : lastStored b.log = true → b.storage.refreshToken ≠ none

section Steps

variable {b : Browser} {r : Nat} {refresh : Refresh}

/-- The entries after one has been set. -/
theorem update_eq_some {V : Type} {f : Nat → Option V} {j : Nat} {x y : V}
    (hget : Function.update f r (some x) j = some y) : (j = r ∧ y = x) ∨ (j ≠ r ∧ f j = some y) := by
  by_cases hj : j = r
  · subst hj
    rw [Function.update_self] at hget
    exact .inl ⟨rfl, (Option.some.inj hget).symm⟩
  · rw [Function.update_of_ne hj] at hget
    exact .inr ⟨hj, hget⟩

/-- Calls do not matter. -/
theorem Inv.setCalls (hinv : Inv b) (calls : Nat → Option FetchCall) :
    Inv { b with calls := calls } :=
  ⟨hinv.known, hinv.inFlight, hinv.alone, hinv.held, hinv.spared, hinv.signedIn⟩

/-- A refresh reads its token. -/
theorem Inv.read (hinv : Inv b) (tabs : Nat → Tab) (r : Nat)
    (htoken : refresh.refreshToken = b.storage.refreshToken)
    (hprogress : ∀ tokens, refresh.progress ≠ .answered tokens) :
    Inv { b with
      tabs := tabs
      refreshes := Function.update b.refreshes r (some refresh)
      log := .read r :: b.log } := by
  have hknown : ∀ token, Known { b with
      tabs := tabs
      refreshes := Function.update b.refreshes r (some refresh)
      log := .read r :: b.log } token → Known b token := by
    rintro token (hstored | ⟨j, x, hget, hx⟩)
    · exact .inl hstored
    · rcases update_eq_some hget with ⟨-, rfl⟩ | ⟨-, hget⟩
      · exact .inl (htoken ▸ hx)
      · exact .inr ⟨j, x, hget, hx⟩
  have hinFlight : ∀ j token, InFlight { b with
      tabs := tabs
      refreshes := Function.update b.refreshes r (some refresh)
      log := .read r :: b.log } j token → InFlight b j token := by
    rintro j token ⟨x, tokens, hget, hx, htokens⟩
    rcases update_eq_some hget with ⟨-, rfl⟩ | ⟨-, hget⟩
    · exact absurd hx (hprogress _)
    · exact ⟨x, tokens, hget, hx, htokens⟩
  refine ⟨?_, ?_, ?_, ?_, hinv.spared, hinv.signedIn⟩
  · exact fun token h => hinv.known token (hknown token h)
  · intro j token h
    obtain ⟨hlt, hnew⟩ := hinv.inFlight j token (hinFlight j token h)
    exact ⟨hlt, mt (hknown token) hnew⟩
  · exact fun j j' token h h' => hinv.alone j j' token (hinFlight j token h) (hinFlight j' token h')
  · intro j x tab hget hsince
    simp only [storedSince] at hsince
    split_ifs at hsince with hj
    rcases update_eq_some hget with ⟨rfl, -⟩ | ⟨-, hget⟩
    · exact absurd rfl hj
    · exact hinv.held j x tab hget hsince

/-- A refresh is answered, with new tokens if with any. -/
theorem Inv.answer (hinv : Inv b) (hrefresh : b.refreshes r = some refresh)
    {tokens : Option TokenPair} {db : Auth.Database} (hdrawn : b.db.drawn ≤ db.drawn)
    (hissued : Issued b.db.drawn db tokens) : Inv (b.answer r refresh tokens db) := by
  have hknown : ∀ token, Known (b.answer r refresh tokens db) token → Known b token := by
    rintro token (hstored | ⟨j, x, hget, hx⟩)
    · exact .inl hstored
    · rcases update_eq_some hget with ⟨-, rfl⟩ | ⟨-, hget⟩
      · exact .inr ⟨r, refresh, hrefresh, hx⟩
      · exact .inr ⟨j, x, hget, hx⟩
  have hinFlight : ∀ j token, InFlight (b.answer r refresh tokens db) j token →
      (j = r ∧ b.db.drawn ≤ token.serial ∧ token.serial < db.drawn) ∨ InFlight b j token := by
    rintro j token ⟨x, pair, hget, hx, rfl⟩
    rcases update_eq_some hget with ⟨rfl, rfl⟩ | ⟨-, hget⟩
    · exact .inl ⟨rfl, hissued pair (Progress.answered.inj hx)⟩
    · exact .inr ⟨x, pair, hget, hx, rfl⟩
  refine ⟨?_, ?_, ?_, ?_, hinv.spared, hinv.signedIn⟩
  · exact fun token h => (hinv.known token (hknown token h)).trans_le hdrawn
  · intro j token h
    rcases hinFlight j token h with ⟨-, hnew, hlt⟩ | hold
    · exact ⟨hlt, fun hold => absurd (hinv.known token (hknown token hold)) (not_lt.mpr hnew)⟩
    · obtain ⟨hlt, hnew⟩ := hinv.inFlight j token hold
      exact ⟨hlt.trans_le hdrawn, mt (hknown token) hnew⟩
  · intro j j' token h h'
    rcases hinFlight j token h with ⟨hj, hnew, -⟩ | hold
    · rcases hinFlight j' token h' with ⟨hj', -, -⟩ | hold'
      · rw [hj, hj']
      · exact absurd (hinv.inFlight j' token hold').1 (not_lt.mpr hnew)
    · rcases hinFlight j' token h' with ⟨-, hnew, -⟩ | hold'
      · exact absurd (hinv.inFlight j token hold).1 (not_lt.mpr hnew)
      · exact hinv.alone j j' token hold hold'
  · intro j x tab hget hsince
    rcases update_eq_some hget with ⟨rfl, rfl⟩ | ⟨-, hget⟩
    · exact hinv.held j refresh tab hrefresh hsince
    · exact hinv.held j x tab hget hsince

/-- A token that a refresh gets is stored once. -/
theorem Inv.settle_stored (hinv : Inv b) {tokens : TokenPair} (hrefresh : b.refreshes r = some refresh)
    (hprogress : refresh.progress = .answered (some tokens)) :
    Inv (b.settle r refresh (some tokens)) := by
  have hflight : InFlight b r tokens.refreshToken := ⟨refresh, tokens, hrefresh, hprogress, rfl⟩
  obtain ⟨hlt, hnew⟩ := hinv.inFlight r _ hflight
  have hknown : ∀ token, Known (b.settle r refresh (some tokens)) token →
      token = tokens.refreshToken ∨ Known b token := by
    rintro token (hstored | ⟨j, x, hget, hx⟩)
    · exact .inl (Option.some.inj hstored).symm
    · rcases update_eq_some hget with ⟨-, rfl⟩ | ⟨-, hget⟩
      · exact .inr (.inr ⟨r, refresh, hrefresh, hx⟩)
      · exact .inr (.inr ⟨j, x, hget, hx⟩)
  have hinFlight : ∀ j token, InFlight (b.settle r refresh (some tokens)) j token →
      j ≠ r ∧ InFlight b j token := by
    rintro j token ⟨x, pair, hget, hx, hpair⟩
    rcases update_eq_some hget with ⟨-, rfl⟩ | ⟨hj, hget⟩
    · exact nomatch hx
    · exact ⟨hj, x, pair, hget, hx, hpair⟩
  refine ⟨?_, ?_, ?_, ?_, hinv.spared, nofun⟩
  · intro token h
    rcases hknown token h with rfl | hold
    · exact hlt
    · exact hinv.known token hold
  · intro j token h
    obtain ⟨hj, hold⟩ := hinFlight j token h
    refine ⟨(hinv.inFlight j token hold).1, fun hk => ?_⟩
    rcases hknown token hk with rfl | hk
    · exact hj (hinv.alone j r _ hold hflight)
    · exact (hinv.inFlight j token hold).2 hk
  · intro j j' token h h'
    exact hinv.alone j j' token (hinFlight j token h).2 (hinFlight j' token h').2
  · intro j x tab hget _
    refine ⟨tokens.refreshToken, rfl, fun hx => hnew ?_⟩
    rcases update_eq_some hget with ⟨-, rfl⟩ | ⟨-, hget⟩
    · exact .inr ⟨r, refresh, hrefresh, hx⟩
    · exact .inr ⟨j, x, hget, hx⟩

/-- A refresh that has failed stores nothing. -/
theorem Inv.settle_failed (hinv : Inv b) (hrefresh : b.refreshes r = some refresh) :
    Inv (b.settle r refresh none) := by
  have hold : ∀ j x, (b.settle r refresh none).refreshes j = some x →
      ∃ y, b.refreshes j = some y ∧ x.refreshToken = y.refreshToken ∧
        (x = y ∨ x.progress = .resolved false) := by
    intro j x hget
    rcases update_eq_some hget with ⟨rfl, rfl⟩ | ⟨-, hget⟩
    · exact ⟨refresh, hrefresh, rfl, .inr rfl⟩
    · exact ⟨x, hget, rfl, .inl rfl⟩
  have hknown : ∀ token, Known (b.settle r refresh none) token → Known b token := by
    rintro token (hstored | ⟨j, x, hget, hx⟩)
    · exact .inl hstored
    · obtain ⟨y, hy, htoken, -⟩ := hold j x hget
      exact .inr ⟨j, y, hy, htoken ▸ hx⟩
  have hinFlight : ∀ j token, InFlight (b.settle r refresh none) j token → InFlight b j token := by
    rintro j token ⟨x, pair, hget, hx, hpair⟩
    obtain ⟨y, hy, -, rfl | hresolved⟩ := hold j x hget
    · exact ⟨x, pair, hy, hx, hpair⟩
    · rw [hresolved] at hx
      exact nomatch hx
  refine ⟨?_, ?_, ?_, ?_, hinv.spared, hinv.signedIn⟩
  · exact fun token h => hinv.known token (hknown token h)
  · intro j token h
    obtain ⟨hlt, hnew⟩ := hinv.inFlight j token (hinFlight j token h)
    exact ⟨hlt, mt (hknown token) hnew⟩
  · exact fun j j' token h h' => hinv.alone j j' token (hinFlight j token h) (hinFlight j' token h')
  · intro j x tab hget hsince
    obtain ⟨y, hy, htoken, -⟩ := hold j x hget
    rw [htoken]
    exact hinv.held j y tab hy hsince

/-- The storage is cleared while it holds no other token than the one that was sent. -/
theorem Inv.clear (hinv : Inv b) (i : Nat) (call : FetchCall)
    (hrefresh : b.refreshes r = some refresh)
    (hunreplaced : b.storage.refreshToken = none ∨ b.storage.refreshToken = refresh.refreshToken) :
    Inv (b.resume i call r false) := by
  have hknown : ∀ token, Known (b.resume i call r false) token → Known b token := by
    rintro token (hstored | hread)
    · exact nomatch hstored
    · exact .inr hread
  have hsince : storedSince r b.log = none := by
    cases hsince : storedSince r b.log with
    | none => rfl
    | some tab =>
        obtain ⟨token, hstored, hother⟩ := hinv.held r refresh tab hrefresh hsince
        rcases hunreplaced with hnone | hsame
        · rw [hnone] at hstored
          exact nomatch hstored
        · exact absurd (hsame.symm.trans hstored) hother
  refine ⟨?_, ?_, hinv.alone, ?_, ⟨hsince, hinv.spared⟩, nofun⟩
  · exact fun token h => hinv.known token (hknown token h)
  · intro j token h
    obtain ⟨hlt, hnew⟩ := hinv.inFlight j token h
    exact ⟨hlt, mt (hknown token) hnew⟩
  · exact fun _ _ _ _ hcleared => nomatch hcleared

/-- A call asks for a refresh. -/
theorem Inv.attemptTokenRefresh (hinv : Inv b) (r tab : Nat) :
    Inv (b.attemptTokenRefresh r tab).1 := by
  unfold Browser.attemptTokenRefresh
  split
  · exact hinv
  · change Inv (b.beginRefresh r tab)
    unfold Browser.beginRefresh
    split
    · rename_i hnone
      exact hinv.read _ r hnone.symm nofun
    · rename_i token hsome
      exact hinv.read _ r hsome.symm nofun

/-- What one step preserves. -/
theorem Inv.step {cfg : Auth.Config} {b' : Browser} {l : Label} (hinv : Inv b)
    (hunreplaced : unreplaced b l = true) (hstep : Step cfg b l b') : Inv b' := by
  cases hstep with
  | start hfree => exact hinv.setCalls _
  | respond hcall hstage hfree =>
      unfold Browser.respond
      split_ifs
      · exact (hinv.attemptTokenRefresh _ _).setCalls _
      · exact hinv.setCalls _
  | exchange hrefresh hprogress htoken hsteps =>
      obtain ⟨hdrawn, hissued⟩ := issued_of_steps hsteps
      exact hinv.answer hrefresh hdrawn hissued
  | fail hrefresh hprogress => exact hinv.answer hrefresh le_rfl nofun
  | @settle r refresh tokens hrefresh hprogress =>
      cases tokens with
      | none => exact hinv.settle_failed hrefresh
      | some tokens => exact hinv.settle_stored hrefresh hprogress
  | @resume i r call refresh refreshed hcall hstage hrefresh hprogress =>
      cases refreshed with
      | true => exact hinv.setCalls _
      | false =>
          apply hinv.clear i call hrefresh
          obtain ⟨tab, skipAuth, authorization, stage⟩ := call
          obtain ⟨tab', token, progress⟩ := refresh
          subst hstage hprogress
          simpa [unreplaced, hcall, hrefresh] using hunreplaced
  | finish hcall hstage => exact hinv.setCalls _
  | env hdrawn =>
      refine ⟨?_, ?_, hinv.alone, hinv.held, hinv.spared, hinv.signedIn⟩
      · exact fun token h => (hinv.known token h).trans_le hdrawn
      · intro j token h
        obtain ⟨hlt, hnew⟩ := hinv.inFlight j token h
        exact ⟨hlt.trans_le hdrawn, hnew⟩

end Steps

/-! ## Whole runs -/

/-- Before the first call. -/
theorem Inv.initial {storage : Storage} {db : Auth.Database}
    (hissued : ∀ token, storage.refreshToken = some token → token.serial < db.drawn) :
    Inv (Browser.initial storage db) where
  known := by
    rintro token (hstored | ⟨_, _, hread, -⟩)
    · exact hissued token hstored
    · exact nomatch hread
  inFlight := by
    rintro _ _ ⟨_, _, hget, -⟩
    exact nomatch hget
  alone := by
    rintro _ _ _ ⟨_, _, hget, -⟩
    exact nomatch hget
  held _ _ _ hget := nomatch hget
  spared := trivial
  signedIn := nofun

/-- A refresh that has not read its token since a pair was stored has read it before. -/
theorem storedSince_ne_none {r r' tab : Nat} {later earlier : List Event}
    (hread : .read r' ∉ later) (hlast : lastStored (later ++ .stored r tab :: earlier) = true) :
    storedSince r' (later ++ .stored r tab :: earlier) ≠ none := by
  induction later with
  | nil => exact nofun
  | cons e later ih =>
      have hrest : .read r' ∉ later := fun hmem => hread (List.mem_cons_of_mem _ hmem)
      cases e with
      | read r'' =>
          have hne : r'' ≠ r' := by
            rintro rfl
            exact hread List.mem_cons_self
          rw [List.cons_append, storedSince, if_neg hne]
          exact ih hrest hlast
      | stored r'' tab'' => exact nofun
      | cleared r'' tab'' => exact nomatch hlast

/-- After a pair has been stored, only refreshes that have read their tokens since are a reason to
clear the storage. -/
theorem lastStored_of_spared {r tab : Nat} {later earlier : List Event}
    (hspared : Spared (later ++ .stored r tab :: earlier))
    (hread : ∀ r' tab', .cleared r' tab' ∈ later → .read r' ∉ later) :
    lastStored (later ++ .stored r tab :: earlier) = true := by
  induction later with
  | nil => rfl
  | cons e later ih =>
      have hrest : ∀ r' tab', .cleared r' tab' ∈ later → .read r' ∉ later :=
        fun r' tab' hmem hin =>
          hread r' tab' (List.mem_cons_of_mem _ hmem) (List.mem_cons_of_mem _ hin)
      cases e with
      | read r' => exact ih hspared hrest
      | stored r' tab' => rfl
      | cleared r' tab' =>
          have hunread : .read r' ∉ later := fun hin =>
            hread r' tab' List.mem_cons_self (List.mem_cons_of_mem _ hin)
          exact absurd hspared.1 (storedSince_ne_none hunread (ih hspared.2 hrest))

/-- In every run in which the storage is cleared only while it holds no refresh token other than the
one that was sent, no pair is removed that a tab has stored since that token was read, and the
session stays signed in. -/
theorem spared_of_unreplaced (cfg : Auth.Config) (storage : Storage) (db : Auth.Database)
    (hissued : ∀ token, storage.refreshToken = some token → token.serial < db.drawn) {b : Browser}
    (hrun : Run (Step cfg) (fun b l => unreplaced b l = true) (Browser.initial storage db) b) :
    Spared b.log ∧ StaysSignedIn b := by
  have hinv : Inv b := hrun.invariant (Inv.initial hissued)
    fun _ _ _ hinv hunreplaced hstep => hinv.step hunreplaced hstep
  refine ⟨hinv.spared, ?_⟩
  intro later r tab earlier hlog hread
  apply hinv.signedIn
  rw [hlog]
  apply lastStored_of_spared _ hread
  rw [← hlog]
  exact hinv.spared

/-! ## Two runs -/

/-- One executed step, without failures of the backend. -/
def step? (cfg : Auth.Config) (b : Browser) : Label → Option Browser
  | .start i tab skipAuth =>
      match b.calls i with
      | none => some (b.start i tab skipAuth)
      | some _ => none
  | .respond i status r =>
      match b.calls i, b.refreshes r with
      | some ⟨tab, skipAuth, authorization, .requested⟩, none =>
          some (b.respond i ⟨tab, skipAuth, authorization, .requested⟩ status r)
      | _, _ => none
  | .exchange r =>
      match b.refreshes r with
      | some ⟨tab, some token, .requested⟩ =>
          let (db, result) := Auth.machine.run (Auth.refreshTokens cfg token) b.db
          some (b.answer r ⟨tab, some token, .requested⟩ (pairOf result) db)
      | _ => none
  | .fail r =>
      match b.refreshes r with
      | some ⟨tab, token, .requested⟩ => some (b.answer r ⟨tab, token, .requested⟩ none b.db)
      | _ => none
  | .settle r =>
      match b.refreshes r with
      | some ⟨tab, token, .answered tokens⟩ =>
          some (b.settle r ⟨tab, token, .answered tokens⟩ tokens)
      | _ => none
  | .resume i =>
      match b.calls i with
      | some ⟨tab, skipAuth, authorization, .awaiting r⟩ =>
          match b.refreshes r with
          | some ⟨_, _, .resolved refreshed⟩ =>
              some (b.resume i ⟨tab, skipAuth, authorization, .awaiting r⟩ r refreshed)
          | _ => none
      | _ => none
  | .finish i =>
      match b.calls i with
      | some ⟨_, _, _, .retried⟩ => some (b.setCall i none)
      | _ => none
  | .env => none

/-- An executed step is a step. -/
theorem step_of_step? {cfg : Auth.Config} {b b' : Browser} {l : Label}
    (hstep : step? cfg b l = some b') : Step cfg b l b' := by
  cases l with
  | start i tab skipAuth =>
      simp only [step?] at hstep
      split at hstep
      · cases hstep
        exact .start ‹_›
      · exact nomatch hstep
  | respond i status r =>
      simp only [step?] at hstep
      split at hstep
      · cases hstep
        exact .respond ‹_› rfl ‹_›
      · exact nomatch hstep
  | exchange r =>
      simp only [step?] at hstep
      split at hstep
      · cases hstep
        exact .exchange ‹_› rfl rfl (Machine.steps_run _ _)
      · exact nomatch hstep
  | fail r =>
      simp only [step?] at hstep
      split at hstep
      · cases hstep
        exact .fail ‹_› nofun
      · exact nomatch hstep
  | settle r =>
      simp only [step?] at hstep
      split at hstep
      · cases hstep
        exact .settle ‹_› rfl
      · exact nomatch hstep
  | resume i =>
      simp only [step?] at hstep
      split at hstep
      · split at hstep
        · cases hstep
          exact .resume ‹_› rfl ‹_› rfl
        · exact nomatch hstep
      · exact nomatch hstep
  | finish i =>
      simp only [step?] at hstep
      split at hstep
      · cases hstep
        exact .finish ‹_› rfl
      · exact nomatch hstep
  | env => exact nomatch hstep

/-- Executed steps, each of which passes a check. -/
def steps? (cfg : Auth.Config) (check : Browser → Label → Bool) (b : Browser) :
    List Label → Option Browser
  | [] => some b
  | l :: ls => if check b l then (step? cfg b l).bind fun b' => steps? cfg check b' ls else none

/-- Executed steps are a run. -/
theorem run_of_steps? {cfg : Auth.Config} {check : Browser → Label → Bool} {b b' : Browser}
    {ls : List Label} (hsteps : steps? cfg check b ls = some b') :
    Run (Step cfg) (fun b l => check b l = true) b b' := by
  induction ls generalizing b with
  | nil =>
      cases hsteps
      exact Run.refl _
  | cons l ls ih =>
      rw [steps?] at hsteps
      split_ifs at hsteps with hcheck
      obtain ⟨mid, hmid, hrest⟩ := Option.bind_eq_some_iff.mp hsteps
      exact ((Run.refl b).snoc (step_of_step? hmid) hcheck).trans (ih hrest)

/-- Executed steps whose last state passes a test. -/
theorem exists_of_steps? (cfg : Auth.Config) (check : Browser → Label → Bool) (b : Browser)
    (ls : List Label) (test : Browser → Bool) (htest : (steps? cfg check b ls).any test = true) :
    ∃ b', steps? cfg check b ls = some b' ∧ test b' = true := by
  cases hsteps : steps? cfg check b ls with
  | none => simp [hsteps] at htest
  | some b' => exact ⟨b', rfl, by simpa [hsteps] using htest⟩

/-- The user is signed in with the first token. -/
def signedInStorage : Storage where
  accessToken := some ⟨1, "user@x".toList, 0⟩
  refreshToken := some ⟨0⟩
  workspaceID := some "ws-1".toList

theorem issued_signedInStorage (token : Token) (hstored : signedInStorage.refreshToken = some token) :
    token.serial < Auth.oneToken.drawn := by
  cases hstored
  exact Nat.zero_lt_one

/-- A tab refreshes the tokens; later the refresh of another tab is lost. -/
def oneAfterAnother : List Label :=
  [.start 0 0 false, .respond 0 401 0, .exchange 0, .settle 0, .resume 0, .finish 0,
    .start 1 1 false, .respond 1 401 1, .fail 1, .settle 1, .resume 1]

/-- The second tab clears what it has read. -/
theorem spared_of_unreplaced_oneAfterAnother :
    ∃ b, b.log = [.cleared 1 1, .read 1, .stored 0 0, .read 0] ∧ Spared b.log ∧
      StaysSignedIn b := by
  obtain ⟨b, hsteps, htest⟩ := exists_of_steps? Auth.plainConfig unreplaced
    (Browser.initial signedInStorage Auth.oneToken) oneAfterAnother
    (fun b => b.log = [.cleared 1 1, .read 1, .stored 0 0, .read 0]) (by decide +kernel)
  refine ⟨b, of_decide_eq_true htest, ?_⟩
  exact spared_of_unreplaced Auth.plainConfig signedInStorage Auth.oneToken issued_signedInStorage
    (run_of_steps? hsteps)

/-- Two tabs send the same token; the one that is rejected sees its answer last. -/
def bothRead : List Label :=
  [.start 0 0 false, .start 1 1 false, .respond 0 401 0, .respond 1 401 1, .exchange 0,
    .exchange 1, .settle 0, .resume 0, .settle 1, .resume 1]

/-- The label is about neither a failure nor another change of the database. -/
def plain : Label → Bool
  | .fail _ => false
  | .env => false
  | _ => true

/-- Without a failure, a tab removes the pair that another tab has stored after both have read
their token, although the backend still accepts it. -/
theorem removed_of_bothRead :
    ∃ b, Run (Step Auth.plainConfig) (fun _ l => plain l = true)
        (Browser.initial signedInStorage Auth.oneToken) b ∧
      b.log = [.cleared 1 1, .stored 0 0, .read 1, .read 0] ∧ b.storage.refreshToken = none ∧
      ¬Spared b.log ∧ ¬StaysSignedIn b ∧
      (Auth.machine.run (Auth.refreshTokens Auth.plainConfig ⟨1⟩) b.db).2 =
        .tokens (Auth.tokensWith 2) := by
  obtain ⟨b, hsteps, htest⟩ := exists_of_steps? Auth.plainConfig (fun _ l => plain l)
    (Browser.initial signedInStorage Auth.oneToken) bothRead
    (fun b => b.log = [.cleared 1 1, .stored 0 0, .read 1, .read 0] ∧
      b.storage.refreshToken = none ∧
      (Auth.machine.run (Auth.refreshTokens Auth.plainConfig ⟨1⟩) b.db).2 =
        .tokens (Auth.tokensWith 2)) (by decide +kernel)
  obtain ⟨hlog, hsignedOut, haccepted⟩ := of_decide_eq_true htest
  refine ⟨b, run_of_steps? hsteps, hlog, hsignedOut, ?_, ?_, haccepted⟩
  · rw [hlog]
    exact fun hspared => nomatch hspared.1
  · intro hstays
    refine hstays [.cleared 1 1] 0 0 [.read 1, .read 0] hlog ?_ hsignedOut
    intro r' tab' hmem
    simp

end Frontend
end Veilence
