import Veilence.Rbac.Setup

/-!
# Adding a user to a workspace

An administrator adds a user by e-mail address.  If there is no account for the address, one
is created by the auth service, whose repository does not take part in the transaction of the
membership.  When that transaction fails, the account stays, and a retry finds it.

The statements of the transaction fail or take effect together, so a failure of any of them,
the count of the memberships included, is a failure of the transaction.

Main results:

- Theorem {lit}`runFailing_createAccount`: when an account is created, and what is left of
  the command that fails.
- Theorem {lit}`atomic_iff`: which calls that fail leave the users and the memberships as
  they were.
- Theorem {lit}`orphan`: an account that is left behind, which the retry does not create.
-/

namespace Veilence
namespace Rbac

open Go Foundation

open Auth (User fitsColumn)

/-- The arguments of {lit}`AddUserToWorkspace`. -/
structure AddUserRequest where
  workspaceID : Nat
  email : GoString
  firstName : GoString
  lastName : GoString
  roleID : Nat
  password : GoString
deriving DecidableEq

namespace AddUserRequest

variable (req : AddUserRequest) (cfg : Config)

/-- {lit}`AddUserToWorkspace` with its arguments. -/
def body : Body Result :=
  addUserToWorkspace cfg req.workspaceID req.email req.firstName req.lastName req.roleID
    req.password

/-- The address that the call looks up. -/
def lookedUp : GoString :=
  normalizeEmailRBAC cfg req.email

/-- The address of a new account, normalized a second time. -/
def accountEmail : GoString :=
  Auth.normalizeEmail cfg.auth (req.lookedUp cfg)

/-- The row of a new account, with a hash of the password. -/
def account (passwordHash : GoString) : User :=
  newUser (req.accountEmail cfg) req.firstName req.lastName passwordHash
    (decide (req.password ≠ []))

/-- The number of commands that create an account. -/
def accountCommands : Nat :=
  if req.password = [] then 2 else 3

end AddUserRequest

/-- The number of commands that look up an existing user. -/
def lookups (cfg : Config) : Nat :=
  if cfg.userResolver then 1 else 0

/-! ## One call -/

section OneCall

variable (cfg : Config) (db : Database) (req : AddUserRequest) (position : Option Nat)

/-- If a call returns an error when the command at a position fails, it has left the users and
the memberships as they were, and a retry does what the first call does but for the draws. -/
def Atomic : Prop :=
  let run := machine.runFailing position (req.body cfg) db
  ∀ message, run.2 = .error message → run.1.users = db.users ∧ run.1.members = db.members ∧
    ∀ retry, machine.runFailing retry (req.body cfg) run.1 =
      machine.runFailing retry (req.body cfg) { db with drawn := run.1.drawn }

/-- The role can be given in the workspace. -/
def Assignable (role : Option Role) : Prop :=
  ∃ r, role = some r ∧ r.workspaceID = req.workspaceID ∧ r.name ≠ roleOwner

/-- An account is created if no command fails. -/
structure AccountAccepted : Prop where
  creator : cfg.userCreator = true
  domain : validateEmailDomain cfg (req.accountEmail cfg) = none
  password : req.password ≠ [] →
    Auth.validatePasswordWithContext cfg.auth req.password (req.accountEmail cfg) = none ∧
      (cfg.auth.hash db.drawn req.password).isSome = true
  row : UserAccepted db (req.account cfg [])

/-- The call creates no account. -/
inductive NoAccount : Prop where
  | role (hrole : ¬Assignable req (db.roles.get? req.roleID))
  | domain (hdomain : emailDomainAllowed cfg (req.lookedUp cfg) cfg.allowedEmailDomains = false)
  | existing (hresolver : cfg.userResolver = true) (hposition : position ≠ some 2) (id : Nat)
      (user : User) (huser : db.users.get? id = some user)
      (hemail : user.email = req.lookedUp cfg)
  | refused (haccount : ¬AccountAccepted cfg db req)
  | failing (n : Nat) (hn : n < 2 + (lookups cfg + req.accountCommands))
      (hlookup : cfg.userResolver = true → n ≠ 2) (hposition : position = some n)

/-- The membership of a new account is accepted. -/
structure Joins : Prop where
  position : position ≠ some (2 + (lookups cfg + req.accountCommands))
  workspace : (db.workspaces.get? req.workspaceID).isSome = true
  member : (db.membersOf db.users.next req.workspaceID).isEmpty = true

end OneCall

section Execution

variable {cfg : Config} {db : Database} {req : AddUserRequest} {position : Option Nat}

open Machine (advance advance_eq_some runFailing_cmd)

/-! ### The parts of a call -/

/-- The check for an existing user, and what comes after it. -/
theorem runFailing_checkExistingUser {α : Type} (email : GoString)
    (f : Except GoString Unit → Body α) :
    machine.runFailing position (checkExistingUser email >>= f) db =
      if position = some 0 then
        machine.runFailing none (f (.error "checking existing user".toList)) db
      else if (Auth.rowsWhere db.users fun u => u.email = email).isEmpty then
        machine.runFailing (advance position) (f (.ok ())) db
      else
        machine.runFailing (advance position) (f (.error "email already registered".toList)) db := by
  have hexec : machine.exec db (.findUserByEmail email) =
      (db, (Auth.rowsWhere db.users fun u => u.email = email).head?) := rfl
  unfold checkExistingUser
  rw [send, Prog.call_bind, Prog.cmd_bind, runFailing_cmd, hexec]
  cases hrows : Auth.rowsWhere db.users fun u => u.email = email with
  | nil => rfl
  | cons row rows => rfl

/-- The write of a new user, and what comes after it. -/
theorem runFailing_storeUser {α : Type} (db : Database) (position : Option Nat) (user : User)
    (f : Except GoString Nat → Body α) :
    (UserAccepted db user ∧ position ≠ some 0 ∧
      machine.runFailing position (storeUser user >>= f) db =
        machine.runFailing (advance position) (f (.ok db.users.next))
          { db with users := db.users.add user }) ∨
    ((¬UserAccepted db user ∨ position = some 0) ∧ ∃ rest,
      machine.runFailing position (storeUser user >>= f) db =
        machine.runFailing rest (f (.error "creating user".toList)) db) := by
  unfold storeUser
  rw [send, Prog.call_bind, Prog.cmd_bind, runFailing_cmd]
  split_ifs with hposition
  · exact Or.inr ⟨Or.inr hposition, none, rfl⟩
  by_cases huser : UserAccepted db user
  · have hexec : machine.exec db (.createUser user) = _ := exec_createUser_of huser
    rw [hexec]
    exact Or.inl ⟨huser, hposition, rfl⟩
  · have hexec : machine.exec db (.createUser user) = _ := exec_createUser_of_not huser
    rw [hexec]
    exact Or.inr ⟨Or.inl huser, advance position, rfl⟩

/-- The account is created, and the failing command is not among those that create it. -/
def AccountMade (cfg : Config) (db : Database) (req : AddUserRequest) (position : Option Nat) :
    Prop :=
  AccountAccepted cfg db req ∧ ∀ n < req.accountCommands, position ≠ some n

/-- What comes of the rest of a call that creates an account. -/
def AccountOutcome {α : Type} (cfg : Config) (db : Database) (req : AddUserRequest)
    (position : Option Nat) (run : Database × α) (f : Except GoString Nat → Body α) : Prop :=
  (AccountMade cfg db req position ∧ ∃ rest drawn passwordHash,
    (∀ n, rest = some n ↔ position = some (n + req.accountCommands)) ∧
      run = machine.runFailing rest (f (.ok db.users.next))
        { db with users := db.users.add (req.account cfg passwordHash), drawn := drawn }) ∨
  (¬AccountMade cfg db req position ∧ ∃ rest drawn message,
    run = machine.runFailing rest (f (.error message)) { db with drawn := drawn })

/-- The outcome is decided by the write of the row, if nothing has gone wrong before it. -/
theorem accountOutcome_storeUser {α : Type} {rest : Option Nat} (drawn before : Nat)
    (hcommands : req.accountCommands = before + 1)
    (haccepted : UserAccepted db (req.account cfg []) → AccountAccepted cfg db req)
    (hbefore : ∀ n < before, position ≠ some n)
    (hrest : ∀ n, rest = some n ↔ position = some (n + before)) (passwordHash : GoString)
    (f : Except GoString Nat → Body α) :
    AccountOutcome cfg db req position (machine.runFailing rest
      (storeUser (req.account cfg passwordHash) >>= f) { db with drawn := drawn }) f := by
  have hzero : rest = some 0 ↔ position = some before := by
    rw [hrest, Nat.zero_add]
  rcases runFailing_storeUser { db with drawn := drawn } rest (req.account cfg passwordHash) f with
    ⟨huser, hlive, hrun⟩ | ⟨hnot, after, hrun⟩
  · left
    refine ⟨⟨haccepted huser, fun n hn => ?_⟩, advance rest, drawn, passwordHash, fun n => ?_, hrun⟩
    · rcases Nat.lt_succ_iff_lt_or_eq.mp (hcommands ▸ hn) with hn | rfl
      · exact hbefore n hn
      · exact fun heq => hlive (hzero.mpr heq)
    · rw [advance_eq_some, hrest, hcommands, Nat.add_right_comm, Nat.add_assoc]
  · right
    refine ⟨fun hmade => ?_, after, drawn, _, hrun⟩
    rcases hnot with hnot | hnot
    · exact hnot hmade.1.row
    · exact hmade.2 before (by omega) (hzero.mp hnot)

/-- An account with a password. -/
theorem runFailing_createUserWithPassword {α : Type} (hcreator : cfg.userCreator = true)
    (hpassword : req.password ≠ []) (f : Except GoString Nat → Body α) :
    AccountOutcome cfg db req position (machine.runFailing position
      (createUserWithPassword cfg (req.lookedUp cfg) req.firstName req.lastName req.password >>= f)
      db) f := by
  have hcommands : req.accountCommands = 3 := if_neg hpassword
  have hemail : Auth.normalizeEmail cfg.auth (req.lookedUp cfg) = req.accountEmail cfg := rfl
  unfold createUserWithPassword
  simp only [hemail]
  cases hdomain : validateEmailDomain cfg (req.accountEmail cfg) with
  | some message =>
    refine Or.inr ⟨fun h => ?_, position, db.drawn, message, rfl⟩
    exact nomatch hdomain.symm.trans h.1.domain
  | none =>
  cases hvalid : Auth.validatePasswordWithContext cfg.auth req.password (req.accountEmail cfg) with
  | some message =>
    refine Or.inr ⟨fun h => ?_, position, db.drawn, message, rfl⟩
    exact nomatch hvalid.symm.trans (h.1.password hpassword).1
  | none =>
  dsimp only
  rw [Prog.bind_assoc, runFailing_checkExistingUser]
  split_ifs with hzero hfree
  · exact Or.inr ⟨fun h => h.2 0 (by omega) hzero, none, db.drawn, _, rfl⟩
  · rw [send, Prog.call_bind, Prog.cmd_bind, runFailing_cmd]
    split_ifs with hone
    · rw [advance_eq_some] at hone
      exact Or.inr ⟨fun h => h.2 1 (by omega) hone, none, db.drawn, _, rfl⟩
    rw [show machine.exec db .salt = _ from exec_salt db]
    cases hhash : cfg.auth.hash db.drawn req.password with
    | none =>
      refine Or.inr ⟨fun h => ?_, advance (advance position), db.drawn + 1,
        "hashing password".toList, ?_⟩
      · have hsome := (h.1.password hpassword).2
        rw [hhash] at hsome
        exact nomatch hsome
      · dsimp only
        rw [hhash]
        rfl
    | some passwordHash =>
      have haccount : newUser (req.accountEmail cfg) req.firstName req.lastName passwordHash true =
          req.account cfg passwordHash := by
        rw [AddUserRequest.account, decide_eq_true hpassword]
      dsimp only
      rw [hhash]
      dsimp only
      rw [haccount]
      refine accountOutcome_storeUser _ 2 hcommands (fun hrow => ?_) ?_ ?_ passwordHash f
      · exact ⟨hcreator, hdomain, fun _ => ⟨hvalid, Option.isSome_of_eq_some hhash⟩, hrow⟩
      · intro n hn heq
        rcases n with _ | _ | n
        · exact hzero heq
        · exact hone (advance_eq_some.mpr heq)
        · omega
      · intro n
        rw [advance_eq_some, advance_eq_some]
  · exact Or.inr ⟨fun h => hfree h.1.row.2.2.2, advance position, db.drawn, _, rfl⟩

/-- An account without a password. -/
theorem runFailing_createUserWithoutPassword {α : Type} (hcreator : cfg.userCreator = true)
    (hpassword : req.password = []) (f : Except GoString Nat → Body α) :
    AccountOutcome cfg db req position (machine.runFailing position
      (createUserWithoutPassword cfg (req.lookedUp cfg) req.firstName req.lastName >>= f) db)
      f := by
  have hcommands : req.accountCommands = 2 := if_pos hpassword
  have hemail : Auth.normalizeEmail cfg.auth (req.lookedUp cfg) = req.accountEmail cfg := rfl
  have haccount : newUser (req.accountEmail cfg) req.firstName req.lastName [] false =
      req.account cfg [] := by
    rw [AddUserRequest.account, decide_eq_false (not_not.mpr hpassword)]
  unfold createUserWithoutPassword
  simp only [hemail]
  cases hdomain : validateEmailDomain cfg (req.accountEmail cfg) with
  | some message =>
    refine Or.inr ⟨fun h => ?_, position, db.drawn, message, rfl⟩
    exact nomatch hdomain.symm.trans h.1.domain
  | none =>
  dsimp only
  rw [Prog.bind_assoc, runFailing_checkExistingUser]
  split_ifs with hzero hfree
  · exact Or.inr ⟨fun h => h.2 0 (by omega) hzero, none, db.drawn, _, rfl⟩
  · dsimp only
    rw [haccount]
    refine accountOutcome_storeUser db.drawn 1 hcommands (fun hrow => ?_) ?_ ?_ [] f
    · exact ⟨hcreator, hdomain, fun hnot => absurd hpassword hnot, hrow⟩
    · intro n hn heq
      obtain rfl : n = 0 := by omega
      exact hzero heq
    · intro n
      rw [advance_eq_some]
  · exact Or.inr ⟨fun h => hfree h.1.row.2.2.2, advance position, db.drawn, _, rfl⟩

/-- What comes of the commands that create an account. -/
theorem runFailing_createAccount {α : Type} (cfg : Config) (db : Database) (req : AddUserRequest)
    (position : Option Nat) (f : Except GoString Nat → Body α) :
    AccountOutcome cfg db req position (machine.runFailing position
      (createAccount cfg (req.lookedUp cfg) req.firstName req.lastName req.password >>= f) db)
      f := by
  unfold createAccount
  split_ifs with hcreator hpassword
  · refine Or.inr ⟨fun h => ?_, position, db.drawn, _, rfl⟩
    exact nomatch hcreator.symm.trans h.1.creator
  · exact runFailing_createUserWithPassword (by simpa using hcreator) hpassword f
  · exact runFailing_createUserWithoutPassword (by simpa using hcreator) (by simpa using hpassword) f

/-- The look-up of an existing user, and what comes after it. -/
theorem runFailing_findExisting {α : Type} (cfg : Config) (db : Database) (position : Option Nat)
    (email : GoString) (f : Option Nat → Body α) :
    (cfg.userCreator = true ∧ cfg.userResolver = true ∧ position ≠ some 0 ∧
      ∃ id user, db.users.get? id = some user ∧ user.email = email ∧
        machine.runFailing position (findExisting cfg email >>= f) db =
          machine.runFailing (advance position) (f (some id)) db) ∨
    ((cfg.userCreator = true → cfg.userResolver = true → position ≠ some 0 →
        ∀ id user, db.users.get? id = some user → user.email ≠ email) ∧
      machine.runFailing position (findExisting cfg email >>= f) db =
        machine.runFailing
          (if cfg.userCreator && cfg.userResolver then advance position else position)
          (f none) db) := by
  unfold findExisting
  split_ifs with hboth
  · obtain ⟨hcreator, hresolver⟩ := (Bool.and_eq_true _ _).mp hboth
    have hexec : machine.exec db (.findUserByEmail email) =
        (db, (Auth.rowsWhere db.users fun u => u.email = email).head?) := rfl
    rw [send, Prog.call_bind, Prog.cmd_bind, runFailing_cmd]
    split_ifs with hzero
    · exact Or.inr ⟨fun _ _ hne => absurd hzero hne, by rw [hzero]; rfl⟩
    rw [hexec]
    cases hrows : Auth.rowsWhere db.users fun u => u.email = email with
    | nil =>
      refine Or.inr ⟨fun _ _ _ id user huser hemail => ?_, rfl⟩
      have hmem : (id, user) ∈ Auth.rowsWhere db.users fun u => u.email = email :=
        Auth.mem_rowsWhere.mpr ⟨huser, decide_eq_true hemail⟩
      rw [hrows] at hmem
      exact absurd hmem List.not_mem_nil
    | cons row rows =>
      have hmem : row ∈ Auth.rowsWhere db.users fun u => u.email = email := by
        rw [hrows]
        exact List.mem_cons_self
      obtain ⟨huser, hemail⟩ := Auth.mem_rowsWhere.mp hmem
      exact Or.inl ⟨hcreator, hresolver, hzero, row.1, row.2, huser, of_decide_eq_true hemail, rfl⟩
  · refine Or.inr ⟨fun hcreator hresolver => ?_, rfl⟩
    rw [hcreator, hresolver] at hboth
    exact absurd rfl hboth

/-- The transaction of the membership: it fails and leaves everything as it was, or the user is
a member. -/
theorem runFailing_joinWorkspace (cfg : Config) (db : Database) (position : Option Nat)
    (workspaceID userID roleID : Nat) (email password : GoString) (created : Bool) :
    ((position = some 0 ∨ ∃ message,
        db.addMember (!created) workspaceID userID roleID = .error message) ∧
      ∃ message, machine.runFailing position
        (joinWorkspace cfg workspaceID userID roleID email password created) db =
          (db, .error message)) ∨
    (position ≠ some 0 ∧ (∃ added, db.addMember (!created) workspaceID userID roleID = .ok added) ∧
      ∃ member, (machine.runFailing position
        (joinWorkspace cfg workspaceID userID roleID email password created) db).2 =
          .added member created) := by
  have hexec : machine.exec db (.addMember (!created) workspaceID userID roleID) =
      committed db (db.addMember (!created) workspaceID userID roleID) := rfl
  unfold joinWorkspace
  rw [send, Prog.call_bind, runFailing_cmd, hexec]
  split_ifs with hzero
  · exact Or.inl ⟨Or.inl hzero, _, rfl⟩
  cases hadd : db.addMember (!created) workspaceID userID roleID with
  | error message =>
    refine Or.inl ⟨Or.inr ⟨message, rfl⟩, message, ?_⟩
    rcases advance position with _ | _ | n <;> rfl
  | ok added =>
    refine Or.inr ⟨hzero, ⟨added, rfl⟩, added.2, ?_⟩
    unfold committed notifyNewUser
    dsimp only
    split_ifs
    · rw [send, Prog.call_bind, Prog.cmd_bind, runFailing_cmd]
      split_ifs <;> rcases advance (advance position) with _ | _ | n <;> rfl
    · rcases advance position with _ | _ | n <;> rfl

/-! ### The whole call -/

/-- A run that returns no error unless everything is as before but for the draws. -/
def Untouched (db : Database) (run : Database × Result) : Prop :=
  ∀ message, run.2 = .error message → ∃ drawn, run.1 = { db with drawn := drawn }

theorem untouched_error (db : Database) (drawn : Nat) (message : GoString) :
    Untouched db ({ db with drawn := drawn }, .error message) :=
  fun _ _ => ⟨drawn, rfl⟩

/-- An existing user joins, or nothing changes. -/
theorem untouched_joinWorkspace (workspaceID userID roleID : Nat) (email password : GoString)
    (created : Bool) :
    Untouched db (machine.runFailing position
      (joinWorkspace cfg workspaceID userID roleID email password created) db) := by
  rcases runFailing_joinWorkspace cfg db position workspaceID userID roleID email password created
    with ⟨-, message, hrun⟩ | ⟨-, -, member, hrun⟩
  · rw [hrun]
    exact untouched_error db db.drawn message
  · intro message hmessage
    rw [hrun] at hmessage
    exact nomatch hmessage

/-- The commands from the look-up of the user on. -/
def addOrCreate (cfg : Config) (req : AddUserRequest) : Body Result := do
  match ← findExisting cfg (req.lookedUp cfg) with
  | some userID =>
      joinWorkspace cfg req.workspaceID userID req.roleID (req.lookedUp cfg) req.password false
  | none =>
      match ← createAccount cfg (req.lookedUp cfg) req.firstName req.lastName req.password with
      | .error message => return .error message
      | .ok userID =>
          joinWorkspace cfg req.workspaceID userID req.roleID (req.lookedUp cfg) req.password true

/-- A program that is over with an error. -/
theorem untouched_ret (rest : Option Nat) (drawn : Nat) (message : GoString) :
    Untouched db (machine.runFailing rest (.ret (.error message) : Body Result)
      { db with drawn := drawn }) := by
  have hrun : machine.runFailing rest (.ret (.error message) : Body Result)
      { db with drawn := drawn } = ({ db with drawn := drawn }, .error message) := by
    rcases rest with _ | _ | n <;> rfl
  rw [hrun]
  exact untouched_error db drawn message

/-- The call comes to the transaction of the membership of a new account. -/
def ComesToJoin (cfg : Config) (db : Database) (req : AddUserRequest) (position : Option Nat)
    (before : Nat) (run : Database × Result) : Prop :=
  ∃ rest drawn passwordHash,
    (∀ n, rest = some n ↔ position = some (n + (before + req.accountCommands))) ∧
      run = machine.runFailing rest (joinWorkspace cfg req.workspaceID db.users.next req.roleID
        (req.lookedUp cfg) req.password true)
        { db with users := db.users.add (req.account cfg passwordHash), drawn := drawn }

/-- The commands from the look-up of the user on create no account; the positions are counted
from the look-up on. -/
inductive NoAccountFrom (cfg : Config) (db : Database) (req : AddUserRequest)
    (position : Option Nat) : Prop where
  | existing (hresolver : cfg.userResolver = true) (hposition : position ≠ some 0) (id : Nat)
      (user : User) (huser : db.users.get? id = some user)
      (hemail : user.email = req.lookedUp cfg)
  | refused (haccount : ¬AccountAccepted cfg db req)
  | failing (n : Nat) (hn : n < lookups cfg + req.accountCommands)
      (hlookup : cfg.userResolver = true → n ≠ 0) (hposition : position = some n)

/-- What comes of the commands from the look-up of the user on. -/
theorem runFailing_addOrCreate (cfg : Config) (db : Database) (req : AddUserRequest)
    (position : Option Nat) :
    (NoAccountFrom cfg db req position ∧
      Untouched db (machine.runFailing position (addOrCreate cfg req) db)) ∨
    (¬NoAccountFrom cfg db req position ∧
      ComesToJoin cfg db req position (lookups cfg)
        (machine.runFailing position (addOrCreate cfg req) db)) := by
  unfold addOrCreate
  rcases runFailing_findExisting cfg db position (req.lookedUp cfg) _ with
    ⟨hcreator, hresolver, hlive, id, user, huser, hemail, hrun⟩ | ⟨hnone, hrun⟩
  · left
    refine ⟨.existing hresolver hlive id user huser hemail, ?_⟩
    rw [hrun]
    exact untouched_joinWorkspace _ _ _ _ _ _
  rw [hrun]
  generalize hrest : (if cfg.userCreator && cfg.userResolver then advance position else position) =
    rest at hrun
  have hshift : cfg.userCreator = true → ∀ n, rest = some n ↔
      position = some (n + lookups cfg) := by
    intro hcreator n
    rw [← hrest, hcreator, Bool.true_and, lookups]
    split_ifs
    · exact advance_eq_some
    · rfl
  rcases runFailing_createAccount cfg db req rest _ with
    ⟨hmade, after, drawn, passwordHash, hafter, hrun'⟩ | ⟨hnot, after, drawn, message, hrun'⟩
  · right
    have hshift := hshift hmade.1.creator
    refine ⟨fun hstays => ?_, after, drawn, passwordHash, fun n => ?_, hrun'⟩
    · cases hstays with
      | existing hresolver hlive id user huser hemail =>
          exact hnone hmade.1.creator hresolver hlive id user huser hemail
      | refused haccount => exact haccount hmade.1
      | failing n hn hlookup heq =>
          -- the failing command is not the look-up, so it is one of those that create the account
          have hlate : lookups cfg ≤ n := by
            unfold lookups
            split_ifs with hresolver
            · have := hlookup hresolver
              omega
            · omega
          obtain ⟨m, rfl⟩ := Nat.exists_eq_add_of_le' hlate
          exact hmade.2 m (by omega) ((hshift m).mpr heq)
    · rw [hafter, hshift, Nat.add_assoc, Nat.add_comm req.accountCommands]
  · left
    rw [hrun']
    refine ⟨?_, untouched_ret after drawn message⟩
    by_cases haccepted : AccountAccepted cfg db req
    · have hfails : ∃ n < req.accountCommands, rest = some n := by
        by_contra hno
        exact hnot ⟨haccepted, fun n hn heq => hno ⟨n, hn, heq⟩⟩
      obtain ⟨n, hn, heq⟩ := hfails
      refine .failing (n + lookups cfg) (by omega) (fun hresolver => ?_)
        ((hshift haccepted.creator n).mp heq)
      rw [lookups, if_pos hresolver]
      omega
    · exact .refused haccepted

/-- The commands before the look-up decide nothing about accounts. -/
theorem noAccount_iff (hrole : Assignable req (db.roles.get? req.roleID))
    (hdomain : emailDomainAllowed cfg (req.lookedUp cfg) cfg.allowedEmailDomains ≠ false)
    (hzero : position ≠ some 0) (hone : position ≠ some 1) :
    NoAccount cfg db req position ↔ NoAccountFrom cfg db req (advance (advance position)) := by
  have hshift : ∀ n, advance (advance position) = some n ↔ position = some (n + 2) := by
    intro n
    rw [advance_eq_some, advance_eq_some]
  constructor
  · intro h
    cases h with
    | role hnot => exact absurd hrole hnot
    | domain hnot => exact absurd hnot hdomain
    | existing hresolver hposition id user huser hemail =>
        exact .existing hresolver (fun heq => hposition ((hshift 0).mp heq)) id user huser hemail
    | refused haccount => exact .refused haccount
    | failing n hn hlookup heq =>
        rcases n with _ | _ | n
        · exact absurd heq hzero
        · exact absurd heq hone
        · exact .failing n (by omega) (fun hresolver hn => hlookup hresolver (by omega))
            ((hshift n).mpr heq)
  · intro h
    cases h with
    | existing hresolver hposition id user huser hemail =>
        exact .existing hresolver (fun heq => hposition ((hshift 0).mpr heq)) id user huser hemail
    | refused haccount => exact .refused haccount
    | failing n hn hlookup heq =>
        exact .failing (n + 2) (by omega) (fun hresolver hn => hlookup hresolver (by omega))
          ((hshift n).mp heq)

/-- A call that creates no account leaves everything as it was if it returns an error; another
one comes to the transaction of the membership. -/
theorem runFailing_body (cfg : Config) (db : Database) (req : AddUserRequest)
    (position : Option Nat) :
    (NoAccount cfg db req position ∧ Untouched db (machine.runFailing position (req.body cfg) db)) ∨
    (¬NoAccount cfg db req position ∧ Assignable req (db.roles.get? req.roleID) ∧
      ComesToJoin cfg db req position (2 + lookups cfg)
        (machine.runFailing position (req.body cfg) db)) := by
  have hexec : machine.exec db (.findRoleByIDAndWorkspace req.roleID req.workspaceID) =
      (db, (db.roles.get? req.roleID).filter fun role => role.workspaceID = req.workspaceID) := rfl
  have hbegin : machine.exec db .beginTransaction = (db, ()) := exec_beginTransaction db
  have hreturn : ∀ rest message, Untouched db
      (machine.runFailing rest (.ret (.error message) : Body Result) db) :=
    fun rest message => untouched_ret rest db.drawn message
  unfold AddUserRequest.body addUserToWorkspace
  rw [send, Prog.call_bind, runFailing_cmd, hexec]
  split_ifs with hzero
  · exact Or.inl ⟨.failing 0 (by omega) (fun _ => by omega) hzero, hreturn _ _⟩
  cases hrole : (db.roles.get? req.roleID).filter fun role => role.workspaceID = req.workspaceID with
  | none =>
    refine Or.inl ⟨.role ?_, hreturn _ _⟩
    rintro ⟨r, hr, hworkspace, -⟩
    rw [hr, Option.filter_some, if_pos (decide_eq_true hworkspace)] at hrole
    exact nomatch hrole
  | some role =>
  obtain ⟨hget, hworkspace⟩ := Option.filter_eq_some_iff.mp hrole
  dsimp only
  split_ifs with howner hdomain
  · refine Or.inl ⟨.role ?_, hreturn _ _⟩
    rintro ⟨r, hr, -, hname⟩
    obtain rfl := Option.some.inj (hget.symm.trans hr)
    exact hname howner
  · exact Or.inl ⟨.domain hdomain, hreturn _ _⟩
  have hassignable : Assignable req (db.roles.get? req.roleID) :=
    ⟨role, hget, of_decide_eq_true hworkspace, howner⟩
  rw [send, Prog.call_bind, runFailing_cmd, hbegin]
  split_ifs with hone
  · rw [advance_eq_some] at hone
    exact Or.inl ⟨.failing 1 (by omega) (fun _ => by omega) hone, hreturn _ _⟩
  rw [advance_eq_some] at hone
  rw [noAccount_iff hassignable hdomain hzero hone]
  rcases runFailing_addOrCreate cfg db req (advance (advance position)) with
    ⟨hstays, huntouched⟩ | ⟨hmade, hjoins⟩
  · exact Or.inl ⟨hstays, huntouched⟩
  · obtain ⟨rest, drawn, passwordHash, hrest, hrun⟩ := hjoins
    refine Or.inr ⟨hmade, hassignable, rest, drawn, passwordHash, fun n => ?_, hrun⟩
    rw [hrest, advance_eq_some, advance_eq_some]
    constructor <;> (intro heq; rw [heq]; congr 1; omega)

/-- When the database accepts the membership of a new user with a role that is there. -/
theorem addMember_ok_iff (hrole : Assignable req (db.roles.get? req.roleID)) (user : User)
    (drawn : Nat) :
    (∃ added, Database.addMember { db with users := db.users.add user, drawn := drawn } false
      req.workspaceID db.users.next req.roleID = .ok added) ↔
      (db.workspaces.get? req.workspaceID).isSome = true ∧
        (db.membersOf db.users.next req.workspaceID).isEmpty = true := by
  obtain ⟨role, hget, -⟩ := hrole
  have huser : ((db.users.add user).get? db.users.next).isSome = true := by
    simp [Ledger.get?_add]
  unfold Database.addMember Database.createMember
  rw [if_neg fun h => absurd h.1 Bool.false_ne_true]
  dsimp only
  by_cases hfree : (db.workspaces.get? req.workspaceID).isSome = true ∧
      (db.membersOf db.users.next req.workspaceID).isEmpty = true
  · rw [if_pos ⟨hfree.1, huser, Option.isSome_of_eq_some hget, hfree.2⟩]
    exact ⟨fun _ => hfree, fun _ => ⟨_, rfl⟩⟩
  · rw [if_neg fun h => hfree ⟨h.1, h.2.2.2⟩]
    constructor
    · rintro ⟨added, hadded⟩
      exact nomatch hadded
    · exact fun h => absurd h hfree

/-- A call that returns an error leaves the users and the memberships as they were exactly if
it creates no account, or the membership of the account is accepted. -/
theorem atomic_iff (cfg : Config) (db : Database) (req : AddUserRequest)
    (position : Option Nat) :
    Atomic cfg db req position ↔ NoAccount cfg db req position ∨ Joins cfg db req position := by
  rcases runFailing_body cfg db req position with
    ⟨hnone, huntouched⟩ | ⟨hmade, hrole, rest, drawn, passwordHash, hrest, hrun⟩
  · refine iff_of_true (fun message hmessage => ?_) (Or.inl hnone)
    obtain ⟨drawn, hdb⟩ := huntouched message hmessage
    rw [hdb]
    exact ⟨rfl, rfl, fun _ => rfl⟩
  have hposition : rest = some 0 ↔
      position = some (2 + (lookups cfg + req.accountCommands)) := by
    rw [hrest, Nat.zero_add, Nat.add_assoc]
  have hadd := addMember_ok_iff hrole (req.account cfg passwordHash) drawn
  constructor
  · intro hatomic
    right
    rcases runFailing_joinWorkspace cfg
      { db with users := db.users.add (req.account cfg passwordHash), drawn := drawn } rest
      req.workspaceID db.users.next req.roleID (req.lookedUp cfg) req.password true with
      ⟨-, message, hjoin⟩ | ⟨hlive, hok, -⟩
    · -- the transaction fails, and the new user stays
      rw [← hrun] at hjoin
      have hsame := (hatomic message (congrArg Prod.snd hjoin)).1
      rw [hjoin] at hsame
      have hnext : db.users.next + 1 = db.users.next := congrArg Ledger.next hsame
      omega
    · obtain ⟨hworkspace, hmember⟩ := hadd.mp hok
      exact ⟨fun heq => hlive (hposition.mpr heq), hworkspace, hmember⟩
  · intro hcases message hmessage
    have hjoins := hcases.resolve_left hmade
    obtain ⟨added, hok⟩ := hadd.mpr ⟨hjoins.workspace, hjoins.member⟩
    rcases runFailing_joinWorkspace cfg
      { db with users := db.users.add (req.account cfg passwordHash), drawn := drawn } rest
      req.workspaceID db.users.next req.roleID (req.lookedUp cfg) req.password true with
      ⟨hfails, -⟩ | ⟨-, -, member, hjoin⟩
    · rcases hfails with hzero | ⟨message, herror⟩
      · exact absurd (hposition.mp hzero) hjoins.position
      · exact nomatch hok.symm.trans herror
    · rw [hrun, hjoin] at hmessage
      exact nomatch hmessage

end Execution

/-! ## An account that is left behind -/

/-- Three users and the workspace of the first one. -/
def oneWorkspace : Database :=
  threeUsers.owned ⟨"acme".toList, "acme".toList, [], 0, true⟩

/-- A new member without a password. -/
def newcomer : AddUserRequest :=
  ⟨0, "new@x".toList, [], [], 2, []⟩

/-- The transaction of the membership fails: the account stays without a membership.  The first
call would have created a user, the retry finds one, so that no link for a password is sent. -/
theorem orphan :
    let run := machine.runFailing (some 5) (newcomer.body openConfig) oneWorkspace
    ¬Atomic openConfig oneWorkspace newcomer (some 5) ∧
      run.1.users.rows.entries.length = oneWorkspace.users.rows.entries.length + 1 ∧
      (run.1.membersOf 3 0).isEmpty = true ∧
      (machine.run (newcomer.body openConfig) oneWorkspace).2 = .added ⟨0, 3, 2, 0⟩ true ∧
      (machine.run (newcomer.body openConfig) run.1).2 = .added ⟨0, 3, 2, 0⟩ false := by
  refine ⟨fun hatomic => ?_, by decide +kernel, by decide +kernel, by decide +kernel,
    by decide +kernel⟩
  have hsame := (hatomic "creating membership".toList (by decide +kernel)).1
  exact absurd (congrArg Ledger.next hsame) (by decide +kernel)

end Rbac
end Veilence
