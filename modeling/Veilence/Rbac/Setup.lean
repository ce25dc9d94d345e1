import Veilence.Foundation.Tickets
import Veilence.Rbac.Access

/-!
# The first-time setup

The setup counts the users, creates the first one and then the workspace.  The user is not
created in the transaction of the workspace, so an error after it leaves the user behind,
and the setup counts as done.  The users are counted only once, before the user is created,
so that two calls that have both counted none both go through.

Main results:

- Theorem {lit}`leavesNothing_iff`: which calls that fail leave nothing behind.
- Theorem {lit}`setup_once`: that, and that the setup happens once if every call that creates
  its user finds no users at that moment.
- Theorem {lit}`setup_not_once`: a user that is left behind, and a setup that happens twice.
-/

namespace Veilence
namespace Rbac

open Go Foundation

open Auth (Token TokenHash User fitsColumn)

/-- {lit}`InitializeRequest`. -/
structure SetupRequest where
  email : GoString
  password : GoString
  firstName : GoString
  lastName : GoString
  workspaceName : GoString
  workspaceSlug : GoString
deriving DecidableEq

/-- {lit}`Initialize` with a request. -/
def SetupRequest.body (req : SetupRequest) (cfg : Config) : Body Result :=
  setupInitialize cfg req.email req.password req.firstName req.lastName req.workspaceName
    req.workspaceSlug

/-! ## One call -/

section OneCall

variable (cfg : Config) (db : Database) (req : SetupRequest) (position : Option Nat)

/-- If a call returns an error when the command at a position fails, it has left no user, no
workspace, no role and no membership behind. -/
def LeavesNothing : Prop :=
  let run := machine.runFailing position (req.body cfg) db
  ∀ message, run.2 = .error message → run.1.users = db.users ∧
    run.1.workspaces = db.workspaces ∧ run.1.roles = db.roles ∧ run.1.members = db.members

/-- The row of the first user, with a hash of the password. -/
def SetupRequest.user (passwordHash : GoString) : User :=
  { newUser (Auth.normalizeEmail cfg.auth req.email) req.firstName req.lastName passwordHash
      false with isSuperAdmin := true }

/-- The database accepts a user row. -/
def UserAccepted (user : User) : Prop :=
  fitsColumn 255 user.email = true ∧ fitsColumn 100 user.firstName = true ∧
    fitsColumn 100 user.lastName = true ∧
    (Auth.rowsWhere db.users fun u => u.email = user.email).isEmpty = true

/-- The call is turned away before it creates its user. -/
inductive TurnedAway : Prop where
  | completed (hcount : 0 < db.users.rows.entries.length)
  | password (message : GoString)
      (hmessage : Auth.validatePasswordWithContext cfg.auth req.password req.email = some message)
  | hashing (hhash : cfg.auth.hash db.drawn req.password = none)
  | failing (n : Nat) (hn : n ≤ 3) (hposition : position = some n)
  | user (passwordHash : GoString) (hhash : cfg.auth.hash db.drawn req.password = some passwordHash)
      (huser : ¬UserAccepted db (req.user cfg passwordHash))

/-- Nothing goes wrong after the call has created its user. -/
structure GoesThrough : Prop where
  position : position ≠ some 4 ∧ position ≠ some 5
  name : fitsColumn 100 req.workspaceName = true
  slug : fitsColumn 100 req.workspaceSlug = true
  free : (Auth.rowsWhere db.workspaces fun ws => ws.slug = req.workspaceSlug).isEmpty = true
  member : (db.membersOf db.users.next db.workspaces.next).isEmpty = true

end OneCall

section Execution

variable {cfg : Config} {db : Database} {req : SetupRequest} {position : Option Nat}

attribute [local simp] setupInitialize Machine.runFailing Database.exec

/-- The row of the first workspace. -/
def SetupRequest.workspace (req : SetupRequest) (userID : Nat) : Workspace :=
  ⟨req.workspaceName, req.workspaceSlug, "Default workspace".toList, userID, true⟩

/-- The tables that the setup writes are as before. -/
def SameTables (db db' : Database) : Prop :=
  db'.users = db.users ∧ db'.workspaces = db.workspaces ∧ db'.roles = db.roles ∧
    db'.members = db.members

theorem exec_countAllUsers (db : Database) :
    db.exec .countAllUsers = (db, db.users.rows.entries.length) :=
  rfl

theorem exec_salt (db : Database) :
    db.exec .salt = ({ db with drawn := db.drawn + 1 }, db.drawn) :=
  rfl

theorem exec_beginTransaction (db : Database) : db.exec .beginTransaction = (db, ()) :=
  rfl

theorem exec_drawToken (db : Database) :
    db.exec .drawToken = ({ db with drawn := db.drawn + 1 }, ⟨db.drawn⟩) :=
  rfl

theorem exec_createUser_of_not {user : User} (huser : ¬UserAccepted db user) :
    db.exec (.createUser user) = (db, none) :=
  if_neg huser

theorem exec_createUser_of {user : User} (huser : UserAccepted db user) :
    db.exec (.createUser user) = ({ db with users := db.users.add user }, some db.users.next) :=
  if_pos huser

theorem user_eq (cfg : Config) (req : SetupRequest) (passwordHash : GoString) :
    ({ newUser (Auth.normalizeEmail cfg.auth req.email) req.firstName req.lastName passwordHash
        false with isSuperAdmin := true } : User) = req.user cfg passwordHash :=
  rfl

/-- A call that is turned away before it draws a salt. -/
theorem sameTables_of_completed (hcount : 0 < db.users.rows.entries.length) :
    SameTables db (machine.runFailing position (req.body cfg) db).1 := by
  have hsame : SameTables db db := ⟨rfl, rfl, rfl, rfl⟩
  unfold SetupRequest.body setupInitialize
  rcases position with _ | _ | n <;>
    simpa only [send, Prog.call_bind, Prog.pure_eq, Machine.runFailing, machine,
      exec_countAllUsers, hcount, if_true] using hsame

section Empty

variable (hcount : ¬0 < db.users.rows.entries.length)
include hcount

theorem sameTables_of_password {message : GoString}
    (hmessage : Auth.validatePasswordWithContext cfg.auth req.password req.email =
      some message) : SameTables db (machine.runFailing position (req.body cfg) db).1 := by
  have hsame : SameTables db db := ⟨rfl, rfl, rfl, rfl⟩
  unfold SetupRequest.body setupInitialize
  rcases position with _ | _ | n <;>
    simpa only [send, Prog.call_bind, Prog.pure_eq, Machine.runFailing, machine,
      exec_countAllUsers, hcount, if_false, hmessage] using hsame

variable (hpassword : Auth.validatePasswordWithContext cfg.auth req.password req.email = none)
include hpassword

theorem sameTables_of_hash (hhash : cfg.auth.hash db.drawn req.password = none) :
    SameTables db (machine.runFailing position (req.body cfg) db).1 := by
  have hsame : SameTables db db := ⟨rfl, rfl, rfl, rfl⟩
  have hsalt : SameTables db { db with drawn := db.drawn + 1 } := ⟨rfl, rfl, rfl, rfl⟩
  unfold SetupRequest.body setupInitialize
  rcases position with _ | _ | _ | n <;>
    simp only [send, Prog.call_bind, Prog.pure_eq, Machine.runFailing, machine,
      exec_countAllUsers, exec_salt, hcount, if_false, hpassword, hhash]
  · exact hsalt
  · exact hsame
  · exact hsame
  · exact hsalt

variable {passwordHash : GoString} (hhash : cfg.auth.hash db.drawn req.password = some passwordHash)
include hhash

/-- A call that fails before its user is created. -/
theorem sameTables_of_early {n : Nat} (hn : n ≤ 3) :
    SameTables db (machine.runFailing (some n) (req.body cfg) db).1 := by
  have hsame : SameTables db db := ⟨rfl, rfl, rfl, rfl⟩
  have hsalt : SameTables db { db with drawn := db.drawn + 1 } := ⟨rfl, rfl, rfl, rfl⟩
  unfold SetupRequest.body setupInitialize
  rcases n with _ | _ | _ | _ | n <;>
    simp only [send, Prog.call_bind, Prog.cmd_bind, Prog.ret_bind, Prog.pure_eq,
      Machine.runFailing, machine, exec_countAllUsers, exec_salt, exec_beginTransaction, hcount,
      if_false, hpassword, hhash, storeUser]
  · exact hsame
  · exact hsame
  · exact hsalt
  · exact hsalt
  · omega

/-- A call whose user is rejected. -/
theorem sameTables_of_user (huser : ¬UserAccepted db (req.user cfg passwordHash)) :
    SameTables db (machine.runFailing position (req.body cfg) db).1 := by
  have hsame : SameTables db db := ⟨rfl, rfl, rfl, rfl⟩
  have hsalt : SameTables db { db with drawn := db.drawn + 1 } := ⟨rfl, rfl, rfl, rfl⟩
  have hcreate : Database.exec { db with drawn := db.drawn + 1 }
      (.createUser (req.user cfg passwordHash)) = (_, none) := exec_createUser_of_not huser
  unfold SetupRequest.body setupInitialize
  rcases position with _ | _ | _ | _ | _ | n <;>
    simp only [send, Prog.call_bind, Prog.cmd_bind, Prog.ret_bind, Prog.pure_eq,
      Machine.runFailing, machine, exec_countAllUsers, exec_salt, exec_beginTransaction, hcount,
      if_false, hpassword, hhash, storeUser, user_eq, hcreate]
  · exact hsalt
  · exact hsame
  · exact hsame
  · exact hsalt
  · exact hsalt
  · exact hsalt

/-- The database after the user has been created. -/
def Database.withUser (db : Database) (user : User) : Database :=
  { db with users := db.users.add user, drawn := db.drawn + 1 }

variable (huser : UserAccepted db (req.user cfg passwordHash))
include huser

omit hcount hpassword hhash in
theorem exec_createUser_withUser :
    Database.exec { db with drawn := db.drawn + 1 } (.createUser (req.user cfg passwordHash)) =
      (db.withUser (req.user cfg passwordHash), some db.users.next) :=
  exec_createUser_of huser

/-- A call whose transaction fails after its user has been created. -/
theorem run_of_position_four :
    ∃ message, machine.runFailing (some 4) (req.body cfg) db =
      (db.withUser (req.user cfg passwordHash), .error message) := by
  have hcreate := exec_createUser_withUser huser
  unfold SetupRequest.body setupInitialize
  simp only [send, Prog.call_bind, Prog.cmd_bind, Prog.ret_bind, Prog.pure_eq,
    Machine.runFailing, machine, exec_countAllUsers, exec_salt, exec_beginTransaction, hcount,
    if_false, hpassword, hhash, storeUser, user_eq, hcreate]
  exact ⟨_, rfl⟩

/-- A call whose transaction is rejected after its user has been created. -/
theorem run_of_rejected {message : GoString}
    (hrejected : (db.withUser (req.user cfg passwordHash)).createOwned
      (req.workspace db.users.next) = .error message)
    (hposition : position = none ∨ ∃ n, position = some (n + 5)) :
    ∃ message, machine.runFailing position (req.body cfg) db =
      (db.withUser (req.user cfg passwordHash), .error message) := by
  have hcreate := exec_createUser_withUser huser
  have howned : (db.withUser (req.user cfg passwordHash)).exec
      (.createOwned (req.workspace db.users.next)) =
        (db.withUser (req.user cfg passwordHash), .error message) := by
    rw [Database.exec, hrejected, committed]
  unfold SetupRequest.workspace at howned
  unfold SetupRequest.body setupInitialize
  rcases hposition with rfl | ⟨n, rfl⟩
  · simp only [send, Prog.call_bind, Prog.cmd_bind, Prog.ret_bind, Prog.pure_eq,
      Machine.runFailing, machine, exec_countAllUsers, exec_salt, exec_beginTransaction, hcount,
      if_false, hpassword, hhash, storeUser, user_eq, hcreate, howned]
    exact ⟨_, rfl⟩
  · simp only [send, Prog.call_bind, Prog.cmd_bind, Prog.ret_bind, Prog.pure_eq,
      Machine.runFailing, machine, exec_countAllUsers, exec_salt, exec_beginTransaction, hcount,
      if_false, hpassword, hhash, storeUser, user_eq, hcreate, howned]
    exact ⟨_, rfl⟩

variable {db₂ : Database} {workspaceID : Nat}
  (hcreated : (db.withUser (req.user cfg passwordHash)).createOwned
    (req.workspace db.users.next) = .ok (db₂, workspaceID))
include hcreated

/-- A call that gets no token at its end. -/
theorem run_of_position_five :
    ∃ message, machine.runFailing (some 5) (req.body cfg) db = (db₂, .error message) := by
  have hcreate := exec_createUser_withUser huser
  have howned : (db.withUser (req.user cfg passwordHash)).exec
      (.createOwned (req.workspace db.users.next)) = (db₂, .ok workspaceID) := by
    rw [Database.exec, hcreated, committed]
  unfold SetupRequest.workspace at howned
  unfold SetupRequest.body setupInitialize
  simp only [send, Prog.call_bind, Prog.cmd_bind, Prog.ret_bind, Prog.pure_eq,
    Machine.runFailing, machine, exec_countAllUsers, exec_salt, exec_beginTransaction, hcount,
    if_false, hpassword, hhash, storeUser, user_eq, hcreate, howned]
  exact ⟨_, rfl⟩

/-- A call in which nothing fails. -/
theorem run_of_created (hposition : position = none ∨ ∃ n, position = some (n + 6)) :
    (machine.runFailing position (req.body cfg) db).2 =
      .initialized db.users.next workspaceID := by
  have hcreate := exec_createUser_withUser huser
  have howned : (db.withUser (req.user cfg passwordHash)).exec
      (.createOwned (req.workspace db.users.next)) = (db₂, .ok workspaceID) := by
    rw [Database.exec, hcreated, committed]
  unfold SetupRequest.workspace at howned
  unfold SetupRequest.body setupInitialize
  rcases hposition with rfl | ⟨n, rfl⟩
  · simp only [send, Prog.call_bind, Prog.cmd_bind, Prog.ret_bind, Prog.pure_eq,
      Machine.runFailing, machine, exec_countAllUsers, exec_salt, exec_beginTransaction, hcount,
      if_false, hpassword, hhash, storeUser, user_eq, hcreate, howned, exec_drawToken]
  · simp only [send, Prog.call_bind, Prog.cmd_bind, Prog.ret_bind, Prog.pure_eq,
      Machine.runFailing, machine, exec_countAllUsers, exec_salt, exec_beginTransaction, hcount,
      if_false, hpassword, hhash, storeUser, user_eq, hcreate, howned, exec_drawToken]

end Empty

/-- When the database accepts a workspace of a user who is there. -/
theorem createOwned_ok_iff {ws : Workspace} (huser : (db.users.get? ws.ownerID).isSome = true) :
    (∃ created, db.createOwned ws = .ok created) ↔
      fitsColumn 100 ws.name = true ∧ fitsColumn 100 ws.slug = true ∧
        (Auth.rowsWhere db.workspaces fun other => other.slug = ws.slug).isEmpty = true ∧
        (db.membersOf ws.ownerID db.workspaces.next).isEmpty = true := by
  rw [Database.createOwned, Database.createWorkspace]
  by_cases hws : fitsColumn 100 ws.name = true ∧ fitsColumn 100 ws.slug = true ∧
      (db.users.get? ws.ownerID).isSome = true ∧
      (Auth.rowsWhere db.workspaces fun other => other.slug = ws.slug).isEmpty = true
  · obtain ⟨r, hr, -⟩ := get?_withDefaultRoles_next db.roles db.permissions db.workspaces.next
    have hworkspace : ((db.workspaces.add ws).get? db.workspaces.next).isSome = true := by
      simp [Ledger.get?_add]
    rw [if_pos hws]
    simp only [find?_createDefaultRoles]
    rw [Database.createDefaultRoles, createRoles_fst, Database.createMember]
    by_cases hmember : (db.membersOf ws.ownerID db.workspaces.next).isEmpty = true
    · rw [if_pos ⟨hworkspace, huser, Option.isSome_iff_exists.mpr ⟨r, hr⟩, hmember⟩]
      exact ⟨fun _ => ⟨hws.1, hws.2.1, hws.2.2.2, hmember⟩, fun _ => ⟨_, rfl⟩⟩
    · rw [if_neg fun h => hmember h.2.2.2]
      constructor
      · rintro ⟨created, hcreated⟩
        injection hcreated
      · intro h
        exact absurd h.2.2.2 hmember
  · rw [if_neg hws]
    constructor
    · rintro ⟨created, hcreated⟩
      injection hcreated
    · rintro ⟨hname, hslug, hfree, -⟩
      exact absurd ⟨hname, hslug, huser, hfree⟩ hws

/-- A call leaves nothing behind if it is turned away early. -/
theorem leavesNothing_of_turnedAway (hturned : TurnedAway cfg db req position) :
    SameTables db (machine.runFailing position (req.body cfg) db).1 := by
  by_cases hcount : 0 < db.users.rows.entries.length
  · exact sameTables_of_completed hcount
  cases hpassword : Auth.validatePasswordWithContext cfg.auth req.password req.email with
  | some message => exact sameTables_of_password hcount hpassword
  | none =>
      cases hhash : cfg.auth.hash db.drawn req.password with
      | none => exact sameTables_of_hash hcount hpassword hhash
      | some passwordHash =>
          cases hturned with
          | completed hcompleted => exact absurd hcompleted hcount
          | password message hmessage => simp [hpassword] at hmessage
          | hashing hnone => simp [hhash] at hnone
          | failing n hn hposition =>
              rw [hposition]
              exact sameTables_of_early hcount hpassword hhash hn
          | user other hother huser =>
              obtain rfl := Option.some.inj (hhash.symm.trans hother)
              exact sameTables_of_user hcount hpassword hhash huser

/-- A new user is another table of users. -/
theorem withUser_ne (user : User) : (db.withUser user).users ≠ db.users := by
  intro heq
  have hnext : db.users.next + 1 = db.users.next := congrArg Ledger.next heq
  omega

/-- The positions from a number on. -/
theorem position_cases (position : Option Nat) (hlate : ∀ n, n ≤ 3 → position ≠ some n) :
    position = some 4 ∨ position = some 5 ∨ position = none ∨ ∃ n, position = some (n + 6) := by
  rcases position with _ | n
  · exact Or.inr (Or.inr (Or.inl rfl))
  · by_cases h4 : n = 4
    · exact Or.inl (by rw [h4])
    by_cases h5 : n = 5
    · exact Or.inr (Or.inl (by rw [h5]))
    have hn : ¬n ≤ 3 := fun h => hlate n h rfl
    refine Or.inr (Or.inr (Or.inr ⟨n - 6, ?_⟩))
    congr 1
    omega

/-- A call that returns an error leaves nothing behind exactly if it is turned away before it
creates its user or nothing goes wrong after that. -/
theorem leavesNothing_iff (cfg : Config) (db : Database) (req : SetupRequest)
    (position : Option Nat) :
    LeavesNothing cfg db req position ↔
      TurnedAway cfg db req position ∨ GoesThrough db req position := by
  constructor
  · intro hleaves
    by_cases hturned : TurnedAway cfg db req position
    · exact Or.inl hturned
    right
    have hcount : ¬0 < db.users.rows.entries.length := fun h => hturned (.completed h)
    cases hpassword : Auth.validatePasswordWithContext cfg.auth req.password req.email with
    | some message => exact absurd (.password message hpassword) hturned
    | none =>
        cases hhash : cfg.auth.hash db.drawn req.password with
        | none => exact absurd (.hashing hhash) hturned
        | some passwordHash =>
            have huser : UserAccepted db (req.user cfg passwordHash) := by
              by_contra huser
              exact hturned (.user passwordHash hhash huser)
            have hlate : ∀ n, n ≤ 3 → position ≠ some n :=
              fun n hn heq => hturned (.failing n hn heq)
            -- whatever leaves the user behind contradicts the premise
            have hno : ∀ db', db'.users = (db.withUser (req.user cfg passwordHash)).users →
                ∀ message, machine.runFailing position (req.body cfg) db ≠
                  (db', .error message) := by
              intro db' husers message hrun
              have hsame := hleaves message (by rw [hrun])
              rw [hrun] at hsame
              exact withUser_ne _ (husers.symm.trans hsame.1)
            have h4 : position ≠ some 4 := by
              rintro rfl
              obtain ⟨message, hrun⟩ := run_of_position_four hcount hpassword hhash huser
              exact hno _ rfl message hrun
            have hcreated : ∃ created, (db.withUser (req.user cfg passwordHash)).createOwned
                (req.workspace db.users.next) = .ok created := by
              cases howned : (db.withUser (req.user cfg passwordHash)).createOwned
                  (req.workspace db.users.next) with
              | ok created => exact ⟨created, rfl⟩
              | error message =>
                  have hposition : position = none ∨ ∃ n, position = some (n + 5) := by
                    rcases position_cases position hlate with h | rfl | rfl | ⟨n, rfl⟩
                    · exact absurd h h4
                    · exact Or.inr ⟨0, rfl⟩
                    · exact Or.inl rfl
                    · exact Or.inr ⟨n + 1, rfl⟩
                  obtain ⟨message', hrun⟩ :=
                    run_of_rejected hcount hpassword hhash huser howned hposition
                  exact absurd hrun (hno _ rfl message')
            have hsome : ((db.withUser (req.user cfg passwordHash)).users.get?
                (req.workspace db.users.next).ownerID).isSome = true := by
              simp [Database.withUser, SetupRequest.workspace, Ledger.get?_add]
            obtain ⟨hname, hslug, hfree, hmember⟩ := (createOwned_ok_iff hsome).mp hcreated
            have h5 : position ≠ some 5 := by
              rintro rfl
              obtain ⟨⟨db₂, workspaceID⟩, hcreated⟩ := hcreated
              obtain ⟨message, hrun⟩ :=
                run_of_position_five hcount hpassword hhash huser hcreated
              obtain ⟨-, hdb₂, -⟩ := createOwned_eq_ok hcreated
              exact hno db₂ (by rw [hdb₂]; rfl) message hrun
            exact ⟨⟨h4, h5⟩, hname, hslug, hfree, hmember⟩
  · intro hcases message hmessage
    by_cases hturned : TurnedAway cfg db req position
    · exact leavesNothing_of_turnedAway hturned
    have hthrough := hcases.resolve_left hturned
    have hcount : ¬0 < db.users.rows.entries.length := fun h => hturned (.completed h)
    cases hpassword : Auth.validatePasswordWithContext cfg.auth req.password req.email with
    | some message => exact absurd (.password message hpassword) hturned
    | none =>
        cases hhash : cfg.auth.hash db.drawn req.password with
        | none => exact absurd (.hashing hhash) hturned
        | some passwordHash =>
            have huser : UserAccepted db (req.user cfg passwordHash) := by
              by_contra huser
              exact hturned (.user passwordHash hhash huser)
            have hsome : ((db.withUser (req.user cfg passwordHash)).users.get?
                (req.workspace db.users.next).ownerID).isSome = true := by
              simp [Database.withUser, SetupRequest.workspace, Ledger.get?_add]
            obtain ⟨⟨db₂, workspaceID⟩, hcreated⟩ := (createOwned_ok_iff hsome).mpr
              ⟨hthrough.name, hthrough.slug, hthrough.free, hthrough.member⟩
            have hposition : position = none ∨ ∃ n, position = some (n + 6) := by
              rcases position_cases position fun n hn heq => hturned (.failing n hn heq) with
                h | h | h
              · exact absurd h hthrough.position.1
              · exact absurd h hthrough.position.2
              · exact h
            have hend := run_of_created hcount hpassword hhash huser hcreated hposition
            rw [hend] at hmessage
            exact nomatch hmessage

end Execution

/-! ## Concurrent calls -/

/-- Any number of setup calls at a time, while time passes. -/
def setupSystem (cfg : Config) : System Database SetupRequest Call Answer Result where
  body := fun req => req.body cfg
  exec := Database.exec
  fallible := fun _ => true
  sticky := false
  enabled := fun _ _ => True
  begin := fun db _ => db
  done := fun db _ _ => db
  stop := fun db _ => db
  env := fun db db' => ∃ t, db.now ≤ t ∧ db' = { db with now := t }

instance (cfg : Config) (db : Database) (req : SetupRequest) :
    Decidable ((setupSystem cfg).enabled db req) :=
  inferInstanceAs (Decidable True)

/-- A world of setup calls. -/
abbrev SetupWorld := World Database SetupRequest Call Answer Result

/-- What a call has created and has not made use of yet. -/
inductive Ticket where
  | user (id : Nat)
  | workspace (id : Nat)
deriving DecidableEq

/-- A user is made the owner of one workspace, and a workspace is reported once. -/
def setupTickets : Tickets SetupRequest Call Answer Result Ticket where
  gives := fun c r =>
    match c, r with
    | .createUser _, some id => some (.user id)
    | .createOwned _, .ok id => some (.workspace id)
    | _, _ => none
  uses := fun c r =>
    match c, r with
    | .createOwned ws, .ok _ => some (.user ws.ownerID)
    | _, _ => none
  redeems := fun _ a =>
    match a with
    | .initialized _ workspaceID => some (.workspace workspaceID)
    | _ => none

/-- A user or a workspace with that ID has been created. -/
def Created (db : Database) : Ticket → Prop
  | .user id => id < db.users.next
  | .workspace id => id < db.workspaces.next

/-! ### What one command does -/

/-- A new user is the next one. -/
theorem createUser_cases (db : Database) (user : User) :
    db.exec (.createUser user) = (db, none) ∨
      db.exec (.createUser user) =
        ({ db with users := db.users.add user }, some db.users.next) := by
  by_cases huser : UserAccepted db user
  · exact Or.inr (exec_createUser_of huser)
  · exact Or.inl (exec_createUser_of_not huser)

/-- A new workspace is the next one. -/
theorem createOwned_cases (db : Database) (ws : Workspace) :
    (∃ message, db.exec (.createOwned ws) = (db, .error message)) ∨
      db.exec (.createOwned ws) = (db.owned ws, .ok db.workspaces.next) := by
  cases hcreate : db.createOwned ws with
  | error message => exact Or.inl ⟨message, by rw [Database.exec, hcreate, committed]⟩
  | ok created =>
      obtain ⟨db', id⟩ := created
      obtain ⟨rfl, rfl, -⟩ := createOwned_eq_ok hcreate
      exact Or.inr (by rw [Database.exec, hcreate, committed])

/-- Every new workspace uses up the ticket of its owner. -/
theorem workspaces_next_exec (db : Database) (c : Call) :
    (db.exec c).1.workspaces.next =
      db.workspaces.next + (setupTickets.uses c (db.exec c).2).toList.length := by
  have hframe : c.writes .workspaces = false → setupTickets.uses c (db.exec c).2 = none →
      (db.exec c).1.workspaces.next =
        db.workspaces.next + (setupTickets.uses c (db.exec c).2).toList.length := by
    intro hwrites huses
    have hsame : (db.exec c).1.workspaces = db.workspaces := sameTable_exec db hwrites
    rw [hsame, huses]
    rfl
  cases c with
  | updateWorkspace id name slug description =>
      simp only [Database.exec]
      split_ifs
      · simp [setupTickets]
      · rfl
  | createOwned ws =>
      obtain ⟨message, heq⟩ | heq := createOwned_cases db ws
      · rw [heq]
        rfl
      · rw [heq]
        rfl
  | _ => exact hframe rfl rfl

/-- Users and workspaces that have been created stay created. -/
theorem created_exec {db : Database} (c : Call) {x : Ticket} (hcreated : Created db x) :
    Created (db.exec c).1 x := by
  cases x with
  | user id =>
      have hsame : c.writes .users = false → Created (db.exec c).1 (.user id) := by
        intro hwrites
        have husers : (db.exec c).1.users = db.users := sameTable_exec db hwrites
        rwa [Created, husers]
      cases c with
      | createUser user =>
          obtain heq | heq := createUser_cases db user
          · rwa [heq]
          · rw [heq]
            exact Nat.lt_succ_of_lt hcreated
      | _ => exact hsame rfl
  | workspace id =>
      have hnext := workspaces_next_exec db c
      exact Nat.lt_of_lt_of_le hcreated (by omega)

/-- What is given has not been created before. -/
theorem created_of_gives {db : Database} (c : Call) {x : Ticket}
    (hgives : setupTickets.gives c (db.exec c).2 = some x) :
    ¬Created db x ∧ Created (db.exec c).1 x := by
  cases c with
  | createUser user =>
      obtain heq | heq := createUser_cases db user
      · rw [heq] at hgives
        exact nomatch hgives
      · rw [heq] at hgives ⊢
        obtain rfl := Option.some.inj hgives
        exact ⟨Nat.lt_irrefl _, Nat.lt_succ_self _⟩
  | createOwned ws =>
      obtain ⟨message, heq⟩ | heq := createOwned_cases db ws
      · rw [heq] at hgives
        exact nomatch hgives
      · rw [heq] at hgives ⊢
        obtain rfl := Option.some.inj hgives
        exact ⟨Nat.lt_irrefl _, Nat.lt_succ_self _⟩
  | _ => exact nomatch hgives

/-! ### The body -/

/-- A command that uses no ticket. -/
theorem holds_of_uses {req : SetupRequest} {m : Memory Call Answer} {c : Call}
    (huses : ∀ r, setupTickets.uses c r = none) : setupTickets.Holds req m c := by
  intro r x hx
  rw [huses r] at hx
  exact nomatch hx

/-- An error uses no ticket. -/
theorem redeems_error {req : SetupRequest} {m : Memory Call Answer} (message : GoString) :
    setupTickets.Redeems req m (.error message) :=
  fun _ hx => nomatch hx

/-- The setup uses only what it has created. -/
theorem safe_setup (cfg : Config) (req : SetupRequest) :
    Safe setupTickets.Holds req (setupTickets.Redeems req) [] (req.body cfg) := by
  have hnone : ∀ {m : Memory Call Answer} {c : Call}, (∀ r, setupTickets.uses c r = none) →
      setupTickets.Holds req m c := fun h => holds_of_uses h
  unfold SetupRequest.body setupInitialize
  refine safe_call (hnone fun _ => rfl) ?_
  rintro (_ | count)
  · exact redeems_error _
  dsimp only
  split_ifs
  · exact redeems_error _
  split
  · exact redeems_error _
  refine safe_call (hnone fun _ => rfl) ?_
  rintro (_ | salt)
  · exact redeems_error _
  dsimp only
  split
  · exact redeems_error _
  refine safe_call (hnone fun _ => rfl) ?_
  rintro (_ | _)
  · exact redeems_error _
  unfold storeUser
  refine safe_call (hnone fun _ => rfl) ?_
  rintro (_ | _ | userID)
  · exact redeems_error _
  · exact redeems_error _
  refine safe_call ?_ ?_
  · rintro (message | workspaceID) x hx
    · exact absurd hx.symm (Option.some_ne_none x)
    · obtain rfl := Option.some.inj hx
      exact List.mem_append_left _ (List.mem_singleton_self _)
  rintro (_ | message | workspaceID)
  · exact redeems_error _
  · exact redeems_error _
  refine safe_call (hnone fun _ => rfl) ?_
  rintro (_ | token)
  · exact redeems_error _
  · intro x hx
    obtain rfl := Option.some.inj hx
    simp [Tickets.hand, remember, setupTickets]

theorem issued_setup (cfg : Config) : setupTickets.Issued (setupSystem cfg) Created where
  fresh := fun _ c _ => created_of_gives c
  exec := fun _ c _ => created_exec c
  begins := fun _ _ _ h => h
  done := fun _ _ _ _ h => h
  stop := fun _ _ _ h => h
  env := by
    rintro db db' x ⟨t, -, rfl⟩ h
    exact h
  safe := safe_setup cfg

/-! ### Runs -/

/-- A call creates its user only while there is none. -/
def FirstUser (db : Database) (_ : SetupRequest) : Call → Prop
  | .createUser _ => db.users.rows.entries.length = 0
  | _ => True

instance (db : Database) (req : SetupRequest) (c : Call) : Decidable (FirstUser db req c) := by
  cases c with
  | createUser user => exact inferInstanceAs (Decidable (_ = _))
  | _ => exact isTrue trivial

/-- The user and the workspace of a call that has succeeded. -/
def success : Event SetupRequest Call Result → Option (Nat × Nat)
  | .returned _ (.initialized userID workspaceID) => some (userID, workspaceID)
  | _ => none

/-- The setup has happened at most once. -/
structure Once (w : SetupWorld) : Prop where
  successes : (w.log.filterMap success).length ≤ 1
  users : w.store.users.rows.entries.length ≤ 1
  workspaces : w.store.workspaces.rows.entries.length ≤ 1

/-- The owner of a workspace that has been created. -/
def Ticket.userID : Ticket → Option Nat
  | .user id => some id
  | .workspace _ => none

/-- A workspace that has been reported. -/
def Ticket.workspaceID : Ticket → Option Nat
  | .user _ => none
  | .workspace id => some id

/-- What the counters and the log have to do with the tickets that have been used. -/
structure Counted (w : SetupWorld) (g : List Ticket) : Prop where
  users : w.store.users.next ≤ 1
  empty : w.store.users.rows.entries.length = 0 → w.store.users.next = 0
  workspaces : w.store.workspaces.next = (g.filterMap Ticket.userID).length
  successes : (w.log.filterMap success).map Prod.snd = g.filterMap Ticket.workspaceID

/-- A table has a row after one has been added. -/
theorem length_add_ne_zero {V : Type} (t : Ledger V) (v : V) :
    (t.add v).rows.entries.length ≠ 0 := by
  intro hlength
  have hget : (t.add v).get? t.next = some v := by
    rw [Ledger.get?_add, if_pos rfl]
  have hmem := Table.get?_eq_some_iff.mp hget
  rw [List.eq_nil_of_length_eq_zero hlength] at hmem
  exact absurd hmem List.not_mem_nil

/-- A command keeps the count. -/
theorem Counted.exec {w : SetupWorld} {g : List Ticket} (h : Counted w g) {req : SetupRequest}
    {c : Call} (hfirst : FirstUser w.store req c)
    (threads : Nat → Option (Thread SetupRequest Call Answer Result)) :
    Counted ⟨(w.store.exec c).1, threads, .ran req c :: w.log⟩
      ((setupTickets.uses c (w.store.exec c).2).toList ++ g) := by
  have husers : ∀ x, setupTickets.uses c (w.store.exec c).2 = some x →
      ∃ id, x = .user id := by
    intro x hx
    cases c with
    | createOwned ws =>
        obtain ⟨message, heq⟩ | heq := createOwned_cases w.store ws
        · rw [heq] at hx
          exact nomatch hx
        · rw [heq] at hx
          exact ⟨_, (Option.some.inj hx).symm⟩
    | _ => exact nomatch hx
  have hfiltered : ((setupTickets.uses c (w.store.exec c).2).toList.filterMap
      Ticket.userID).length = (setupTickets.uses c (w.store.exec c).2).toList.length ∧
      (setupTickets.uses c (w.store.exec c).2).toList.filterMap Ticket.workspaceID = [] := by
    cases huses : setupTickets.uses c (w.store.exec c).2 with
    | none => exact ⟨rfl, rfl⟩
    | some x =>
        obtain ⟨id, rfl⟩ := husers x huses
        exact ⟨rfl, rfl⟩
  have hcounts : (w.store.exec c).1.users.next ≤ 1 ∧
      ((w.store.exec c).1.users.rows.entries.length = 0 → (w.store.exec c).1.users.next = 0) := by
    cases c with
    | createUser user =>
        obtain heq | heq := createUser_cases w.store user
        · rw [heq]
          exact ⟨h.users, h.empty⟩
        · rw [heq]
          have hnext := h.empty hfirst
          exact ⟨Nat.succ_le_of_lt (by omega), fun hzero => absurd hzero (length_add_ne_zero _ _)⟩
    | _ =>
        rw [show (w.store.exec _).1.users = w.store.users from
          sameTable_exec w.store (t := .users) rfl]
        exact ⟨h.users, h.empty⟩
  refine ⟨hcounts.1, hcounts.2, ?_, ?_⟩
  · rw [workspaces_next_exec, h.workspaces, List.filterMap_append, List.length_append, hfiltered.1]
    omega
  · rw [List.filterMap_append, hfiltered.2]
    exact h.successes

/-- A call that is over keeps the count. -/
theorem Counted.finish {w : SetupWorld} {g : List Ticket} (h : Counted w g) (req : SetupRequest)
    (a : Result) (threads : Nat → Option (Thread SetupRequest Call Answer Result)) :
    Counted ⟨w.store, threads, .returned req a :: w.log⟩
      ((setupTickets.redeems req a).toList ++ g) := by
  cases a with
  | initialized userID workspaceID =>
      refine ⟨h.users, h.empty, h.workspaces, ?_⟩
      exact congrArg (workspaceID :: ·) h.successes
  | _ => exact ⟨h.users, h.empty, h.workspaces, h.successes⟩

/-- The count is kept while every call that creates its user finds no users. -/
theorem counted_of_run {cfg : Config} {db : Database} {w : SetupWorld} {g : List Ticket}
    (hfresh : Fresh db) (husers : db.users = .empty)
    (hrun : Run ((setupSystem cfg).Tracked ((setupSystem cfg).record setupTickets.used))
      (fun s l => System.Admits FirstUser s.1 l) (World.initial db, []) (w, g)) :
    Counted w g := by
  refine hrun.invariant (I := fun s => Counted s.1 s.2) ?_ ?_
  · refine ⟨?_, ?_, ?_, rfl⟩
    · simp [World.initial, husers, Ledger.empty]
    · simp [World.initial, husers, Ledger.empty]
    · simp [World.initial, hfresh.workspaces, Ledger.empty]
  · rintro ⟨w, g⟩ l ⟨w', g'⟩ h hadmits ⟨hstep, htrack⟩
    cases hstep with
    | start hfree henabled => exact htrack ▸ ⟨h.users, h.empty, h.workspaces, h.successes⟩
    | @exec i op c k failed hthread hlive =>
        have hrecord : g' = (setupTickets.uses c (w.store.exec c).2).toList ++ g :=
          htrack.trans (System.record_exec hthread)
        rw [hrecord]
        exact h.exec (hadmits i op c k failed rfl hthread) _
    | fail hthread hfallible => exact htrack ▸ ⟨h.users, h.empty, h.workspaces, h.successes⟩
    | stop hthread => exact htrack ▸ ⟨h.users, h.empty, h.workspaces, h.successes⟩
    | @finish i op a failed hthread =>
        have hrecord : g' = (setupTickets.redeems op a).toList ++ g :=
          htrack.trans (System.record_finish hthread)
        rw [hrecord]
        exact h.finish op a _
    | env henv =>
        obtain ⟨t, -, rfl⟩ := henv
        exact htrack ▸ ⟨h.users, h.empty, h.workspaces, h.successes⟩

/-- The setup happens at most once while every call that creates its user finds no users. -/
theorem once_of_run {cfg : Config} {db : Database} {w : SetupWorld} (hfresh : Fresh db)
    (husers : db.users = .empty)
    (hrun : Run (setupSystem cfg).Step (System.Admits FirstUser) (World.initial db) w) :
    Once w := by
  obtain ⟨g, htracked⟩ := System.exists_tracked
    ((setupSystem cfg).record setupTickets.used) hrun []
  have hcounted := counted_of_run hfresh husers htracked
  obtain ⟨hnodup, hissued⟩ := Tickets.run (issued_setup cfg) htracked
  -- at most one user has been created, so that at most one workspace has an owner
  have howners : (g.filterMap Ticket.userID).length ≤ 1 := by
    refine (length_le_of_nodup (hnodup.filterMap ?_) ?_).trans hcounted.users
    · rintro (id | id) (id' | id') x hx hx'
      · rw [Option.some.inj hx, Option.some.inj hx']
      · exact nomatch hx'
      · exact nomatch hx
      · exact nomatch hx
    · intro id hid
      obtain ⟨x, hx, hxid⟩ := List.mem_filterMap.mp hid
      cases x with
      | user id' =>
          obtain rfl := Option.some.inj hxid
          exact hissued _ hx
      | workspace id' => exact nomatch hxid
  have hreported : (g.filterMap Ticket.workspaceID).length ≤ w.store.workspaces.next := by
    refine length_le_of_nodup (hnodup.filterMap ?_) ?_
    · rintro (id | id) (id' | id') x hx hx'
      · exact nomatch hx
      · exact nomatch hx
      · exact nomatch hx'
      · rw [Option.some.inj hx, Option.some.inj hx']
    · intro id hid
      obtain ⟨x, hx, hxid⟩ := List.mem_filterMap.mp hid
      cases x with
      | user id' => exact nomatch hxid
      | workspace id' =>
          obtain rfl := Option.some.inj hxid
          exact hissued _ hx
  have hworkspaces := hcounted.workspaces
  have hsuccesses : (w.log.filterMap success).length = (g.filterMap Ticket.workspaceID).length := by
    rw [← hcounted.successes, List.length_map]
  have hrows := w.store.workspaces.length_le_next
  have hrows' := w.store.users.length_le_next
  have hnext := hcounted.users
  exact ⟨by omega, by omega, by omega⟩

/-- Which calls that fail leave nothing behind, and that the setup happens at most once while
every call that creates its user finds no users. -/
theorem setup_once (cfg : Config) :
    (∀ db req position, LeavesNothing cfg db req position ↔
      TurnedAway cfg db req position ∨ GoesThrough db req position) ∧
    ∀ db w, Fresh db → db.users = .empty →
      Run (setupSystem cfg).Step (System.Admits FirstUser) (World.initial db) w → Once w :=
  ⟨leavesNothing_iff cfg, fun _ _ hfresh husers hrun => once_of_run hfresh husers hrun⟩

/-! ## Setups of an empty database -/

/-- A database without users. -/
def noUsers : Database :=
  { threeUsers with users := .empty }

/-- The setup by user {lit}`a@x`. -/
def acmeSetup : SetupRequest :=
  ⟨"a@x".toList, "secret-password".toList, [], [], "acme".toList, "acme".toList⟩

/-- The setup by user {lit}`b@x`. -/
def otherSetup : SetupRequest :=
  ⟨"b@x".toList, "secret-password".toList, [], [], "other".toList, "other".toList⟩

/-- A setup and another one after it, and a setup that cannot count the users. -/
theorem setup_once_acme :
    (∃ w : SetupWorld, w.log.filterMap success = [(0, 0)] ∧ Once w) ∧
      LeavesNothing openConfig noUsers acmeSetup (some 0) := by
  constructor
  · obtain ⟨w, hsteps, htest⟩ := System.exists_of_steps? (setupSystem openConfig)
      (System.admits FirstUser) (World.initial noUsers)
      (Label.alone 0 acmeSetup 6 ++ Label.alone 0 otherSetup 1)
      (fun w => w.log.filterMap success = [(0, 0)]) (by decide +kernel)
    refine ⟨w, of_decide_eq_true htest, ?_⟩
    exact (setup_once openConfig).2 noUsers w ⟨rfl, rfl, rfl, rfl, rfl⟩ rfl
      (System.run_of_steps? (fun _ _ => System.admits_sound) hsteps)
  · refine ((setup_once openConfig).1 noUsers acmeSetup (some 0)).mpr (Or.inl ?_)
    exact .failing 0 (Nat.zero_le _) rfl

/-- Both setups count the users before either creates one. -/
def bothLabels : List (Label SetupRequest) :=
  [[.start 0 acmeSetup], Label.execs 0 1, Label.alone 1 otherSetup 6, Label.execs 0 5,
    [.finish 0]].flatten

/-- A transaction that fails leaves the user behind, and two setups that overlap both
happen. -/
theorem setup_not_once :
    ¬LeavesNothing openConfig noUsers acmeSetup (some 4) ∧
      ∃ w : SetupWorld, Run (setupSystem openConfig).Step (fun _ _ => True)
        (World.initial noUsers) w ∧ w.log.filterMap success = [(1, 1), (0, 0)] ∧
        (∀ user ∈ w.store.users.rows.entries, user.2.isSuperAdmin = true) ∧
        w.store.users.rows.entries.length = 2 ∧ w.store.workspaces.rows.entries.length = 2 := by
  constructor
  · intro hleaves
    have hcount : ¬0 < noUsers.users.rows.entries.length := Nat.lt_irrefl 0
    have hpassword : Auth.validatePasswordWithContext openConfig.auth acmeSetup.password
        acmeSetup.email = none := by decide +kernel
    have huser : UserAccepted noUsers (acmeSetup.user openConfig acmeSetup.password) := by
      unfold UserAccepted
      decide +kernel
    obtain ⟨message, hrun⟩ := run_of_position_four hcount hpassword rfl huser
    have hsame := hleaves message (by rw [hrun])
    rw [hrun] at hsame
    exact withUser_ne _ hsame.1
  · obtain ⟨w, hsteps, htest⟩ := System.exists_of_steps? (setupSystem openConfig)
      (fun _ _ => true) (World.initial noUsers) bothLabels
      (fun w => w.log.filterMap success = [(1, 1), (0, 0)] ∧
        (∀ user ∈ w.store.users.rows.entries, user.2.isSuperAdmin = true) ∧
        w.store.users.rows.entries.length = 2 ∧ w.store.workspaces.rows.entries.length = 2)
      (by decide +kernel)
    obtain ⟨hsuccess, hadmins, husers, hworkspaces⟩ := of_decide_eq_true htest
    exact ⟨w, System.run_of_steps? (fun _ _ _ => trivial) hsteps, hsuccess, hadmins, husers,
      hworkspaces⟩

end Rbac
end Veilence
