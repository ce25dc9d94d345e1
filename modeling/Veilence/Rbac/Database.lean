import Mathlib
import Veilence.Auth.Database

/-!
# The rows and the calls of the RBAC service

The tables of users, permissions, workspaces, roles, memberships, invitations and API
keys, and the calls that the RBAC service, the first-time setup and the permission
middleware make.  A call either succeeds and takes effect at once or fails without effect.
A transaction is one call: the statements inside it take effect together, or none does.

Users are written outside the transactions that create a workspace or a membership, so
these writes are calls of their own.  The unique index on memberships, the foreign keys
and the widths of columns reject rows.  Random tokens are numbered by their draws.

Main results:

- Theorems {lit}`createOwned_eq_ok`, {lit}`accept_eq_ok` and {lit}`addMember_eq_ok`: what
  the transactions do when they commit.
- Theorem {lit}`sameTable_exec`: a call leaves the tables alone that it does not write.
-/

namespace Veilence
namespace Rbac

open Go Foundation

open Auth (Token TokenHash User fitsColumn rowsWhere)

/-! ## Rows -/

/-- A resource and an action on it. -/
structure Permission where
  resource : GoString
  action : GoString
deriving DecidableEq

/-- A role of a workspace with its permissions. -/
structure Role where
  workspaceID : Nat
  name : GoString
  description : GoString
  isSystem : Bool
  permissions : List Permission
deriving DecidableEq

/-- A workspace. -/
structure Workspace where
  name : GoString
  slug : GoString
  description : GoString
  ownerID : Nat
  isActive : Bool
deriving DecidableEq

/-- A membership, {lit}`WorkspaceMember`. -/
structure Member where
  workspaceID : Nat
  userID : Nat
  roleID : Nat
  joinedAt : Int
deriving DecidableEq

/-- An invitation to a workspace. -/
structure Invitation where
  workspaceID : Nat
  email : GoString
  roleID : Nat
  tokenHash : TokenHash
  invitedBy : Nat
  expiresAt : Int
  acceptedAt : Option Int
  declinedAt : Option Int
deriving DecidableEq

/-- An API key.  The hash is missing where hashing failed. -/
structure APIKey where
  userID : Nat
  workspaceID : Nat
  name : GoString
  keyHash : Option TokenHash
  keyPrefix : GoString
  role : GoString
  expiresAt : Option Int
  isActive : Bool
deriving DecidableEq

/-- The database, with the number of tokens drawn so far and the time. -/
structure Database where
  users : Ledger User
  permissions : List Permission
  workspaces : Ledger Workspace
  roles : Ledger Role
  members : Ledger Member
  invitations : Ledger Invitation
  apiKeys : Ledger APIKey
  drawn : Nat
  now : Int

/-! ## Default roles -/

/-- {lit}`RoleOwner`. -/
def roleOwner : GoString :=
  "owner".toList

/-- {lit}`RoleAdmin`. -/
def roleAdmin : GoString :=
  "admin".toList

/-- {lit}`RoleMember`. -/
def roleMember : GoString :=
  "member".toList

/-- {lit}`RoleViewer`. -/
def roleViewer : GoString :=
  "viewer".toList

/-- The key of a permission in {lit}`permMap`. -/
def permissionKey (p : Permission) : GoString :=
  p.resource ++ ':' :: p.action

/-- {lit}`permMap`. -/
def permMap (allPerms : List Permission) : Table GoString Permission :=
  Table.empty.insertAll (allPerms.map fun p => (permissionKey p, p))

/-- {lit}`lookupPerms`. -/
def lookupPerms (allPerms : List Permission) (keys : List GoString) : List Permission :=
  keys.filterMap (permMap allPerms).get?

/-- The keys of all permissions. -/
def allKeys (allPerms : List Permission) : List GoString :=
  (permMap allPerms).keys

/-- All keys but that for deleting the workspace. -/
def adminKeys (allPerms : List Permission) : List GoString :=
  (allKeys allPerms).filter (· ≠ "workspace:delete".toList)

/-- The keys of a member. -/
def memberKeys : List GoString :=
  ["packages:read", "packages:write", "alerts:read", "alerts:write", "releases:read",
    "settings:read", "members:read", "roles:read", "workspace:read", "audit:read",
    "api_keys:read", "api_keys:write", "notifications:read"].map String.toList

/-- The keys of a viewer. -/
def viewerKeys : List GoString :=
  ["packages:read", "alerts:read", "releases:read", "settings:read", "workspace:read",
    "members:read", "roles:read", "audit:read", "api_keys:read",
    "notifications:read"].map String.toList

/-- An entry of {lit}`roleDefinitions`. -/
structure RoleDefinition where
  name : GoString
  description : GoString
  permKeys : List GoString

/-- {lit}`roleDefinitions`. -/
def roleDefinitions (allPerms : List Permission) : List RoleDefinition :=
  [⟨roleOwner, "Full access to the workspace".toList, allKeys allPerms⟩,
    ⟨roleAdmin, "Administrative access (cannot delete workspace)".toList, adminKeys allPerms⟩,
    ⟨roleMember, "Standard member with read/write access".toList, memberKeys⟩,
    ⟨roleViewer, "Read-only access".toList, viewerKeys⟩]

/-- The role that {lit}`CreateDefaultRoles` makes of an entry. -/
def RoleDefinition.role (definition : RoleDefinition) (allPerms : List Permission)
    (workspaceID : Nat) : Role where
  workspaceID := workspaceID
  name := definition.name
  description := definition.description
  isSystem := true
  permissions := lookupPerms allPerms definition.permKeys

/-! ## Statements -/

/-- The columns that {lit}`UpdateWorkspace` of the repository writes. -/
def Workspace.written (ws : Workspace) (name slug description : GoString) : Workspace :=
  { ws with name := name, slug := slug, description := description }

/-- The column that {lit}`UpdateMember` writes. -/
def Member.withRole (m : Member) (roleID : Nat) : Member :=
  { m with roleID := roleID }

/-- The rows of a user in a workspace. -/
def Database.membersOf (db : Database) (userID workspaceID : Nat) : List (Nat × Member) :=
  rowsWhere db.members fun m => m.workspaceID = workspaceID ∧ m.userID = userID

/-- {lit}`CreateWorkspace` of the repository. -/
def Database.createWorkspace (db : Database) (ws : Workspace) : Option (Database × Nat) :=
  if fitsColumn 100 ws.name ∧ fitsColumn 100 ws.slug ∧ (db.users.get? ws.ownerID).isSome ∧
      (rowsWhere db.workspaces fun other => other.slug = ws.slug).isEmpty then
    some ({ db with workspaces := db.workspaces.add ws }, db.workspaces.next)
  else none

/-- {lit}`CreateRole` for each entry, in order. -/
def Database.createRoles (db : Database) (workspaceID : Nat) :
    List RoleDefinition → Database × List (Nat × Role)
  | [] => (db, [])
  | definition :: rest =>
      let role := definition.role db.permissions workspaceID
      let created := Database.createRoles { db with roles := db.roles.add role } workspaceID rest
      (created.1, (db.roles.next, role) :: created.2)

/-- {lit}`CreateDefaultRoles`. -/
def Database.createDefaultRoles (db : Database) (workspaceID : Nat) :
    Database × List (Nat × Role) :=
  db.createRoles workspaceID (roleDefinitions db.permissions)

/-- {lit}`CreateMember`. -/
def Database.createMember (db : Database) (m : Member) : Option Database :=
  if (db.workspaces.get? m.workspaceID).isSome ∧ (db.users.get? m.userID).isSome ∧
      (db.roles.get? m.roleID).isSome ∧ (db.membersOf m.userID m.workspaceID).isEmpty then
    some { db with members := db.members.add m }
  else none

/-- The row that {lit}`CreateInvitation` stores. -/
def Invitation.pending (invitation : Invitation) : Invitation :=
  { invitation with acceptedAt := none, declinedAt := none }

/-- The columns that {lit}`UpdateInvitation` writes. -/
def Invitation.written (row invitation : Invitation) : Invitation :=
  { row with
    acceptedAt := invitation.acceptedAt
    declinedAt := invitation.declinedAt
    tokenHash := invitation.tokenHash
    expiresAt := invitation.expiresAt }

/-- {lit}`UpdateInvitation`.  An update of a row that is gone succeeds. -/
def Database.updateInvitation (db : Database) (id : Nat) (invitation : Invitation) :
    Option Database :=
  match db.invitations.get? id with
  | some row =>
      if row.workspaceID = invitation.workspaceID then
        if (db.invitations.rows.entries.filter fun e =>
            e.1 ≠ id ∧ e.2.tokenHash = invitation.tokenHash).isEmpty then
          some { db with invitations := db.invitations.modify id fun r => r.written invitation }
        else none
      else some db
  | none => some db

/-! ## Transactions -/

/-- The transaction of {lit}`CreateWorkspace` and of {lit}`Initialize`. -/
def Database.createOwned (db : Database) (ws : Workspace) : Except GoString (Database × Nat) :=
  match db.createWorkspace ws with
  | none => .error "creating workspace".toList
  | some (db, workspaceID) =>
      let (db, roles) := db.createDefaultRoles workspaceID
      match roles.find? fun role => role.2.name = roleOwner with
      | none => .error "owner role not created".toList
      | some (roleID, _) =>
          match db.createMember ⟨workspaceID, ws.ownerID, roleID, db.now⟩ with
          | none => .error "creating owner membership".toList
          | some db => .ok (db, workspaceID)

/-- The transaction of {lit}`AcceptInvitation` and of {lit}`AcceptInvitationByID`. -/
def Database.accept (db : Database) (id : Nat) (invitation : Invitation) (userID : Nat) :
    Except GoString (Database × Member) :=
  if (db.membersOf userID invitation.workspaceID).isEmpty then
    match db.updateInvitation id { invitation with acceptedAt := some db.now } with
    | none => .error "updating invitation".toList
    | some db =>
        let member : Member := ⟨invitation.workspaceID, userID, invitation.roleID, db.now⟩
        match db.createMember member with
        | none => .error "creating membership".toList
        | some db => .ok (db, member)
  else .error "user is already a member of this workspace".toList

/-- The transaction of {lit}`AddUserToWorkspace`.  A user who has just been created is not
looked up among the members. -/
def Database.addMember (db : Database) (existing : Bool) (workspaceID userID roleID : Nat) :
    Except GoString (Database × Member) :=
  if existing = true ∧ (db.membersOf userID workspaceID).isEmpty = false then
    .error "user is already a member of this workspace".toList
  else
    let member : Member := ⟨workspaceID, userID, roleID, db.now⟩
    match db.createMember member with
    | none => .error "creating membership".toList
    | some db => .ok (db, member)

/-! ## Queries on permissions -/

/-- The name of a role. -/
def Database.roleName (db : Database) (roleID : Nat) : GoString :=
  ((db.roles.get? roleID).map Role.name).getD []

/-- {lit}`CheckUserPermission`. -/
def Database.checkUserPermission (db : Database) (userID workspaceID : Nat) (p : Permission) :
    Bool :=
  (db.membersOf userID workspaceID).any fun m =>
    (db.roles.get? m.2.roleID).any fun role => p ∈ role.permissions

/-- {lit}`CheckRolePermission`. -/
def Database.checkRolePermission (db : Database) (workspaceID : Nat) (roleName : GoString)
    (p : Permission) : Bool :=
  (rowsWhere db.roles fun role => role.workspaceID = workspaceID ∧ role.name = roleName).any
    fun role => p ∈ role.2.permissions

/-! ## Calls -/

/-- The calls of the service, of the setup and of the middleware. -/
inductive Call where
  | timeNow
  | drawToken
  | salt
  | beginTransaction
  | countAllUsers
  | findUserByID (id : Nat)
  | findUserByEmail (email : GoString)
  | createUser (user : User)
  | countWorkspacesBySlug (slug : GoString) (excludeID : Option Nat)
  | findWorkspaceByID (id : Nat)
  | updateWorkspace (id : Nat) (name slug description : GoString)
  | createOwned (ws : Workspace)
  | findRoleByIDAndWorkspace (roleID workspaceID : Nat)
  | findMemberByUserAndWorkspace (userID workspaceID : Nat)
  | updateMember (id roleID : Nat)
  | deleteMemberByUserAndWorkspace (userID workspaceID : Nat)
  | addMember (existing : Bool) (workspaceID userID roleID : Nat)
  | createInvitation (invitation : Invitation)
  | findInvitationByTokenHash (tokenHash : TokenHash)
  | findInvitationByID (workspaceID id : Nat)
  | findInvitationByIDGlobal (id : Nat)
  | updateInvitation (id : Nat) (invitation : Invitation)
  | deletePendingInvitation (workspaceID id : Nat)
  | accept (id : Nat) (invitation : Invitation) (userID : Nat)
  | sendInvitationEmail (email : GoString) (token : Token)
  | initiatePasswordReset (email : GoString)
  | findActiveByPrefix (keyPrefix : GoString)
  | createAPIKey (key : APIKey)
  | softDeleteScoped (userID workspaceID keyID : Nat)
  | checkUserPermission (userID workspaceID : Nat) (p : Permission)
  | checkRolePermission (workspaceID : Nat) (roleName : GoString) (p : Permission)
deriving DecidableEq

/-- What a call answers.  A {lit}`Bool` says whether the database accepted or found a row,
a number is the ID of a new row.  A member comes with the name of the role. -/
abbrev Answer : Call → Type
  | .timeNow => Int
  | .drawToken => Token
  | .salt => Nat
  | .countAllUsers => Nat
  | .findUserByID _ => Option User
  | .findUserByEmail _ => Option (Nat × User)
  | .createUser _ => Option Nat
  | .countWorkspacesBySlug _ _ => Nat
  | .findWorkspaceByID _ => Option Workspace
  | .updateWorkspace _ _ _ _ => Bool
  | .createOwned _ => Except GoString Nat
  | .findRoleByIDAndWorkspace _ _ => Option Role
  | .findMemberByUserAndWorkspace _ _ => Option (Nat × Member × GoString)
  | .updateMember _ _ => Bool
  | .deleteMemberByUserAndWorkspace _ _ => Bool
  | .addMember _ _ _ _ => Except GoString Member
  | .createInvitation _ => Option Nat
  | .findInvitationByTokenHash _ => Option (Nat × Invitation)
  | .findInvitationByID _ _ => Option Invitation
  | .findInvitationByIDGlobal _ => Option Invitation
  | .updateInvitation _ _ => Bool
  | .deletePendingInvitation _ _ => Bool
  | .accept _ _ _ => Except GoString Member
  | .findActiveByPrefix _ => List (Nat × APIKey)
  | .createAPIKey _ => Option Nat
  | .softDeleteScoped _ _ _ => Bool
  | .checkUserPermission _ _ _ => Bool
  | .checkRolePermission _ _ _ => Bool
  | _ => Unit

/-- The outcome of a transaction: its effect and its answer, or no effect and the error. -/
def committed {α : Type} (db : Database) :
    Except GoString (Database × α) → Database × Except GoString α
  | .ok (db', a) => (db', .ok a)
  | .error message => (db, .error message)

/-- The outcome of a statement outside a transaction. -/
def accepted (db : Database) : Option Database → Database × Bool
  | some db' => (db', true)
  | none => (db, false)

/-- Carry out a call. -/
def Database.exec (db : Database) : (c : Call) → Database × Answer c
  | .timeNow => (db, db.now)
  | .drawToken => ({ db with drawn := db.drawn + 1 }, ⟨db.drawn⟩)
  | .salt => ({ db with drawn := db.drawn + 1 }, db.drawn)
  | .beginTransaction => (db, ())
  | .countAllUsers => (db, db.users.rows.entries.length)
  | .findUserByID id => (db, db.users.get? id)
  | .findUserByEmail email => (db, (rowsWhere db.users fun u => u.email = email).head?)
  | .createUser user =>
      if fitsColumn 255 user.email ∧ fitsColumn 100 user.firstName ∧
          fitsColumn 100 user.lastName ∧
          (rowsWhere db.users fun u => u.email = user.email).isEmpty then
        ({ db with users := db.users.add user }, some db.users.next)
      else (db, none)
  | .countWorkspacesBySlug slug excludeID =>
      (db, (db.workspaces.rows.entries.filter fun e =>
        e.2.slug = slug ∧ excludeID ≠ some e.1).length)
  | .findWorkspaceByID id => (db, db.workspaces.get? id)
  | .updateWorkspace id name slug description =>
      if fitsColumn 100 name ∧ fitsColumn 100 slug ∧
          (db.workspaces.rows.entries.filter fun e => e.1 ≠ id ∧ e.2.slug = slug).isEmpty then
        ({ db with workspaces := db.workspaces.modify id fun ws => ws.written name slug description },
          true)
      else (db, false)
  | .createOwned ws => committed db (db.createOwned ws)
  | .findRoleByIDAndWorkspace roleID workspaceID =>
      (db, (db.roles.get? roleID).filter fun role => role.workspaceID = workspaceID)
  | .findMemberByUserAndWorkspace userID workspaceID =>
      (db, (db.membersOf userID workspaceID).head?.map fun e => (e.1, e.2, db.roleName e.2.roleID))
  | .updateMember id roleID =>
      if (db.roles.get? roleID).isSome then
        ({ db with members := db.members.modify id fun m => m.withRole roleID }, true)
      else (db, false)
  | .deleteMemberByUserAndWorkspace userID workspaceID =>
      ({ db with members := db.members.removeWhere fun m =>
          m.workspaceID = workspaceID ∧ m.userID = userID },
        (db.membersOf userID workspaceID).isEmpty = false)
  | .addMember existing workspaceID userID roleID =>
      committed db (db.addMember existing workspaceID userID roleID)
  | .createInvitation invitation =>
      if fitsColumn 255 invitation.email ∧ (db.workspaces.get? invitation.workspaceID).isSome ∧
          (db.roles.get? invitation.roleID).isSome ∧ (db.users.get? invitation.invitedBy).isSome ∧
          (rowsWhere db.invitations fun i => i.tokenHash = invitation.tokenHash).isEmpty then
        ({ db with invitations := db.invitations.add invitation.pending },
          some db.invitations.next)
      else (db, none)
  | .findInvitationByTokenHash tokenHash =>
      (db, (rowsWhere db.invitations fun i => i.tokenHash = tokenHash).head?)
  | .findInvitationByID workspaceID id =>
      (db, (db.invitations.get? id).filter fun i => i.workspaceID = workspaceID)
  | .findInvitationByIDGlobal id => (db, db.invitations.get? id)
  | .updateInvitation id invitation => accepted db (db.updateInvitation id invitation)
  | .deletePendingInvitation workspaceID id =>
      match db.invitations.get? id with
      | some row =>
          if row.workspaceID = workspaceID ∧ row.acceptedAt = none ∧ row.declinedAt = none then
            ({ db with invitations := db.invitations.remove id }, true)
          else (db, false)
      | none => (db, false)
  | .accept id invitation userID => committed db (db.accept id invitation userID)
  | .sendInvitationEmail _ _ => (db, ())
  | .initiatePasswordReset _ => (db, ())
  | .findActiveByPrefix keyPrefix =>
      (db, rowsWhere db.apiKeys fun key => key.isActive = true ∧ key.keyPrefix = keyPrefix)
  | .createAPIKey key =>
      if fitsColumn 100 key.name ∧ key.role ∈ [roleViewer, roleMember, roleAdmin] ∧
          (db.users.get? key.userID).isSome ∧ (db.workspaces.get? key.workspaceID).isSome ∧
          (rowsWhere db.apiKeys fun other => other.keyHash = key.keyHash).isEmpty then
        ({ db with apiKeys := db.apiKeys.add key }, some db.apiKeys.next)
      else (db, none)
  | .softDeleteScoped userID workspaceID keyID =>
      match db.apiKeys.get? keyID with
      | some key =>
          if key.userID = userID ∧ key.workspaceID = workspaceID then
            ({ db with apiKeys := db.apiKeys.remove keyID }, true)
          else (db, false)
      | none => (db, false)
  | .checkUserPermission userID workspaceID p =>
      (db, db.checkUserPermission userID workspaceID p)
  | .checkRolePermission workspaceID roleName p =>
      (db, db.checkRolePermission workspaceID roleName p)

/-! ## What the transactions do -/

/-- The roles after {lit}`CreateDefaultRoles`. -/
def withDefaultRoles (roles : Ledger Role) (allPerms : List Permission) (workspaceID : Nat) :
    Ledger Role :=
  roles.addAll ((roleDefinitions allPerms).map fun d => d.role allPerms workspaceID)

/-- The membership of the owner of a new workspace. -/
def ownerMember (db : Database) (ws : Workspace) : Member :=
  ⟨db.workspaces.next, ws.ownerID, db.roles.next, db.now⟩

/-- The database after a workspace has been created. -/
def Database.owned (db : Database) (ws : Workspace) : Database :=
  { db with
    workspaces := db.workspaces.add ws
    roles := withDefaultRoles db.roles db.permissions db.workspaces.next
    members := db.members.add (ownerMember db ws) }

theorem createRoles_fst (db : Database) (workspaceID : Nat) (definitions : List RoleDefinition) :
    (db.createRoles workspaceID definitions).1 =
      { db with roles :=
          db.roles.addAll (definitions.map fun d => d.role db.permissions workspaceID) } := by
  induction definitions generalizing db with
  | nil => rfl
  | cons definition rest ih =>
      rw [Database.createRoles, ih]
      rfl

/-- The owner role is the first of the default roles. -/
theorem find?_createDefaultRoles (db : Database) (workspaceID : Nat) :
    ((db.createDefaultRoles workspaceID).2.find? fun role => role.2.name = roleOwner) =
      some (db.roles.next, (RoleDefinition.mk roleOwner "Full access to the workspace".toList
        (allKeys db.permissions)).role db.permissions workspaceID) := by
  simp [Database.createDefaultRoles, Database.createRoles, roleDefinitions, RoleDefinition.role]

/-- A role that {lit}`CreateDefaultRoles` leaves was there or is one of the four. -/
theorem get?_withDefaultRoles {roles : Ledger Role} {allPerms : List Permission}
    {workspaceID id : Nat} {r : Role}
    (hget : (withDefaultRoles roles allPerms workspaceID).get? id = some r) :
    roles.get? id = some r ∨
      ∃ d ∈ roleDefinitions allPerms, r = d.role allPerms workspaceID ∧ roles.next ≤ id := by
  rw [withDefaultRoles, Ledger.get?_addAll] at hget
  split_ifs at hget with hid
  · exact Or.inl hget
  · obtain ⟨d, hd, rfl⟩ := List.mem_map.mp (List.mem_of_getElem? hget)
    exact Or.inr ⟨d, hd, rfl, Nat.le_of_not_lt hid⟩

/-- {lit}`CreateDefaultRoles` keeps the roles. -/
theorem get?_withDefaultRoles_of_some {roles : Ledger Role} {allPerms : List Permission}
    {workspaceID id : Nat} {r : Role} (hget : roles.get? id = some r) :
    (withDefaultRoles roles allPerms workspaceID).get? id = some r := by
  rw [withDefaultRoles, Ledger.get?_addAll, if_pos (Ledger.lt_of_get? hget), hget]

/-- The owner role of a new workspace. -/
theorem get?_withDefaultRoles_next (roles : Ledger Role) (allPerms : List Permission)
    (workspaceID : Nat) :
    ∃ r, (withDefaultRoles roles allPerms workspaceID).get? roles.next = some r ∧
      r.workspaceID = workspaceID ∧ r.name = roleOwner := by
  rw [withDefaultRoles, Ledger.get?_addAll, if_neg (Nat.lt_irrefl _), Nat.sub_self]
  exact ⟨_, rfl, rfl, rfl⟩

/-- A workspace row that the database accepts. -/
theorem createWorkspace_eq_some {db db' : Database} {ws : Workspace} {workspaceID : Nat}
    (hcreate : db.createWorkspace ws = some (db', workspaceID)) :
    workspaceID = db.workspaces.next ∧ db' = { db with workspaces := db.workspaces.add ws } := by
  rw [Database.createWorkspace] at hcreate
  split_ifs at hcreate
  simp only [Option.some.injEq, Prod.mk.injEq] at hcreate
  exact ⟨hcreate.2.symm, hcreate.1.symm⟩

/-- A membership that the database accepts: its role is there, and the user was no member. -/
theorem createMember_eq_some {db db' : Database} {m : Member}
    (hcreate : db.createMember m = some db') :
    db' = { db with members := db.members.add m } ∧ (∃ r, db.roles.get? m.roleID = some r) ∧
      ∀ id other, db.members.get? id = some other →
        ¬(other.workspaceID = m.workspaceID ∧ other.userID = m.userID) := by
  rw [Database.createMember] at hcreate
  split_ifs at hcreate with hfree
  obtain ⟨-, -, hrole, hfree⟩ := hfree
  refine ⟨(Option.some.inj hcreate).symm, Option.isSome_iff_exists.mp hrole, ?_⟩
  intro id other hother
  simpa using Auth.isEmpty_rowsWhere.mp hfree id other hother

/-- The transaction that creates a workspace. -/
theorem createOwned_eq_ok {db db' : Database} {ws : Workspace} {workspaceID : Nat}
    (hcreate : db.createOwned ws = .ok (db', workspaceID)) :
    workspaceID = db.workspaces.next ∧ db' = db.owned ws ∧
      ∀ id m, db.members.get? id = some m →
        ¬(m.workspaceID = db.workspaces.next ∧ m.userID = ws.ownerID) := by
  rw [Database.createOwned] at hcreate
  cases hws : db.createWorkspace ws with
  | none => simp [hws] at hcreate
  | some created =>
      obtain ⟨db₁, id⟩ := created
      obtain ⟨rfl, rfl⟩ := createWorkspace_eq_some hws
      simp only [hws, find?_createDefaultRoles] at hcreate
      rw [Database.createDefaultRoles, createRoles_fst] at hcreate
      split at hcreate
      · simp at hcreate
      · rename_i db₂ hmember
        simp only [Except.ok.injEq, Prod.mk.injEq] at hcreate
        obtain ⟨rfl, -, hfree⟩ := createMember_eq_some hmember
        exact ⟨hcreate.2.symm, hcreate.1.symm, hfree⟩

/-- An update of an invitation that the database accepts. -/
theorem updateInvitation_eq_some {db db' : Database} {id : Nat} {invitation : Invitation}
    (hupdate : db.updateInvitation id invitation = some db') :
    db' = db ∨ ∃ row, db.invitations.get? id = some row ∧
      row.workspaceID = invitation.workspaceID ∧
      db' = { db with invitations := db.invitations.modify id fun r => r.written invitation } := by
  rw [Database.updateInvitation] at hupdate
  cases hrow : db.invitations.get? id with
  | none => exact Or.inl (by simpa [hrow] using hupdate.symm)
  | some row =>
      simp only [hrow] at hupdate
      split_ifs at hupdate with hws hfree
      · exact Or.inr ⟨row, rfl, hws, (Option.some.inj hupdate).symm⟩
      · exact Or.inl (Option.some.inj hupdate).symm

/-- The transaction of an acceptance: the update, and a membership. -/
theorem accept_eq_ok {db db' : Database} {id : Nat} {invitation : Invitation} {userID : Nat}
    {m : Member} (haccept : db.accept id invitation userID = .ok (db', m)) :
    m = ⟨invitation.workspaceID, userID, invitation.roleID, db.now⟩ ∧
      ∃ db₁, db.updateInvitation id { invitation with acceptedAt := some db.now } = some db₁ ∧
        db₁.createMember m = some db' := by
  rw [Database.accept] at haccept
  split_ifs at haccept
  split at haccept
  · simp at haccept
  · rename_i db₁ hupdate
    dsimp only at haccept
    split at haccept
    · simp at haccept
    · rename_i db₂ hmember
      simp only [Except.ok.injEq, Prod.mk.injEq] at haccept
      obtain ⟨rfl, rfl⟩ := haccept
      obtain ⟨hnow, -⟩ | ⟨row, -, -, hnow⟩ := updateInvitation_eq_some hupdate
      · exact ⟨rfl, _, hupdate, hmember⟩
      · subst hnow
        exact ⟨rfl, _, hupdate, hmember⟩

/-- The transaction that adds a user. -/
theorem addMember_eq_ok {db db' : Database} {existing : Bool} {workspaceID userID roleID : Nat}
    {m : Member} (hadd : db.addMember existing workspaceID userID roleID = .ok (db', m)) :
    m = ⟨workspaceID, userID, roleID, db.now⟩ ∧ db.createMember m = some db' := by
  rw [Database.addMember] at hadd
  split_ifs at hadd
  dsimp only at hadd
  split at hadd
  · simp at hadd
  · rename_i db₁ hmember
    simp only [Except.ok.injEq, Prod.mk.injEq] at hadd
    obtain ⟨rfl, rfl⟩ := hadd
    exact ⟨rfl, hmember⟩

/-! ## Which tables a call writes -/

/-- The tables. -/
inductive TableName where
  | users
  | permissions
  | workspaces
  | roles
  | members
  | invitations
  | apiKeys
deriving DecidableEq

/-- Whether a call can write a table. -/
def Call.writes : Call → TableName → Bool
  | .createUser _, .users => true
  | .updateWorkspace _ _ _ _, .workspaces => true
  | .createOwned _, .workspaces => true
  | .createOwned _, .roles => true
  | .createOwned _, .members => true
  | .updateMember _ _, .members => true
  | .deleteMemberByUserAndWorkspace _ _, .members => true
  | .addMember _ _ _ _, .members => true
  | .createInvitation _, .invitations => true
  | .updateInvitation _ _, .invitations => true
  | .deletePendingInvitation _ _, .invitations => true
  | .accept _ _ _, .members => true
  | .accept _ _ _, .invitations => true
  | .createAPIKey _, .apiKeys => true
  | .softDeleteScoped _ _ _, .apiKeys => true
  | _, _ => false

/-- A table is as before. -/
def SameTable (db db' : Database) : TableName → Prop
  | .users => db'.users = db.users
  | .permissions => db'.permissions = db.permissions
  | .workspaces => db'.workspaces = db.workspaces
  | .roles => db'.roles = db.roles
  | .members => db'.members = db.members
  | .invitations => db'.invitations = db.invitations
  | .apiKeys => db'.apiKeys = db.apiKeys

theorem SameTable.refl (db : Database) (t : TableName) : SameTable db db t := by
  cases t <;> rfl

theorem sameTable_of_updateInvitation {db db' : Database} {id : Nat} {invitation : Invitation}
    (hupdate : db.updateInvitation id invitation = some db') (t : TableName)
    (ht : t ≠ .invitations) : SameTable db db' t := by
  obtain rfl | ⟨row, -, -, rfl⟩ := updateInvitation_eq_some hupdate
  · exact .refl _ t
  · cases t <;> first | rfl | exact absurd rfl ht

theorem sameTable_of_createMember {db db' : Database} {m : Member}
    (hcreate : db.createMember m = some db') (t : TableName) (ht : t ≠ .members) :
    SameTable db db' t := by
  obtain ⟨rfl, -, -⟩ := createMember_eq_some hcreate
  cases t <;> first | rfl | exact absurd rfl ht

theorem SameTable.trans {db db' db'' : Database} {t : TableName} (h : SameTable db db' t)
    (h' : SameTable db' db'' t) : SameTable db db'' t := by
  cases t <;> exact Eq.trans h' h

/-- A call leaves the tables alone that it does not write. -/
theorem sameTable_exec (db : Database) {c : Call} {t : TableName} (ht : c.writes t = false) :
    SameTable db (db.exec c).1 t := by
  have hrefl := SameTable.refl db t
  cases c with
  | createUser user =>
      simp only [Database.exec]
      split_ifs
      · cases t <;> first | rfl | cases ht
      · exact hrefl
  | updateWorkspace id name slug description =>
      simp only [Database.exec]
      split_ifs
      · cases t <;> first | rfl | cases ht
      · exact hrefl
  | createOwned ws =>
      simp only [Database.exec]
      cases hcreate : db.createOwned ws with
      | error message => exact hrefl
      | ok created =>
          obtain ⟨db', id⟩ := created
          obtain ⟨-, rfl, -⟩ := createOwned_eq_ok hcreate
          cases t <;> first | rfl | cases ht
  | updateMember id roleID =>
      simp only [Database.exec]
      split_ifs
      · cases t <;> first | rfl | cases ht
      · exact hrefl
  | deleteMemberByUserAndWorkspace userID workspaceID =>
      cases t <;> first | rfl | cases ht
  | addMember existing workspaceID userID roleID =>
      simp only [Database.exec]
      cases hadd : db.addMember existing workspaceID userID roleID with
      | error message => exact hrefl
      | ok added =>
          obtain ⟨db', member⟩ := added
          obtain ⟨-, hcreate⟩ := addMember_eq_ok hadd
          exact sameTable_of_createMember hcreate t (by rintro rfl; cases ht)
  | createInvitation invitation =>
      simp only [Database.exec]
      split_ifs
      · cases t <;> first | rfl | cases ht
      · exact hrefl
  | updateInvitation id invitation =>
      simp only [Database.exec]
      cases hupdate : db.updateInvitation id invitation with
      | none => exact hrefl
      | some db' => exact sameTable_of_updateInvitation hupdate t (by rintro rfl; cases ht)
  | deletePendingInvitation workspaceID id =>
      simp only [Database.exec]
      split
      · split_ifs
        · cases t <;> first | rfl | cases ht
        · exact hrefl
      · exact hrefl
  | accept id invitation userID =>
      simp only [Database.exec]
      cases haccept : db.accept id invitation userID with
      | error message => exact hrefl
      | ok accepted =>
          obtain ⟨db', member⟩ := accepted
          obtain ⟨-, db₁, hupdate, hcreate⟩ := accept_eq_ok haccept
          exact (sameTable_of_updateInvitation hupdate t (by rintro rfl; cases ht)).trans
            (sameTable_of_createMember hcreate t (by rintro rfl; cases ht))
  | createAPIKey key =>
      simp only [Database.exec]
      split_ifs
      · cases t <;> first | rfl | cases ht
      · exact hrefl
  | softDeleteScoped userID workspaceID keyID =>
      simp only [Database.exec]
      split
      · split_ifs
        · cases t <;> first | rfl | cases ht
        · exact hrefl
      · exact hrefl
  | drawToken => cases t <;> rfl
  | salt => cases t <;> rfl
  | _ => exact hrefl

end Rbac
end Veilence
