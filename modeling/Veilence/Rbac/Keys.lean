import Veilence.Rbac.Discipline

/-!
# What an API key may do

A request with an API key is checked against the role of the key in its workspace, not
against the membership of its owner.  The role is bounded when the key is created: by the
role of the owner's membership, or by that of the key with which it is created.  So what a
key may do, its owner was allowed to do at some earlier moment, but perhaps no longer.

Main results:

- Theorem {lit}`permissions_mono`: a higher role has the permissions of a lower one.
- Theorem {lit}`key_bounded_of_run`: a request with an API key passes only if the key's owner
  once had the permission.
- Theorem {lit}`key_outlives_membership`: the owner may have lost it.
-/

namespace Veilence
namespace Rbac

open Go Foundation

open Auth (Token TokenHash User)

/-! ## Roles and their permissions -/

/-- All roles are default roles. -/
structure Standard (allPerms : List Permission) (db : Database) : Prop where
  permissions : db.permissions = allPerms
  roles : ∀ id r, db.roles.get? id = some r →
    ∃ d ∈ roleDefinitions allPerms, r = d.role allPerms r.workspaceID

/-- The permissions of some keys are among those of others if the keys are, as far as there
are such permissions. -/
theorem lookupPerms_mono {allPerms : List Permission} {keys keys' : List GoString}
    (hkeys : ∀ key ∈ keys, key ∈ allKeys allPerms → key ∈ keys') {p : Permission}
    (hp : p ∈ lookupPerms allPerms keys) : p ∈ lookupPerms allPerms keys' := by
  obtain ⟨key, hkey, hget⟩ := List.mem_filterMap.mp hp
  have hall : key ∈ allKeys allPerms := Table.mem_keys_iff.mpr (by simp [hget])
  exact List.mem_filterMap.mpr ⟨key, hkeys key hkey hall, hget⟩

theorem mem_adminKeys {allPerms : List Permission} {key : GoString}
    (hall : key ∈ allKeys allPerms) (hkey : key ≠ "workspace:delete".toList) :
    key ∈ adminKeys allPerms :=
  List.mem_filter.mpr ⟨hall, decide_eq_true hkey⟩

/-- What a viewer may do, a member may do. -/
theorem viewerKeys_subset : viewerKeys ⊆ memberKeys := by
  decide

/-- A member may not delete the workspace. -/
theorem ne_delete_of_mem_memberKeys {key : GoString} (hkey : key ∈ memberKeys) :
    key ≠ "workspace:delete".toList := by
  rintro rfl
  exact absurd hkey (by decide)

/-- A higher role has the permissions of a lower one. -/
theorem permissions_mono {allPerms : List Permission} {d d' : RoleDefinition}
    (hd : d ∈ roleDefinitions allPerms) (hd' : d' ∈ roleDefinitions allPerms)
    (hlevel : roleLevel d.name ≤ roleLevel d'.name) {p : Permission}
    (hp : p ∈ lookupPerms allPerms d.permKeys) : p ∈ lookupPerms allPerms d'.permKeys := by
  refine lookupPerms_mono (fun key hkey hall => ?_) hp
  simp only [roleDefinitions, List.mem_cons, List.not_mem_nil, or_false] at hd hd'
  rcases hd' with rfl | rfl | rfl | rfl
  · exact hall
  · rcases hd with rfl | rfl | rfl | rfl
    · exact absurd hlevel (by decide : ¬roleLevel roleOwner ≤ roleLevel roleAdmin)
    · exact hkey
    · exact mem_adminKeys hall (ne_delete_of_mem_memberKeys hkey)
    · exact mem_adminKeys hall (ne_delete_of_mem_memberKeys (viewerKeys_subset hkey))
  · rcases hd with rfl | rfl | rfl | rfl
    · exact absurd hlevel (by decide : ¬roleLevel roleOwner ≤ roleLevel roleMember)
    · exact absurd hlevel (by decide : ¬roleLevel roleAdmin ≤ roleLevel roleMember)
    · exact hkey
    · exact viewerKeys_subset hkey
  · rcases hd with rfl | rfl | rfl | rfl
    · exact absurd hlevel (by decide : ¬roleLevel roleOwner ≤ roleLevel roleViewer)
    · exact absurd hlevel (by decide : ¬roleLevel roleAdmin ≤ roleLevel roleViewer)
    · exact absurd hlevel (by decide : ¬roleLevel roleMember ≤ roleLevel roleViewer)
    · exact hkey

/-- The role of an API key is above none at all. -/
theorem roleLevel_pos {role : GoString} (hvalid : isValidAPIKeyRole role = true) :
    0 < roleLevel role := by
  simp only [isValidAPIKeyRole, decide_eq_true_eq, List.mem_cons, List.not_mem_nil,
    or_false] at hvalid
  rcases hvalid with rfl | rfl | rfl <;> decide

/-! ## Keys and their owners -/

/-- The user is a member with a role of that name. -/
def HeldRole (db : Database) (userID workspaceID : Nat) (name : GoString) : Prop :=
  ∃ e ∈ db.membersOf userID workspaceID,
    ∃ r, db.roles.get? e.2.roleID = some r ∧ r.name = name

/-- The owner of a key once had a role that is not below that of the key. -/
def Entitled (past : List Database) (key : APIKey) : Prop :=
  isValidAPIKeyRole key.role = true ∧
    ∃ db ∈ past, ∃ name, HeldRole db key.userID key.workspaceID name ∧
      roleLevel key.role ≤ roleLevel name

/-- All keys are within what their owners once were allowed to do. -/
structure Bounded (allPerms : List Permission) (db : Database) (past : List Database) :
    Prop where
  standard : Standard allPerms db
  earlier : ∀ old ∈ past, Standard allPerms old
  keys : ∀ id key, db.apiKeys.get? id = some key → Entitled past key

/-- What an answer tells for good: a role that was held, and keys whose owners were entitled
to them. -/
def Witnessed (past : List Database) : (c : Call) → Answer c → Prop
  | .findMemberByUserAndWorkspace userID workspaceID, some (_, _, name) =>
      0 < roleLevel name → ∃ old ∈ past, HeldRole old userID workspaceID name
  | .findActiveByPrefix _, keys => ∀ e ∈ keys, Entitled past e.2
  | _, _ => True

section Facts

variable {past past' : List Database}

theorem Entitled.mono (hpast : past ⊆ past') {key : APIKey} (h : Entitled past key) :
    Entitled past' key := by
  obtain ⟨hvalid, db, hdb, hheld⟩ := h
  exact ⟨hvalid, db, hpast hdb, hheld⟩

theorem Witnessed.mono (hpast : past ⊆ past') {c : Call} {r : Answer c}
    (hwitnessed : Witnessed past c r) : Witnessed past' c r := by
  cases c with
  | findMemberByUserAndWorkspace userID workspaceID =>
      cases r with
      | none => trivial
      | some e =>
          intro hname
          obtain ⟨old, hold, hheld⟩ := hwitnessed hname
          exact ⟨old, hpast hold, hheld⟩
  | findActiveByPrefix keyPrefix => exact fun e he => (hwitnessed e he).mono hpast
  | _ => trivial

/-- A role that has been read was held, or was the role of a key. -/
theorem entitled_of_told {m : Answers} (hknows : ∀ e ∈ m, Witnessed past e.1 e.2) {key : APIKey}
    (hvalid : isValidAPIKeyRole key.role = true) {name : GoString}
    (htold : ToldRole m key.userID key.workspaceID name)
    (hlevel : roleLevel key.role ≤ roleLevel name) : Entitled past key := by
  obtain ⟨id, member, hmember⟩ | ⟨keyPrefix, keys, id, other, hkeys, hmem, hu, hw, rfl⟩ := htold
  · have hpos : 0 < roleLevel name := Nat.lt_of_lt_of_le (roleLevel_pos hvalid) hlevel
    obtain ⟨old, hold, hheld⟩ := hknows _ hmember hpos
    exact ⟨hvalid, old, hold, name, hheld, hlevel⟩
  · obtain ⟨-, old, hold, name, hheld, hbound⟩ := hknows _ hkeys (id, other) hmem
    exact ⟨hvalid, old, hold, name, hu ▸ hw ▸ hheld, hlevel.trans hbound⟩

end Facts

/-! ## One command -/

section Commands

variable {allPerms : List Permission} {db db' : Database} {past : List Database} {op : Op}
  {m : Answers}

/-- The roles after a workspace has been created. -/
theorem Standard.owned (h : Standard allPerms db) (ws : Workspace) :
    Standard allPerms (db.owned ws) := by
  refine ⟨h.permissions, fun id r hr => ?_⟩
  obtain hold | ⟨d, hd, rfl, -⟩ := get?_withDefaultRoles hr
  · exact h.roles id r hold
  · rw [h.permissions] at hd ⊢
    exact ⟨d, hd, rfl⟩

/-- A command that touches neither roles nor keys. -/
theorem Bounded.of_eq (h : Bounded allPerms db past) (hpermissions : db'.permissions = db.permissions)
    (hroles : db'.roles = db.roles) (hkeys : db'.apiKeys = db.apiKeys) :
    Bounded allPerms db' (db :: past) where
  standard := ⟨hpermissions.trans h.standard.permissions, hroles ▸ h.standard.roles⟩
  earlier := by
    intro old hold
    rcases List.mem_cons.mp hold with rfl | hold
    · exact h.standard
    · exact h.earlier old hold
  keys := by
    intro id key hkey
    exact (h.keys id key (hkeys ▸ hkey)).mono (List.subset_cons_self _ _)

/-- One command less in the history of a change of the keys. -/
theorem Bounded.of_keys (h : Bounded allPerms db past) {apiKeys : Ledger APIKey}
    (hkeys : ∀ id key, apiKeys.get? id = some key → Entitled past key) :
    Bounded allPerms { db with apiKeys := apiKeys } (db :: past) where
  standard := ⟨h.standard.permissions, h.standard.roles⟩
  earlier := (h.of_eq rfl rfl rfl).earlier
  keys := fun id key hkey => (hkeys id key hkey).mono (List.subset_cons_self _ _)

/-- Every command that is permitted keeps the bound. -/
theorem bounded_exec (h : Bounded allPerms db past)
    (hknows : ∀ e ∈ m, Witnessed past e.1 e.2) {c : Call} (hpermitted : Permitted op m c) :
    Bounded allPerms (db.exec c).1 (db :: past) := by
  have hframe : c.writes .roles = false → c.writes .apiKeys = false →
      Bounded allPerms (db.exec c).1 (db :: past) := fun hroles hkeys =>
    h.of_eq (sameTable_exec db (t := .permissions) (by cases c <;> rfl))
      (sameTable_exec db hroles) (sameTable_exec db hkeys)
  cases c with
  | createOwned ws =>
      simp only [Database.exec]
      cases hcreate : db.createOwned ws with
      | error message => exact h.of_eq rfl rfl rfl
      | ok created =>
          obtain ⟨db', id⟩ := created
          obtain ⟨-, rfl, -⟩ := createOwned_eq_ok hcreate
          exact ⟨h.standard.owned ws, (h.of_eq rfl rfl rfl).earlier, (h.of_eq rfl rfl rfl).keys⟩
  | createAPIKey key =>
      simp only [Database.exec]
      split_ifs
      · apply h.of_keys
        intro id key' hkey'
        obtain ⟨-, rfl⟩ | hold := Ledger.of_get?_add hkey'
        · obtain ⟨hvalid, name, htold, hlevel⟩ := hpermitted
          exact entitled_of_told hknows hvalid htold hlevel
        · exact h.keys id key' hold
      · exact h.of_eq rfl rfl rfl
  | softDeleteScoped userID workspaceID keyID =>
      simp only [Database.exec]
      split
      · split_ifs
        · apply h.of_keys
          intro id key' hkey'
          rw [Ledger.get?_remove] at hkey'
          split_ifs at hkey'
          exact h.keys id key' hkey'
        · exact h.of_eq rfl rfl rfl
      · exact h.of_eq rfl rfl rfl
  | _ => exact hframe rfl rfl

/-- A command answers what is so. -/
theorem witnessed_exec (h : Bounded allPerms db past) (c : Call) :
    Witnessed (db :: past) c (db.exec c).2 := by
  cases c with
  | findMemberByUserAndWorkspace userID workspaceID =>
      simp only [Database.exec]
      cases hm : (db.membersOf userID workspaceID).head? with
      | none => trivial
      | some e =>
          intro hpos
          refine ⟨db, List.mem_cons_self, e, List.mem_of_mem_head? (by simp [hm]), ?_⟩
          cases hr : db.roles.get? e.2.roleID with
          | none => simp [Database.roleName, hr, roleLevel, roleViewer, roleMember, roleAdmin,
              roleOwner] at hpos
          | some r => exact ⟨r, rfl, by simp [Database.roleName, hr]⟩
  | findActiveByPrefix keyPrefix =>
      rintro ⟨id, key⟩ he
      have hmem : (id, key) ∈ Auth.rowsWhere db.apiKeys fun key =>
          key.isActive = true ∧ key.keyPrefix = keyPrefix := he
      obtain ⟨hget, -⟩ := Auth.mem_rowsWhere.mp hmem
      exact (h.keys id key hget).mono (List.subset_cons_self _ _)
  | _ => trivial

end Commands

/-! ## Requests -/

/-- A request with an API key can pass the middleware for a permission, with some context. -/
def Passes (cfg : Config) (db : Database) (rawKey : Token) (param : WorkspaceParam)
    (p : Permission) (ctx : Context) : Prop :=
  ∃ db', machine.Steps (authorize cfg (.apiKey rawKey) param p) db (.ret (.ok ctx)) db'

section Requests

variable {cfg : Config} {db : Database} {rawKey : Token}

/-- A command that only reads. -/
theorem always_read {α : Type} {post : Database → α → Prop} {c : Call}
    {f : Option (Answer c) → Body α} (hread : (db.exec c).1 = db)
    (hok : machine.Always (· = db) post (f (some (db.exec c).2)) db)
    (hfail : machine.Always (· = db) post (f none) db) :
    machine.Always (· = db) post (send c >>= f) db :=
  ⟨rfl, hread.symm ▸ hok, fun _ => hfail⟩

/-- A key that is stored, with the identity that a request gets from it. -/
def KeyOf (db : Database) (rawKey : Token) (identity : Identity) : Prop :=
  ∃ id key, db.apiKeys.get? id = some key ∧ key.keyHash = some (hashToken rawKey) ∧
    identity = .apiKey key.userID key.role key.workspaceID

/-- The end of a part of a request: nothing has changed, and a success has a property. -/
def EndsWith {α : Type} (db : Database) (success : α → Prop) (s : Database)
    (r : Except GoString α) : Prop :=
  s = db ∧ ∀ a, r = .ok a → success a

/-- An end with an error. -/
theorem endsWith_error {α : Type} {success : α → Prop} (message : GoString) :
    machine.Always (· = db) (EndsWith db success) (.ret (.error message)) db :=
  ⟨rfl, rfl, fun _ heq => nomatch heq⟩

/-- A request whose identity is accepted has a stored key. -/
theorem always_validateFound {keys : List (Nat × APIKey)}
    (hkeys : ∀ e ∈ keys, db.apiKeys.get? e.1 = some e.2) :
    machine.Always (· = db) (EndsWith db (KeyOf db rawKey)) (validateFound rawKey keys) db := by
  unfold validateFound
  split
  · exact endsWith_error _
  rename_i id key hfind
  have hstored : KeyOf db rawKey (.apiKey key.userID key.role key.workspaceID) :=
    ⟨id, key, hkeys _ (List.mem_of_find?_eq_some hfind),
      by simpa using List.find?_some hfind, rfl⟩
  refine Machine.Always.bind (p := timeNow) ⟨rfl, ⟨rfl, ?_⟩, fun hfallible => nomatch hfallible⟩
  beta_reduce
  split_ifs
  · exact endsWith_error _
  refine always_read rfl ?_ (endsWith_error _)
  cases huser : (db.exec (.findUserByID key.userID)).2 with
  | none => exact endsWith_error _
  | some user =>
      dsimp only
      split_ifs
      · exact endsWith_error _
      · refine ⟨rfl, rfl, ?_⟩
        rintro identity ⟨⟩
        exact hstored

theorem always_validateAPIKey :
    machine.Always (· = db) (EndsWith db (KeyOf db rawKey)) (validateAPIKey cfg rawKey) db := by
  refine always_read rfl (always_validateFound ?_) (endsWith_error _)
  rintro ⟨id, key⟩ he
  have hmem : (id, key) ∈ Auth.rowsWhere db.apiKeys fun key =>
      key.isActive = true ∧ key.keyPrefix = cfg.keyPrefix rawKey := he
  exact (Auth.mem_rowsWhere.mp hmem).1

/-- The workspace of a request with a key is the key's. -/
theorem always_requireWorkspace (userID workspaceID : Nat) (role : GoString)
    (param : WorkspaceParam) :
    machine.Always (· = db)
      (EndsWith db (· = ⟨.apiKey userID role workspaceID, workspaceID, role⟩))
      (requireWorkspace (.apiKey userID role workspaceID) param) db := by
  unfold requireWorkspace
  dsimp only
  split_ifs
  · exact ⟨rfl, rfl, fun ctx heq => (Except.ok.inj heq).symm⟩
  · exact endsWith_error _

/-- The role of the key has the permission. -/
theorem always_requirePermission (userID workspaceID : Nat) (role : GoString)
    (p : Permission) :
    machine.Always (· = db)
      (EndsWith db fun _ => db.checkRolePermission workspaceID role p = true)
      (requirePermission ⟨.apiKey userID role workspaceID, workspaceID, role⟩ p) db := by
  unfold requirePermission
  refine always_read rfl ?_ (endsWith_error _)
  cases hcheck : (db.exec (.checkRolePermission workspaceID role p)).2 with
  | false => exact endsWith_error _
  | true => exact ⟨rfl, rfl, fun _ _ => hcheck⟩

/-- What a request with an API key has when it passes. -/
def PassedWith (db : Database) (rawKey : Token) (p : Permission) (ctx : Context) : Prop :=
  ∃ id key, db.apiKeys.get? id = some key ∧ key.keyHash = some (hashToken rawKey) ∧
    ctx = ⟨.apiKey key.userID key.role key.workspaceID, key.workspaceID, key.role⟩ ∧
    db.checkRolePermission key.workspaceID key.role p = true

theorem always_authorize (param : WorkspaceParam) (p : Permission) :
    machine.Always (· = db) (EndsWith db (PassedWith db rawKey p))
      (authorize cfg (.apiKey rawKey) param p) db := by
  refine Machine.Always.bind (always_validateAPIKey.mono ?_)
  rintro s (message | identity) ⟨rfl, hidentity⟩
  · exact endsWith_error _
  obtain ⟨id, key, hget, hhash, rfl⟩ := hidentity identity rfl
  refine Machine.Always.bind ((always_requireWorkspace _ _ _ param).mono ?_)
  rintro s (message | ctx) ⟨rfl, hctx⟩
  · exact endsWith_error _
  obtain rfl := hctx ctx rfl
  refine Machine.Always.bind ((always_requirePermission _ _ _ p).mono ?_)
  rintro s (message | _) ⟨rfl, hcheck⟩
  · exact endsWith_error _
  · refine ⟨rfl, rfl, ?_⟩
    rintro ctx ⟨⟩
    exact ⟨id, key, hget, hhash, rfl, hcheck () rfl⟩

/-- A request with an API key passes only with a stored key whose role has the permission. -/
theorem passedWith_of_passes {param : WorkspaceParam} {p : Permission} {ctx : Context}
    (hpasses : Passes cfg db rawKey param p ctx) : PassedWith db rawKey p ctx := by
  obtain ⟨db', hsteps⟩ := hpasses
  obtain ⟨-, -, hsuccess⟩ := (always_authorize param p).of_steps hsteps
  exact hsuccess ctx rfl

end Requests

/-! ## Runs -/

/-- A role that was held has the permissions of a lower one. -/
theorem checkUserPermission_of_held {allPerms : List Permission} {db old : Database}
    (hstandard : Standard allPerms db) (hold : Standard allPerms old) {userID workspaceID : Nat}
    {role name : GoString} (hheld : HeldRole old userID workspaceID name)
    (hlevel : roleLevel role ≤ roleLevel name) {p : Permission}
    (hcheck : db.checkRolePermission workspaceID role p = true) :
    old.checkUserPermission userID workspaceID p = true := by
  obtain ⟨⟨id, r⟩, hmem, hp⟩ := List.any_eq_true.mp hcheck
  obtain ⟨hget, hfields⟩ := Auth.mem_rowsWhere.mp hmem
  obtain ⟨-, rfl⟩ := of_decide_eq_true hfields
  obtain ⟨d, hd, hr⟩ := hstandard.roles id r hget
  obtain ⟨e, he, r', hget', rfl⟩ := hheld
  obtain ⟨d', hd', hr'⟩ := hold.roles e.2.roleID r' hget'
  have hlevel' : roleLevel d.name ≤ roleLevel d'.name := by
    rw [hr, hr'] at hlevel
    exact hlevel
  have hperm : p ∈ lookupPerms allPerms d.permKeys := by
    have hpr : p ∈ r.permissions := of_decide_eq_true hp
    rwa [hr] at hpr
  have hperm' : p ∈ r'.permissions := by
    rw [hr']
    exact permissions_mono hd hd' hlevel' hperm
  refine List.any_eq_true.mpr ⟨e, he, ?_⟩
  simp [hget', hperm']

/-- The outline of the bound. -/
def keyOutline (allPerms : List Permission) :
    Outline Database Op Call Answer Result (List Database) where
  permitted := Permitted
  result := Final
  inv := Bounded allPerms
  grows := fun _ past _ past' => past ⊆ past'
  fact := fun _ past => Witnessed past

/-- All operations keep the bound. -/
theorem key_sound (cfg : Config) (allPerms : List Permission) :
    (keyOutline allPerms).Sound (rbacSystem cfg) .history fun _ _ _ => True where
  refl := fun _ past => List.Subset.refl past
  trans := fun _ _ _ _ _ _ => List.Subset.trans
  stable := fun _ _ _ _ _ _ hgrows => Witnessed.mono hgrows
  safe := safe_bodyOf cfg
  exec := fun _ _ _ _ c hinv hknows hpermitted _ =>
    ⟨⟨bounded_exec hinv hknows hpermitted, List.subset_cons_self _ _⟩, witnessed_exec hinv c⟩
  begins := fun _ past _ hinv _ => ⟨hinv, List.Subset.refl past⟩
  finish := fun _ past _ _ _ hinv _ _ => ⟨hinv, List.Subset.refl past⟩
  stop := fun _ past _ hinv => ⟨hinv, List.Subset.refl past⟩
  env := by
    rintro db past db' hinv ⟨t, -, rfl⟩
    exact ⟨⟨⟨hinv.standard.permissions, hinv.standard.roles⟩, hinv.earlier, hinv.keys⟩,
      List.Subset.refl past⟩

/-- A request with an API key passes only with a stored key of its workspace whose role has
the permission now, and whose owner was, at some moment of the run, a member of the workspace
with a role that had the permission then. -/
theorem key_bounded_of_run {cfg : Config} {db : Database} {w : RbacWorld} (hfresh : Fresh db)
    (hrun : Run (rbacSystem cfg).Step (fun _ _ => True) (World.initial db) w) {rawKey : Token}
    {param : WorkspaceParam} {p : Permission} {ctx : Context}
    (hpasses : Passes cfg w.store rawKey param p ctx) :
    ∃ id key, w.store.apiKeys.get? id = some key ∧ key.keyHash = some (hashToken rawKey) ∧
      ctx = ⟨.apiKey key.userID key.role key.workspaceID, key.workspaceID, key.role⟩ ∧
      w.store.checkRolePermission key.workspaceID key.role p = true ∧
      ∃ mid : RbacWorld, Run (rbacSystem cfg).Step (fun _ _ => True) (World.initial db) mid ∧
        Run (rbacSystem cfg).Step (fun _ _ => True) mid w ∧
        mid.store.checkUserPermission key.userID key.workspaceID p = true := by
  obtain ⟨id, key, hget, hhash, hctx, hcheck⟩ := passedWith_of_passes hpasses
  obtain ⟨past, htracked, hpast⟩ := System.exists_history hrun
  have hstart : Bounded db.permissions db [] := by
    refine ⟨⟨rfl, ?_⟩, by simp, ?_⟩
    · simp [hfresh.roles]
    · simp [hfresh.apiKeys]
  have hbounded := (key_sound cfg db.permissions).invariant
    (fun _ _ _ _ _ _ _ _ _ _ => trivial) htracked hstart
  obtain ⟨-, old, hold, name, hheld, hlevel⟩ := hbounded.keys id key hget
  obtain ⟨mid, hbefore, hafter, rfl⟩ := hpast old hold
  refine ⟨id, key, hget, hhash, hctx, hcheck, mid, hbefore, hafter, ?_⟩
  exact checkUserPermission_of_held hbounded.standard (hbounded.earlier _ hold) hheld hlevel hcheck

/-! ## A key whose owner is removed -/

/-- User 0 creates a workspace and adds user 1 as an admin, who creates an admin key. -/
def keyLabels : List (Label Op) :=
  [Label.alone 0 (.createWorkspace 0 "acme".toList "acme".toList []) 2,
    Label.alone 0 (.addUserToWorkspace 0 "b@x".toList [] [] 1 []) 4,
    Label.alone 0 (.createAPIKey (.jwt 1) (.id 0) "k".toList "admin".toList none) 5].flatten

/-- User 1 is removed. -/
def removalLabels : List (Label Op) :=
  Label.alone 0 (.removeMember 0 1) 2

/-- To write packages. -/
def writePackages : Permission :=
  ⟨"packages".toList, "write".toList⟩

/-- What a request with the key gets. -/
def adminContext : Context :=
  ⟨.apiKey 1 roleAdmin 0, 0, roleAdmin⟩

/-- A request that runs without failures ends with a context. -/
def passes (cfg : Config) (db : Database) (rawKey : Token) (param : WorkspaceParam)
    (p : Permission) (ctx : Context) : Bool :=
  (machine.run (authorize cfg (.apiKey rawKey) param p) db).2.toOption = some ctx

theorem passes_sound {cfg : Config} {db : Database} {rawKey : Token} {param : WorkspaceParam}
    {p : Permission} {ctx : Context} (hpasses : passes cfg db rawKey param p ctx = true) :
    Passes cfg db rawKey param p ctx := by
  have hsteps := machine.steps_run (authorize cfg (.apiKey rawKey) param p) db
  have hend := of_decide_eq_true hpasses
  cases hrun : (machine.run (authorize cfg (.apiKey rawKey) param p) db).2 with
  | error message => simp [hrun, Except.toOption] at hend
  | ok ctx' =>
      rw [hrun] at hend hsteps
      obtain rfl := Option.some.inj hend
      exact ⟨_, hsteps⟩

/-- The key passes while its owner is a member. -/
theorem key_bounded_of_run_admin :
    ∃ w : RbacWorld, (w.store.membersOf 1 0).length = 1 ∧ ∃ id key,
      w.store.apiKeys.get? id = some key ∧ key.keyHash = some (hashToken ⟨0⟩) ∧
      ∃ mid : RbacWorld,
        mid.store.checkUserPermission key.userID key.workspaceID writePackages = true := by
  obtain ⟨w, hsteps, htest⟩ := System.exists_of_steps? (rbacSystem openConfig)
    (fun _ _ => true) (World.initial threeUsers) keyLabels
    (fun w => (w.store.membersOf 1 0).length = 1 ∧
      passes openConfig w.store ⟨0⟩ .absent writePackages adminContext = true)
    (by decide +kernel)
  obtain ⟨hmember, hpasses⟩ := of_decide_eq_true htest
  have hrun : Run (rbacSystem openConfig).Step (fun _ _ => True) (World.initial threeUsers) w :=
    System.run_of_steps? (fun _ _ _ => trivial) hsteps
  obtain ⟨id, key, hget, hhash, -, -, mid, -, -, hcheck⟩ :=
    key_bounded_of_run ⟨rfl, rfl, rfl, rfl, rfl⟩ hrun (passes_sound hpasses)
  exact ⟨w, hmember, id, key, hget, hhash, mid, hcheck⟩

/-- The key passes after its owner has been removed. -/
theorem key_outlives_membership :
    ∃ w : RbacWorld, Run (rbacSystem openConfig).Step (fun _ _ => True)
      (World.initial threeUsers) w ∧
      .returned (.removeMember 0 1) .ok ∈ w.log ∧ w.store.membersOf 1 0 = [] ∧
      Passes openConfig w.store ⟨0⟩ .absent writePackages adminContext ∧
      w.store.checkUserPermission 1 0 writePackages = false := by
  obtain ⟨w, hsteps, htest⟩ := System.exists_of_steps? (rbacSystem openConfig)
    (fun _ _ => true) (World.initial threeUsers) (keyLabels ++ removalLabels)
    (fun w => .returned (.removeMember 0 1) .ok ∈ w.log ∧ w.store.membersOf 1 0 = [] ∧
      passes openConfig w.store ⟨0⟩ .absent writePackages adminContext = true ∧
      w.store.checkUserPermission 1 0 writePackages = false)
    (by decide +kernel)
  obtain ⟨hremoved, hgone, hpasses, hcheck⟩ := of_decide_eq_true htest
  exact ⟨w, System.run_of_steps? (fun _ _ _ => trivial) hsteps, hremoved, hgone,
    passes_sound hpasses, hcheck⟩

end Rbac
end Veilence
