import Veilence.Rbac.Discipline

/-!
# Every workspace has one owner

Role IDs get into memberships in five ways: when a workspace is created, by the two
acceptances of an invitation, when a user is added and when a role is changed.  The owner
role gets in only the first way, and only for the user whom the workspace row names.  Roles
never change, a workspace row never changes its owner, and a membership row keeps its user
and its workspace, so what an operation has read about these stays true while other
operations run.

Main results:

- Theorem {lit}`owned_sound`: all operations keep the invariant {lit}`Owned`.
- Theorem {lit}`sole_owner_of_run`: in every reachable state every workspace has exactly one
  member with its owner role, the one whom the workspace row names, and it stays that one.
-/

namespace Veilence
namespace Rbac

open Go Foundation

/-! ## The invariant -/

/-- The owner role of a workspace. -/
def IsOwnerRole (db : Database) (workspaceID roleID : Nat) : Prop :=
  ∃ r, db.roles.get? roleID = some r ∧ r.workspaceID = workspaceID ∧ r.name = roleOwner

/-- A role that is not an owner role. -/
def IsPlainRole (db : Database) (roleID : Nat) : Prop :=
  ∃ r, db.roles.get? roleID = some r ∧ r.name ≠ roleOwner

/-- A membership with the owner role of a workspace. -/
def HoldsOwnerRole (db : Database) (workspaceID id : Nat) (m : Member) : Prop :=
  db.members.get? id = some m ∧ IsOwnerRole db workspaceID m.roleID

/-- The owner role of every workspace is held by the user whom the workspace names, and by
nobody else. -/
structure Owned (db : Database) : Prop where
  role : ∀ id r, db.roles.get? id = some r → ∃ ws, db.workspaces.get? r.workspaceID = some ws
  owner : ∀ w ws, db.workspaces.get? w = some ws →
    ∃ id m, HoldsOwnerRole db w id m ∧ m.workspaceID = w ∧ m.userID = ws.ownerID
  holder : ∀ id m w ws, HoldsOwnerRole db w id m → db.workspaces.get? w = some ws →
    m.workspaceID = w ∧ m.userID = ws.ownerID
  member : ∀ id m, db.members.get? id = some m → ∃ r, db.roles.get? m.roleID = some r
  sole : ∀ id id' m m', db.members.get? id = some m → db.members.get? id' = some m' →
    m.workspaceID = m'.workspaceID → m.userID = m'.userID → id = id'
  invited : ∀ id i, db.invitations.get? id = some i → IsPlainRole db i.roleID

/-- What no operation takes back: the owner that a workspace row names, the roles, and the
user and workspace of a membership row. -/
structure Extends (db db' : Database) : Prop where
  workspaces : ∀ w ws, db.workspaces.get? w = some ws →
    ∃ ws', db'.workspaces.get? w = some ws' ∧ ws'.ownerID = ws.ownerID
  roles : ∀ id r, db.roles.get? id = some r → db'.roles.get? id = some r
  next : db.members.next ≤ db'.members.next
  members : ∀ id m', id < db.members.next → db'.members.get? id = some m' →
    ∃ m, db.members.get? id = some m ∧ m'.workspaceID = m.workspaceID ∧ m'.userID = m.userID

theorem Extends.refl (db : Database) : Extends db db where
  workspaces := fun _ ws hws => ⟨ws, hws, rfl⟩
  roles := fun _ _ hr => hr
  next := Nat.le_refl _
  members := fun _ m' _ hm => ⟨m', hm, rfl, rfl⟩

theorem Extends.trans {db db' db'' : Database} (h : Extends db db') (h' : Extends db' db'') :
    Extends db db'' where
  workspaces := by
    intro w ws hws
    obtain ⟨ws', hws', howner⟩ := h.workspaces w ws hws
    obtain ⟨ws'', hws'', howner'⟩ := h'.workspaces w ws' hws'
    exact ⟨ws'', hws'', howner'.trans howner⟩
  roles := fun id r hr => h'.roles id r (h.roles id r hr)
  next := h.next.trans h'.next
  members := by
    intro id m'' hid hm''
    obtain ⟨m', hm', hw', hu'⟩ := h'.members id m'' (Nat.lt_of_lt_of_le hid h.next) hm''
    obtain ⟨m, hm, hw, hu⟩ := h.members id m' hid hm'
    exact ⟨m, hm, hw'.trans hw, hu'.trans hu⟩

/-- Plain roles stay plain. -/
theorem IsPlainRole.extend {db db' : Database} {id : Nat} (hplain : IsPlainRole db id)
    (h : Extends db db') : IsPlainRole db' id := by
  obtain ⟨r, hr, hname⟩ := hplain
  exact ⟨r, h.roles id r hr, hname⟩

/-- A plain role is no owner role. -/
theorem IsPlainRole.not_owner {db : Database} {id w : Nat} (hplain : IsPlainRole db id) :
    ¬IsOwnerRole db w id := by
  rintro ⟨r, hr, -, hname⟩
  obtain ⟨r', hr', hname'⟩ := hplain
  rw [hr] at hr'
  obtain rfl := Option.some.inj hr'
  exact hname' hname

/-! ## What an answer tells -/

/-- What an answer tells for good: the owner of a workspace, a role, whose membership a row
is, and that an invitation is for a plain role. -/
def Learnt (db : Database) : (c : Call) → Answer c → Prop
  | .findWorkspaceByID workspaceID, some ws =>
      ∃ ws', db.workspaces.get? workspaceID = some ws' ∧ ws'.ownerID = ws.ownerID
  | .findRoleByIDAndWorkspace roleID _, some r => db.roles.get? roleID = some r
  | .findMemberByUserAndWorkspace userID workspaceID, some (id, _, _) =>
      id < db.members.next ∧ ∀ m, db.members.get? id = some m →
        m.workspaceID = workspaceID ∧ m.userID = userID
  | .findInvitationByTokenHash _, some (_, i) => IsPlainRole db i.roleID
  | .findInvitationByIDGlobal _, some i => IsPlainRole db i.roleID
  | .findInvitationByID _ _, some i => IsPlainRole db i.roleID
  | _, _ => True

/-- What has been learnt stays true. -/
theorem Learnt.extend {db db' : Database} (hgrows : Extends db db') {c : Call} {r : Answer c}
    (hlearnt : Learnt db c r) : Learnt db' c r := by
  cases c with
  | findWorkspaceByID workspaceID =>
      cases r with
      | none => trivial
      | some ws =>
          obtain ⟨ws', hws', howner⟩ := hlearnt
          obtain ⟨ws'', hws'', howner'⟩ := hgrows.workspaces workspaceID ws' hws'
          exact ⟨ws'', hws'', howner'.trans howner⟩
  | findRoleByIDAndWorkspace roleID workspaceID =>
      cases r with
      | none => trivial
      | some role => exact hgrows.roles roleID role hlearnt
  | findMemberByUserAndWorkspace userID workspaceID =>
      cases r with
      | none => trivial
      | some e =>
          obtain ⟨hid, hrow⟩ := hlearnt
          refine ⟨Nat.lt_of_lt_of_le hid hgrows.next, fun m' hm' => ?_⟩
          obtain ⟨m, hm, hw, hu⟩ := hgrows.members e.1 m' hid hm'
          rw [hw, hu]
          exact hrow m hm
  | findInvitationByTokenHash tokenHash =>
      cases r with
      | none => trivial
      | some e => exact IsPlainRole.extend hlearnt hgrows
  | findInvitationByIDGlobal id =>
      cases r with
      | none => trivial
      | some i => exact IsPlainRole.extend hlearnt hgrows
  | findInvitationByID workspaceID id =>
      cases r with
      | none => trivial
      | some i => exact IsPlainRole.extend hlearnt hgrows
  | _ => trivial

/-! ## What the statements do to the invariant -/

section Statements

variable {db db' : Database}

/-- Only these four tables matter. -/
theorem Owned.of_eq (h : Owned db) (hworkspaces : db'.workspaces = db.workspaces)
    (hroles : db'.roles = db.roles) (hmembers : db'.members = db.members)
    (hinvitations : db'.invitations = db.invitations) : Owned db' ∧ Extends db db' := by
  have hplain : ∀ id, IsPlainRole db id → IsPlainRole db' id := by
    intro id
    simp only [IsPlainRole, hroles]
    exact fun h => h
  have hrole : ∀ w id, IsOwnerRole db' w id ↔ IsOwnerRole db w id := by
    intro w id
    simp only [IsOwnerRole, hroles]
  constructor
  · constructor
    · simpa only [hroles, hworkspaces] using h.role
    · simpa only [HoldsOwnerRole, hrole, hworkspaces, hmembers] using h.owner
    · simpa only [HoldsOwnerRole, hrole, hworkspaces, hmembers] using h.holder
    · simpa only [hroles, hmembers] using h.member
    · simpa only [hmembers] using h.sole
    · intro id i hi
      rw [hinvitations] at hi
      exact hplain _ (h.invited id i hi)
  · constructor
    · intro w ws hws
      exact ⟨ws, hworkspaces ▸ hws, rfl⟩
    · intro id r hr
      rwa [hroles]
    · rw [hmembers]
    · intro id m' _ hm'
      exact ⟨m', hmembers ▸ hm', rfl, rfl⟩

/-- A new invitation for a plain role, a new value of an invitation with the same role, or
an invitation less. -/
theorem Owned.of_invitations (h : Owned db) {invitations : Ledger Invitation}
    (hrows : ∀ id i, invitations.get? id = some i → IsPlainRole db i.roleID) :
    Owned { db with invitations := invitations } ∧
      Extends db { db with invitations := invitations } :=
  ⟨⟨h.role, h.owner, h.holder, h.member, h.sole, hrows⟩,
    ⟨fun _ ws hws => ⟨ws, hws, rfl⟩, fun _ _ hr => hr, Nat.le_refl _,
      fun _ m' _ hm => ⟨m', hm, rfl, rfl⟩⟩⟩

/-- An update of an invitation keeps its role. -/
theorem Owned.updateInvitation (h : Owned db) {id : Nat} {invitation : Invitation}
    (hupdate : db.updateInvitation id invitation = some db') : Owned db' ∧ Extends db db' := by
  obtain ⟨rfl⟩ | ⟨row, hrow, -, rfl⟩ := updateInvitation_eq_some hupdate
  · exact ⟨h, .refl _⟩
  · apply h.of_invitations
    intro id' i hi
    rw [Ledger.get?_modify] at hi
    split_ifs at hi with hid
    · rw [hrow, Option.map_some] at hi
      obtain rfl := Option.some.inj hi
      exact h.invited id row hrow
    · exact h.invited id' i hi

/-- The columns of a workspace that can be updated do not name its owner. -/
theorem Owned.updateWorkspace (h : Owned db) (id : Nat) (name slug description : GoString) :
    Owned { db with workspaces := db.workspaces.modify id fun ws => ws.written name slug description } ∧
      Extends db { db with
        workspaces := db.workspaces.modify id fun ws => ws.written name slug description } := by
  have hold : ∀ w ws', (db.workspaces.modify id fun ws => ws.written name slug description).get? w =
      some ws' → ∃ ws, db.workspaces.get? w = some ws ∧ ws'.ownerID = ws.ownerID := by
    intro w ws' hws'
    rw [Ledger.get?_modify] at hws'
    split_ifs at hws' with hid
    · subst hid
      obtain ⟨ws, hws, rfl⟩ := Option.map_eq_some_iff.mp hws'
      exact ⟨ws, hws, rfl⟩
    · exact ⟨ws', hws', rfl⟩
  have hnew : ∀ w ws, db.workspaces.get? w = some ws →
      ∃ ws', (db.workspaces.modify id fun ws => ws.written name slug description).get? w =
        some ws' ∧ ws'.ownerID = ws.ownerID := by
    intro w ws hws
    rw [Ledger.get?_modify]
    split_ifs with hid
    · subst hid
      exact ⟨ws.written name slug description, by rw [hws, Option.map_some], rfl⟩
    · exact ⟨ws, hws, rfl⟩
  refine ⟨⟨?_, ?_, ?_, h.member, h.sole, h.invited⟩,
    ⟨hnew, fun _ _ hr => hr, Nat.le_refl _, fun _ m' _ hm => ⟨m', hm, rfl, rfl⟩⟩⟩
  · intro roleID r hr
    obtain ⟨ws, hws⟩ := h.role roleID r hr
    obtain ⟨ws', hws', -⟩ := hnew _ ws hws
    exact ⟨ws', hws'⟩
  · intro w ws' hws'
    obtain ⟨ws, hws, howner⟩ := hold w ws' hws'
    rw [howner]
    exact h.owner w ws hws
  · intro mid m w ws' hm hws'
    obtain ⟨ws, hws, howner⟩ := hold w ws' hws'
    rw [howner]
    exact h.holder mid m w ws hm hws

/-- A new membership with a plain role. -/
theorem Owned.createMember (h : Owned db) {m : Member}
    (hcreate : db.createMember m = some db') (hplain : IsPlainRole db m.roleID) :
    Owned db' ∧ Extends db db' := by
  obtain ⟨rfl, hrole, hfree⟩ := createMember_eq_some hcreate
  refine ⟨⟨h.role, ?_, ?_, ?_, ?_, h.invited⟩, ⟨fun _ ws hws => ⟨ws, hws, rfl⟩,
    fun _ _ hr => hr, Nat.le_succ _, ?_⟩⟩
  · intro w ws hws
    obtain ⟨id, m', ⟨hm', howner⟩, hfields⟩ := h.owner w ws hws
    exact ⟨id, m', ⟨Ledger.get?_add_of_some hm', howner⟩, hfields⟩
  · rintro id m' w ws ⟨hm', howner⟩ hws
    obtain ⟨-, rfl⟩ | hm' := Ledger.of_get?_add hm'
    · exact absurd howner hplain.not_owner
    · exact h.holder id m' w ws ⟨hm', howner⟩ hws
  · intro id m' hm'
    obtain ⟨-, rfl⟩ | hm' := Ledger.of_get?_add hm'
    · exact hrole
    · exact h.member id m' hm'
  · intro id id' m₁ m₂ hm₁ hm₂ hw hu
    obtain ⟨hid, heq⟩ | hold₁ := Ledger.of_get?_add hm₁
    · obtain ⟨hid', -⟩ | hold₂ := Ledger.of_get?_add hm₂
      · rw [hid, hid']
      · exact absurd ⟨heq ▸ hw.symm, heq ▸ hu.symm⟩ (hfree id' m₂ hold₂)
    · obtain ⟨-, heq⟩ | hold₂ := Ledger.of_get?_add hm₂
      · exact absurd ⟨heq ▸ hw, heq ▸ hu⟩ (hfree id m₁ hold₁)
      · exact h.sole id id' m₁ m₂ hold₁ hold₂ hw hu
  · intro id m' hid hm'
    obtain ⟨rfl, -⟩ | hm' := Ledger.of_get?_add hm'
    · exact absurd hid (Nat.lt_irrefl _)
    · exact ⟨m', hm', rfl, rfl⟩

/-- Another plain role for a member who is not the owner. -/
theorem Owned.updateMember (h : Owned db) {id roleID : Nat} (hplain : IsPlainRole db roleID)
    (hother : ∀ m w, HoldsOwnerRole db w id m → False) :
    Owned { db with members := db.members.modify id fun m => m.withRole roleID } ∧
      Extends db { db with members := db.members.modify id fun m => m.withRole roleID } := by
  have hcases : ∀ mid m', (db.members.modify id fun m => m.withRole roleID).get? mid = some m' →
      ∃ m, db.members.get? mid = some m ∧ m'.workspaceID = m.workspaceID ∧ m'.userID = m.userID ∧
        (m'.roleID = m.roleID ∨ m'.roleID = roleID) := by
    intro mid m' hm'
    rw [Ledger.get?_modify] at hm'
    split_ifs at hm' with hid
    · subst hid
      obtain ⟨m, hm, rfl⟩ := Option.map_eq_some_iff.mp hm'
      exact ⟨m, hm, rfl, rfl, Or.inr rfl⟩
    · exact ⟨m', hm', rfl, rfl, Or.inl rfl⟩
  refine ⟨⟨h.role, ?_, ?_, ?_, ?_, h.invited⟩, ⟨fun _ ws hws => ⟨ws, hws, rfl⟩,
    fun _ _ hr => hr, by simp, ?_⟩⟩
  · intro w ws hws
    obtain ⟨mid, m, hholds, hfields⟩ := h.owner w ws hws
    have hne : mid ≠ id := by
      rintro rfl
      exact hother m w hholds
    exact ⟨mid, m, ⟨by rw [Ledger.get?_modify, if_neg hne]; exact hholds.1, hholds.2⟩, hfields⟩
  · rintro mid m' w ws ⟨hm', howner⟩ hws
    obtain ⟨m, hm, hw, hu, hrole | hrole⟩ := hcases mid m' hm'
    · rw [hw, hu]
      exact h.holder mid m w ws ⟨hm, hrole ▸ howner⟩ hws
    · exact absurd (hrole ▸ howner) hplain.not_owner
  · intro mid m' hm'
    obtain ⟨m, hm, -, -, hrole | hrole⟩ := hcases mid m' hm'
    · rw [hrole]
      exact h.member mid m hm
    · obtain ⟨r, hr, -⟩ := hplain
      exact ⟨r, hrole ▸ hr⟩
  · intro mid mid' m₁ m₂ hm₁ hm₂ hw hu
    obtain ⟨m₁', hm₁', hw₁, hu₁, -⟩ := hcases mid m₁ hm₁
    obtain ⟨m₂', hm₂', hw₂, hu₂, -⟩ := hcases mid' m₂ hm₂
    exact h.sole mid mid' m₁' m₂' hm₁' hm₂' (by omega) (by omega)
  · intro mid m' _ hm'
    obtain ⟨m, hm, hw, hu, -⟩ := hcases mid m' hm'
    exact ⟨m, hm, hw, hu⟩

/-- A user less who is not the owner. -/
theorem Owned.deleteMember (h : Owned db) {workspaceID userID : Nat}
    (hother : ∀ ws, db.workspaces.get? workspaceID = some ws → ws.ownerID ≠ userID)
    {members : Ledger Member}
    (hmembers : members = db.members.removeWhere fun m =>
      m.workspaceID = workspaceID ∧ m.userID = userID) :
    Owned { db with members := members } ∧ Extends db { db with members := members } := by
  have hold : ∀ id m, members.get? id = some m → db.members.get? id = some m := by
    intro id m hm
    rw [hmembers, Ledger.get?_removeWhere] at hm
    exact (Option.filter_eq_some_iff.mp hm).1
  have hnext : members.next = db.members.next := by rw [hmembers]; rfl
  refine ⟨⟨h.role, ?_, ?_, ?_, ?_, h.invited⟩, ⟨fun _ ws hws => ⟨ws, hws, rfl⟩,
    fun _ _ hr => hr, hnext.ge, ?_⟩⟩
  · intro w ws hws
    obtain ⟨id, m, ⟨hm, howner⟩, hw, hu⟩ := h.owner w ws hws
    refine ⟨id, m, ⟨?_, howner⟩, hw, hu⟩
    change members.get? id = some m
    rw [hmembers, Ledger.get?_removeWhere, Option.filter_eq_some_iff]
    refine ⟨hm, ?_⟩
    have hkeep : ¬(m.workspaceID = workspaceID ∧ m.userID = userID) := by
      rintro ⟨rfl, rfl⟩
      exact hother ws (hw ▸ hws) hu.symm
    simpa only [Bool.not_eq_true', decide_eq_false_iff_not] using hkeep
  · rintro id m w ws ⟨hm, howner⟩ hws
    exact h.holder id m w ws ⟨hold id m hm, howner⟩ hws
  · exact fun id m hm => h.member id m (hold id m hm)
  · exact fun id id' m m' hm hm' => h.sole id id' m m' (hold id m hm) (hold id' m' hm')
  · exact fun id m _ hm => ⟨m, hold id m hm, rfl, rfl⟩

/-- An owner role after a workspace has been created: an old one, or one of the new
workspace. -/
theorem isOwnerRole_owned {ws : Workspace} {w id : Nat} (howner : IsOwnerRole (db.owned ws) w id) :
    IsOwnerRole db w id ∨ (w = db.workspaces.next ∧ db.roles.next ≤ id) := by
  obtain ⟨r, hr, hw, hname⟩ := howner
  obtain hr | ⟨d, -, rfl, hid⟩ := get?_withDefaultRoles hr
  · exact Or.inl ⟨r, hr, hw, hname⟩
  · exact Or.inr ⟨hw.symm, hid⟩

/-- A new workspace with its roles and its owner. -/
theorem Owned.createOwned (h : Owned db) {ws : Workspace}
    (hfree : ∀ id m, db.members.get? id = some m →
      ¬(m.workspaceID = db.workspaces.next ∧ m.userID = ws.ownerID)) :
    Owned (db.owned ws) ∧ Extends db (db.owned ws) := by
  have hroles : ∀ id r, db.roles.get? id = some r → (db.owned ws).roles.get? id = some r :=
    fun id r hr => get?_withDefaultRoles_of_some hr
  have howner : ∀ w id, IsOwnerRole db w id → IsOwnerRole (db.owned ws) w id := by
    rintro w id ⟨r, hr, hfields⟩
    exact ⟨r, hroles id r hr, hfields⟩
  have hnew : IsOwnerRole (db.owned ws) db.workspaces.next db.roles.next :=
    get?_withDefaultRoles_next _ _ _
  refine ⟨⟨?_, ?_, ?_, ?_, ?_, ?_⟩, ⟨?_, hroles, Nat.le_succ _, ?_⟩⟩
  · intro id r hr
    obtain hr | ⟨d, -, rfl, -⟩ := get?_withDefaultRoles hr
    · obtain ⟨ws', hws'⟩ := h.role id r hr
      exact ⟨ws', Ledger.get?_add_of_some hws'⟩
    · exact ⟨ws, by simp [Database.owned, RoleDefinition.role, Ledger.get?_add]⟩
  · intro w ws' hws'
    obtain ⟨rfl, rfl⟩ | hold := Ledger.of_get?_add hws'
    · exact ⟨db.members.next, ownerMember db ws',
        ⟨by simp [Database.owned, Ledger.get?_add], hnew⟩, rfl, rfl⟩
    · obtain ⟨id, m, ⟨hm, hrole⟩, hfields⟩ := h.owner w ws' hold
      exact ⟨id, m, ⟨Ledger.get?_add_of_some hm, howner w m.roleID hrole⟩, hfields⟩
  · rintro id m w ws' ⟨hm, hrole⟩ hws'
    obtain ⟨r, hr, hrw, hname⟩ | ⟨rfl, hid⟩ := isOwnerRole_owned hrole
    · obtain ⟨-, rfl⟩ | hold := Ledger.of_get?_add hm
      · simp [ownerMember] at hr
      · obtain ⟨rfl, -⟩ | hold' := Ledger.of_get?_add hws'
        · obtain ⟨ws₀, hws₀⟩ := h.role m.roleID r hr
          simp [hrw] at hws₀
        · exact h.holder id m w ws' ⟨hold, r, hr, hrw, hname⟩ hold'
    · obtain ⟨-, rfl⟩ | hold := Ledger.of_get?_add hm
      · obtain ⟨-, rfl⟩ | hold' := Ledger.of_get?_add hws'
        · exact ⟨rfl, rfl⟩
        · simp at hold'
      · obtain ⟨r, hr⟩ := h.member id m hold
        exact absurd (Ledger.lt_of_get? hr) (Nat.not_lt_of_ge hid)
  · intro id m hm
    obtain ⟨rfl, rfl⟩ | hold := Ledger.of_get?_add hm
    · obtain ⟨r, hr, -⟩ := hnew
      exact ⟨r, hr⟩
    · obtain ⟨r, hr⟩ := h.member id m hold
      exact ⟨r, hroles m.roleID r hr⟩
  · intro id id' m₁ m₂ hm₁ hm₂ hw hu
    obtain ⟨hid, heq⟩ | hold₁ := Ledger.of_get?_add hm₁
    · obtain ⟨hid', -⟩ | hold₂ := Ledger.of_get?_add hm₂
      · rw [hid, hid']
      · exact absurd ⟨hw ▸ heq ▸ rfl, hu ▸ heq ▸ rfl⟩ (hfree id' m₂ hold₂)
    · obtain ⟨-, heq⟩ | hold₂ := Ledger.of_get?_add hm₂
      · exact absurd ⟨hw.trans (heq ▸ rfl), hu.trans (heq ▸ rfl)⟩ (hfree id m₁ hold₁)
      · exact h.sole id id' m₁ m₂ hold₁ hold₂ hw hu
  · intro id i hi
    obtain ⟨r, hr, hname⟩ := h.invited id i hi
    exact ⟨r, hroles i.roleID r hr, hname⟩
  · intro w ws' hws'
    exact ⟨ws', Ledger.get?_add_of_some hws', rfl⟩
  · intro id m' hid hm'
    obtain ⟨rfl, -⟩ | hold := Ledger.of_get?_add hm'
    · exact absurd hid (Nat.lt_irrefl _)
    · exact ⟨m', hold, rfl, rfl⟩

end Statements

/-! ## One command -/

section Commands

variable {db : Database} {op : Op} {m : Answers}

/-- A command answers what is so. -/
theorem learnt_exec (h : Owned db) (c : Call) : Learnt (db.exec c).1 c (db.exec c).2 := by
  cases c with
  | findWorkspaceByID workspaceID =>
      cases hws : db.workspaces.get? workspaceID with
      | none => simp [Database.exec, Learnt, hws]
      | some ws => simp [Database.exec, Learnt, hws]
  | findRoleByIDAndWorkspace roleID workspaceID =>
      simp only [Database.exec]
      cases hr : (db.roles.get? roleID).filter fun role => role.workspaceID = workspaceID with
      | none => trivial
      | some r => exact (Option.filter_eq_some_iff.mp hr).1
  | findMemberByUserAndWorkspace userID workspaceID =>
      simp only [Database.exec]
      cases hm : (db.membersOf userID workspaceID).head? with
      | none => trivial
      | some e =>
          obtain ⟨id, member⟩ := e
          obtain ⟨hget, hfields⟩ := Auth.of_head?_rowsWhere hm
          simp only [decide_eq_true_eq] at hfields
          refine ⟨Ledger.lt_of_get? hget, fun m' hm' => ?_⟩
          rw [hget] at hm'
          obtain rfl := Option.some.inj hm'
          exact hfields
  | findInvitationByTokenHash tokenHash =>
      simp only [Database.exec]
      cases hi : (Auth.rowsWhere db.invitations fun i => i.tokenHash = tokenHash).head? with
      | none => trivial
      | some e => exact h.invited e.1 e.2 (Auth.of_head?_rowsWhere hi).1
  | findInvitationByIDGlobal id =>
      cases hi : db.invitations.get? id with
      | none => simp [Database.exec, Learnt, hi]
      | some i => simpa [Database.exec, Learnt, hi] using h.invited id i hi
  | findInvitationByID workspaceID id =>
      simp only [Database.exec]
      cases hi : (db.invitations.get? id).filter fun i => i.workspaceID = workspaceID with
      | none => trivial
      | some i => exact h.invited id i (Option.filter_eq_some_iff.mp hi).1
  | _ => trivial

/-- The row of another member than the owner is not the one with the owner role. -/
theorem Owned.not_holder (h : Owned db) {id userID workspaceID : Nat} {ws : Workspace}
    (hws : db.workspaces.get? workspaceID = some ws) (hother : ws.ownerID ≠ userID)
    (hrow : ∀ m, db.members.get? id = some m → m.workspaceID = workspaceID ∧ m.userID = userID)
    (m : Member) (w : Nat) : HoldsOwnerRole db w id m → False := by
  rintro ⟨hm, r, hr, hw, hname⟩
  obtain ⟨ws', hws'⟩ := h.role m.roleID r hr
  obtain ⟨hmw, hmu⟩ := h.holder id m w ws' ⟨hm, r, hr, hw, hname⟩ (hw ▸ hws')
  obtain ⟨hw₀, hu₀⟩ := hrow m hm
  have hsame : r.workspaceID = workspaceID := by omega
  rw [hsame, hws] at hws'
  obtain rfl := Option.some.inj hws'
  exact hother (hmu.symm.trans hu₀)

/-- A role that has been read as plain is plain. -/
theorem isPlainRole_of_told (hknows : ∀ e ∈ m, Learnt db e.1 e.2) {roleID workspaceID : Nat}
    (htold : ToldPlain m roleID workspaceID) : IsPlainRole db roleID := by
  obtain ⟨r, hr, hname⟩ := htold
  exact ⟨r, hknows _ hr, hname⟩

/-- An invitation that has been found is for a plain role. -/
theorem isPlainRole_of_found (hknows : ∀ e ∈ m, Learnt db e.1 e.2) {id : Nat} {i : Invitation}
    (hfound : Found op m id i) : IsPlainRole db i.roleID := by
  cases op with
  | acceptInvitation token userID userEmail => exact hknows _ hfound
  | acceptInvitationByID id' userID userEmail => exact hknows _ hfound.2
  | declineInvitationByToken token userEmail => exact hknows _ hfound
  | declineInvitationByID id' userEmail => exact hknows _ hfound.2
  | resendInvitation workspaceID id' => exact hknows _ hfound.2
  | _ => exact absurd hfound not_false

/-- Every command that is permitted keeps the invariant. -/
theorem owned_exec (h : Owned db) (hknows : ∀ e ∈ m, Learnt db e.1 e.2) {c : Call}
    (hpermitted : Permitted op m c) :
    Owned (db.exec c).1 ∧ Extends db (db.exec c).1 := by
  cases c with
  | drawToken => exact h.of_eq rfl rfl rfl rfl
  | salt => exact h.of_eq rfl rfl rfl rfl
  | createUser user =>
      simp only [Database.exec]
      split_ifs
      · exact h.of_eq rfl rfl rfl rfl
      · exact ⟨h, .refl _⟩
  | updateWorkspace id name slug description =>
      simp only [Database.exec]
      split_ifs
      · exact h.updateWorkspace id name slug description
      · exact ⟨h, .refl _⟩
  | createOwned ws =>
      simp only [Database.exec]
      cases hcreate : db.createOwned ws with
      | error message => exact ⟨h, .refl _⟩
      | ok created =>
          obtain ⟨db', id⟩ := created
          obtain ⟨-, rfl, hfree⟩ := createOwned_eq_ok hcreate
          exact h.createOwned hfree
  | updateMember id roleID =>
      simp only [Database.exec]
      split_ifs
      · obtain ⟨workspaceID, userID, member, name, ⟨ws, hws, hother⟩, hplain, hmember⟩ := hpermitted
        obtain ⟨ws', hws', howner⟩ := hknows _ hws
        obtain ⟨-, hrow⟩ := hknows _ hmember
        exact h.updateMember (isPlainRole_of_told hknows hplain)
          (h.not_holder hws' (howner ▸ hother) hrow)
      · exact ⟨h, .refl _⟩
  | deleteMemberByUserAndWorkspace userID workspaceID =>
      obtain ⟨ws, hws, hother⟩ := hpermitted
      obtain ⟨ws', hws', howner⟩ := hknows _ hws
      refine h.deleteMember (fun ws'' hws'' => ?_) rfl
      rw [hws'] at hws''
      obtain rfl := Option.some.inj hws''
      exact howner ▸ hother
  | addMember existing workspaceID userID roleID =>
      simp only [Database.exec]
      cases hadd : db.addMember existing workspaceID userID roleID with
      | error message => exact ⟨h, .refl _⟩
      | ok added =>
          obtain ⟨db', member⟩ := added
          obtain ⟨rfl, hcreate⟩ := addMember_eq_ok hadd
          exact h.createMember hcreate (isPlainRole_of_told hknows hpermitted)
  | createInvitation i =>
      simp only [Database.exec]
      split_ifs
      · apply h.of_invitations
        intro id i' hi'
        obtain ⟨-, rfl⟩ | hold := Ledger.of_get?_add hi'
        · exact isPlainRole_of_told hknows hpermitted
        · exact h.invited id i' hold
      · exact ⟨h, .refl _⟩
  | updateInvitation id i =>
      simp only [Database.exec]
      cases hupdate : db.updateInvitation id i with
      | none => exact ⟨h, .refl _⟩
      | some db' => exact h.updateInvitation hupdate
  | deletePendingInvitation workspaceID id =>
      simp only [Database.exec]
      split
      · split_ifs
        · apply h.of_invitations
          intro id' i' hi'
          rw [Ledger.get?_remove] at hi'
          split_ifs at hi'
          exact h.invited id' i' hi'
        · exact ⟨h, .refl _⟩
      · exact ⟨h, .refl _⟩
  | accept id i userID =>
      simp only [Database.exec]
      cases haccept : db.accept id i userID with
      | error message => exact ⟨h, .refl _⟩
      | ok accepted =>
          obtain ⟨db', member⟩ := accepted
          obtain ⟨rfl, db₁, hupdate, hcreate⟩ := accept_eq_ok haccept
          obtain ⟨h₁, hgrows₁⟩ := h.updateInvitation hupdate
          have hplain := (isPlainRole_of_found hknows hpermitted.2.1).extend hgrows₁
          obtain ⟨h₂, hgrows₂⟩ := h₁.createMember hcreate hplain
          exact ⟨h₂, hgrows₁.trans hgrows₂⟩
  | createAPIKey key =>
      simp only [Database.exec]
      split_ifs
      · exact h.of_eq rfl rfl rfl rfl
      · exact ⟨h, .refl _⟩
  | softDeleteScoped userID workspaceID keyID =>
      simp only [Database.exec]
      split
      · split_ifs
        · exact h.of_eq rfl rfl rfl rfl
        · exact ⟨h, .refl _⟩
      · exact ⟨h, .refl _⟩
  | _ => exact ⟨h, .refl _⟩

end Commands

/-! ## Runs -/

/-- The outline of ownership. -/
def ownedOutline : Outline Database Op Call Answer Result Unit where
  permitted := Permitted
  result := Final
  inv := fun db _ => Owned db
  grows := fun db _ db' _ => Extends db db'
  fact := fun db _ => Learnt db

/-- All operations keep the invariant. -/
theorem owned_sound (cfg : Config) :
    ownedOutline.Sound (rbacSystem cfg) .nothing fun _ _ _ => True where
  refl := fun db _ => .refl db
  trans := fun _ _ _ _ _ _ => Extends.trans
  stable := fun _ _ _ _ _ _ hgrows => Learnt.extend hgrows
  safe := safe_bodyOf cfg
  exec := fun _ _ _ _ c hinv hknows hpermitted _ =>
    ⟨owned_exec hinv hknows hpermitted, learnt_exec hinv c⟩
  begins := fun _ _ _ hinv _ => ⟨hinv, .refl _⟩
  finish := fun _ _ _ _ _ hinv _ _ => ⟨hinv, .refl _⟩
  stop := fun _ _ _ hinv => ⟨hinv, .refl _⟩
  env := by
    rintro db _ db' hinv ⟨t, -, rfl⟩
    exact Owned.of_eq hinv rfl rfl rfl rfl

/-- The invariant holds before the first workspace. -/
theorem Fresh.owned {db : Database} (hfresh : Fresh db) : Owned db := by
  constructor
  · simp [hfresh.roles]
  · simp [hfresh.workspaces]
  · simp [hfresh.workspaces]
  · simp [hfresh.members]
  · simp [hfresh.members]
  · simp [hfresh.invitations]

/-- Exactly one membership has the owner role of a workspace, and it is the user's. -/
def SoleOwner (db : Database) (workspaceID userID : Nat) : Prop :=
  ∃ id m, HoldsOwnerRole db workspaceID id m ∧ m.workspaceID = workspaceID ∧ m.userID = userID ∧
    ∀ id' m', HoldsOwnerRole db workspaceID id' m' → id' = id

/-- The owner role is held by the owner alone. -/
theorem Owned.soleOwner {db : Database} (h : Owned db) {w : Nat} {ws : Workspace}
    (hws : db.workspaces.get? w = some ws) : SoleOwner db w ws.ownerID := by
  obtain ⟨id, m, hholds, hw, hu⟩ := h.owner w ws hws
  refine ⟨id, m, hholds, hw, hu, fun id' m' hholds' => ?_⟩
  obtain ⟨hw', hu'⟩ := h.holder id' m' w ws hholds' hws
  exact h.sole id' id m' m hholds'.1 hholds.1 (hw'.trans hw.symm) (hu'.trans hu.symm)

/-- In every state that a run reaches every workspace has exactly one member with its owner
role, the one whom the workspace row names, and this stays so in the rest of the run. -/
theorem sole_owner_of_run {cfg : Config} {db : Database} {w w' : RbacWorld} (hfresh : Fresh db)
    (hrun : Run (rbacSystem cfg).Step (fun _ _ => True) (World.initial db) w)
    (hrest : Run (rbacSystem cfg).Step (fun _ _ => True) w w') {workspaceID : Nat}
    {ws : Workspace} (hws : w.store.workspaces.get? workspaceID = some ws) :
    SoleOwner w.store workspaceID ws.ownerID ∧
      ∃ ws', w'.store.workspaces.get? workspaceID = some ws' ∧ ws'.ownerID = ws.ownerID ∧
        SoleOwner w'.store workspaceID ws.ownerID := by
  have hadmits : ∀ (w : RbacWorld) (l : Label Op), True →
      System.Admits (fun _ _ _ => True) w l := fun _ _ _ _ _ _ _ _ _ _ => trivial
  obtain ⟨hholds, -⟩ := (owned_sound cfg).plain_run hadmits hrun (.initial hfresh.owned)
  obtain ⟨hholds', hgrows⟩ := (owned_sound cfg).plain_run hadmits hrest hholds
  obtain ⟨ws', hws', howner⟩ := hgrows.workspaces workspaceID ws hws
  exact ⟨hholds.1.soleOwner hws, ws', hws', howner, howner ▸ hholds'.1.soleOwner hws'⟩

/-! ## A workspace whose second member comes and goes -/

/-- User 0 creates a workspace, adds user 1 as an admin, makes them a viewer and removes
them. -/
def comingAndGoing : List (Label Op) :=
  [Label.alone 0 (.createWorkspace 0 "acme".toList "acme".toList []) 2,
    Label.alone 0 (.addUserToWorkspace 0 "b@x".toList [] [] 1 []) 4,
    Label.alone 0 (.updateMemberRole 0 1 3) 4, Label.alone 0 (.removeMember 0 1) 2].flatten

/-- The row of the workspace. -/
def acme : Workspace :=
  ⟨"acme".toList, "acme".toList, [], 0, true⟩

/-- The workspace still has its owner alone. -/
theorem sole_owner_of_run_acme :
    ∃ w : RbacWorld, w.log.length = 16 ∧ SoleOwner w.store 0 0 := by
  obtain ⟨w, hsteps, htest⟩ := System.exists_of_steps? (rbacSystem openConfig)
    (fun _ _ => true) (World.initial threeUsers) comingAndGoing
    (fun w => w.store.workspaces.get? 0 = some acme ∧ w.log.length = 16) (by decide +kernel)
  obtain ⟨hws, hlog⟩ := of_decide_eq_true htest
  refine ⟨w, hlog, ?_⟩
  have hrun : Run (rbacSystem openConfig).Step (fun _ _ => True) (World.initial threeUsers) w :=
    System.run_of_steps? (fun _ _ _ => trivial) hsteps
  exact (sole_owner_of_run ⟨rfl, rfl, rfl, rfl, rfl⟩ hrun (Run.refl w) hws).1

end Rbac
end Veilence
