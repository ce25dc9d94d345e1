import Mathlib
import Veilence.Foundation.Transaction

/-!
# The tables of a workspace

The tables that the deletion of a workspace and the removal of a package touch, with the columns
that these look at; {lit}`data` stands for the other columns of a row.  The foreign keys are
those of the migrations.  The columns that refer to workspaces are not among them: a workspace
is marked as deleted and never leaves its table.

A row belongs to a workspace, and some rows belong to a package, by the column of the row itself
or by the row that it refers to.

Main results:

- Theorem {lit}`execute_eq_of_depth`: the model follows foreign keys as deep as they go.
- Theorems {lit}`closed_ofWorkspace` and {lit}`closed_ofPackage`: in a consistent database the
  rows that refer to rows of a workspace or of a package belong to it as well.
-/

namespace Veilence
namespace Tenancy

open Foundation

/-! ## Rows -/

/-- The status of a package. -/
inductive PackageStatus where
  | active
  | blocked
  | removed
  | suggested
deriving DecidableEq

/-- The tables. -/
inductive TableName where
  | workspaces
  | packages
  | releases
  | releaseHashes
  | diffs
  | analyses
  | alerts
  | alertNotes
  | notificationChannels
  | notificationRules
  | notifications
  | settings
  | auditLogs
  | roles
  | rolePermissions
  | workspaceMembers
  | invitations
  | apiKeys
deriving DecidableEq

/-- The primary key of a row.  The rows of {lit}`role_permissions`, which have a pair for their
key, are numbered. -/
abbrev ID : Type := Nat

/-- A workspace, marked when it is deleted. -/
structure Workspace (D : Type) where
  deletedAt : Option Nat
  data : D
deriving DecidableEq

/-- A package. -/
structure Package (D : Type) where
  workspaceID : ID
  status : PackageStatus
  updatedAt : Nat
  data : D
deriving DecidableEq

/-- A release. -/
structure Release (D : Type) where
  workspaceID : ID
  packageID : ID
  data : D
deriving DecidableEq

/-- A hash of a file of a release. -/
structure ReleaseHash (D : Type) where
  releaseID : ID
  data : D
deriving DecidableEq

/-- A diff between two releases. -/
structure Diff (D : Type) where
  releaseID : ID
  prevReleaseID : ID
  data : D
deriving DecidableEq

/-- An analysis of a diff. -/
structure Analysis (D : Type) where
  diffID : ID
  data : D
deriving DecidableEq

/-- An alert. -/
structure Alert (D : Type) where
  workspaceID : ID
  analysisID : Option ID
  packageID : ID
  releaseID : Option ID
  data : D
deriving DecidableEq

/-- A note on an alert. -/
structure AlertNote (D : Type) where
  alertID : ID
  workspaceID : ID
  data : D
deriving DecidableEq

/-- A row that refers to its workspace only: a channel or a role. -/
structure Scoped (D : Type) where
  workspaceID : ID
  data : D
deriving DecidableEq

/-- A notification rule. -/
structure NotificationRule (D : Type) where
  workspaceID : ID
  channelID : ID
  data : D
deriving DecidableEq

/-- A notification. -/
structure Notification (D : Type) where
  workspaceID : ID
  channelID : Option ID
  data : D
deriving DecidableEq

/-- A row of a workspace or of the platform: a setting or an entry of the audit log. -/
structure Shared (D : Type) where
  workspaceID : Option ID
  data : D
deriving DecidableEq

/-- A permission of a role. -/
structure RolePermission where
  roleID : ID
  permissionID : ID
deriving DecidableEq

/-- A row that names a role: a membership or an invitation. -/
structure Holder (D : Type) where
  workspaceID : ID
  roleID : ID
  data : D
deriving DecidableEq

/-- An API key, marked when it is deleted. -/
structure APIKey (D : Type) where
  workspaceID : ID
  deletedAt : Option Nat
  data : D
deriving DecidableEq

/-- The rows of each table. -/
def Row (D : Type) : TableName → Type
  | .workspaces => Workspace D
  | .packages => Package D
  | .releases => Release D
  | .releaseHashes => ReleaseHash D
  | .diffs => Diff D
  | .analyses => Analysis D
  | .alerts => Alert D
  | .alertNotes => AlertNote D
  | .notificationChannels => Scoped D
  | .notificationRules => NotificationRule D
  | .notifications => Notification D
  | .settings => Shared D
  | .auditLogs => Shared D
  | .roles => Scoped D
  | .rolePermissions => RolePermission
  | .workspaceMembers => Holder D
  | .invitations => Holder D
  | .apiKeys => APIKey D

/-- The database. -/
abbrev Database (D : Type) : Type :=
  Store ID (Row D)

variable {D : Type}

/-! ## Foreign keys -/

section Schema

variable (D)

/-- {lit}`releases.package_id`. -/
def releasesPackage : ForeignKey (Row D) ID :=
  ⟨.releases, .packages, fun (r : Release D) => some r.packageID, id, .cascade⟩

/-- {lit}`release_hashes.release_id`. -/
def releaseHashesRelease : ForeignKey (Row D) ID :=
  ⟨.releaseHashes, .releases, fun (h : ReleaseHash D) => some h.releaseID, id, .cascade⟩

/-- {lit}`diffs.release_id`. -/
def diffsRelease : ForeignKey (Row D) ID :=
  ⟨.diffs, .releases, fun (d : Diff D) => some d.releaseID, id, .cascade⟩

/-- {lit}`diffs.prev_release_id`. -/
def diffsPrevRelease : ForeignKey (Row D) ID :=
  ⟨.diffs, .releases, fun (d : Diff D) => some d.prevReleaseID, id, .cascade⟩

/-- {lit}`analyses.diff_id`. -/
def analysesDiff : ForeignKey (Row D) ID :=
  ⟨.analyses, .diffs, fun (a : Analysis D) => some a.diffID, id, .cascade⟩

/-- {lit}`alerts.analysis_id`. -/
def alertsAnalysis : ForeignKey (Row D) ID :=
  ⟨.alerts, .analyses, fun (a : Alert D) => a.analysisID,
    fun (a : Alert D) => { a with analysisID := none }, .setNull⟩

/-- {lit}`alerts.package_id`. -/
def alertsPackage : ForeignKey (Row D) ID :=
  ⟨.alerts, .packages, fun (a : Alert D) => some a.packageID, id, .cascade⟩

/-- {lit}`alerts.release_id`. -/
def alertsRelease : ForeignKey (Row D) ID :=
  ⟨.alerts, .releases, fun (a : Alert D) => a.releaseID,
    fun (a : Alert D) => { a with releaseID := none }, .setNull⟩

/-- {lit}`alert_notes.alert_id`. -/
def alertNotesAlert : ForeignKey (Row D) ID :=
  ⟨.alertNotes, .alerts, fun (n : AlertNote D) => some n.alertID, id, .cascade⟩

/-- {lit}`notification_rules.channel_id`. -/
def notificationRulesChannel : ForeignKey (Row D) ID :=
  ⟨.notificationRules, .notificationChannels,
    fun (r : NotificationRule D) => some r.channelID, id, .cascade⟩

/-- {lit}`notifications.channel_id`. -/
def notificationsChannel : ForeignKey (Row D) ID :=
  ⟨.notifications, .notificationChannels, fun (n : Notification D) => n.channelID,
    fun (n : Notification D) => { n with channelID := none }, .setNull⟩

/-- {lit}`role_permissions.role_id`. -/
def rolePermissionsRole : ForeignKey (Row D) ID :=
  ⟨.rolePermissions, .roles, fun (p : RolePermission) => some p.roleID, id, .cascade⟩

/-- {lit}`workspace_members.role_id`. -/
def workspaceMembersRole : ForeignKey (Row D) ID :=
  ⟨.workspaceMembers, .roles, fun (m : Holder D) => some m.roleID, id, .restrict⟩

/-- {lit}`invitations.role_id`. -/
def invitationsRole : ForeignKey (Row D) ID :=
  ⟨.invitations, .roles, fun (i : Holder D) => some i.roleID, id, .restrict⟩

/-- The references between the rows of a package. -/
def packageKeys : List (ForeignKey (Row D) ID) :=
  [releasesPackage D, diffsRelease D, diffsPrevRelease D, analysesDiff D, alertsAnalysis D,
    alertsPackage D, alertsRelease D]

/-- The references of releases, diffs, analyses, alerts, alert notes, rules, role permissions,
memberships and invitations. -/
def tenantKeys : List (ForeignKey (Row D) ID) :=
  packageKeys D ++
    [alertNotesAlert D, notificationRulesChannel D, rolePermissionsRole D,
      workspaceMembersRole D, invitationsRole D]

/-- All foreign keys. -/
def schema : List (ForeignKey (Row D) ID) :=
  tenantKeys D ++ [releaseHashesRelease D, notificationsChannel D]

end Schema

/-- How far references can be followed towards a table. -/
def rank : TableName → Nat
  | .packages => 5
  | .releases => 4
  | .diffs => 3
  | .analyses => 2
  | .alerts | .notificationChannels | .roles => 1
  | _ => 0

/-- A foreign key leads to a table of higher rank. -/
theorem rank_lt : ∀ fk ∈ schema D, rank fk.child < rank fk.parent := by
  simp [schema, tenantKeys, packageKeys, releasesPackage, releaseHashesRelease, diffsRelease,
    diffsPrevRelease, analysesDiff, alertsAnalysis, alertsPackage, alertsRelease,
    alertNotesAlert, notificationRulesChannel, notificationsChannel, rolePermissionsRole,
    workspaceMembersRole, invitationsRole, rank]

/-- No foreign key leads away from a package. -/
theorem child_ne_packages : ∀ fk ∈ schema D, fk.child ≠ .packages := by
  simp [schema, tenantKeys, packageKeys, releasesPackage, releaseHashesRelease, diffsRelease,
    diffsPrevRelease, analysesDiff, alertsAnalysis, alertsPackage, alertsRelease,
    alertNotesAlert, notificationRulesChannel, notificationsChannel, rolePermissionsRole,
    workspaceMembersRole, invitationsRole]

/-- Execute a statement on the database. -/
def execute (db : Database D) (c : Statement ID (Row D)) : Option (Database D × c.Reply) :=
  c.execute (schema D) 6 db

/-- Following the foreign keys deeper makes no difference. -/
theorem execute_eq_of_depth {depth : Nat} (hdepth : 6 ≤ depth) (db : Database D)
    (c : Statement ID (Row D)) : c.execute (schema D) depth db = execute db c := by
  cases c with
  | delete t p =>
      have hlt : rank t < 6 := by cases t <;> decide
      have heq := deleteRows_eq_of_rank rank_lt (show rank t < depth by omega) hlt
        ((db t).keysWhere p) db
      exact congrArg (Option.map fun db' => (db', ())) heq
  | _ => rfl

/-! ## Owners -/

/-- The workspace of a row of another table. -/
def workspaceOf (db : Database D) : (t : TableName) → ID → Row D t → Option ID
  | .workspaces, _, _ => none
  | .packages, _, (p : Package D) => some p.workspaceID
  | .releases, _, (r : Release D) => some r.workspaceID
  | .releaseHashes, _, (h : ReleaseHash D) =>
      ((db .releases).get? h.releaseID).map fun (r : Release D) => r.workspaceID
  | .diffs, _, (d : Diff D) =>
      ((db .releases).get? d.releaseID).map fun (r : Release D) => r.workspaceID
  | .analyses, _, (a : Analysis D) =>
      ((db .diffs).get? a.diffID).bind fun (d : Diff D) =>
        ((db .releases).get? d.releaseID).map fun (r : Release D) => r.workspaceID
  | .alerts, _, (a : Alert D) => some a.workspaceID
  | .alertNotes, _, (n : AlertNote D) => some n.workspaceID
  | .notificationChannels, _, (c : Scoped D) => some c.workspaceID
  | .notificationRules, _, (r : NotificationRule D) => some r.workspaceID
  | .notifications, _, (n : Notification D) => some n.workspaceID
  | .settings, _, (s : Shared D) => s.workspaceID
  | .auditLogs, _, (l : Shared D) => l.workspaceID
  | .roles, _, (r : Scoped D) => some r.workspaceID
  | .rolePermissions, _, (p : RolePermission) =>
      ((db .roles).get? p.roleID).map fun (r : Scoped D) => r.workspaceID
  | .workspaceMembers, _, (m : Holder D) => some m.workspaceID
  | .invitations, _, (i : Holder D) => some i.workspaceID
  | .apiKeys, _, (k : APIKey D) => some k.workspaceID

/-- The package of a row. -/
def packageOf (db : Database D) : (t : TableName) → ID → Row D t → Option ID
  | .packages, k, _ => some k
  | .releases, _, (r : Release D) => some r.packageID
  | .releaseHashes, _, (h : ReleaseHash D) =>
      ((db .releases).get? h.releaseID).map fun (r : Release D) => r.packageID
  | .diffs, _, (d : Diff D) =>
      ((db .releases).get? d.releaseID).map fun (r : Release D) => r.packageID
  | .analyses, _, (a : Analysis D) =>
      ((db .diffs).get? a.diffID).bind fun (d : Diff D) =>
        ((db .releases).get? d.releaseID).map fun (r : Release D) => r.packageID
  | .alerts, _, (a : Alert D) => some a.packageID
  | .alertNotes, _, (n : AlertNote D) =>
      ((db .alerts).get? n.alertID).map fun (a : Alert D) => a.packageID
  | _, _, _ => none

/-- The rows whose owner, read off by {lit}`ownerOf`, is the given one. -/
def OwnedBy (db : Database D) (ownerOf : (t : TableName) → ID → Row D t → Option ID)
    (owner : ID) (t : TableName) (k : ID) : Prop :=
  ∃ row, (db t).get? k = some row ∧ ownerOf t k row = some owner

/-- The rows of a workspace. -/
def OfWorkspace (db : Database D) (w : ID) (t : TableName) (k : ID) : Prop :=
  OwnedBy db (workspaceOf db) w t k

/-- The rows of a package, without the package itself. -/
def OfPackage (db : Database D) (p : ID) (t : TableName) (k : ID) : Prop :=
  t ≠ .packages ∧ OwnedBy db (packageOf db) p t k

/-- Every reference leads to a row with the same owner. -/
def RefersWithin (db : Database D) (ownerOf : (t : TableName) → ID → Row D t → Option ID)
    (fk : ForeignKey (Row D) ID) : Prop :=
  ∀ k row q, (db fk.child).get? k = some row → fk.column row = some q →
    ∃ parent, (db fk.parent).get? q = some parent ∧
      ownerOf fk.parent q parent = ownerOf fk.child k row

/-- The same, read off the entries of the table. -/
theorem refersWithin_iff {db : Database D}
    {ownerOf : (t : TableName) → ID → Row D t → Option ID} {fk : ForeignKey (Row D) ID} :
    RefersWithin db ownerOf fk ↔ ∀ e ∈ (db fk.child).entries, ∀ q ∈ fk.column e.2,
      ∃ parent ∈ (db fk.parent).get? q, ownerOf fk.parent q parent = ownerOf fk.child e.1 e.2 := by
  constructor
  · exact fun h e he q hq => h e.1 e.2 q (Table.get?_eq_some_iff.mpr he) hq
  · exact fun h k row q hrow hq => h (k, row) (Table.get?_eq_some_iff.mp hrow) q hq

instance {db : Database D} {ownerOf : (t : TableName) → ID → Row D t → Option ID}
    {fk : ForeignKey (Row D) ID} : Decidable (RefersWithin db ownerOf fk) :=
  decidable_of_iff _ refersWithin_iff.symm

/-- Releases, diffs, analyses, alerts, alert notes, rules, memberships, invitations and role
permissions refer only to rows of their own workspace, and releases, diffs, analyses and alerts
only to rows of their own package. -/
structure TenantConsistent (db : Database D) : Prop where
  workspace : ∀ fk ∈ tenantKeys D, RefersWithin db (workspaceOf db) fk
  package : ∀ fk ∈ packageKeys D, RefersWithin db (packageOf db) fk

/-- Notifications refer only to channels of their own workspace. -/
def NotificationsConsistent (db : Database D) : Prop :=
  RefersWithin db (workspaceOf db) (notificationsChannel D)

/-- A row that refers within its owner to a row of the owner is a row of the owner. -/
theorem RefersWithin.owned {db : Database D}
    {ownerOf : (t : TableName) → ID → Row D t → Option ID} {fk : ForeignKey (Row D) ID}
    (hwithin : RefersWithin db ownerOf fk) {k q owner : ID} {row : Row D fk.child}
    (hrow : (db fk.child).get? k = some row) (hcolumn : fk.column row = some q)
    (hparent : OwnedBy db ownerOf owner fk.parent q) : OwnedBy db ownerOf owner fk.child k := by
  obtain ⟨parent, hget, howner⟩ := hwithin k row q hrow hcolumn
  obtain ⟨parent', hget', hown⟩ := hparent
  obtain rfl := Option.some.inj (hget.symm.trans hget')
  exact ⟨row, hrow, howner ▸ hown⟩

/-- A row whose owner is read off the row that it refers to. -/
theorem map_eq_of_parent {V : Type} {table : Table ID V} {column : V → ID} {ref q owner : ID}
    (hcolumn : some ref = some q)
    (hparent : ∃ row, table.get? q = some row ∧ some (column row) = some owner) :
    (table.get? ref).map column = some owner := by
  obtain ⟨row, hrow, howner⟩ := hparent
  rw [Option.some.inj hcolumn, hrow]
  exact howner

/-- In a consistent database the rows that refer to rows of a workspace belong to it. -/
theorem closed_ofWorkspace {db : Database D} (h : TenantConsistent db)
    (hnotifications : NotificationsConsistent db) (w : ID) :
    Closed (schema D) (OfWorkspace db w) db := by
  intro fk hfk k row q hrow hcolumn hparent
  obtain hmem | hmem := List.mem_append.mp hfk
  · exact (h.workspace fk hmem).owned hrow hcolumn hparent
  · cases hmem with
    | head => exact ⟨row, hrow, map_eq_of_parent hcolumn hparent⟩
    | tail _ hmem =>
        obtain rfl := List.mem_singleton.mp hmem
        exact hnotifications.owned hrow hcolumn hparent

/-- In a consistent database the rows that refer to rows of a package belong to it. -/
theorem closed_ofPackage {db : Database D} (h : TenantConsistent db) (p : ID) :
    Closed (schema D) (OfPackage db p) db := by
  intro fk hfk k row q hrow hcolumn hparent
  refine ⟨child_ne_packages fk hfk, ?_⟩
  obtain ⟨hne, hparent⟩ := hparent
  have hnone : (∀ q row, packageOf db fk.parent q row = none) → OwnedBy db (packageOf db) p
      fk.child k := by
    intro hnone
    obtain ⟨parent, -, howner⟩ := hparent
    rw [hnone] at howner
    exact nomatch howner
  obtain hmem | hmem := List.mem_append.mp hfk
  · obtain hmem | hmem := List.mem_append.mp hmem
    · exact (h.package fk hmem).owned hrow hcolumn hparent
    · simp only [List.mem_cons, List.not_mem_nil, or_false] at hmem
      obtain rfl | rfl | rfl | rfl | rfl := hmem
      · exact ⟨row, hrow, map_eq_of_parent hcolumn hparent⟩
      -- Channels and roles are of no package.
      · exact hnone fun _ _ => rfl
      · exact hnone fun _ _ => rfl
      · exact hnone fun _ _ => rfl
      · exact hnone fun _ _ => rfl
  · cases hmem with
    | head => exact ⟨row, hrow, map_eq_of_parent hcolumn hparent⟩
    | tail _ hmem =>
        obtain rfl := List.mem_singleton.mp hmem
        exact hnone fun _ _ => rfl

/-- What may become of a row that stays: references of an alert or of a notification are
cleared, the status of a package changes, a workspace or a key is marked as deleted. -/
def wearRel : (t : TableName) → Row D t → Row D t → Prop
  | .workspaces, _, _ => True
  | .packages, (old : Package D), (new : Package D) => new.workspaceID = old.workspaceID
  | .alerts, (old : Alert D), (new : Alert D) =>
      new.workspaceID = old.workspaceID ∧ new.packageID = old.packageID ∧
        (∀ q, new.analysisID = some q → old.analysisID = some q) ∧
        ∀ q, new.releaseID = some q → old.releaseID = some q
  | .notifications, (old : Notification D), (new : Notification D) =>
      new.workspaceID = old.workspaceID ∧ ∀ q, new.channelID = some q → old.channelID = some q
  | .apiKeys, (old : APIKey D), (new : APIKey D) => new.workspaceID = old.workspaceID
  | _, old, new => new = old

theorem wearRel_refl (t : TableName) (row : Row D t) : wearRel t row row := by
  cases t <;> simp [wearRel]

theorem wearRel_trans (t : TableName) (a b c : Row D t) (hab : wearRel t a b)
    (hbc : wearRel t b c) : wearRel t a c := by
  cases t with
  | workspaces => trivial
  | packages => exact Eq.trans hbc hab
  | alerts =>
      obtain ⟨hw, hp, ha, hr⟩ := hab
      obtain ⟨hw', hp', ha', hr'⟩ := hbc
      exact ⟨hw'.trans hw, hp'.trans hp, fun q hq => ha q (ha' q hq), fun q hq => hr q (hr' q hq)⟩
  | notifications =>
      obtain ⟨hw, hc⟩ := hab
      obtain ⟨hw', hc'⟩ := hbc
      exact ⟨hw'.trans hw, fun q hq => hc q (hc' q hq)⟩
  | apiKeys => exact Eq.trans hbc hab
  | _ => exact Eq.trans hbc hab

/-- The rows that may lose a reference are those of a nullable column. -/
theorem wearRel_clear : ∀ fk ∈ schema D, fk.action = .setNull → ∀ row,
    wearRel fk.child row (fk.clear row) := by
  simp [schema, tenantKeys, packageKeys, releasesPackage, releaseHashesRelease, diffsRelease,
    diffsPrevRelease, analysesDiff, alertsAnalysis, alertsPackage, alertsRelease,
    alertNotesAlert, notificationRulesChannel, notificationsChannel, rolePermissionsRole,
    workspaceMembersRole, invitationsRole, wearRel]

/-- A row that is as before refers to what it referred to. -/
theorem column_of_eq {fk : ForeignKey (Row D) ID} {old new : Row D fk.child} {q : ID}
    (heq : new = old) (hcolumn : fk.column new = some q) : fk.column old = some q :=
  heq ▸ hcolumn

/-- No row gains a reference. -/
theorem wearRel_column : ∀ fk ∈ schema D, ∀ old new q, wearRel fk.child old new →
    fk.column new = some q → fk.column old = some q := by
  intro fk hfk
  simp only [schema, tenantKeys, packageKeys, List.mem_append, List.mem_cons,
    List.not_mem_nil, or_false] at hfk
  obtain ((rfl | rfl | rfl | rfl | rfl | rfl | rfl) | rfl | rfl | rfl | rfl | rfl) | rfl | rfl :=
    hfk
  · exact fun _ _ _ => column_of_eq
  · exact fun _ _ _ => column_of_eq
  · exact fun _ _ _ => column_of_eq
  · exact fun _ _ _ => column_of_eq
  · exact fun _ _ q hrel hcolumn => hrel.2.2.1 q hcolumn
  · exact fun _ _ _ hrel hcolumn => (congrArg some hrel.2.1.symm).trans hcolumn
  · exact fun _ _ q hrel hcolumn => hrel.2.2.2 q hcolumn
  · exact fun _ _ _ => column_of_eq
  · exact fun _ _ _ => column_of_eq
  · exact fun _ _ _ => column_of_eq
  · exact fun _ _ _ => column_of_eq
  · exact fun _ _ _ => column_of_eq
  · exact fun _ _ _ => column_of_eq
  · exact fun _ _ q hrel hcolumn => hrel.2 q hcolumn

/-- The rows lose references, but they gain none. -/
def wear : Wear (schema D) where
  rel := wearRel
  refl := wearRel_refl
  trans := wearRel_trans
  clear := wearRel_clear
  column := wearRel_column

end Tenancy
end Veilence
