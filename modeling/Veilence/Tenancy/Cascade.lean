import Mathlib
import Veilence.Tenancy.Repositories

/-!
# What a deletion removes

The transactions delete by IDs that they collect level by level, some of them only under a
condition on an earlier list.  In a consistent database each of their conditions selects the
rows of the owner in one table, and a condition that is not met means that the owner has no row
there.  The foreign keys then react on rows of the owner only.

Main results:

- Theorem {lit}`spec_softDeleteWorkspace`: what a successful {lit}`SoftDeleteWorkspace` does.
- Theorem {lit}`spec_removePackage`: what a successful {lit}`RemovePackage` does.
- Theorem {lit}`deletions_exact`: both, and that an error leaves the database as it was.
- Theorem {lit}`notification_loses_channel`: a notification that refers to a channel of another
  workspace changes with that workspace.
-/

namespace Veilence
namespace Tenancy

open Go Foundation

variable {D : Type} {db : Database D} {w p now : ID}

/-! ## Rules for the statements -/

section Rules

variable {own : TableName → ID → Prop} {done : List TableName} {t : TableName}
  {sel : ID → Row D t → Bool} {e : Failure}

/-- The rows of an owner in one table are deleted. -/
theorem spec_delete (hclosed : Closed (schema D) own db)
    (hsel : ∀ k old new, (db t).get? k = some old → wearRel t old new →
      (sel k new = true ↔ own t k)) :
    Spec execute (Swept wear own db done) (delete t sel e)
      fun _ => Swept wear own db (t :: done) :=
  Spec.exec fun _ _ _ hs hexec => hs.delete hclosed hsel hexec

/-- The rows of an owner in one table are deleted, unless it is known to have none. -/
theorem spec_deleteIf {cond : Bool} (hclosed : Closed (schema D) own db)
    (hsel : ∀ k old new, (db t).get? k = some old → wearRel t old new →
      (sel k new = true ↔ own t k))
    (hnone : cond = false → ∀ k, ¬own t k) :
    Spec execute (Swept wear own db done) (Tx.onlyIf cond (delete t sel e))
      fun _ => Swept wear own db (t :: done) :=
  Spec.onlyIf (fun _ => spec_delete hclosed hsel) fun hcond _ hs => hs.skip (hnone hcond)

/-- The same where the rows are found by a column that leads to listed rows. -/
theorem spec_deleteListed {column : Row D t → ID} {ids : List ID}
    (hclosed : Closed (schema D) own db)
    (hwear : ∀ old new : Row D t, wearRel t old new → new = old)
    (hexists : ∀ k, own t k → ∃ row, (db t).get? k = some row)
    (hids : ∀ k row, (db t).get? k = some row → (column row ∈ ids ↔ own t k)) :
    Spec execute (Swept wear own db done)
      (Tx.onlyIf (ids ≠ []) (delete t (fun _ row => column row ∈ ids) e))
      fun _ => Swept wear own db (t :: done) := by
  refine spec_deleteIf hclosed ?_ ?_
  · intro k old new hold hrel
    rw [hwear old new hrel, decide_eq_true_iff]
    exact hids k old hold
  · intro hempty k hk
    obtain ⟨row, hrow⟩ := hexists k hk
    have hmem := (hids k row hrow).mpr hk
    simp only [ne_eq, decide_eq_false_iff_not, not_not] at hempty
    rw [hempty] at hmem
    exact nomatch hmem

end Rules

section Owners

variable {ownerOf : (t : TableName) → ID → Row D t → Option ID} {owner : ID} {t : TableName}

/-- A row has one owner. -/
theorem ownedBy_iff {k : ID} {row : Row D t} (hrow : (db t).get? k = some row) :
    OwnedBy db ownerOf owner t k ↔ ownerOf t k row = some owner := by
  constructor
  · intro h
    obtain ⟨row', hrow', howner⟩ := h
    obtain rfl := Option.some.inj (hrow.symm.trans hrow')
    exact howner
  · exact fun howner => ⟨row, hrow, howner⟩

/-- The IDs of the rows of an owner are collected. -/
theorem spec_pluck (ownerOf : (t : TableName) → ID → Row D t → Option ID) (owner : ID)
    {sel : ID → Row D t → Bool} {I : Database D → Prop}
    (hsame : ∀ s, I s → ∀ k, (s t).get? k = (db t).get? k)
    (hsel : ∀ k row, (db t).get? k = some row → (sel k row = true ↔ ownerOf t k row = some owner)) :
    Spec execute I (pluck t sel) fun ids s =>
      I s ∧ ∀ k, k ∈ ids ↔ OwnedBy db ownerOf owner t k := by
  apply Spec.read
  intro s s' ids hs hexec
  obtain ⟨rfl, rfl⟩ := Prod.mk.inj (Option.some.inj hexec)
  refine ⟨hs, fun k => ?_⟩
  constructor
  · intro hk
    obtain ⟨row, hrow, hselected⟩ := Table.mem_keysWhere.mp hk
    rw [hsame s hs] at hrow
    exact ⟨row, hrow, (hsel k row hrow).mp hselected⟩
  · intro hk
    obtain ⟨row, hrow, howner⟩ := hk
    have hselected := (hsel k row hrow).mpr howner
    rw [← hsame s hs] at hrow
    exact Table.mem_keysWhere.mpr ⟨row, hrow, hselected⟩

/-- An owner read off the row that a column leads to. -/
theorem map_eq_some_iff_exists {V : Type} {table : Table ID V} {column : V → ID} {ref : ID} :
    (table.get? ref).map column = some owner ↔
      ∃ row, table.get? ref = some row ∧ some (column row) = some owner := by
  rw [Option.map_eq_some_iff]
  simp only [Option.some.injEq]

end Owners

/-! ## The tables of roles -/

/-- Roles and what refers to them. -/
def roleTables : List TableName :=
  [.roles, .rolePermissions, .workspaceMembers, .invitations]

/-- The rows of a workspace in the other tables. -/
def BesideRoles (db : Database D) (w : ID) (t : TableName) (k : ID) : Prop :=
  OfWorkspace db w t k ∧ t ∉ roleTables

/-- Only rows of these tables refer from them. -/
theorem parent_eq_roles : ∀ fk ∈ schema D, fk.child ∈ roleTables → fk.parent ∈ roleTables := by
  simp [schema, tenantKeys, packageKeys, releasesPackage, releaseHashesRelease, diffsRelease,
    diffsPrevRelease, analysesDiff, alertsAnalysis, alertsPackage, alertsRelease,
    alertNotesAlert, notificationRulesChannel, notificationsChannel, rolePermissionsRole,
    workspaceMembersRole, invitationsRole, roleTables]

theorem closed_besideRoles (h : TenantConsistent db) (hnotifications : NotificationsConsistent db)
    (w : ID) : Closed (schema D) (BesideRoles db w) db := by
  intro fk hfk k row q hrow hcolumn hparent
  exact ⟨closed_ofWorkspace h hnotifications w fk hfk k row q hrow hcolumn hparent.1,
    fun hchild => hparent.2 (parent_eq_roles fk hfk hchild)⟩

/-- The rows of the workspace in another table. -/
theorem besideRoles_iff {t : TableName} (ht : t ∉ roleTables) {k : ID} {row : Row D t}
    (hrow : (db t).get? k = some row) :
    BesideRoles db w t k ↔ workspaceOf db t k row = some w := by
  rw [BesideRoles, OfWorkspace, ownedBy_iff hrow]
  simp [ht]

/-! ## SoftDeleteWorkspace -/

/-- A row that stays keeps its workspace. -/
theorem workspaceOf_of_wearRel {t : TableName} {k : ID} {old new : Row D t}
    (hrel : wearRel t old new) : workspaceOf db t k new = workspaceOf db t k old := by
  cases t with
  | workspaces => rfl
  | packages => exact congrArg some hrel
  | alerts => exact congrArg some hrel.1
  | notifications => exact congrArg some hrel.1
  | apiKeys => exact congrArg some hrel
  | _ => exact congrArg (workspaceOf db _ k) hrel

/-- The rows of a workspace are deleted in a table that names it. -/
theorem spec_deleteNamed {own : TableName → ID → Prop} {t : TableName} {done : List TableName}
    {sel : ID → Row D t → Bool} {e : Failure} (hclosed : Closed (schema D) own db)
    (hown : ∀ k row, (db t).get? k = some row → (own t k ↔ workspaceOf db t k row = some w))
    (hsel : ∀ k row, sel k row = true ↔ workspaceOf db t k row = some w) :
    Spec execute (Swept wear own db done) (delete t sel e)
      fun _ => Swept wear own db (t :: done) :=
  spec_delete hclosed fun k old new hold hrel => by
    rw [hown k old hold, hsel, workspaceOf_of_wearRel hrel]

/-- The IDs of the diffs of an owner are collected through its releases. -/
theorem spec_pluckDiffs {ownerOf : (t : TableName) → ID → Row D t → Option ID} {owner : ID}
    {releaseIDs : List ID}
    (hdiff : ∀ k (d : Diff D), (db .diffs).get? k = some d →
      (d.releaseID ∈ releaseIDs ↔ ownerOf .diffs k d = some owner)) :
    Spec execute (fun s => s = db) (pluckDiffs releaseIDs) fun diffIDs s =>
      s = db ∧ ∀ k, k ∈ diffIDs ↔ OwnedBy db ownerOf owner .diffs k := by
  unfold pluckDiffs
  split_ifs with hempty
  · refine Spec.pure fun s hs => ⟨hs, fun k => ?_⟩
    constructor
    · exact fun hk => nomatch hk
    · intro hk
      obtain ⟨d, hd, howner⟩ := hk
      have hmem := (hdiff k d hd).mpr howner
      rw [hempty] at hmem
      exact nomatch hmem
  · refine spec_pluck ownerOf owner (fun s hs k => by rw [hs]) fun k d hd => ?_
    rw [decide_eq_true_iff]
    exact hdiff k d hd

/-- What a workspace with packages loses. -/
theorem spec_deletePackageRows (h : TenantConsistent db)
    (hnotifications : NotificationsConsistent db) {pkgIDs : List ID}
    (hpkgIDs : ∀ k, k ∈ pkgIDs ↔ OfWorkspace db w .packages k) :
    Spec execute (fun s => s = db) (deletePackageRows w pkgIDs) fun _ =>
      Swept wear (BesideRoles db w) db
        [.packages, .releases, .diffs, .analyses, .alerts, .alertNotes] := by
  have hrelease : ∀ k (r : Release D), (db .releases).get? k = some r →
      (r.packageID ∈ pkgIDs ∧ r.workspaceID = w ↔ workspaceOf db .releases k r = some w) := by
    intro k r hr
    constructor
    · exact fun hsel => congrArg some hsel.2
    · intro howner
      obtain ⟨p, hp, heq⟩ := h.workspace (releasesPackage D) (by simp [tenantKeys, packageKeys])
        k r r.packageID hr rfl
      exact ⟨(hpkgIDs r.packageID).mpr ⟨p, hp, heq.trans howner⟩, Option.some.inj howner⟩
  refine (spec_pluck (workspaceOf db) w (fun s hs k => by rw [hs]) fun k r hr => ?_).bind
    fun releaseIDs => Spec.of_fact fun hreleaseIDs => ?_
  · rw [decide_eq_true_iff]
    exact hrelease k r hr
  have hdiff : ∀ k (d : Diff D), (db .diffs).get? k = some d →
      (d.releaseID ∈ releaseIDs ↔ workspaceOf db .diffs k d = some w) := by
    intro k d hd
    rw [hreleaseIDs]
    exact map_eq_some_iff_exists.symm
  refine (spec_pluckDiffs hdiff).bind fun diffIDs => Spec.of_fact fun hdiffIDs => ?_
  have hanalysis : ∀ k (a : Analysis D), (db .analyses).get? k = some a →
      (a.diffID ∈ diffIDs ↔ workspaceOf db .analyses k a = some w) := by
    intro k a ha
    rw [hdiffIDs]
    exact Option.bind_eq_some_iff.symm
  have hbegin : ∀ s, s = db → Swept wear (BesideRoles db w) db [] s := by
    intro s hs
    rw [hs]
    exact .refl db
  refine Spec.of_imp hbegin ?_
  have hclosed := closed_besideRoles h hnotifications w
  have hown : ∀ {t}, t ∉ roleTables → ∀ k row, (db t).get? k = some row →
      (BesideRoles db w t k ↔ workspaceOf db t k row = some w) :=
    fun ht k row hrow => besideRoles_iff ht hrow
  have hexists : ∀ {t} k, BesideRoles db w t k → ∃ row, (db t).get? k = some row :=
    fun k hk => ⟨hk.1.choose, hk.1.choose_spec.1⟩
  refine Spec.bind (spec_deleteNamed hclosed (hown (by decide)) ?_) fun _ => ?_
  · exact fun k n => by simp [workspaceOf]
  refine Spec.bind (spec_deleteNamed hclosed (hown (by decide)) ?_) fun _ => ?_
  · exact fun k a => by simp [workspaceOf]
  refine Spec.bind (spec_deleteListed hclosed (fun _ _ => id) hexists ?_) fun _ => ?_
  · intro k a ha
    rw [hown (by decide) k a ha]
    exact hanalysis k a ha
  refine Spec.bind (spec_deleteListed hclosed (fun _ _ => id) hexists ?_) fun _ => ?_
  · intro k d hd
    rw [hown (by decide) k d hd]
    exact hdiff k d hd
  refine Spec.bind (spec_delete hclosed ?_) fun _ => ?_
  · intro k old new hold hrel
    obtain rfl : new = old := hrel
    rw [hown (by decide) k new hold, decide_eq_true_iff]
    exact hrelease k new hold
  refine spec_deleteNamed hclosed (hown (by decide)) ?_
  exact fun k p => by simp [workspaceOf]

/-- A workspace whose rows in one table refer to none of its rows has none in that table. -/
theorem not_ofWorkspace_child {fk : ForeignKey (Row D) ID}
    (hwithin : RefersWithin db (workspaceOf db) fk) (hcolumn : ∀ row, (fk.column row).isSome)
    (hnone : ∀ k, ¬OfWorkspace db w fk.parent k) (k : ID) : ¬OfWorkspace db w fk.child k := by
  intro hk
  obtain ⟨row, hrow, howner⟩ := hk
  obtain ⟨q, hq⟩ := Option.isSome_iff_exists.mp (hcolumn row)
  obtain ⟨parent, hparent, heq⟩ := hwithin k row q hrow hq
  exact hnone q ⟨parent, hparent, heq.trans howner⟩

/-- What a workspace loses with its packages, if it has any. -/
theorem spec_deletePackages (h : TenantConsistent db)
    (hnotifications : NotificationsConsistent db) {pkgIDs : List ID}
    (hpkgIDs : ∀ k, k ∈ pkgIDs ↔ OfWorkspace db w .packages k) :
    Spec execute (fun s => s = db) (Tx.onlyIf (pkgIDs ≠ []) (deletePackageRows w pkgIDs))
      fun _ => Swept wear (BesideRoles db w) db
        [.packages, .releases, .diffs, .analyses, .alerts, .alertNotes] := by
  refine Spec.onlyIf (fun _ => spec_deletePackageRows h hnotifications hpkgIDs) ?_
  intro hempty s hs
  simp only [ne_eq, decide_eq_false_iff_not, not_not] at hempty
  have hpackages : ∀ k, ¬OfWorkspace db w .packages k := by
    intro k hk
    have hmem := (hpkgIDs k).mpr hk
    rw [hempty] at hmem
    exact nomatch hmem
  have hreleases : ∀ k, ¬OfWorkspace db w .releases k :=
    not_ofWorkspace_child (h.workspace (releasesPackage D) (by simp [tenantKeys, packageKeys]))
      (fun _ => rfl) hpackages
  have hdiffs : ∀ k, ¬OfWorkspace db w .diffs k :=
    not_ofWorkspace_child (h.workspace (diffsRelease D) (by simp [tenantKeys, packageKeys]))
      (fun _ => rfl) hreleases
  have hanalyses : ∀ k, ¬OfWorkspace db w .analyses k :=
    not_ofWorkspace_child (h.workspace (analysesDiff D) (by simp [tenantKeys, packageKeys]))
      (fun _ => rfl) hdiffs
  have halerts : ∀ k, ¬OfWorkspace db w .alerts k :=
    not_ofWorkspace_child (h.workspace (alertsPackage D) (by simp [tenantKeys, packageKeys]))
      (fun _ => rfl) hpackages
  have hnotes : ∀ k, ¬OfWorkspace db w .alertNotes k :=
    not_ofWorkspace_child (h.workspace (alertNotesAlert D) (by simp [tenantKeys]))
      (fun _ => rfl) halerts
  have hbegin : Swept wear (BesideRoles db w) db [] s := by
    rw [hs]
    exact .refl db
  exact (((((hbegin.skip fun k hk => hnotes k hk.1).skip fun k hk => halerts k hk.1).skip
    fun k hk => hanalyses k hk.1).skip fun k hk => hdiffs k hk.1).skip
    fun k hk => hreleases k hk.1).skip fun k hk => hpackages k hk.1

/-- What every workspace loses besides. -/
theorem spec_deleteWorkspaceRows (h : TenantConsistent db)
    (hnotifications : NotificationsConsistent db) (done : List TableName) :
    Spec execute (Swept wear (BesideRoles db w) db done) (deleteWorkspaceRows w)
      fun _ => Swept wear (BesideRoles db w) db
        (.auditLogs :: .settings :: .notifications :: .notificationChannels ::
          .notificationRules :: done) := by
  have hclosed := closed_besideRoles h hnotifications w
  have hown : ∀ {t}, t ∉ roleTables → ∀ k row, (db t).get? k = some row →
      (BesideRoles db w t k ↔ workspaceOf db t k row = some w) :=
    fun ht k row hrow => besideRoles_iff ht hrow
  refine Spec.bind (spec_deleteNamed hclosed (hown (by decide)) ?_) fun _ => ?_
  · exact fun k r => by simp [workspaceOf]
  refine Spec.bind (spec_deleteNamed hclosed (hown (by decide)) ?_) fun _ => ?_
  · exact fun k c => by simp [workspaceOf]
  refine Spec.bind (spec_deleteNamed hclosed (hown (by decide)) ?_) fun _ => ?_
  · exact fun k n => by simp [workspaceOf]
  refine Spec.bind (spec_deleteNamed hclosed (hown (by decide)) ?_) fun _ => ?_
  · exact fun k s => by simp [workspaceOf]
  refine spec_deleteNamed hclosed (hown (by decide)) ?_
  exact fun k l => by simp [workspaceOf]

/-- What a workspace loses with its roles. -/
theorem spec_deleteRoleRows (h : TenantConsistent db)
    (hnotifications : NotificationsConsistent db) {done : List TableName}
    (hdone : ∀ t ∈ done, t ∉ roleTables) :
    Spec execute (Swept wear (BesideRoles db w) db done) (deleteRoleRows w)
      fun _ => Swept wear (OfWorkspace db w) db
        (.roles :: .invitations :: .workspaceMembers :: .rolePermissions :: done) := by
  have hclosed := closed_ofWorkspace h hnotifications w
  have hexists : ∀ {t} k, OfWorkspace db w t k → ∃ row, (db t).get? k = some row :=
    fun k hk => ⟨hk.choose, hk.choose_spec.1⟩
  -- The roles themselves have not been touched yet.
  have hroles : ∀ s, Swept wear (BesideRoles db w) db done s →
      ∀ k, (s .roles).get? k = (db .roles).get? k :=
    fun s hs k => hs.spares.kept .roles k fun hk => hk.2 (by decide)
  refine Spec.bind (spec_pluck (workspaceOf db) w hroles fun k r hr => ?_) fun roleIDs =>
    Spec.of_fact fun hroleIDs => ?_
  · rw [decide_eq_true_iff]
    exact (Option.some.injEq r.workspaceID w).symm.to_iff
  have hwiden : ∀ s, Swept wear (BesideRoles db w) db done s →
      Swept wear (OfWorkspace db w) db done s := fun s hs =>
    ⟨hs.spares.mono fun t k hk => hk.1, fun t ht k hk => hs.gone t ht k ⟨hk, hdone t ht⟩⟩
  refine Spec.of_imp hwiden ?_
  refine Spec.bind (spec_deleteListed hclosed (fun _ _ => id) hexists ?_) fun _ => ?_
  · intro k rp hrp
    rw [hroleIDs, OfWorkspace, ownedBy_iff hrp]
    exact map_eq_some_iff_exists.symm
  refine Spec.bind (spec_deleteNamed hclosed (fun _ _ => ownedBy_iff) ?_) fun _ => ?_
  · exact fun k m => by simp [workspaceOf]
  refine Spec.bind (spec_deleteNamed hclosed (fun _ _ => ownedBy_iff) ?_) fun _ => ?_
  · exact fun k i => by simp [workspaceOf]
  refine spec_deleteIf hclosed ?_ ?_
  · intro k old new hold hrel
    rw [decide_eq_true_iff]
    exact hroleIDs k
  · intro hempty k hk
    have hmem := (hroleIDs k).mpr hk
    simp only [ne_eq, decide_eq_false_iff_not, not_not] at hempty
    rw [hempty] at hmem
    exact nomatch hmem

/-- The tables in which a deleted workspace has no rows. -/
def emptiedTables : List TableName :=
  [.roles, .invitations, .workspaceMembers, .rolePermissions, .auditLogs, .settings,
    .notifications, .notificationChannels, .notificationRules, .packages, .releases, .diffs,
    .analyses, .alerts, .alertNotes]

/-- The workspace has lost its rows and its live keys and is marked as deleted, and every other
row is as before. -/
structure WorkspaceDeleted (w now : ID) (db db' : Database D) : Prop where
  emptied : ∀ t ∈ emptiedTables, ∀ k, OfWorkspace db w t k → (db' t).get? k = none
  keys : ∀ k (key : APIKey D), (db' .apiKeys).get? k = some key → key.workspaceID = w →
    key.deletedAt ≠ none
  marked : ∃ ws : Workspace D, (db .workspaces).get? w = some ws ∧ ws.deletedAt = none ∧
    (db' .workspaces).get? w = some { ws with deletedAt := some now }
  others : ∀ t k, ¬OfWorkspace db w t k → ¬(t = .workspaces ∧ k = w) →
    (db' t).get? k = (db t).get? k

/-- No row of the table of workspaces is a row of a workspace. -/
theorem not_ofWorkspace_workspaces (k : ID) : ¬OfWorkspace db w .workspaces k := by
  intro hk
  obtain ⟨ws, -, howner⟩ := hk
  exact nomatch howner

/-- The keys of the workspace are marked. -/
theorem spec_deleteKeys {done : List TableName} {e : Failure} :
    Spec execute (Swept wear (OfWorkspace db w) db done)
      (update .apiKeys (fun _ (k : APIKey D) => k.workspaceID = w ∧ k.deletedAt = none)
        (fun (k : APIKey D) => { k with deletedAt := some now }) e)
      fun _ s => Swept wear (OfWorkspace db w) db done s ∧
        ∀ k (key : APIKey D), (s .apiKeys).get? k = some key → key.workspaceID = w →
          key.deletedAt ≠ none := by
  apply Spec.exec
  intro s s' n hs hexec
  constructor
  · refine hs.update ?_ hexec
    intro k old new hold hrel hsel
    have hname : workspaceOf db .apiKeys k new = some w :=
      congrArg some (of_decide_eq_true hsel).1
    have hrel' : wearRel .apiKeys old new := hrel
    rw [workspaceOf_of_wearRel hrel'] at hname
    exact ⟨⟨old, hold, hname⟩, rfl⟩
  · intro k key hkey hname
    obtain ⟨old, -, rfl | ⟨rfl, hnot⟩⟩ := Statement.of_update hexec hkey
    · exact Option.some_ne_none now
    · exact fun hlive => hnot (decide_eq_true ⟨hname, hlive⟩)

/-- The workspace is marked. -/
theorem spec_deleteWorkspace {done : List TableName} {e : Failure} {ws : Workspace D}
    (hws : (db .workspaces).get? w = some ws) (hlive : ws.deletedAt = none)
    (hdone : ∀ t ∈ emptiedTables, t ∈ done) :
    Spec execute (fun s => Swept wear (OfWorkspace db w) db done s ∧
        ∀ k (key : APIKey D), (s .apiKeys).get? k = some key → key.workspaceID = w →
          key.deletedAt ≠ none)
      (update .workspaces (fun k (ws : Workspace D) => k = w ∧ ws.deletedAt = none)
        (fun (ws : Workspace D) => { ws with deletedAt := some now }) e)
      fun _ s => WorkspaceDeleted w now db s := by
  apply Spec.exec
  intro s s' n hs hexec
  obtain ⟨hswept, hkeys⟩ := hs
  have hsame : ∀ k, (s .workspaces).get? k = (db .workspaces).get? k := fun k =>
    hswept.spares.kept .workspaces k (not_ofWorkspace_workspaces k)
  refine ⟨fun t ht k hk => ?_, fun k key hkey => ?_, ⟨ws, hws, hlive, ?_⟩, fun t k hk hself => ?_⟩
  · have hne : t ≠ .workspaces := by
      intro heq
      rw [heq] at ht
      exact absurd ht (by decide)
    rw [Statement.eq_of_update hexec hne]
    exact hswept.gone t (hdone t ht) k hk
  · rw [Statement.eq_of_update hexec (by decide)] at hkey
    exact hkeys k key hkey
  · rw [← hsame] at hws
    exact Statement.get?_of_update_of_sel hexec hws (decide_eq_true ⟨rfl, hlive⟩)
  · by_cases ht : t = .workspaces
    · subst ht
      rw [Statement.get?_of_update_of_not hexec fun row hsel => ?_, hsame]
      exact hself ⟨rfl, (of_decide_eq_true hsel).1⟩
    · rw [Statement.eq_of_update hexec ht]
      exact hswept.spares.kept t k hk

/-- What {lit}`SoftDeleteWorkspace` does when it ends without an error. -/
theorem spec_softDeleteWorkspace (h : TenantConsistent db)
    (hnotifications : NotificationsConsistent db) :
    Spec execute (fun s => s = db) (softDeleteWorkspace now w)
      fun _ s => WorkspaceDeleted w now db s := by
  have hfirst : Spec execute (fun s => s = db)
      (first .workspaces (fun k (ws : Workspace D) => k = w ∧ ws.deletedAt = none)
        (.notFound "workspace not found".toList))
      fun found s => s = db ∧ (found.isNone = false →
        ∃ ws : Workspace D, (db .workspaces).get? w = some ws ∧ ws.deletedAt = none) := by
    apply Spec.exec
    intro s s' found hs hexec
    cases found with
    | none => exact ⟨(Prod.mk.inj (Option.some.inj hexec)).1 ▸ hs, fun hfound => nomatch hfound⟩
    | some ws =>
        obtain ⟨rfl, k, hget, hsel⟩ := Statement.first_eq_some hexec
        obtain ⟨rfl, hlive⟩ := of_decide_eq_true hsel
        rw [hs] at hget
        exact ⟨hs, fun _ => ⟨ws, hget, hlive⟩⟩
  refine Spec.bind hfirst fun found => Spec.of_fact fun hfound => ?_
  refine Spec.bind (Spec.require hfound) fun _ => Spec.of_fact fun hexists => ?_
  obtain ⟨ws, hws, hlive⟩ := hexists
  refine Spec.bind (spec_pluck (workspaceOf db) w (fun s hs k => by rw [hs]) ?_)
    fun pkgIDs => Spec.of_fact fun hpkgIDs => ?_
  · exact fun k p _ => by simp [workspaceOf]
  refine Spec.bind (spec_deletePackages h hnotifications hpkgIDs) fun _ => ?_
  refine Spec.bind (spec_deleteWorkspaceRows h hnotifications _) fun _ => ?_
  refine Spec.bind (spec_deleteRoleRows h hnotifications (by decide)) fun _ => ?_
  refine Spec.bind spec_deleteKeys fun _ => ?_
  refine Spec.bind (spec_deleteWorkspace hws hlive (by decide)) fun n => ?_
  exact Spec.onlyIf (fun _ => Spec.fail _) fun _ s hs => hs

/-! ## RemovePackage -/

/-- The tables in which a removed package has no rows. -/
def packageTables : List TableName :=
  [.releases, .diffs, .analyses, .alerts, .alertNotes]

/-- The package has lost its rows and is marked as removed, and every other row is as before. -/
structure PackageRemoved (w p now : ID) (db db' : Database D) : Prop where
  emptied : ∀ t ∈ packageTables, ∀ k, OfPackage db p t k → (db' t).get? k = none
  marked : ∃ pkg : Package D, (db .packages).get? p = some pkg ∧ pkg.workspaceID = w ∧
    (db' .packages).get? p = some { pkg with status := .removed, updatedAt := now }
  others : ∀ t k, ¬OfPackage db p t k → ¬(t = .packages ∧ k = p) →
    (db' t).get? k = (db t).get? k

/-- The rows of a package in another table. -/
theorem ofPackage_iff {t : TableName} (ht : t ≠ .packages) {k : ID} {row : Row D t}
    (hrow : (db t).get? k = some row) :
    OfPackage db p t k ↔ packageOf db t k row = some p := by
  rw [OfPackage, ownedBy_iff hrow]
  simp [ht]

/-- The package is marked. -/
theorem spec_markRemoved {e : Failure} {done : List TableName} {pkg : Package D}
    (hpkg : (db .packages).get? p = some pkg) (hname : pkg.workspaceID = w)
    (hdone : ∀ t ∈ packageTables, t ∈ done) :
    Spec execute (Swept wear (OfPackage db p) db done)
      (update .packages (fun k (_ : Package D) => k = p)
        (fun (p : Package D) => { p with status := .removed, updatedAt := now }) e)
      fun _ s => PackageRemoved w p now db s := by
  apply Spec.exec
  intro s s' n hs hexec
  have hsame : ∀ k, (s .packages).get? k = (db .packages).get? k := fun k =>
    hs.spares.kept .packages k fun hk => hk.1 rfl
  refine ⟨fun t ht k hk => ?_, ⟨pkg, hpkg, hname, ?_⟩, fun t k hk hself => ?_⟩
  · rw [Statement.eq_of_update hexec hk.1]
    exact hs.gone t (hdone t ht) k hk
  · rw [← hsame] at hpkg
    exact Statement.get?_of_update_of_sel hexec hpkg (decide_eq_true rfl)
  · by_cases ht : t = .packages
    · subst ht
      rw [Statement.get?_of_update_of_not hexec fun row hsel => ?_, hsame]
      exact hself ⟨rfl, of_decide_eq_true hsel⟩
    · rw [Statement.eq_of_update hexec ht]
      exact hs.spares.kept t k hk

/-- What {lit}`RemovePackage` does when it ends without an error. -/
theorem spec_removePackage (h : TenantConsistent db) :
    Spec execute (fun s => s = db) (removePackage now w p)
      fun _ s => PackageRemoved w p now db s := by
  have hfirst : Spec execute (fun s => s = db)
      (first .packages (fun k (pkg : Package D) =>
          k = p ∧ pkg.workspaceID = w ∧ (pkg.status = .active ∨ pkg.status = .blocked))
        (.database "removing package".toList))
      fun found s => s = db ∧ (found.isNone = false →
        ∃ pkg : Package D, (db .packages).get? p = some pkg ∧ pkg.workspaceID = w) := by
    apply Spec.exec
    intro s s' found hs hexec
    cases found with
    | none => exact ⟨(Prod.mk.inj (Option.some.inj hexec)).1 ▸ hs, fun hfound => nomatch hfound⟩
    | some pkg =>
        obtain ⟨rfl, k, hget, hsel⟩ := Statement.first_eq_some hexec
        obtain ⟨rfl, hname, -⟩ := of_decide_eq_true hsel
        rw [hs] at hget
        exact ⟨hs, fun _ => ⟨pkg, hget, hname⟩⟩
  refine Spec.bind hfirst fun found => Spec.of_fact fun hfound => ?_
  refine Spec.bind (Spec.require hfound) fun _ => Spec.of_fact fun hexists => ?_
  obtain ⟨pkg, hpkg, hname⟩ := hexists
  have hclosed := closed_ofPackage h p
  have hown : ∀ {t}, t ≠ .packages → ∀ k row, (db t).get? k = some row →
      (OfPackage db p t k ↔ packageOf db t k row = some p) :=
    fun ht k row hrow => ofPackage_iff ht hrow
  have hexists : ∀ {t} k, OfPackage db p t k → ∃ row, (db t).get? k = some row :=
    fun k hk => ⟨hk.2.choose, hk.2.choose_spec.1⟩
  -- What names the package is of the workspace of the package.
  have hrelease : ∀ k (r : Release D), (db .releases).get? k = some r →
      (r.packageID = p ∧ r.workspaceID = w ↔ packageOf db .releases k r = some p) := by
    intro k r hr
    constructor
    · exact fun hsel => congrArg some hsel.1
    · intro howner
      obtain rfl := Option.some.inj howner
      obtain ⟨parent, hparent, heq⟩ := h.workspace (releasesPackage D)
        (by simp [tenantKeys, packageKeys]) k r r.packageID hr rfl
      obtain rfl := Option.some.inj (hpkg.symm.trans hparent)
      exact ⟨rfl, (Option.some.inj heq).symm.trans hname⟩
  have halert : ∀ k (a : Alert D), (db .alerts).get? k = some a →
      (a.packageID = p ∧ a.workspaceID = w ↔ packageOf db .alerts k a = some p) := by
    intro k a ha
    constructor
    · exact fun hsel => congrArg some hsel.1
    · intro howner
      obtain rfl := Option.some.inj howner
      obtain ⟨parent, hparent, heq⟩ := h.workspace (alertsPackage D)
        (by simp [tenantKeys, packageKeys]) k a a.packageID ha rfl
      obtain rfl := Option.some.inj (hpkg.symm.trans hparent)
      exact ⟨rfl, (Option.some.inj heq).symm.trans hname⟩
  refine Spec.bind (spec_pluck (packageOf db) p (fun s hs k => by rw [hs]) ?_)
    fun releaseIDs => Spec.of_fact fun hreleaseIDs => ?_
  · intro k r hr
    rw [decide_eq_true_iff]
    exact hrelease k r hr
  have hdiff : ∀ k (d : Diff D), (db .diffs).get? k = some d →
      (d.releaseID ∈ releaseIDs ↔ packageOf db .diffs k d = some p) := by
    intro k d hd
    rw [hreleaseIDs]
    exact map_eq_some_iff_exists.symm
  refine Spec.bind (spec_pluckDiffs hdiff) fun diffIDs => Spec.of_fact fun hdiffIDs => ?_
  refine Spec.bind (spec_pluck (packageOf db) p (fun s hs k => by rw [hs]) ?_)
    fun alertIDs => Spec.of_fact fun halertIDs => ?_
  · intro k a ha
    rw [decide_eq_true_iff]
    exact halert k a ha
  have hbegin : ∀ s, s = db → Swept wear (OfPackage db p) db [] s := by
    intro s hs
    rw [hs]
    exact .refl db
  refine Spec.of_imp hbegin ?_
  refine Spec.bind (spec_deleteListed hclosed (fun _ _ => id) hexists ?_) fun _ => ?_
  · intro k n hn
    rw [hown (by decide) k n hn, halertIDs]
    exact map_eq_some_iff_exists.symm
  refine Spec.bind (spec_delete hclosed ?_) fun _ => ?_
  · intro k old new hold hrel
    rw [hown (by decide) k old hold, decide_eq_true_iff, hrel.1, hrel.2.1]
    exact halert k old hold
  refine Spec.bind (spec_deleteListed hclosed (fun _ _ => id) hexists ?_) fun _ => ?_
  · intro k a ha
    rw [hown (by decide) k a ha, hdiffIDs]
    exact Option.bind_eq_some_iff.symm
  refine Spec.bind (spec_deleteListed hclosed (fun _ _ => id) hexists ?_) fun _ => ?_
  · intro k d hd
    rw [hown (by decide) k d hd]
    exact hdiff k d hd
  refine Spec.bind (spec_delete hclosed ?_) fun _ => ?_
  · intro k old new hold hrel
    obtain rfl : new = old := hrel
    rw [hown (by decide) k new hold, decide_eq_true_iff]
    exact hrelease k new hold
  refine Spec.bind (spec_markRemoved hpkg hname (by decide)) fun n => ?_
  exact Spec.pure fun s hs => hs

/-! ## Both transactions -/

/-- In a consistent database a successful deletion of a workspace or removal of a package takes
the rows of its owner and leaves every other row as it is, and one that returns an error leaves
the database as it was. -/
theorem deletions_exact (h : TenantConsistent db) (hnotifications : NotificationsConsistent db)
    (w p now : ID) (budget : Option Nat) (commits : Bool) (db' : Database D) :
    (runSoftDeleteWorkspace budget commits now w db = (.ok (), db') →
        WorkspaceDeleted w now db db') ∧
      (runRemovePackage budget commits now w p db = (.ok (), db') →
        PackageRemoved w p now db db') ∧
      ∀ e, runSoftDeleteWorkspace budget commits now w db = (.error e, db') ∨
        runRemovePackage budget commits now w p db = (.error e, db') → db' = db := by
  refine ⟨fun hrun => ?_, fun hrun => ?_, fun e hrun => ?_⟩
  · exact spec_softDeleteWorkspace h hnotifications db rfl () db' (evaluate_of_transaction hrun)
  · exact spec_removePackage h db rfl () db' (evaluate_of_transaction hrun)
  · obtain hrun | hrun := hrun
    · exact transaction_error hrun
    · exact transaction_error hrun

/-- Two workspaces, of which the first has a package with two releases, a diff, an analysis, an
alert with a note, a role with a permission and a member, and a key. -/
def twoTenants : Database Unit
  | .workspaces => (Table.single 1 ⟨none, ()⟩).insert 2 ⟨none, ()⟩
  | .packages => (Table.single 10 ⟨1, .blocked, 0, ()⟩).insert 11 ⟨2, .active, 0, ()⟩
  | .releases => ((Table.single 20 ⟨1, 10, ()⟩).insert 21 ⟨1, 10, ()⟩).insert 22 ⟨2, 11, ()⟩
  | .diffs => (Table.single 30 ⟨21, 20, ()⟩).insert 31 ⟨22, 22, ()⟩
  | .analyses => Table.single 40 ⟨30, ()⟩
  | .alerts => Table.single 50 ⟨1, some 40, 10, some 21, ()⟩
  | .alertNotes => Table.single 60 ⟨50, 1, ()⟩
  | .roles => Table.single 70 ⟨1, ()⟩
  | .rolePermissions => Table.single 71 ⟨70, 5⟩
  | .workspaceMembers => Table.single 72 ⟨1, 70, ()⟩
  | .apiKeys => Table.single 80 ⟨1, none, ()⟩
  | _ => Table.empty

/-- The first workspace is deleted, or its package is removed. -/
theorem deletions_exact_twoTenants :
    WorkspaceDeleted 1 9 twoTenants (runSoftDeleteWorkspace none true 9 1 twoTenants).2 ∧
      PackageRemoved 1 10 9 twoTenants (runRemovePackage none true 9 1 10 twoTenants).2 := by
  have hconsistent : TenantConsistent twoTenants :=
    ⟨by decide +kernel, by decide +kernel⟩
  have hnotifications : NotificationsConsistent twoTenants := by
    unfold NotificationsConsistent
    decide +kernel
  exact ⟨(deletions_exact hconsistent hnotifications 1 10 9 none true _).1 rfl,
    (deletions_exact hconsistent hnotifications 1 10 9 none true _).2.1 rfl⟩

/-- A notification of the second workspace about a channel of the first. -/
def crossedNotification : Database Unit
  | .workspaces => (Table.single 1 ⟨none, ()⟩).insert 2 ⟨none, ()⟩
  | .notificationChannels => Table.single 10 ⟨1, ()⟩
  | .notifications => Table.single 20 ⟨2, some 10, ()⟩
  | _ => Table.empty

/-- The deletion of the first workspace changes the notification of the second. -/
theorem notification_loses_channel :
    TenantConsistent crossedNotification ∧
      (runSoftDeleteWorkspace none true 9 1 crossedNotification).1.toOption = some () ∧
      (crossedNotification .notifications).get? 20 = some (⟨2, some 10, ()⟩ : Notification Unit) ∧
      ((runSoftDeleteWorkspace none true 9 1 crossedNotification).2 .notifications).get? 20 =
        some (⟨2, none, ()⟩ : Notification Unit) :=
  ⟨⟨by decide +kernel, by decide +kernel⟩, rfl, rfl, rfl⟩

end Tenancy
end Veilence
