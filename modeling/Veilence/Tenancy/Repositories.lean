import Mathlib
import Veilence.Go.Text
import Veilence.Tenancy.Database

/-!
# Deleting a workspace, removing a package

{lit}`RBACRepo.SoftDeleteWorkspace` and {lit}`PackageRepo.RemovePackage`, statement by statement.
Each runs in a transaction.  The queries that collect IDs do not look at their errors; every
other statement that fails ends the transaction with an error.

Definitions {lit}`softDeleteWorkspace` and {lit}`removePackage` are the transactions;
{lit}`runSoftDeleteWorkspace` and {lit}`runRemovePackage` run them on a database that may stop
answering after any statement and may refuse to commit.
-/

namespace Veilence
namespace Tenancy

open Go Foundation

/-- The errors: a missing row, a failed statement with its context, or a failed commit. -/
inductive Failure where
  | notFound (text : GoString)
  | database (context : GoString)
  | commit
deriving DecidableEq

/-- The body of a transaction on the database. -/
abbrev DatabaseTx (D α : Type) : Type :=
  Tx (Statement ID (Row D)) Statement.Reply Failure α

variable {D : Type}

/-- {lit}`First`: a row that meets the condition. -/
def first (t : TableName) (p : ID → Row D t → Bool) (e : Failure) :
    DatabaseTx D (Option (Row D t)) :=
  Tx.exec (Statement.first t p) e

/-- {lit}`Pluck`: the IDs of the rows that meet the condition, none if the query fails. -/
def pluck (t : TableName) (p : ID → Row D t → Bool) : DatabaseTx D (List ID) :=
  Tx.read (Statement.pluck t p) ([] : List ID)

/-- The IDs of the diffs of releases; without releases there is no query. -/
def pluckDiffs (releaseIDs : List ID) : DatabaseTx D (List ID) :=
  if releaseIDs = [] then pure []
  else pluck .diffs (fun _ (d : Diff D) => d.releaseID ∈ releaseIDs)

/-- {lit}`Delete`, of rows that are not marked. -/
def delete (t : TableName) (p : ID → Row D t → Bool) (e : Failure) : DatabaseTx D Unit :=
  Tx.exec (Statement.delete t p) e

/-- {lit}`Update`, or a {lit}`Delete` that marks rows: the number of rows affected. -/
def update (t : TableName) (p : ID → Row D t → Bool) (f : Row D t → Row D t) (e : Failure) :
    DatabaseTx D Nat :=
  Tx.exec (Statement.update t p f) e

/-- A statement of {lit}`SoftDeleteWorkspace` that deletes rows. -/
def deleting (t : TableName) (p : ID → Row D t → Bool) (context : String) : DatabaseTx D Unit :=
  delete t p (.database ("RBACRepo.SoftDeleteWorkspace: deleting " ++ context).toList)

/-- The part of {lit}`SoftDeleteWorkspace` for a workspace that has packages. -/
def deletePackageRows (id : ID) (pkgIDs : List ID) : DatabaseTx D Unit := do
  let releaseIDs ← pluck .releases (fun _ (r : Release D) =>
    r.packageID ∈ pkgIDs ∧ r.workspaceID = id)
  let diffIDs ← pluckDiffs releaseIDs
  deleting .alertNotes (fun _ (n : AlertNote D) => n.workspaceID = id) "alert notes"
  deleting .alerts (fun _ (a : Alert D) => a.workspaceID = id) "alerts"
  Tx.onlyIf (diffIDs ≠ [])
    (deleting .analyses (fun _ (a : Analysis D) => a.diffID ∈ diffIDs) "analyses")
  Tx.onlyIf (releaseIDs ≠ [])
    (deleting .diffs (fun _ (d : Diff D) => d.releaseID ∈ releaseIDs) "diffs")
  deleting .releases
    (fun _ (r : Release D) => r.packageID ∈ pkgIDs ∧ r.workspaceID = id) "releases"
  deleting .packages (fun _ (p : Package D) => p.workspaceID = id) "packages"

/-- The part of {lit}`SoftDeleteWorkspace` for notifications, settings and audit logs. -/
def deleteWorkspaceRows (id : ID) : DatabaseTx D Unit := do
  deleting .notificationRules (fun _ (r : NotificationRule D) => r.workspaceID = id)
    "notification rules"
  deleting .notificationChannels (fun _ (c : Scoped D) => c.workspaceID = id)
    "notification channels"
  deleting .notifications (fun _ (n : Notification D) => n.workspaceID = id) "notifications"
  deleting .settings (fun _ (s : Shared D) => s.workspaceID = some id) "settings"
  deleting .auditLogs (fun _ (l : Shared D) => l.workspaceID = some id) "audit logs"

/-- The part of {lit}`SoftDeleteWorkspace` for roles and what refers to them. -/
def deleteRoleRows (id : ID) : DatabaseTx D Unit := do
  let roleIDs ← pluck .roles (fun _ (r : Scoped D) => r.workspaceID = id)
  Tx.onlyIf (roleIDs ≠ [])
    (deleting .rolePermissions (fun _ (p : RolePermission) => p.roleID ∈ roleIDs)
      "role permissions")
  deleting .workspaceMembers (fun _ (m : Holder D) => m.workspaceID = id) "workspace members"
  deleting .invitations (fun _ (i : Holder D) => i.workspaceID = id) "invitations"
  Tx.onlyIf (roleIDs ≠ []) (deleting .roles (fun k (_ : Scoped D) => k ∈ roleIDs) "roles")

/-- {lit}`SoftDeleteWorkspace`.  Keys and workspaces are deleted by marking those that are not
marked yet. -/
def softDeleteWorkspace (now : Nat) (id : ID) : DatabaseTx D Unit := do
  let ws ← first .workspaces (fun k (ws : Workspace D) => k = id ∧ ws.deletedAt = none)
    (.notFound "workspace not found".toList)
  Tx.onlyIf ws.isNone (Tx.fail (.notFound "workspace not found".toList))
  let pkgIDs ← pluck .packages (fun _ (p : Package D) => p.workspaceID = id)
  Tx.onlyIf (pkgIDs ≠ []) (deletePackageRows id pkgIDs)
  deleteWorkspaceRows id
  deleteRoleRows id
  let _ ← update .apiKeys
    (fun _ (k : APIKey D) => k.workspaceID = id ∧ k.deletedAt = none)
    (fun (k : APIKey D) => { k with deletedAt := some now })
    (.database "RBACRepo.SoftDeleteWorkspace: deleting api keys".toList)
  let rowsAffected ← update .workspaces
    (fun k (ws : Workspace D) => k = id ∧ ws.deletedAt = none)
    (fun (ws : Workspace D) => { ws with deletedAt := some now })
    (.database "RBACRepo.SoftDeleteWorkspace".toList)
  Tx.onlyIf (rowsAffected = (0 : Nat)) (Tx.fail (.notFound "workspace not found".toList))

/-- A statement of {lit}`RemovePackage` that deletes rows. -/
def removing (t : TableName) (p : ID → Row D t → Bool) (context : String) : DatabaseTx D Unit :=
  delete t p (.database ("removing package: deleting " ++ context).toList)

/-- {lit}`RemovePackage`. -/
def removePackage (now : Nat) (workspaceID pkgID : ID) : DatabaseTx D Unit := do
  let pkg ← first .packages (fun k (p : Package D) =>
      k = pkgID ∧ p.workspaceID = workspaceID ∧ (p.status = .active ∨ p.status = .blocked))
    (.database "removing package".toList)
  Tx.onlyIf pkg.isNone (Tx.fail (.notFound "package not found".toList))
  let releaseIDs ← pluck .releases (fun _ (r : Release D) =>
    r.packageID = pkgID ∧ r.workspaceID = workspaceID)
  let diffIDs ← pluckDiffs releaseIDs
  let alertIDs ← pluck .alerts (fun _ (a : Alert D) =>
    a.packageID = pkgID ∧ a.workspaceID = workspaceID)
  Tx.onlyIf (alertIDs ≠ [])
    (removing .alertNotes (fun _ (n : AlertNote D) => n.alertID ∈ alertIDs) "alert notes")
  removing .alerts (fun _ (a : Alert D) => a.packageID = pkgID ∧ a.workspaceID = workspaceID)
    "alerts"
  Tx.onlyIf (diffIDs ≠ [])
    (removing .analyses (fun _ (a : Analysis D) => a.diffID ∈ diffIDs) "analyses")
  Tx.onlyIf (releaseIDs ≠ [])
    (removing .diffs (fun _ (d : Diff D) => d.releaseID ∈ releaseIDs) "diffs")
  removing .releases
    (fun _ (r : Release D) => r.packageID = pkgID ∧ r.workspaceID = workspaceID) "releases"
  let _ ← update .packages (fun k (_ : Package D) => k = pkgID)
    (fun (p : Package D) => { p with status := .removed, updatedAt := now })
    (.database "removing package".toList)

/-- Run {lit}`SoftDeleteWorkspace` on a database that stops answering after the given number of
statements, if any, and that commits or not. -/
def runSoftDeleteWorkspace (budget : Option Nat) (commits : Bool) (now : Nat) (id : ID)
    (db : Database D) : Except Failure Unit × Database D :=
  transaction execute budget commits .commit db (softDeleteWorkspace now id)

/-- Run {lit}`RemovePackage` on such a database. -/
def runRemovePackage (budget : Option Nat) (commits : Bool) (now : Nat) (workspaceID pkgID : ID)
    (db : Database D) : Except Failure Unit × Database D :=
  transaction execute budget commits .commit db (removePackage now workspaceID pkgID)

end Tenancy
end Veilence
