import Veilence.Foundation.Regions
import Veilence.Go.Text

/-!
# The tables of the core services

The tables that the package, release, dashboard and alert-note services read and write, with the
foreign keys between them.  No operation of these services deletes a workspace or a user, so the
columns that refer to them are not among the foreign keys.

A row belongs to a workspace by its own column or by the row that it refers to.  Users belong to
no workspace.

Main results:

- Theorem {lit}`inRegion_regionOf`: in a consistent database the rows of a workspace are a
  region that no reference enters or leaves.
- Theorems {lit}`Respects.rowsOf_inside` and {lit}`InRegion.rowsOf_outside`: the rows of a
  workspace are found inside its region, those of every other workspace outside.
-/

namespace Veilence
namespace Core

open Go Foundation

/-! ## Rows -/

/-- The primary key of a row, a UUID. -/
abbrev ID : Type := Nat

/-- A time in seconds, in UTC. -/
abbrev Time : Type := Int

/-- {lit}`PackageStatus`. -/
inductive PackageStatus where
  | active
  | blocked
  | removed
  | suggested
deriving DecidableEq

/-- The text of a package status. -/
def PackageStatus.text : PackageStatus → GoString
  | .active => "active".toList
  | .blocked => "blocked".toList
  | .removed => "removed".toList
  | .suggested => "suggested".toList

/-- {lit}`PackageSource`. -/
inductive PackageSource where
  | manual
  | discovered
  | imported
deriving DecidableEq

/-- The text of a package source. -/
def PackageSource.text : PackageSource → GoString
  | .manual => "manual".toList
  | .discovered => "discovered".toList
  | .imported => "imported".toList

/-- {lit}`ReleaseStatus`, without the virtual one. -/
inductive ReleaseStatus where
  | pending
  | diffing
  | analyzing
  | completed
  | error
deriving DecidableEq

/-- The text of a release status. -/
def ReleaseStatus.text : ReleaseStatus → GoString
  | .pending => "pending".toList
  | .diffing => "diffing".toList
  | .analyzing => "analyzing".toList
  | .completed => "completed".toList
  | .error => "error".toList

/-- {lit}`Classification`. -/
inductive Classification where
  | benign
  | suspicious
  | malicious
  | baseline
deriving DecidableEq

/-- The text of a classification. -/
def Classification.text : Classification → GoString
  | .benign => "benign".toList
  | .suspicious => "suspicious".toList
  | .malicious => "malicious".toList
  | .baseline => "baseline".toList

/-- {lit}`AlertSeverity`. -/
inductive AlertSeverity where
  | low
  | medium
  | high
  | critical
deriving DecidableEq

/-- {lit}`AlertStatus`. -/
inductive AlertStatus where
  | new
  | acknowledged
  | resolved
deriving DecidableEq

/-- A workspace; its columns are not looked at. -/
structure Workspace where
deriving DecidableEq

/-- A package. -/
structure Package where
  workspaceID : ID
  name : GoString
  ecosystem : GoString
  latestVersion : GoString
  description : GoString
  source : PackageSource
  status : PackageStatus
  downloadCount : Int
  downloadCountUpdatedAt : Option Time
  blockedAt : Option Time
  blockedReason : GoString
  createdAt : Time
  updatedAt : Time
deriving DecidableEq

/-- A release. -/
structure Release where
  workspaceID : ID
  packageID : ID
  version : GoString
  publishedAt : Time
  tarballURL : GoString
  status : ReleaseStatus
  errorMessage : GoString
  createdAt : Time
deriving DecidableEq

/-- A hash of a file of a release. -/
structure ReleaseHash where
  releaseID : ID
  filename : GoString
  algorithm : GoString
  hash : GoString
  createdAt : Time
deriving DecidableEq

/-- A diff between two releases. -/
structure Diff where
  releaseID : ID
  prevReleaseID : ID
  diffContent : GoString
  fileChangesCount : Int
  linesAdded : Int
  linesRemoved : Int
  truncated : Bool
  originalSize : Int
  createdAt : Time
deriving DecidableEq

/-- An analysis of a diff. -/
structure Analysis where
  diffID : ID
  classification : Classification
  confidence : ℚ
  reasoning : GoString
  modelUsed : GoString
  analyzerType : GoString
  rawResponse : GoString
  createdAt : Time
deriving DecidableEq

/-- An alert. -/
structure Alert where
  workspaceID : ID
  analysisID : Option ID
  releaseID : Option ID
  packageID : ID
  severity : AlertSeverity
  status : AlertStatus
  message : GoString
  createdAt : Time
  updatedAt : Time
deriving DecidableEq

/-- A note on an alert. -/
structure AlertNote where
  alertID : ID
  workspaceID : ID
  userID : ID
  userEmail : GoString
  content : GoString
  createdAt : Time
  updatedAt : Time
deriving DecidableEq

/-- A user, marked when it is deleted. -/
structure User where
  email : GoString
  deletedAt : Option Time
deriving DecidableEq

/-- The tables. -/
inductive TableName where
  | workspaces
  | packages
  | releases
  | releaseHashes
  | diffs
  | analyses
  | alerts
  | alertNotes
  | users
deriving DecidableEq

/-- The rows of each table. -/
def Row : TableName → Type
  | .workspaces => Workspace
  | .packages => Package
  | .releases => Release
  | .releaseHashes => ReleaseHash
  | .diffs => Diff
  | .analyses => Analysis
  | .alerts => Alert
  | .alertNotes => AlertNote
  | .users => User

/-- The database. -/
abbrev Database : Type :=
  Store ID Row

namespace Database

variable (db : Database)

abbrev workspaces : Table ID Workspace := db .workspaces
abbrev packages : Table ID Package := db .packages
abbrev releases : Table ID Release := db .releases
abbrev diffs : Table ID Diff := db .diffs
abbrev analyses : Table ID Analysis := db .analyses
abbrev alerts : Table ID Alert := db .alerts
abbrev alertNotes : Table ID AlertNote := db .alertNotes
abbrev users : Table ID User := db .users

end Database

/-! ## Foreign keys -/

/-- {lit}`releases.package_id`. -/
def releasesPackage : ForeignKey Row ID :=
  ⟨.releases, .packages, fun (r : Release) => some r.packageID, id, .cascade⟩

/-- {lit}`release_hashes.release_id`. -/
def releaseHashesRelease : ForeignKey Row ID :=
  ⟨.releaseHashes, .releases, fun (h : ReleaseHash) => some h.releaseID, id, .cascade⟩

/-- {lit}`diffs.release_id`. -/
def diffsRelease : ForeignKey Row ID :=
  ⟨.diffs, .releases, fun (d : Diff) => some d.releaseID, id, .cascade⟩

/-- {lit}`diffs.prev_release_id`. -/
def diffsPrevRelease : ForeignKey Row ID :=
  ⟨.diffs, .releases, fun (d : Diff) => some d.prevReleaseID, id, .cascade⟩

/-- {lit}`analyses.diff_id`. -/
def analysesDiff : ForeignKey Row ID :=
  ⟨.analyses, .diffs, fun (a : Analysis) => some a.diffID, id, .cascade⟩

/-- {lit}`alerts.analysis_id`. -/
def alertsAnalysis : ForeignKey Row ID :=
  ⟨.alerts, .analyses, fun (a : Alert) => a.analysisID,
    fun (a : Alert) => { a with analysisID := none }, .setNull⟩

/-- {lit}`alerts.package_id`. -/
def alertsPackage : ForeignKey Row ID :=
  ⟨.alerts, .packages, fun (a : Alert) => some a.packageID, id, .cascade⟩

/-- {lit}`alerts.release_id`. -/
def alertsRelease : ForeignKey Row ID :=
  ⟨.alerts, .releases, fun (a : Alert) => a.releaseID,
    fun (a : Alert) => { a with releaseID := none }, .setNull⟩

/-- {lit}`alert_notes.alert_id`. -/
def alertNotesAlert : ForeignKey Row ID :=
  ⟨.alertNotes, .alerts, fun (n : AlertNote) => some n.alertID, id, .cascade⟩

/-- The foreign keys. -/
def schema : List (ForeignKey Row ID) :=
  [releasesPackage, releaseHashesRelease, diffsRelease, diffsPrevRelease, analysesDiff,
    alertsAnalysis, alertsPackage, alertsRelease, alertNotesAlert]

/-- Execute a statement of a transaction.  References are at most six tables deep. -/
def execute (db : Database) (c : Statement ID Row) : Option (Database × c.Reply) :=
  c.execute schema 6 db

/-- What may become of a row that stays: it stays where it is, and it may lose references. -/
def wearRel : (t : TableName) → Row t → Row t → Prop
  | .packages, (old : Package), (new : Package) => new.workspaceID = old.workspaceID
  | .releases, (old : Release), (new : Release) =>
      new.workspaceID = old.workspaceID ∧ new.packageID = old.packageID
  | .alerts, (old : Alert), (new : Alert) =>
      new.workspaceID = old.workspaceID ∧ new.packageID = old.packageID ∧
        (∀ q, new.analysisID = some q → old.analysisID = some q) ∧
        ∀ q, new.releaseID = some q → old.releaseID = some q
  | .alertNotes, (old : AlertNote), (new : AlertNote) =>
      new.workspaceID = old.workspaceID ∧ new.alertID = old.alertID
  | _, old, new => new = old

theorem wearRel_refl (t : TableName) (row : Row t) : wearRel t row row := by
  cases t <;> simp [wearRel]

theorem wearRel_trans (t : TableName) (a b c : Row t) (hab : wearRel t a b)
    (hbc : wearRel t b c) : wearRel t a c := by
  cases t with
  | packages => exact Eq.trans hbc hab
  | releases => exact ⟨hbc.1.trans hab.1, hbc.2.trans hab.2⟩
  | alerts =>
      obtain ⟨hw, hp, ha, hr⟩ := hab
      obtain ⟨hw', hp', ha', hr'⟩ := hbc
      exact ⟨hw'.trans hw, hp'.trans hp, fun q hq => ha q (ha' q hq), fun q hq => hr q (hr' q hq)⟩
  | alertNotes => exact ⟨hbc.1.trans hab.1, hbc.2.trans hab.2⟩
  | _ => exact Eq.trans hbc hab

theorem wearRel_clear : ∀ fk ∈ schema, fk.action = .setNull → ∀ row,
    wearRel fk.child row (fk.clear row) := by
  simp [schema, releasesPackage, releaseHashesRelease, diffsRelease, diffsPrevRelease,
    analysesDiff, alertsAnalysis, alertsPackage, alertsRelease, alertNotesAlert, wearRel]

/-- A row that is as before refers to what it referred to. -/
theorem column_of_eq {fk : ForeignKey Row ID} {old new : Row fk.child} {q : ID}
    (heq : new = old) (hcolumn : fk.column new = some q) : fk.column old = some q :=
  heq ▸ hcolumn

theorem wearRel_column : ∀ fk ∈ schema, ∀ old new q, wearRel fk.child old new →
    fk.column new = some q → fk.column old = some q := by
  intro fk hfk
  simp only [schema, List.mem_cons, List.not_mem_nil, or_false] at hfk
  obtain rfl | rfl | rfl | rfl | rfl | rfl | rfl | rfl | rfl := hfk
  · exact fun _ _ _ hrel hcolumn => (congrArg some hrel.2.symm).trans hcolumn
  · exact fun _ _ _ => column_of_eq
  · exact fun _ _ _ => column_of_eq
  · exact fun _ _ _ => column_of_eq
  · exact fun _ _ _ => column_of_eq
  · exact fun _ _ q hrel hcolumn => hrel.2.2.1 q hcolumn
  · exact fun _ _ _ hrel hcolumn => (congrArg some hrel.2.1.symm).trans hcolumn
  · exact fun _ _ q hrel hcolumn => hrel.2.2.2 q hcolumn
  · exact fun _ _ _ hrel hcolumn => (congrArg some hrel.2.symm).trans hcolumn

/-- Rows lose references, but they gain none. -/
def wear : Wear schema where
  rel := wearRel
  refl := wearRel_refl
  trans := wearRel_trans
  clear := wearRel_clear
  column := wearRel_column

/-! ## Workspaces -/

/-- The workspace of a row. -/
def workspaceOf (db : Database) : (t : TableName) → ID → Row t → Option ID
  | .workspaces, k, _ => some k
  | .packages, _, (p : Package) => some p.workspaceID
  | .releases, _, (r : Release) => some r.workspaceID
  | .releaseHashes, _, (h : ReleaseHash) => (db.releases.get? h.releaseID).map Release.workspaceID
  | .diffs, _, (d : Diff) => (db.releases.get? d.releaseID).map Release.workspaceID
  | .analyses, _, (a : Analysis) =>
      (db.diffs.get? a.diffID).bind fun d =>
        (db.releases.get? d.releaseID).map Release.workspaceID
  | .alerts, _, (a : Alert) => some a.workspaceID
  | .alertNotes, _, (n : AlertNote) => some n.workspaceID
  | .users, _, _ => none

/-- The rows of a workspace in a table. -/
def rowsOf (db : Database) (w : ID) (t : TableName) : List (ID × Row t) :=
  (db t).entries.filter fun e => workspaceOf db t e.1 e.2 = some w

/-- Each row refers only to rows of its own workspace. -/
def TenantConsistent (db : Database) : Prop :=
  ∀ fk ∈ schema, ∀ e ∈ (db fk.child).entries, ∀ q ∈ fk.column e.2,
    ∃ parent ∈ (db fk.parent).get? q,
      workspaceOf db fk.parent q parent = workspaceOf db fk.child e.1 e.2

instance (db : Database) : Decidable (TenantConsistent db) :=
  inferInstanceAs (Decidable (∀ fk ∈ schema, ∀ e ∈ (db fk.child).entries, ∀ q ∈ fk.column e.2,
    ∃ parent ∈ (db fk.parent).get? q,
      workspaceOf db fk.parent q parent = workspaceOf db fk.child e.1 e.2))

/-! ## Regions -/

/-- The workspace column of a row, where it has one. -/
def workspaceColumn : (t : TableName) → ID → Row t → Option ID
  | .workspaces, k, _ => some k
  | .packages, _, (p : Package) => some p.workspaceID
  | .releases, _, (r : Release) => some r.workspaceID
  | .alerts, _, (a : Alert) => some a.workspaceID
  | .alertNotes, _, (n : AlertNote) => some n.workspaceID
  | _, _, _ => none

/-- A row is inside together with the rows that it refers to, and by its workspace column. -/
structure Respects (R : TableName → ID → Bool) (P : ID → Prop) (db : Database) : Prop where
  refers : ∀ fk ∈ schema, ∀ k row q, (db fk.child).get? k = some row → fk.column row = some q →
    R fk.child k = R fk.parent q
  owner : ∀ t k row v, (db t).get? k = some row → workspaceColumn t k row = some v →
    (R t k = true ↔ P v)

/-- The region holds the rows of the workspace and all users. -/
structure InRegion (R : TableName → ID → Bool) (w : ID) (db : Database) : Prop
    extends Respects R (· = w) db where
  users : ∀ k, R .users k = true

variable {R : TableName → ID → Bool} {P : ID → Prop} {w v : ID} {db db' : Database}

/-- A row that stays keeps its workspace column. -/
theorem workspaceColumn_of_wearRel {t : TableName} {k : ID} {old new : Row t}
    (h : wearRel t old new) : workspaceColumn t k new = workspaceColumn t k old := by
  cases t with
  | packages => exact congrArg some h
  | releases => exact congrArg some h.1
  | alerts => exact congrArg some h.1
  | alertNotes => exact congrArg some h.1
  | _ => rw [show new = old from h]

/-- The workspace column tells the workspace. -/
theorem workspaceOf_of_column {t : TableName} {k : ID} {row : Row t}
    (h : workspaceColumn t k row = some v) : workspaceOf db t k row = some v := by
  cases t with
  | releaseHashes => exact absurd h.symm (Option.some_ne_none v)
  | diffs => exact absurd h.symm (Option.some_ne_none v)
  | analyses => exact absurd h.symm (Option.some_ne_none v)
  | users => exact absurd h.symm (Option.some_ne_none v)
  | _ => exact h

namespace Respects

/-- The complement of a region. -/
theorem not (h : Respects R P db) : Respects (fun t k => !R t k) (fun v => ¬P v) db where
  refers fk hfk k row q hrow hcolumn := congrArg (!·) (h.refers fk hfk k row q hrow hcolumn)
  owner t k row v hrow hcolumn := by
    rw [← h.owner t k row v hrow hcolumn]
    simp

/-- Deletions and updates of rows inside. -/
theorem of_spares {own : TableName → ID → Prop} (h : Respects R P db)
    (hspares : Spares wear own db db') : Respects R P db' where
  refers fk hfk k row q hrow hcolumn := by
    obtain ⟨old, hold, hrel⟩ := hspares.source fk.child k row hrow
    exact h.refers fk hfk k old q hold (wear.column fk hfk old row q hrel hcolumn)
  owner t k row v hrow hcolumn := by
    obtain ⟨old, hold, hrel⟩ := hspares.source t k row hrow
    exact h.owner t k old v hold ((workspaceColumn_of_wearRel hrel).symm.trans hcolumn)

/-- A release, a diff or an analysis is inside together with the row that it refers to. -/
theorem release_iff (h : Respects R P db) {k : ID} {r : Release}
    (hrow : db.releases.get? k = some r) : R .releases k = R .packages r.packageID :=
  h.refers releasesPackage (by simp [schema]) k r r.packageID hrow rfl

theorem releaseHash_iff (h : Respects R P db) {k : ID} {x : ReleaseHash}
    (hrow : (db .releaseHashes).get? k = some x) :
    R .releaseHashes k = R .releases x.releaseID :=
  h.refers releaseHashesRelease (by simp [schema]) k x x.releaseID hrow rfl

theorem diff_iff (h : Respects R P db) {k : ID} {d : Diff}
    (hrow : db.diffs.get? k = some d) : R .diffs k = R .releases d.releaseID :=
  h.refers diffsRelease (by simp [schema]) k d d.releaseID hrow rfl

theorem analysis_iff (h : Respects R P db) {k : ID} {a : Analysis}
    (hrow : db.analyses.get? k = some a) : R .analyses k = R .diffs a.diffID :=
  h.refers analysesDiff (by simp [schema]) k a a.diffID hrow rfl

theorem alertNote_iff (h : Respects R P db) {k : ID} {n : AlertNote}
    (hrow : db.alertNotes.get? k = some n) : R .alertNotes k = R .alerts n.alertID :=
  h.refers alertNotesAlert (by simp [schema]) k n n.alertID hrow rfl

theorem package_owner (h : Respects R P db) {k : ID} {p : Package}
    (hrow : db.packages.get? k = some p) : R .packages k = true ↔ P p.workspaceID :=
  h.owner .packages k p p.workspaceID hrow rfl

theorem release_owner (h : Respects R P db) {k : ID} {r : Release}
    (hrow : db.releases.get? k = some r) : R .releases k = true ↔ P r.workspaceID :=
  h.owner .releases k r r.workspaceID hrow rfl

/-- The row of a key inside. -/
theorem get?_inside {t : TableName} {k : ID} (hk : R t k = true) :
    (inside R db t).get? k = (db t).get? k := by
  rw [inside, Table.get?_filterKeys, if_pos hk]

/-- A row of the workspaces is inside. -/
theorem mem_of_workspaceOf (h : Respects R P db) (hv : P v) {t : TableName} {k : ID} {row : Row t}
    (hrow : (db t).get? k = some row) (hworkspace : workspaceOf db t k row = some v) :
    R t k = true := by
  have hrelease : ∀ q, (db.releases.get? q).map Release.workspaceID = some v →
      R .releases q = true := by
    intro q hq
    obtain ⟨r, hr, rfl⟩ := Option.map_eq_some_iff.mp hq
    exact (h.release_owner hr).mpr hv
  cases t with
  | releaseHashes => exact (h.releaseHash_iff hrow).trans (hrelease _ hworkspace)
  | diffs => exact (h.diff_iff hrow).trans (hrelease _ hworkspace)
  | analyses =>
      obtain ⟨d, hd, hrest⟩ := Option.bind_eq_some_iff.mp hworkspace
      exact (h.analysis_iff hrow).trans ((h.diff_iff hd).trans (hrelease _ hrest))
  | users => exact absurd hworkspace.symm (Option.some_ne_none v)
  | _ => exact (h.owner _ k row v hrow hworkspace).mpr hv

/-- The workspace of a row inside is found inside. -/
theorem workspaceOf_inside (h : Respects R P db) {t : TableName} {k : ID} {row : Row t}
    (hrow : (db t).get? k = some row) (hk : R t k = true) :
    workspaceOf (inside R db) t k row = workspaceOf db t k row := by
  have hrelease : ∀ q, R .releases q = true →
      ((Database.releases (inside R db)).get? q).map Release.workspaceID =
        (db.releases.get? q).map Release.workspaceID := by
    intro q hq
    exact congrArg (Option.map Release.workspaceID) (get?_inside hq)
  cases t with
  | releaseHashes => exact hrelease _ ((h.releaseHash_iff hrow).symm.trans hk)
  | diffs => exact hrelease _ ((h.diff_iff hrow).symm.trans hk)
  | analyses =>
      have hdiff := (h.analysis_iff hrow).symm.trans hk
      have hget : (Database.diffs (inside R db)).get? (Analysis.diffID row) =
          db.diffs.get? (Analysis.diffID row) := get?_inside hdiff
      refine (congrArg (fun o : Option Diff => o.bind fun d =>
        ((Database.releases (inside R db)).get? d.releaseID).map Release.workspaceID) hget).trans ?_
      change _ = (db.diffs.get? (Analysis.diffID row)).bind fun d =>
        (db.releases.get? d.releaseID).map Release.workspaceID
      cases hd : db.diffs.get? (Analysis.diffID row) with
      | none => rfl
      | some d => exact hrelease _ ((h.diff_iff hd).symm.trans hdiff)
  | _ => rfl

/-- The rows of the workspaces are found inside. -/
theorem rowsOf_inside (h : Respects R P db) (hv : P v) (t : TableName) :
    rowsOf (inside R db) v t = rowsOf db v t := by
  refine (List.filter_filter ..).trans (List.filter_congr fun e he => ?_)
  have hrow := Table.get?_eq_some_iff.mpr he
  cases hk : R t e.1 with
  | false =>
      have hnot : workspaceOf db t e.1 e.2 ≠ some v := by
        intro hworkspace
        rw [h.mem_of_workspaceOf hv hrow hworkspace] at hk
        exact absurd hk.symm Bool.false_ne_true
      simp [hnot]
  | true => rw [h.workspaceOf_inside hrow hk, Bool.and_true]

end Respects

namespace InRegion

/-- Deletions and updates of rows inside. -/
theorem of_spares {own : TableName → ID → Prop} (h : InRegion R w db)
    (hspares : Spares wear own db db') : InRegion R w db' :=
  ⟨h.toRespects.of_spares hspares, h.users⟩

/-- The rows that refer to rows inside are inside. -/
theorem closed (h : InRegion R w db) : Closed schema (Region R) db := by
  intro fk hfk k row q hrow hcolumn hq
  exact (h.refers fk hfk k row q hrow hcolumn).trans hq

/-- A new row inside. -/
theorem insert (h : InRegion R w db) {t : TableName} {k : ID} {row : Row t} (hk : R t k = true)
    (hcolumn : ∀ v, workspaceColumn t k row = some v → v = w)
    (hrefers : ∀ fk ∈ schema, ∀ hchild : t = fk.child, ∀ q,
      fk.column (hchild ▸ row) = some q → R fk.parent q = true) :
    InRegion R w (db.set t ((db t).insert k row)) where
  refers fk hfk k' row' q hrow hq := by
    by_cases ht : fk.child = t
    · subst ht
      rw [Store.set_self, Table.get?_insert] at hrow
      split_ifs at hrow with hkey
      · obtain rfl := Option.some.inj hrow
        rw [hkey, hk, hrefers fk hfk rfl q hq]
      · exact h.refers fk hfk k' row' q hrow hq
    · rw [Store.set_of_ne _ _ ht] at hrow
      exact h.refers fk hfk k' row' q hrow hq
  owner t' k' row' v hrow hv := by
    by_cases ht : t' = t
    · subst ht
      rw [Store.set_self, Table.get?_insert] at hrow
      split_ifs at hrow with hkey
      · obtain rfl := Option.some.inj hrow
        rw [hkey] at hv ⊢
        exact ⟨fun _ => hcolumn v hv, fun _ => hk⟩
      · exact h.owner t' k' row' v hrow hv
    · rw [Store.set_of_ne _ _ ht] at hrow
      exact h.owner t' k' row' v hrow hv
  users := h.users

/-- The rows of the workspace are inside, those of the other workspaces outside. -/
theorem rowsOf_outside (h : InRegion R w db) (hv : v ≠ w) (t : TableName) :
    rowsOf (outside R db) v t = rowsOf db v t :=
  h.toRespects.not.rowsOf_inside hv t

end InRegion

/-! ## The region of a workspace -/

open Classical in
/-- The users, the rows of a workspace, and IDs that are yet unused. -/
noncomputable def regionOf (unused : ID → Prop) (w : ID) (db : Database) (t : TableName)
    (k : ID) : Bool :=
  decide (t = .users ∨ unused k ∨
    ∃ row, (db t).get? k = some row ∧ workspaceOf db t k row = some w)

section RegionOf

variable {unused : ID → Prop}

theorem regionOf_users (k : ID) : regionOf unused w db .users k = true := by
  simp [regionOf]

theorem regionOf_of_unused {k : ID} (hk : unused k) (t : TableName) :
    regionOf unused w db t k = true := by
  simp [regionOf, hk]

/-- A row is inside if it is a row of the workspace. -/
theorem regionOf_iff (hunused : ∀ k, unused k → ∀ t, (db t).get? k = none) {t : TableName}
    (ht : t ≠ .users) {k : ID} {row : Row t} (hrow : (db t).get? k = some row) :
    regionOf unused w db t k = true ↔ workspaceOf db t k row = some w := by
  have hused : ¬unused k := by
    intro hk
    rw [hunused k hk t] at hrow
    exact absurd hrow.symm (Option.some_ne_none row)
  simp [regionOf, ht, hused, hrow]

/-- In a consistent database the region of a workspace holds its rows. -/
theorem inRegion_regionOf (h : TenantConsistent db)
    (hunused : ∀ k, unused k → ∀ t, (db t).get? k = none) (w : ID) :
    InRegion (regionOf unused w db) w db where
  refers fk hfk k row q hrow hcolumn := by
    obtain ⟨parent, hparent, hsame⟩ :=
      h fk hfk (k, row) (Table.get?_eq_some_iff.mp hrow) q hcolumn
    have htables : fk.child ≠ .users ∧ fk.parent ≠ .users := by
      simp only [schema, List.mem_cons, List.not_mem_nil, or_false] at hfk
      rcases hfk with rfl | rfl | rfl | rfl | rfl | rfl | rfl | rfl | rfl <;> decide
    rw [Bool.eq_iff_iff, regionOf_iff hunused htables.1 hrow,
      regionOf_iff hunused htables.2 hparent, hsame]
  owner t k row v hrow hcolumn := by
    have ht : t ≠ .users := by
      rintro rfl
      exact absurd hcolumn.symm (Option.some_ne_none v)
    rw [regionOf_iff hunused ht hrow, workspaceOf_of_column hcolumn, Option.some.injEq]
  users := regionOf_users

/-- Two databases that agree on the users and on the rows of a workspace agree inside. -/
theorem inside_regionOf_eq {db₁ db₂ : Database} {w : ID}
    (h₁ : ∀ k, unused k → ∀ t, (db₁ t).get? k = none)
    (h₂ : ∀ k, unused k → ∀ t, (db₂ t).get? k = none)
    (husers : db₁.users = db₂.users) (hrows : ∀ t, rowsOf db₁ w t = rowsOf db₂ w t) :
    inside (regionOf unused w db₁) db₁ = inside (regionOf unused w db₂) db₂ := by
  funext t
  by_cases ht : t = .users
  · subst ht
    have hall : ∀ db : Database, inside (regionOf unused w db) db .users = db.users := by
      intro db
      apply Table.ext_entries
      exact List.filter_eq_self.mpr fun e _ => regionOf_users e.1
    rw [hall, hall, husers]
  · have hrowsOf : ∀ db : Database, (∀ k, unused k → ∀ t, (db t).get? k = none) →
        (inside (regionOf unused w db) db t).entries = rowsOf db w t := by
      intro db hdb
      refine List.filter_congr fun e he => ?_
      rw [Bool.eq_iff_iff, regionOf_iff hdb ht (Table.get?_eq_some_iff.mpr he), decide_eq_true_iff]
    apply Table.ext_entries
    rw [hrowsOf db₁ h₁, hrowsOf db₂ h₂, hrows]

end RegionOf

end Core
end Veilence
