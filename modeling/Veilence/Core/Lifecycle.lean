import Veilence.Core.Discovery
import Veilence.Core.Services

/-!
# Histories of packages

A history is a list of life-cycle operations of the package service and of discovery turns, for
any workspaces, in any environments.  A unique index keeps at most one package for each
workspace, name and ecosystem; every operation preserves that, for none changes a name and a new
row is checked against the index.

A removed package keeps its row, and {lit}`ExistsByWorkspaceAndName` does not look at the status.
So a package cannot be added again after it has been removed.

Main results:

- Theorem {lit}`uniqueNames_history`: after every history the names are unique.
- Theorem {lit}`readdable_iff`: when a package can be added.
-/

namespace Veilence
namespace Core

open Go Foundation

variable {env : Env} {db db' : Database} {w : ID} {name ecosystem : GoString}

/-! ## Histories -/

/-- A step of a history: an operation of the package service at a time of an environment, or the
turn of a workspace in a discovery cycle. -/
inductive LifeStep where
  | createPackage (env : Env) (calls : Nat) (w : ID) (name ecosystem : GoString)
  | importPackages (env : Env) (calls : Nat) (w : ID) (entries : List ImportEntry)
  | blockPackage (env : Env) (calls : Nat) (w pkgID : ID) (reason : GoString)
  | unblockPackage (env : Env) (calls : Nat) (w pkgID : ID)
  | removePackage (env : Env) (calls : Nat) (w pkgID : ID)
  | approvePackage (env : Env) (calls : Nat) (w pkgID : ID)
  | rejectPackage (env : Env) (calls : Nat) (w pkgID : ID)
  | bulkApprovePackages (env : Env) (calls : Nat) (w : ID) (pkgIDs : List ID)
  | bulkApproveAllSuggestions (env : Env) (calls : Nat) (w : ID)
  | discover (r : Round)

/-- The database after an operation. -/
def after {α : Type} (p : Op α) (calls : Nat) (db : Database) : Database :=
  (p ⟨db, [], calls⟩).2.db

/-- The database after a step. -/
def LifeStep.run (db : Database) : LifeStep → Database
  | .createPackage env calls w name ecosystem =>
      after (PackageService.createPackage env w name ecosystem) calls db
  | .importPackages env calls w entries =>
      after (PackageService.importPackages env w entries) calls db
  | .blockPackage env calls w pkgID reason =>
      after (PackageService.blockPackage env w pkgID reason) calls db
  | .unblockPackage env calls w pkgID => after (PackageService.unblockPackage env w pkgID) calls db
  | .removePackage env calls w pkgID => after (PackageService.removePackage env w pkgID) calls db
  | .approvePackage env calls w pkgID => after (PackageService.approvePackage env w pkgID) calls db
  | .rejectPackage env calls w pkgID => after (PackageService.rejectPackage env w pkgID) calls db
  | .bulkApprovePackages env calls w pkgIDs =>
      after (PackageService.bulkApprovePackages env w pkgIDs) calls db
  | .bulkApproveAllSuggestions env calls w =>
      after (PackageService.bulkApproveAllSuggestions env w) calls db
  | .discover r => (discoverWorkspace ⟨db, fun _ => none, []⟩ r).db

/-- The database after a history. -/
def runHistory (db : Database) (history : List LifeStep) : Database :=
  history.foldl LifeStep.run db

/-! ## Unique names -/

/-- No two packages have the same workspace, name and ecosystem. -/
def UniqueNames (db : Database) : Prop :=
  ∀ k k' p p', db.packages.get? k = some p → db.packages.get? k' = some p' →
    p.workspaceID = p'.workspaceID → p.name = p'.name → p.ecosystem = p'.ecosystem → k = k'

/-- The operation preserves the unique names. -/
def KeepsUnique {α : Type} (p : Op α) : Prop :=
  Confined (Compartment.whole fun s : World => UniqueNames s.db) p fun _ => True

/-- Rows whose names were there before. -/
theorem UniqueNames.of_source (h : UniqueNames db)
    (hsource : ∀ k p', db'.packages.get? k = some p' → ∃ p, db.packages.get? k = some p ∧
      p'.workspaceID = p.workspaceID ∧ p'.name = p.name ∧ p'.ecosystem = p.ecosystem) :
    UniqueNames db' := by
  intro k k' p p' hp hp' hw hname heco
  obtain ⟨q, hq, hqw, hqname, hqeco⟩ := hsource k p hp
  obtain ⟨q', hq', hqw', hqname', hqeco'⟩ := hsource k' p' hp'
  apply h k k' q q' hq hq'
  · rw [← hqw, hw, hqw']
  · rw [← hqname, hname, hqname']
  · rw [← hqeco, heco, hqeco']

theorem UniqueNames.updateWhere {sel : ID → Package → Bool} {f : Package → Package}
    (h : UniqueNames db) (hf : KeepsName f) :
    UniqueNames (db.set .packages (db.packages.updateWhere sel f)) := by
  apply h.of_source
  intro k p' hp'
  obtain ⟨p, hp, rfl⟩ := get?_of_updateWhere hp'
  refine ⟨p, hp, ?_, ?_, ?_⟩
  · split_ifs
    · exact hf.workspaceID p
    · rfl
  · split_ifs
    · exact hf.name p
    · rfl
  · split_ifs
    · exact hf.ecosystem p
    · rfl

/-- A new row with a name that is not found. -/
theorem UniqueNames.insert {id : ID} {pkg : Package} (h : UniqueNames db)
    (hnew : PollerRepo.findPackageByWorkspaceAndName db pkg.workspaceID pkg.name
      pkg.ecosystem = none) :
    UniqueNames (db.set .packages (db.packages.insert id pkg)) := by
  have hdiffer : ∀ k p, db.packages.get? k = some p → p.workspaceID = pkg.workspaceID →
      p.name = pkg.name → p.ecosystem ≠ pkg.ecosystem := by
    intro k p hp hw hname heco
    have hnot := List.find?_eq_none.mp hnew (k, p)
      (List.mem_filter.mpr ⟨Table.get?_eq_some_iff.mp hp, decide_eq_true hw⟩)
    exact hnot (decide_eq_true ⟨hname, heco⟩)
  intro k k' p p' hp hp' hw hname heco
  rw [packages_set, Table.get?_insert] at hp hp'
  split_ifs at hp with hk
  · split_ifs at hp' with hk'
    · rw [hk, hk']
    · obtain rfl := Option.some.inj hp
      exact absurd heco.symm (hdiffer k' p' hp' hw.symm hname.symm)
  · split_ifs at hp' with hk'
    · obtain rfl := Option.some.inj hp'
      exact absurd heco (hdiffer k p hp hw hname)
    · exact h k k' p p' hp hp' hw hname heco

/-! ## Operations -/

section Operations

variable {α β : Type}

theorem keepsUnique_iff {p : Op α} :
    KeepsUnique p ↔ ∀ s : World, UniqueNames s.db → UniqueNames (p s).2.db := by
  refine confined_whole_iff.trans (forall_congr' fun s => forall_congr' fun _ => ?_)
  simp

/-- One operation after another. -/
theorem KeepsUnique.bind {p : Op α} {f : α → Op β} (hp : KeepsUnique p)
    (hf : ∀ a, KeepsUnique (f a)) : KeepsUnique (p >>= f) :=
  Confined.bind hp fun a _ => hf a

theorem KeepsUnique.pure (a : α) : KeepsUnique (Pure.pure a : Op α) :=
  Confined.pure trivial

theorem KeepsUnique.attempt {p : Op α} (hp : KeepsUnique p) : KeepsUnique p.attempt :=
  (Confined.attempt hp).mono fun _ _ => trivial

theorem KeepsUnique.mapError {p : Op α} (hp : KeepsUnique p) (g : Failure → Failure) :
    KeepsUnique (p.mapError g) :=
  Confined.mapError hp

theorem KeepsUnique.failIf (cond : Bool) (e : Failure) :
    KeepsUnique (Procedure.failIf cond e : Op Unit) :=
  (Confined.failIf e).mono fun _ _ => trivial

/-- A call of the database. -/
theorem keepsUnique_call {context : String} {f : Nat → Database → Except Cause (α × Database)}
    (h : ∀ n db r, UniqueNames db → f n db = .ok r → UniqueNames r.2) :
    KeepsUnique (call env context f) := by
  rw [keepsUnique_iff]
  intro s hs
  unfold call
  cases env.failure s.calls with
  | some text => exact hs
  | none =>
      cases hf : f s.calls s.db with
      | error cause => exact hs
      | ok r => exact h s.calls s.db r hs hf

theorem keepsUnique_query {context : String} {q : Database → α} :
    KeepsUnique (query env context q) := by
  apply keepsUnique_call
  intro n db r hdb hr
  obtain rfl := Except.ok.inj hr
  exact hdb

/-- An update of packages that leaves their names. -/
theorem keepsUnique_update {context : String} {sel : ID → Package → Bool}
    {f : Time → Package → Package} (hf : ∀ now, KeepsName (f now)) :
    KeepsUnique (update env context .packages sel f) := by
  apply keepsUnique_call
  intro n db r hdb hr
  obtain rfl := Except.ok.inj hr
  exact hdb.updateWhere (hf (env.now n))

theorem keepsUnique_findPackage {id : ID} :
    KeepsUnique (PackageRepo.findByIDAndWorkspaceID env id w) := by
  apply keepsUnique_query.bind
  intro r
  cases r with
  | none => exact Confined.fail _
  | some p => exact .pure p

theorem keepsUnique_logAction {action resource : String} {resourceID : Option ID}
    {details : GoString} : KeepsUnique (logAction env action resource resourceID details) :=
  keepsUnique_iff.mpr fun _ hs => hs

theorem keepsUnique_triggerMonitoring {workspaceID : ID} :
    KeepsUnique (triggerMonitoring env workspaceID) :=
  keepsUnique_iff.mpr fun _ hs => hs

/-- The update of a package in one of the states. -/
theorem keepsUnique_changeStatus {context : String} {pkgID : ID} {status : PackageStatus}
    {f : Time → Package → Package} (hf : ∀ now, KeepsName (f now)) :
    KeepsUnique (PackageRepo.changeStatus env context w pkgID status f) := by
  have hupdate : ∀ now, KeepsName fun p => { f now p with updatedAt := now } :=
    fun now => ⟨(hf now).workspaceID, (hf now).name, (hf now).ecosystem⟩
  exact (keepsUnique_update hupdate).bind fun n => .failIf _ _

/-- A name is found exactly if one of the packages has it. -/
theorem find?_eq_none_iff :
    PollerRepo.findPackageByWorkspaceAndName db w name ecosystem = none ↔
      ((packagesOf db w).any fun p => p.2.name = name ∧ p.2.ecosystem = ecosystem) = false := by
  rw [PollerRepo.findPackageByWorkspaceAndName, List.find?_eq_none, List.any_eq_false]

theorem keepsUnique_create {pkg : Package} : KeepsUnique (PackageRepo.create env pkg) := by
  apply keepsUnique_call
  intro n db r hdb hr
  dsimp only at hr
  split_ifs at hr with heco hkey hname hworkspace
  obtain rfl := Except.ok.inj hr
  exact hdb.insert (find?_eq_none_iff.mpr (Bool.not_eq_true _ ▸ hname))

/-- A deletion in another table leaves the packages. -/
theorem UniqueNames.delete {t : TableName} (h : UniqueNames db) (ht : t ≠ .packages)
    {p : ID → Row t → Bool} {r : Statement.Reply (.delete t p : Statement ID Row)}
    (hexec : execute db (.delete t p) = some (db', r)) : UniqueNames db' := by
  have hclosed : Closed schema (fun t (_ : ID) => t ≠ .packages) db := by
    intro fk hfk k row q _ _ _
    simp only [schema, List.mem_cons, List.not_mem_nil, or_false] at hfk
    rcases hfk with rfl | rfl | rfl | rfl | rfl | rfl | rfl | rfl | rfl <;> decide
  obtain ⟨db₁, hdelete, heq⟩ := Option.map_eq_some_iff.mp hexec
  obtain ⟨rfl, -⟩ := Prod.mk.inj heq
  have hspares : Spares wear (fun t (_ : ID) => t ≠ .packages) db db₁ :=
    Spares.deleteRows (fun _ _ => ht) hclosed hdelete
  apply h.of_source
  intro k p' hp'
  have hkept : (Database.packages db₁).get? k = db.packages.get? k :=
    hspares.kept .packages k fun hne => hne rfl
  exact ⟨p', hkept.symm.trans hp', rfl, rfl, rfl⟩

/-- The queries of a transaction. -/
theorem keepsTo_first {t : TableName} {p : ID → Row t → Bool} :
    KeepsTo (Compartment.whole UniqueNames) execute (.first t p) fun _ => True := by
  apply keepsTo_whole
  intro db db' r hdb hexec
  obtain ⟨rfl, -⟩ := Prod.mk.inj (Option.some.inj hexec)
  exact hdb

theorem keepsTo_pluck {t : TableName} {p : ID → Row t → Bool} :
    KeepsTo (Compartment.whole UniqueNames) execute (.pluck t p) fun _ => True := by
  apply keepsTo_whole
  intro db db' r hdb hexec
  obtain ⟨rfl, -⟩ := Prod.mk.inj (Option.some.inj hexec)
  exact hdb

theorem tamed_removing {t : TableName} (ht : t ≠ .packages) {p : ID → Row t → Bool}
    {context : String} :
    Tamed (Compartment.whole UniqueNames) execute (OnOk fun _ => True)
      (PackageRepo.removing t p context) :=
  Tamed.exec (keepsTo_whole fun _ _ _ hdb => hdb.delete ht)

theorem tamed_plucking {t : TableName} {p : ID → Row t → Bool} :
    Tamed (Compartment.whole UniqueNames) execute (OnOk fun _ => True)
      (PackageRepo.plucking t p) :=
  Tamed.read keepsTo_pluck trivial

/-- The transaction changes only the status of the package. -/
theorem keepsUnique_removePackage {pkgID : ID} :
    KeepsUnique (PackageRepo.removePackage env w pkgID) := by
  have hstatus : ∀ now, KeepsTo (Compartment.whole UniqueNames) execute
      (Statement.update .packages (fun k (_ : Package) => k = pkgID)
        fun (p : Package) => { p with status := .removed, updatedAt := now }) fun _ => True := by
    intro now
    apply keepsTo_whole
    intro db db' r hdb hexec
    obtain ⟨rfl, -⟩ := Prod.mk.inj (Option.some.inj hexec)
    exact hdb.updateWhere ⟨fun _ => rfl, fun _ => rfl, fun _ => rfl⟩
  have hdiffs : ∀ releaseIDs, Tamed (Compartment.whole UniqueNames) execute (OnOk fun _ => True)
      (PackageRepo.pluckingDiffs releaseIDs) := by
    intro releaseIDs
    unfold PackageRepo.pluckingDiffs
    split_ifs
    · exact Tamed.pure trivial
    · exact tamed_plucking
  have hbody : ∀ now, Tamed (Compartment.whole UniqueNames) execute (OnOk fun _ => True)
      (PackageRepo.removeBody w pkgID now) := by
    intro now
    unfold PackageRepo.removeBody
    apply (Tamed.exec keepsTo_first).bind
    intro pkg _
    apply (Tamed.onlyIf (Tamed.fail _)).bind
    intro _ _
    apply tamed_plucking.bind
    intro releaseIDs _
    apply (hdiffs releaseIDs).bind
    intro diffIDs _
    apply tamed_plucking.bind
    intro alertIDs _
    apply (Tamed.onlyIf (tamed_removing (by decide))).bind
    intro _ _
    apply (tamed_removing (by decide)).bind
    intro _ _
    apply (Tamed.onlyIf (tamed_removing (by decide))).bind
    intro _ _
    apply (Tamed.onlyIf (tamed_removing (by decide))).bind
    intro _ _
    apply (tamed_removing (by decide)).bind
    intro _ _
    apply (Tamed.exec (hstatus now)).bind
    exact fun _ _ => Tamed.pure trivial
  rw [keepsUnique_iff]
  intro s hs
  exact (transaction_part (hbody (env.now s.calls)) (env.budget s.calls) (env.commits s.calls)
    ⟨[], .commit⟩ hs).2.1

end Operations

/-! ## Services -/

section Services

theorem keepsUnique_validate :
    KeepsUnique (PackageService.validatePackageExists env name ecosystem) := by
  unfold PackageService.validatePackageExists
  split_ifs
  · exact Confined.fail _
  · cases env.registries ecosystem with
    | none => exact .pure ()
    | some getPackage => exact .failIf _ _

theorem keepsUnique_createPackage :
    KeepsUnique (PackageService.createPackage env w name ecosystem) := by
  apply keepsUnique_validate.bind
  intro _
  apply (keepsUnique_query.mapError _).bind
  intro found
  apply (KeepsUnique.failIf _ _).bind
  intro _
  apply keepsUnique_create.bind
  intro pkg
  exact keepsUnique_logAction.bind fun _ => .pure pkg

theorem keepsUnique_importEntry {result : ImportResult} {entry : ImportEntry} :
    KeepsUnique (PackageService.importEntry env w result entry) := by
  have hnew : KeepsUnique (PackageService.importNew env w result entry) := by
    apply keepsUnique_create.attempt.bind
    intro created
    cases created with
    | error e => exact .pure _
    | ok pkg => exact .pure _
  have hunknown : KeepsUnique (PackageService.importUnknown env w result entry) := by
    apply keepsUnique_validate.attempt.bind
    intro valid
    cases valid with
    | error e => exact .pure _
    | ok _ => exact hnew
  apply keepsUnique_query.attempt.bind
  intro found
  cases found with
  | error e => exact .pure _
  | ok found =>
      cases found with
      | true => exact .pure _
      | false => exact hunknown

theorem keepsUnique_importPackages {entries : List ImportEntry} :
    KeepsUnique (PackageService.importPackages env w entries) :=
  Confined.foldl trivial fun _ _ _ _ => keepsUnique_importEntry

/-- The fetch, the entry in the audit log, and the result, behind a change. -/
theorem keepsUnique_reported {context : String} {pkgID : ID} {action : String}
    {details : Entry Package → GoString} :
    KeepsUnique (wrapped context (PackageRepo.findByIDAndWorkspaceID env pkgID w) >>= fun pkg =>
      logAction env action "package" (some pkgID) (details pkg) >>= fun _ => pure pkg) := by
  apply (keepsUnique_findPackage.mapError _).bind
  intro pkg
  exact keepsUnique_logAction.bind fun _ => .pure pkg

theorem keepsUnique_blockPackage {pkgID : ID} {reason : GoString} :
    KeepsUnique (PackageService.blockPackage env w pkgID reason) := by
  have hstatus : KeepsUnique (PackageRepo.blockPackage env w pkgID reason) :=
    keepsUnique_changeStatus fun _ => ⟨fun _ => rfl, fun _ => rfl, fun _ => rfl⟩
  exact (hstatus.mapError _).bind fun _ => keepsUnique_reported

theorem keepsUnique_unblockPackage {pkgID : ID} :
    KeepsUnique (PackageService.unblockPackage env w pkgID) := by
  have hstatus : KeepsUnique (PackageRepo.unblockPackage env w pkgID) :=
    keepsUnique_changeStatus fun _ => ⟨fun _ => rfl, fun _ => rfl, fun _ => rfl⟩
  exact (hstatus.mapError _).bind fun _ => keepsUnique_reported

theorem keepsUnique_removal {pkgID : ID} :
    KeepsUnique (PackageService.removePackage env w pkgID) := by
  apply (keepsUnique_findPackage.mapError _).bind
  intro pkg
  apply (keepsUnique_removePackage.mapError _).bind
  exact fun _ => keepsUnique_logAction

theorem keepsUnique_approvePackage {pkgID : ID} :
    KeepsUnique (PackageService.approvePackage env w pkgID) := by
  have hstatus : KeepsUnique (PackageRepo.approvePackage env w pkgID) :=
    keepsUnique_changeStatus fun _ => ⟨fun _ => rfl, fun _ => rfl, fun _ => rfl⟩
  apply (hstatus.mapError _).bind
  intro _
  apply (keepsUnique_findPackage.mapError _).bind
  intro pkg
  apply keepsUnique_logAction.bind
  intro _
  exact keepsUnique_triggerMonitoring.bind fun _ => .pure pkg

theorem keepsUnique_rejectPackage {pkgID : ID} :
    KeepsUnique (PackageService.rejectPackage env w pkgID) := by
  have hstatus : KeepsUnique (PackageRepo.rejectPackage env w pkgID) :=
    keepsUnique_changeStatus fun _ => ⟨fun _ => rfl, fun _ => rfl, fun _ => rfl⟩
  apply (keepsUnique_findPackage.mapError _).bind
  intro pkg
  exact (hstatus.mapError _).bind fun _ => keepsUnique_logAction

theorem keepsUnique_approved {action all : String} {count : Nat} :
    KeepsUnique (PackageService.approved env w action all count) := by
  apply keepsUnique_logAction.bind
  intro _
  by_cases hcount : 0 < count
  · simp only [hcount, if_true]
    exact keepsUnique_triggerMonitoring.bind fun _ => .pure count
  · simp only [hcount, if_false]
    exact .pure count

theorem keepsUnique_bulkApprovePackages {pkgIDs : List ID} :
    KeepsUnique (PackageService.bulkApprovePackages env w pkgIDs) := by
  have hstatus : KeepsUnique (PackageRepo.bulkApprovePackages env w pkgIDs) := by
    unfold PackageRepo.bulkApprovePackages
    split_ifs
    · exact .pure 0
    · exact keepsUnique_update fun _ => ⟨fun _ => rfl, fun _ => rfl, fun _ => rfl⟩
  exact hstatus.bind fun _ => keepsUnique_approved

theorem keepsUnique_bulkApproveAllSuggestions :
    KeepsUnique (PackageService.bulkApproveAllSuggestions env w) := by
  have hstatus : KeepsUnique (PackageRepo.bulkApproveAllSuggestions env w) :=
    keepsUnique_update fun _ => ⟨fun _ => rfl, fun _ => rfl, fun _ => rfl⟩
  exact hstatus.bind fun _ => keepsUnique_approved

end Services

/-! ## Discovery -/

section Discovery

variable {s : Monitored} {scan : Scan} {autoApprove : Bool}

theorem UniqueNames.metrics (h : UniqueNames db) (k : ID) (status : Option PackageStatus)
    (downloadCount : Int) (now : Time) :
    UniqueNames (PollerRepo.updatePackageDiscoveryMetrics db k status downloadCount now) :=
  h.updateWhere ⟨fun _ => rfl, fun _ => rfl, fun _ => rfl⟩

theorem UniqueNames.upsert {u : Upserted} (h : UniqueNames u.state.db) (v : Visit) :
    UniqueNames (Core.upsert w scan autoApprove u v).state.db := by
  rcases upsert_cases w scan autoApprove u v with
    ⟨-, hsame | ⟨k, hmetrics⟩⟩ | ⟨hcreates, hcreated⟩ | ⟨e, -, hrevived⟩
  · rw [hsame]
    exact h
  · rw [hmetrics]
    exact h.metrics k none _ _
  · rw [hcreated]
    exact h.insert hcreates.2.2.2.1
  · rw [hrevived]
    exact h.metrics e.1 _ _ _

theorem UniqueNames.discoverPackages (h : UniqueNames s.db) :
    UniqueNames (Core.discoverPackages w scan autoApprove s).db := by
  have hupserted : ∀ (visits : List Visit) (u : Upserted), UniqueNames u.state.db →
      UniqueNames (visits.foldl (Core.upsert w scan autoApprove) u).state.db := by
    intro visits
    induction visits with
    | nil => exact fun u hu => hu
    | cons v visits ih => exact fun u hu => ih _ (hu.upsert v)
  have hcounted : ∀ (updates : List (ID × Int)) (db : Database), UniqueNames db →
      UniqueNames (PollerRepo.updateDownloadCounts db w scan.now updates) := by
    intro updates
    induction updates with
    | nil => exact fun db hdb => hdb
    | cons update updates ih =>
        exact fun db hdb => ih _ (hdb.updateWhere ⟨fun _ => rfl, fun _ => rfl, fun _ => rfl⟩)
  unfold Core.discoverPackages
  cases scan.rankings with
  | none => exact h
  | some visits => exact hcounted _ _ (hupserted visits ⟨s, 0, []⟩ h)

theorem UniqueNames.discoverWorkspace (h : UniqueNames s.db) (r : Round) :
    UniqueNames (Core.discoverWorkspace s r).db := by
  have hscanned : ∀ (scans : List Scan) (s : Monitored), UniqueNames s.db →
      UniqueNames (scans.foldl
        (fun s scan => Core.discoverPackages r.workspaceID scan r.autoApprove s) s).db := by
    intro scans
    induction scans with
    | nil => exact fun s hs => hs
    | cons scan scans ih => exact fun s hs => ih _ hs.discoverPackages
  unfold Core.discoverWorkspace removeStalePackages
  split_ifs
  · exact hscanned _ _ h
  · exact (hscanned _ _ h).updateWhere ⟨fun _ => rfl, fun _ => rfl, fun _ => rfl⟩
  · exact h

end Discovery

/-- Every step preserves the unique names. -/
theorem uniqueNames_run (h : UniqueNames db) (step : LifeStep) : UniqueNames (step.run db) := by
  have hop : ∀ {α : Type} {p : Op α}, KeepsUnique p → ∀ calls, UniqueNames (after p calls db) :=
    fun hp calls => keepsUnique_iff.mp hp ⟨db, [], calls⟩ h
  cases step with
  | createPackage env calls w name ecosystem => exact hop keepsUnique_createPackage calls
  | importPackages env calls w entries => exact hop keepsUnique_importPackages calls
  | blockPackage env calls w pkgID reason => exact hop keepsUnique_blockPackage calls
  | unblockPackage env calls w pkgID => exact hop keepsUnique_unblockPackage calls
  | removePackage env calls w pkgID => exact hop keepsUnique_removal calls
  | approvePackage env calls w pkgID => exact hop keepsUnique_approvePackage calls
  | rejectPackage env calls w pkgID => exact hop keepsUnique_rejectPackage calls
  | bulkApprovePackages env calls w pkgIDs => exact hop keepsUnique_bulkApprovePackages calls
  | bulkApproveAllSuggestions env calls w => exact hop keepsUnique_bulkApproveAllSuggestions calls
  | discover r => exact h.discoverWorkspace r

/-- After every history the names are unique. -/
theorem uniqueNames_history (h : UniqueNames db) (history : List LifeStep) :
    UniqueNames (runHistory db history) := by
  unfold runHistory
  induction history generalizing db with
  | nil => exact h
  | cons step history ih => exact ih (uniqueNames_run h step)

end Core
end Veilence
