import Veilence.Core.Readding
import Veilence.Core.Stale

/-!
# Who changes the status of a package

The status of a package says whether it is monitored, and a blocked package must stay blocked
until somebody unblocks or removes it.  Packages change their status by the operations of the
package service, one by one or in bulk, and by discovery cycles, which bring removed packages back
and remove stale ones.  Every one of these operations may fail at any call.

Main results:

- Theorem {lit}`hasState_run`: a step that is not one of those that may end a status of a package
  leaves its row, its name, its status and its block as they are.
- Theorem {lit}`status_of_history`: the same for a whole history.
-/

namespace Veilence
namespace Core

open Go Foundation

variable {env : Env} {db db' : Database} {w k : ID} {q : Package} {name ecosystem : GoString}

/-! ## The state of a package -/

/-- The two rows have the same name, status and block. -/
structure Package.SameState (q p : Package) : Prop where
  workspaceID : p.workspaceID = q.workspaceID
  name : p.name = q.name
  ecosystem : p.ecosystem = q.ecosystem
  status : p.status = q.status
  blockedAt : p.blockedAt = q.blockedAt
  blockedReason : p.blockedReason = q.blockedReason

/-- There is a row of the package, in the state of the given one. -/
def HasState (k : ID) (q : Package) (db : Database) : Prop :=
  ∃ p, db.packages.get? k = some p ∧ q.SameState p

/-- A scan of the workspace ranks the name of the package. -/
def Round.Ranks (r : Round) (q : Package) : Prop :=
  ∃ scan ∈ r.scans, scan.registry = q.ecosystem ∧
    ∃ visits, scan.rankings = some visits ∧ ∃ v ∈ visits, v.ranking.name = q.name

/-- The step may take the package out of the state of the given row. -/
def LifeStep.Leaves (k : ID) (q : Package) : LifeStep → Prop
  | .createPackage _ _ _ _ _ | .importPackages _ _ _ _ => False
  | .blockPackage _ _ w pkgID _ => w = q.workspaceID ∧ pkgID = k ∧ q.status = .active
  | .unblockPackage _ _ w pkgID => w = q.workspaceID ∧ pkgID = k ∧ q.status = .blocked
  | .removePackage _ _ w pkgID =>
      w = q.workspaceID ∧ pkgID = k ∧ (q.status = .active ∨ q.status = .blocked)
  | .approvePackage _ _ w pkgID | .rejectPackage _ _ w pkgID =>
      w = q.workspaceID ∧ pkgID = k ∧ q.status = .suggested
  | .bulkApprovePackages _ _ w pkgIDs => w = q.workspaceID ∧ k ∈ pkgIDs ∧ q.status = .suggested
  | .bulkApproveAllSuggestions _ _ w => w = q.workspaceID ∧ q.status = .suggested
  | .discover r =>
      r.workspaceID = q.workspaceID ∧
        (q.status = .removed ∧ r.Scans ∧ r.Ranks q ∨ q.status = .active ∧ r.Removes)

/-! ## Rows -/

section Rows

theorem Package.SameState.refl (q : Package) : q.SameState q :=
  ⟨rfl, rfl, rfl, rfl, rfl, rfl⟩

/-- An update that leaves the state where it is selected. -/
theorem HasState.updateWhere {sel : ID → Package → Bool} {f : Package → Package}
    (h : HasState k q db) (hf : ∀ p, q.SameState p → sel k p = true → q.SameState (f p)) :
    HasState k q (db.set .packages (db.packages.updateWhere sel f)) := by
  obtain ⟨p, hp, hsame⟩ := h
  refine ⟨if sel k p then f p else p, ?_, ?_⟩
  · rw [packages_set, Table.get?_updateWhere, hp]
    rfl
  · split_ifs with hsel
    · exact hf p hsame hsel
    · exact hsame

/-- A new row does not replace the row of a package. -/
theorem HasState.insert {id : ID} {pkg : Package} (h : HasState k q db)
    (hnew : db.packages.get? id = none) :
    HasState k q (db.set .packages (db.packages.insert id pkg)) := by
  obtain ⟨p, hp, hsame⟩ := h
  have hne : k ≠ id := by
    rintro rfl
    exact Option.some_ne_none p (hp.symm.trans hnew)
  refine ⟨p, ?_, hsame⟩
  rw [packages_set, Table.get?_insert_of_ne hne, hp]

/-- A deletion in another table leaves the packages. -/
theorem HasState.delete {t : TableName} (h : HasState k q db) (ht : t ≠ .packages)
    {p : ID → Row t → Bool} {r : Statement.Reply (.delete t p : Statement ID Row)}
    (hexec : execute db (.delete t p) = some (db', r)) : HasState k q db' := by
  have hclosed : Closed schema (fun t (_ : ID) => t ≠ .packages) db := by
    intro fk hfk k row q _ _ _
    simp only [schema, List.mem_cons, List.not_mem_nil, or_false] at hfk
    rcases hfk with rfl | rfl | rfl | rfl | rfl | rfl | rfl | rfl | rfl <;> decide
  obtain ⟨db₁, hdelete, heq⟩ := Option.map_eq_some_iff.mp hexec
  obtain ⟨rfl, -⟩ := Prod.mk.inj heq
  have hspares : Spares wear (fun t (_ : ID) => t ≠ .packages) db db₁ :=
    Spares.deleteRows (fun _ _ => ht) hclosed hdelete
  obtain ⟨pkg, hpkg, hsame⟩ := h
  exact ⟨pkg, (hspares.kept .packages k fun hne => hne rfl).trans hpkg, hsame⟩

end Rows

/-! ## Operations that keep a property -/

/-- The operation preserves a property of the database. -/
def Keeps (P : Database → Prop) {α : Type} (p : Op α) : Prop :=
  Confined (Compartment.whole fun s : World => P s.db) p fun _ => True

section Operations

variable {P : Database → Prop} {α β : Type}

theorem keeps_iff {p : Op α} : Keeps P p ↔ ∀ s : World, P s.db → P (p s).2.db := by
  refine confined_whole_iff.trans (forall_congr' fun s => forall_congr' fun _ => ?_)
  simp

/-- One operation after another. -/
theorem Keeps.bind {p : Op α} {f : α → Op β} (hp : Keeps P p) (hf : ∀ a, Keeps P (f a)) :
    Keeps P (p >>= f) :=
  Confined.bind hp fun a _ => hf a

theorem Keeps.pure (a : α) : Keeps P (Pure.pure a : Op α) :=
  Confined.pure trivial

theorem Keeps.attempt {p : Op α} (hp : Keeps P p) : Keeps P p.attempt :=
  (Confined.attempt hp).mono fun _ _ => trivial

theorem Keeps.mapError {p : Op α} (hp : Keeps P p) (g : Failure → Failure) :
    Keeps P (p.mapError g) :=
  Confined.mapError hp

theorem Keeps.failIf (cond : Bool) (e : Failure) :
    Keeps P (Procedure.failIf cond e : Op Unit) :=
  (Confined.failIf e).mono fun _ _ => trivial

/-- A call of the database. -/
theorem keeps_call {context : String} {f : Nat → Database → Except Cause (α × Database)}
    (h : ∀ n db r, P db → f n db = .ok r → P r.2) : Keeps P (call env context f) := by
  rw [keeps_iff]
  intro s hs
  unfold call
  cases env.failure s.calls with
  | some text => exact hs
  | none =>
      cases hf : f s.calls s.db with
      | error cause => exact hs
      | ok r => exact h s.calls s.db r hs hf

theorem keeps_query {context : String} {f : Database → α} : Keeps P (query env context f) := by
  apply keeps_call
  intro n db r hdb hr
  obtain rfl := Except.ok.inj hr
  exact hdb

theorem keeps_findPackage {id : ID} :
    Keeps P (PackageRepo.findByIDAndWorkspaceID env id w) := by
  apply keeps_query.bind
  intro r
  cases r with
  | none => exact Confined.fail _
  | some p => exact .pure p

theorem keeps_logAction {action resource : String} {resourceID : Option ID}
    {details : GoString} : Keeps P (logAction env action resource resourceID details) :=
  keeps_iff.mpr fun _ hs => hs

theorem keeps_triggerMonitoring {workspaceID : ID} :
    Keeps P (triggerMonitoring env workspaceID) :=
  keeps_iff.mpr fun _ hs => hs

/-! ## What the services keep if the repositories do -/

theorem keeps_validate : Keeps P (PackageService.validatePackageExists env name ecosystem) := by
  unfold PackageService.validatePackageExists
  split_ifs
  · exact Confined.fail _
  · cases env.registries ecosystem with
    | none => exact .pure ()
    | some getPackage => exact .failIf _ _

theorem keeps_createPackage (hcreate : ∀ pkg, Keeps P (PackageRepo.create env pkg)) :
    Keeps P (PackageService.createPackage env w name ecosystem) := by
  apply keeps_validate.bind
  intro _
  apply (keeps_query.mapError _).bind
  intro found
  apply (Keeps.failIf _ _).bind
  intro _
  apply (hcreate _).bind
  intro pkg
  exact keeps_logAction.bind fun _ => .pure pkg

theorem keeps_importEntry (hcreate : ∀ pkg, Keeps P (PackageRepo.create env pkg))
    {result : ImportResult} {entry : ImportEntry} :
    Keeps P (PackageService.importEntry env w result entry) := by
  have hnew : Keeps P (PackageService.importNew env w result entry) := by
    apply (hcreate _).attempt.bind
    intro created
    cases created with
    | error e => exact .pure _
    | ok pkg => exact .pure _
  have hunknown : Keeps P (PackageService.importUnknown env w result entry) := by
    apply keeps_validate.attempt.bind
    intro valid
    cases valid with
    | error e => exact .pure _
    | ok _ => exact hnew
  apply keeps_query.attempt.bind
  intro found
  cases found with
  | error e => exact .pure _
  | ok found =>
      cases found with
      | true => exact .pure _
      | false => exact hunknown

theorem keeps_importPackages (hcreate : ∀ pkg, Keeps P (PackageRepo.create env pkg))
    {entries : List ImportEntry} : Keeps P (PackageService.importPackages env w entries) :=
  Confined.foldl trivial fun _ _ _ _ => keeps_importEntry hcreate

/-- The fetch, the entry in the audit log, and the result, behind a change. -/
theorem keeps_reported {context : String} {pkgID : ID} {action : String}
    {details : Entry Package → GoString} :
    Keeps P (wrapped context (PackageRepo.findByIDAndWorkspaceID env pkgID w) >>= fun pkg =>
      logAction env action "package" (some pkgID) (details pkg) >>= fun _ => pure pkg) := by
  apply (keeps_findPackage.mapError _).bind
  intro pkg
  exact keeps_logAction.bind fun _ => .pure pkg

theorem keeps_blockPackage {pkgID : ID} {reason : GoString}
    (hstatus : Keeps P (PackageRepo.blockPackage env w pkgID reason)) :
    Keeps P (PackageService.blockPackage env w pkgID reason) :=
  (hstatus.mapError _).bind fun _ => keeps_reported

theorem keeps_unblockPackage {pkgID : ID}
    (hstatus : Keeps P (PackageRepo.unblockPackage env w pkgID)) :
    Keeps P (PackageService.unblockPackage env w pkgID) :=
  (hstatus.mapError _).bind fun _ => keeps_reported

theorem keeps_removal {pkgID : ID} (hremove : Keeps P (PackageRepo.removePackage env w pkgID)) :
    Keeps P (PackageService.removePackage env w pkgID) := by
  apply (keeps_findPackage.mapError _).bind
  intro pkg
  exact (hremove.mapError _).bind fun _ => keeps_logAction

theorem keeps_approvePackage {pkgID : ID}
    (hstatus : Keeps P (PackageRepo.approvePackage env w pkgID)) :
    Keeps P (PackageService.approvePackage env w pkgID) := by
  apply (hstatus.mapError _).bind
  intro _
  apply (keeps_findPackage.mapError _).bind
  intro pkg
  apply keeps_logAction.bind
  intro _
  exact keeps_triggerMonitoring.bind fun _ => .pure pkg

theorem keeps_rejectPackage {pkgID : ID}
    (hstatus : Keeps P (PackageRepo.rejectPackage env w pkgID)) :
    Keeps P (PackageService.rejectPackage env w pkgID) := by
  apply (keeps_findPackage.mapError _).bind
  intro pkg
  exact (hstatus.mapError _).bind fun _ => keeps_logAction

theorem keeps_approved {action all : String} {count : Nat} :
    Keeps P (PackageService.approved env w action all count) := by
  apply keeps_logAction.bind
  intro _
  by_cases hcount : 0 < count
  · simp only [hcount, if_true]
    exact keeps_triggerMonitoring.bind fun _ => .pure count
  · simp only [hcount, if_false]
    exact .pure count

theorem keeps_bulkApprovePackages {pkgIDs : List ID}
    (hstatus : Keeps P (PackageRepo.bulkApprovePackages env w pkgIDs)) :
    Keeps P (PackageService.bulkApprovePackages env w pkgIDs) :=
  hstatus.bind fun _ => keeps_approved

theorem keeps_bulkApproveAllSuggestions
    (hstatus : Keeps P (PackageRepo.bulkApproveAllSuggestions env w)) :
    Keeps P (PackageService.bulkApproveAllSuggestions env w) :=
  hstatus.bind fun _ => keeps_approved

end Operations

/-! ## What the repositories keep -/

section Repositories

theorem hasState_create {pkg : Package} :
    Keeps (HasState k q) (PackageRepo.create env pkg) := by
  apply keeps_call
  intro n db r hdb hr
  dsimp only at hr
  split_ifs at hr with heco hkey hname hworkspace
  obtain rfl := Except.ok.inj hr
  exact hdb.insert (Option.not_isSome_iff_eq_none.mp hkey)

/-- An update that does not select the row in this state. -/
theorem hasState_update {context : String} {sel : ID → Package → Bool}
    {f : Time → Package → Package} (hsel : ∀ p, q.SameState p → sel k p = false) :
    Keeps (HasState k q) (update env context .packages sel f) := by
  apply keeps_call
  intro n db r hdb hr
  obtain rfl := Except.ok.inj hr
  exact hdb.updateWhere fun p hsame htrue =>
    absurd (htrue.symm.trans (hsel p hsame)) (by decide)

theorem hasState_changeStatus {context : String} {pkgID : ID} {status : PackageStatus}
    {f : Time → Package → Package}
    (hnot : ¬(w = q.workspaceID ∧ pkgID = k ∧ q.status = status)) :
    Keeps (HasState k q) (PackageRepo.changeStatus env context w pkgID status f) := by
  refine (hasState_update fun p hsame => ?_).bind fun n => .failIf _ _
  rw [decide_eq_false_iff_not, hsame.workspaceID, hsame.status]
  rintro ⟨hk, hw, hstatus⟩
  exact hnot ⟨hw.symm, hk.symm, hstatus⟩

theorem hasState_bulkApprove {pkgIDs : List ID}
    (hnot : ¬(w = q.workspaceID ∧ k ∈ pkgIDs ∧ q.status = .suggested)) :
    Keeps (HasState k q) (PackageRepo.bulkApprovePackages env w pkgIDs) := by
  unfold PackageRepo.bulkApprovePackages
  split_ifs
  · exact .pure 0
  · refine hasState_update fun p hsame => ?_
    rw [decide_eq_false_iff_not, hsame.workspaceID, hsame.status]
    rintro ⟨hw, hk, hstatus⟩
    exact hnot ⟨hw.symm, hk, hstatus⟩

theorem hasState_bulkApproveAll (hnot : ¬(w = q.workspaceID ∧ q.status = .suggested)) :
    Keeps (HasState k q) (PackageRepo.bulkApproveAllSuggestions env w) := by
  refine hasState_update fun p hsame => ?_
  rw [decide_eq_false_iff_not, hsame.workspaceID, hsame.status]
  rintro ⟨hw, hstatus⟩
  exact hnot ⟨hw.symm, hstatus⟩

/-! ### The transaction of a removal -/

variable {t : TableName} {p : ID → Row t → Bool}

theorem tamed_state_plucking :
    Tamed (Compartment.whole (HasState k q)) execute (OnOk fun _ => True)
      (PackageRepo.plucking t p) := by
  refine Tamed.read (keepsTo_whole ?_) trivial
  intro db db' r hdb hexec
  obtain ⟨rfl, -⟩ := Prod.mk.inj (Option.some.inj hexec)
  exact hdb

theorem tamed_state_removing (ht : t ≠ .packages) {context : String} :
    Tamed (Compartment.whole (HasState k q)) execute (OnOk fun _ => True)
      (PackageRepo.removing t p context) :=
  Tamed.exec (keepsTo_whole fun _ _ _ hdb => hdb.delete ht)

/-- The first statement finds the package only in a state in which it can be removed. -/
theorem keepsTo_state_first {pkgID : ID}
    (hnot : ¬(w = q.workspaceID ∧ pkgID = k ∧ (q.status = .active ∨ q.status = .blocked))) :
    KeepsTo (Compartment.whole (HasState k q)) execute
      (Statement.first .packages fun k' (p : Package) =>
        k' = pkgID ∧ p.workspaceID = w ∧ (p.status = .active ∨ p.status = .blocked))
      fun found => found.isNone = false → pkgID ≠ k := by
  intro db hdb
  refine ⟨?_, ?_⟩
  · change execute db _ = (execute db _).map (Prod.map id id)
    rw [Prod.map_id, Option.map_id]
    rfl
  · intro db' found hexec
    obtain ⟨pkg, hpkg, hsame⟩ := hdb
    cases found with
    | none =>
        obtain ⟨rfl, -⟩ := Prod.mk.inj (Option.some.inj hexec)
        exact ⟨⟨pkg, hpkg, hsame⟩, rfl, fun hnone => absurd hnone (by decide)⟩
    | some row =>
        obtain ⟨rfl, k', hrow, hsel⟩ := Statement.first_eq_some hexec
        refine ⟨⟨pkg, hpkg, hsame⟩, rfl, fun _ hk => ?_⟩
        obtain ⟨rfl, hw, hstatus⟩ := of_decide_eq_true hsel
        subst hk
        obtain rfl : pkg = row := Option.some.inj (hpkg.symm.trans hrow)
        rw [hsame.workspaceID] at hw
        rw [hsame.status] at hstatus
        exact hnot ⟨hw.symm, rfl, hstatus⟩

/-- The status of another package is set to removed. -/
theorem keepsTo_state_removed {pkgID : ID} (hne : pkgID ≠ k) (now : Time) :
    KeepsTo (Compartment.whole (HasState k q)) execute
      (Statement.update .packages (fun k (_ : Package) => k = pkgID)
        fun (p : Package) => { p with status := .removed, updatedAt := now }) fun _ => True := by
  apply keepsTo_whole
  intro db db' r hdb hexec
  obtain ⟨rfl, -⟩ := Prod.mk.inj (Option.some.inj hexec)
  exact hdb.updateWhere fun p _ hsel => absurd (of_decide_eq_true hsel).symm hne

theorem tamed_state_pluckingDiffs (releaseIDs : List ID) :
    Tamed (Compartment.whole (HasState k q)) execute (OnOk fun _ => True)
      (PackageRepo.pluckingDiffs releaseIDs) := by
  unfold PackageRepo.pluckingDiffs
  split_ifs
  · exact Tamed.pure trivial
  · exact tamed_state_plucking

/-- The transaction of a removal stops at its first query when the package is this one. -/
theorem tamed_state_removeBody {pkgID : ID}
    (hnot : ¬(w = q.workspaceID ∧ pkgID = k ∧ (q.status = .active ∨ q.status = .blocked)))
    (now : Time) :
    Tamed (Compartment.whole (HasState k q)) execute (OnOk fun _ => True)
      (PackageRepo.removeBody w pkgID now) := by
  unfold PackageRepo.removeBody
  apply (Tamed.exec (keepsTo_state_first hnot)).bind
  intro pkg hpkg
  apply Tamed.require.bind
  intro _ hfound
  apply tamed_state_plucking.bind
  intro releaseIDs _
  apply (tamed_state_pluckingDiffs releaseIDs).bind
  intro diffIDs _
  apply tamed_state_plucking.bind
  intro alertIDs _
  apply (Tamed.onlyIf (tamed_state_removing (by decide))).bind
  intro _ _
  apply (tamed_state_removing (by decide)).bind
  intro _ _
  apply (Tamed.onlyIf (tamed_state_removing (by decide))).bind
  intro _ _
  apply (Tamed.onlyIf (tamed_state_removing (by decide))).bind
  intro _ _
  apply (tamed_state_removing (by decide)).bind
  intro _ _
  apply (Tamed.exec (keepsTo_state_removed (hpkg hfound) now)).bind
  exact fun _ _ => Tamed.pure trivial

theorem hasState_removePackage {pkgID : ID}
    (hnot : ¬(w = q.workspaceID ∧ pkgID = k ∧ (q.status = .active ∨ q.status = .blocked))) :
    Keeps (HasState k q) (PackageRepo.removePackage env w pkgID) := by
  rw [keeps_iff]
  intro s hs
  exact (transaction_part (tamed_state_removeBody hnot (env.now s.calls)) (env.budget s.calls)
    (env.commits s.calls) ⟨[], .commit⟩ hs).2.1

end Repositories

/-! ## Discovery -/

section Discovery

variable {s : Monitored} {scan : Scan} {autoApprove : Bool}

/-- New metrics without a new status. -/
theorem HasState.metrics (h : HasState k q db) (id : ID) (downloadCount : Int) (now : Time) :
    HasState k q (PollerRepo.updatePackageDiscoveryMetrics db id none downloadCount now) :=
  h.updateWhere fun _ hsame _ =>
    ⟨hsame.workspaceID, hsame.name, hsame.ecosystem, hsame.status, hsame.blockedAt,
      hsame.blockedReason⟩

/-- Metrics and a new status of another package. -/
theorem HasState.revive (h : HasState k q db) {id : ID} (hne : k ≠ id)
    (status : Option PackageStatus) (downloadCount : Int) (now : Time) :
    HasState k q (PollerRepo.updatePackageDiscoveryMetrics db id status downloadCount now) :=
  h.updateWhere fun _ _ hsel => absurd (of_decide_eq_true hsel) hne

/-- A visit brings back only the removed package of its name. -/
theorem HasState.upsert {u : Upserted} (h : HasState k q u.state.db) {v : Visit}
    (hother : q.status = .removed → w = q.workspaceID → scan.registry = q.ecosystem →
      v.ranking.name ≠ q.name) :
    HasState k q (Core.upsert w scan autoApprove u v).state.db := by
  rcases upsert_cases w scan autoApprove u v with
    ⟨-, hsame | ⟨id, hmetrics⟩⟩ | ⟨hcreates, hcreated⟩ | ⟨e, hrevives, hrevived⟩
  · rw [hsame]
    exact h
  · rw [hmetrics]
    exact h.metrics id _ _
  · rw [hcreated]
    exact h.insert hcreates.2.2.1
  · rw [hrevived]
    refine h.revive ?_ _ _ _
    rintro rfl
    obtain ⟨p, hp, hsame⟩ := h
    obtain ⟨hrow, hw, hname, hecosystem⟩ := of_findPackage hrevives.2.2.1
    obtain rfl : p = e.2 := Option.some.inj (hp.symm.trans hrow)
    apply hother
    · rw [← hsame.status, hrevives.2.2.2]
    · rw [← hsame.workspaceID, hw]
    · rw [← hsame.ecosystem, hecosystem]
    · rw [← hsame.name, hname]

theorem HasState.updateDownloadCounts (h : HasState k q db) (now : Time)
    (updates : List (ID × Int)) :
    HasState k q (PollerRepo.updateDownloadCounts db w now updates) := by
  induction updates generalizing db with
  | nil => exact h
  | cons update updates ih =>
      apply ih
      exact h.updateWhere fun _ hsame _ =>
        ⟨hsame.workspaceID, hsame.name, hsame.ecosystem, hsame.status, hsame.blockedAt,
          hsame.blockedReason⟩

/-- Visits that do not bring the package back. -/
theorem HasState.upserts {u : Upserted} (h : HasState k q u.state.db) {visits : List Visit}
    (hother : q.status = .removed → w = q.workspaceID → scan.registry = q.ecosystem →
      ∀ v ∈ visits, v.ranking.name ≠ q.name) :
    HasState k q (visits.foldl (Core.upsert w scan autoApprove) u).state.db := by
  induction visits generalizing u with
  | nil => exact h
  | cons v visits ih =>
      apply ih
      · exact h.upsert fun hstatus hw heco => hother hstatus hw heco v List.mem_cons_self
      · exact fun hstatus hw heco v' hv' =>
          hother hstatus hw heco v' (List.mem_cons_of_mem _ hv')

theorem HasState.discoverPackages (h : HasState k q s.db)
    (hother : q.status = .removed → w = q.workspaceID → scan.registry = q.ecosystem →
      ∀ visits, scan.rankings = some visits → ∀ v ∈ visits, v.ranking.name ≠ q.name) :
    HasState k q (Core.discoverPackages w scan autoApprove s).db := by
  unfold Core.discoverPackages
  cases hrankings : scan.rankings with
  | none => exact h
  | some visits =>
      have hstart : HasState k q (⟨s, 0, []⟩ : Upserted).state.db := h
      apply HasState.updateDownloadCounts
      exact hstart.upserts fun hstatus hw heco => hother hstatus hw heco visits hrankings

theorem HasState.discoverWorkspace {r : Round} (h : HasState k q s.db)
    (hnot : ¬(LifeStep.discover r).Leaves k q) :
    HasState k q (Core.discoverWorkspace s r).db := by
  have hscanned : r.Scans → ∀ (scans : List Scan) (s : Monitored),
      (∀ scan ∈ scans, scan ∈ r.scans) → HasState k q s.db → HasState k q (scans.foldl
        (fun s scan => Core.discoverPackages r.workspaceID scan r.autoApprove s) s).db := by
    intro hscans scans
    induction scans with
    | nil => exact fun s _ hs => hs
    | cons scan scans ih =>
        intro s hmem hs
        apply ih
        · exact fun scan' hscan' => hmem scan' (List.mem_cons_of_mem _ hscan')
        · apply hs.discoverPackages
          intro hstatus hw heco visits hvisits v hv hname
          exact hnot ⟨hw, Or.inl ⟨hstatus, hscans, scan, hmem scan List.mem_cons_self, heco,
            visits, hvisits, v, hv, hname⟩⟩
  unfold Core.discoverWorkspace removeStalePackages
  split_ifs with hscans hidle
  · exact hscanned hscans _ _ (fun _ hscan => hscan) h
  · apply (hscanned hscans _ _ (fun _ hscan => hscan) h).updateWhere
    intro p hsame hsel
    -- Only an active package of the workspace is stale.
    simp only [PollerRepo.isStale, Bool.and_eq_true, decide_eq_true_eq] at hsel
    obtain ⟨⟨hw, hactive⟩, -⟩ := hsel
    rw [hsame.workspaceID] at hw
    rw [hsame.status] at hactive
    obtain ⟨hmonths, hremoval⟩ := not_or.mp hidle
    exact absurd ⟨hw.symm, Or.inr ⟨hactive, hscans, not_le.mp hmonths,
      Bool.eq_false_iff.mpr hremoval⟩⟩ hnot
  · exact h

end Discovery

/-! ## Histories -/

/-- A step that is not one of those that may end a status leaves the state of a package. -/
theorem hasState_run (h : HasState k q db) {step : LifeStep} (hnot : ¬step.Leaves k q) :
    HasState k q (step.run db) := by
  have hop : ∀ {α : Type} {p : Op α}, Keeps (HasState k q) p →
      ∀ calls, HasState k q (after p calls db) :=
    fun hp calls => keeps_iff.mp hp ⟨db, [], calls⟩ h
  cases step with
  | createPackage env calls w name ecosystem =>
      exact hop (keeps_createPackage fun _ => hasState_create) calls
  | importPackages env calls w entries =>
      exact hop (keeps_importPackages fun _ => hasState_create) calls
  | blockPackage env calls w pkgID reason =>
      exact hop (keeps_blockPackage (hasState_changeStatus hnot)) calls
  | unblockPackage env calls w pkgID =>
      exact hop (keeps_unblockPackage (hasState_changeStatus hnot)) calls
  | removePackage env calls w pkgID => exact hop (keeps_removal (hasState_removePackage hnot)) calls
  | approvePackage env calls w pkgID =>
      exact hop (keeps_approvePackage (hasState_changeStatus hnot)) calls
  | rejectPackage env calls w pkgID =>
      exact hop (keeps_rejectPackage (hasState_changeStatus hnot)) calls
  | bulkApprovePackages env calls w pkgIDs =>
      exact hop (keeps_bulkApprovePackages (hasState_bulkApprove hnot)) calls
  | bulkApproveAllSuggestions env calls w =>
      exact hop (keeps_bulkApproveAllSuggestions (hasState_bulkApproveAll hnot)) calls
  | discover r => exact h.discoverWorkspace hnot

/-- In a history without a step that may end its status, whatever fails in it, a package keeps its
row, its name, its status and its block. -/
theorem status_of_history {p : Package} (hp : db.packages.get? k = some p)
    {history : List LifeStep} (hkeeps : ∀ step ∈ history, ¬step.Leaves k p) :
    ∃ p', (runHistory db history).packages.get? k = some p' ∧ p.SameState p' := by
  have hstate : HasState k p (runHistory db history) := by
    have hstart : HasState k p db := ⟨p, hp, .refl p⟩
    clear hp
    unfold runHistory
    induction history generalizing db with
    | nil => exact hstart
    | cons step history ih =>
        apply ih
        · exact fun step' hstep' => hkeeps step' (List.mem_cons_of_mem _ hstep')
        · exact hasState_run hstart (hkeeps step List.mem_cons_self)
  exact hstate

/-! ## A blocked package -/

/-- A package that is blocked. -/
def blockedPackage : Package where
  workspaceID := 1
  name := "requests".toList
  ecosystem := "python".toList
  latestVersion := []
  description := []
  source := .manual
  status := .blocked
  downloadCount := 0
  downloadCountUpdatedAt := none
  blockedAt := some 1690000000
  blockedReason := "malicious release".toList
  createdAt := 1680000000
  updatedAt := 1690000000

/-- The workspace with the package. -/
def blockedDatabase : Database :=
  newDatabase.set .packages (Table.single 7 blockedPackage)

/-- An import and an approval of the package, the approval of all suggestions, and a discovery
cycle that ranks its name and removes stale packages. -/
def unrelatedHistory : List LifeStep :=
  [.importPackages sampleEnv 0 1 [⟨"requests".toList, "python".toList⟩],
    .approvePackage sampleEnv 4 1 7, .bulkApproveAllSuggestions sampleEnv 7 1,
    .discover approvingRound]

/-- They all leave it blocked. -/
theorem status_of_unrelatedHistory :
    ∃ p', (runHistory blockedDatabase unrelatedHistory).packages.get? 7 = some p' ∧
      blockedPackage.SameState p' := by
  have hrow : blockedDatabase.packages.get? 7 = some blockedPackage := rfl
  refine status_of_history hrow fun step hstep hleaves => ?_
  simp only [unrelatedHistory, List.mem_cons, List.not_mem_nil, or_false] at hstep
  rcases hstep with rfl | rfl | rfl | rfl
  · exact hleaves
  · exact absurd hleaves.2.2 (by decide)
  · exact absurd hleaves.2 (by decide)
  · rcases hleaves.2 with ⟨hstatus, -⟩ | ⟨hstatus, -⟩
    · exact absurd hstatus (by decide)
    · exact absurd hstatus (by decide)

end Core
end Veilence
