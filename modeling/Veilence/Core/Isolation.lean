import Veilence.Core.Guarded
import Veilence.Core.Readding

/-!
# The isolation of tenants

Every operation of the core services is confined to the region of the workspace that it is called
with.  In a consistent database that region holds the rows of the workspace, the users and the
IDs that will be generated.  So what an operation returns, what it enqueues and what becomes of
the rows of its workspace depends on these rows and on the users only, and no other row changes.

Main results:

- Theorem {lit}`isolated_perform`: every operation is confined.
- Theorem {lit}`tenant_isolation`: two states that agree on the users and the rows of a workspace
  are the same to it, and the rows of the other workspaces stay.
-/

namespace Veilence
namespace Core

open Go Foundation

variable {env : Env} {R : TableName → ID → Bool} {w : ID}

/-! ## Packages -/

section Packages

variable {pkgID : ID} {name ecosystem : GoString}

theorem isolated_validate :
    Isolated env R w (PackageService.validatePackageExists env name ecosystem) := by
  unfold PackageService.validatePackageExists
  split_ifs
  · exact Confined.fail _
  · cases env.registries ecosystem with
    | none => exact Confined.pure trivial
    | some getPackage => exact isolated_of_confined (Confined.failIf _)

theorem isolated_newPackage {source : PackageSource} :
    Isolated env R w
      (PackageRepo.create env (PackageService.newPackage w name ecosystem source)) :=
  isolated_create rfl

theorem isolated_createService :
    Isolated env R w (PackageService.createPackage env w name ecosystem) := by
  apply isolated_validate.bind
  intro _ _
  apply (isolated_existsByWorkspaceAndName.mapError).bind
  intro found _
  apply (Confined.failIf _).bind
  intro _ _
  apply isolated_newPackage.bind
  intro pkg _
  exact isolated_logAction.bind fun _ _ => Confined.pure trivial

theorem isolated_importEntry {result : ImportResult} {entry : ImportEntry} :
    Isolated env R w (PackageService.importEntry env w result entry) := by
  have hnew : Isolated env R w (PackageService.importNew env w result entry) := by
    apply isolated_newPackage.attempt.bind
    intro created _
    cases created with
    | error e => exact Confined.pure trivial
    | ok pkg => exact Confined.pure trivial
  have hunknown : Isolated env R w (PackageService.importUnknown env w result entry) := by
    apply isolated_validate.attempt.bind
    intro valid _
    cases valid with
    | error e => exact Confined.pure trivial
    | ok _ => exact hnew
  apply isolated_existsByWorkspaceAndName.attempt.bind
  intro found _
  cases found with
  | error e => exact Confined.pure trivial
  | ok found =>
      cases found with
      | true => exact Confined.pure trivial
      | false => exact hunknown

/-- The fetch, the entry in the audit log, and the result, behind a change. -/
theorem isolated_reported {context action : String} {details : Entry Package → GoString} :
    Isolated env R w (wrapped context (PackageRepo.findByIDAndWorkspaceID env pkgID w) >>= fun pkg =>
      logAction env action "package" (some pkgID) (details pkg) >>= fun _ => pure pkg) := by
  apply (isolated_findPackage.mapError).bind
  intro pkg _
  exact isolated_logAction.bind fun _ _ => Confined.pure trivial

theorem isolated_blockPackage {reason : GoString} :
    Isolated env R w (PackageService.blockPackage env w pkgID reason) := by
  have hstatus : Isolated env R w (PackageRepo.blockPackage env w pkgID reason) :=
    isolated_changeStatus fun _ _ => rfl
  exact hstatus.mapError.bind fun _ _ => isolated_reported

theorem isolated_unblockPackage :
    Isolated env R w (PackageService.unblockPackage env w pkgID) := by
  have hstatus : Isolated env R w (PackageRepo.unblockPackage env w pkgID) :=
    isolated_changeStatus fun _ _ => rfl
  exact hstatus.mapError.bind fun _ _ => isolated_reported

theorem isolated_removal : Isolated env R w (PackageService.removePackage env w pkgID) := by
  apply isolated_findPackage.mapError.bind
  intro pkg _
  apply isolated_removePackage.mapError.bind
  exact fun _ _ => isolated_logAction

theorem isolated_approvePackage :
    Isolated env R w (PackageService.approvePackage env w pkgID) := by
  have hstatus : Isolated env R w (PackageRepo.approvePackage env w pkgID) :=
    isolated_changeStatus fun _ _ => rfl
  apply hstatus.mapError.bind
  intro _ _
  apply isolated_findPackage.mapError.bind
  intro pkg _
  apply isolated_logAction.bind
  intro _ _
  exact isolated_triggerMonitoring.bind fun _ _ => Confined.pure trivial

theorem isolated_rejectPackage :
    Isolated env R w (PackageService.rejectPackage env w pkgID) := by
  have hstatus : Isolated env R w (PackageRepo.rejectPackage env w pkgID) :=
    isolated_changeStatus fun _ _ => rfl
  apply isolated_findPackage.mapError.bind
  intro pkg _
  exact hstatus.mapError.bind fun _ _ => isolated_logAction

theorem isolated_approved {action all : String} {count : Nat} :
    Isolated env R w (PackageService.approved env w action all count) := by
  apply isolated_logAction.bind
  intro _ _
  by_cases hcount : 0 < count
  · simp only [hcount, if_true]
    exact isolated_triggerMonitoring.bind fun _ _ => Confined.pure trivial
  · simp only [hcount, if_false]
    exact Confined.pure trivial

end Packages

/-! ## Releases -/

section Releases

variable {packageID releaseID : ID}

theorem isolated_listByPackage {page limit : Int} :
    Isolated env R w (ReleaseService.listByPackage env w packageID page limit) := by
  apply isolated_findPackage.mapError.bind
  exact fun _ _ => isolated_findByPackageIDAndWorkspace

theorem isolated_getRelease :
    Isolated env R w (ReleaseService.getRelease env w releaseID) := by
  apply confined_findRelease.mapError.bind
  intro found hfound
  apply (confined_firstDiff hfound.2).attempt.bind
  intro diff hdiff
  cases diff with
  | error e => exact Confined.pure trivial
  | ok diff =>
      cases diff with
      | none => exact Confined.pure trivial
      | some diff =>
          have hinside : R .diffs diff.1 = true := hdiff _ rfl diff rfl
          apply (isolated_findByDiffID hinside).attempt.bind
          exact fun _ _ => Confined.pure trivial

/-- A release inside gets its status, and its job is enqueued. -/
theorem isolated_requeue {found : Entry Release × Entry Package} {status : ReleaseStatus}
    {jobType : String} {referenceID : ID} (hfound : R .releases found.1.1 = true) :
    Isolated env R w (ReleaseService.requeue env w found status jobType referenceID) := by
  apply (isolated_updateStatus hfound).mapError.bind
  exact fun _ _ => isolated_enqueue.mapError

theorem isolated_reanalyzeRelease :
    Isolated env R w (ReleaseService.reanalyzeRelease env w releaseID) := by
  apply (Confined.failIf _).bind
  intro _ _
  apply confined_findRelease.mapError.bind
  intro found hfound
  have hinside : R .releases found.1.1 = true := hfound.1 ▸ hfound.2
  apply (confined_firstDiff hinside).attempt.bind
  intro diff _
  have hdiffing : Isolated env R w (do
      let jobID ← ReleaseService.requeue env w found .pending "diff" found.1.1
      pure ("release re-queued for diffing and analysis".toList, jobID)) :=
    (isolated_requeue hinside).bind fun _ _ => Confined.pure trivial
  cases diff with
  | error e => exact hdiffing
  | ok diff =>
      cases diff with
      | none => exact hdiffing
      | some diff => exact (isolated_requeue hinside).bind fun _ _ => Confined.pure trivial

theorem isolated_getAnalysisHistory :
    Isolated env R w (ReleaseService.getAnalysisHistory env w packageID) := by
  apply confined_findPackage.mapError.bind
  intro pkg hpkg
  apply (confined_releasesOfPackage hpkg).mapError.bind
  intro releases hreleases
  apply Confined.ite
  · exact fun _ => Confined.pure trivial
  · intro _
    apply (confined_diffsOfReleases ?_).mapError.bind
    · intro diffs hdiffs
      apply (isolated_findByDiffIDs ?_).mapError.bind
      · exact fun _ _ => Confined.pure trivial
      · intro k hk
        obtain ⟨d, hd, rfl⟩ := List.mem_map.mp hk
        exact hdiffs d hd
    · intro k hk
      obtain ⟨r, hr, rfl⟩ := List.mem_map.mp hk
      exact hreleases r hr

end Releases

/-! ## The dashboard -/

section Dashboard

theorem isolated_getChartData {fromTime toTime : Time} :
    Isolated env R w (DashboardService.getChartData env w fromTime toTime) := by
  apply isolated_getReleaseActivity.mapError.bind
  intro activityRows _
  apply isolated_getClassificationDistribution.mapError.bind
  intro classRows _
  apply isolated_getBaselineCount.mapError.bind
  intro baselineCount _
  apply isolated_getEcosystemDistribution.mapError.bind
  intro ecosystems _
  apply isolated_getAlertsBySeverity.mapError.bind
  intro alertRows _
  apply isolated_getReleaseStatusDistribution.mapError.bind
  exact fun _ _ => Confined.pure trivial

theorem isolated_enqueueAll {ids : List ID} {queued : Nat} :
    Isolated env R w (DashboardService.enqueueAll env w ids queued) := by
  induction ids generalizing queued with
  | nil => exact Confined.pure trivial
  | cons id ids ih =>
      apply isolated_enqueue.attempt.bind
      intro job _
      cases job with
      | error e => exact Confined.pure trivial
      | ok jobID => exact ih

theorem isolated_reanalyzeAll : Isolated env R w (DashboardService.reanalyzeAll env w) := by
  apply (Confined.failIf _).bind
  intro _ _
  apply isolated_getUnanalyzedDiffIDs.bind
  exact fun _ _ => isolated_enqueueAll

end Dashboard

/-! ## Alert notes -/

section Notes

variable {alertID noteID userID : ID} {content : GoString}

/-- An alert that has been verified is inside. -/
theorem confined_verifyAlert :
    Confined (compartment env R w) (AlertNoteService.verifyAlert env w alertID)
      fun _ => R .alerts alertID = true :=
  confined_findAlert.mapError

theorem isolated_listByAlert :
    Isolated env R w (AlertNoteService.listByAlert env w alertID) := by
  apply confined_verifyAlert.bind
  exact fun _ _ => isolated_findByAlertID.mapError

theorem isolated_validateContent :
    Isolated env R w (AlertNoteService.validateContent content) := by
  apply (Confined.failIf _).bind
  exact fun _ _ => isolated_of_confined (Confined.failIf _)

theorem isolated_noteService :
    Isolated env R w (AlertNoteService.create env w alertID userID content) := by
  apply isolated_validateContent.bind
  intro _ _
  apply confined_verifyAlert.bind
  intro alert halert
  have hemail : Isolated env R w (AlertNoteService.resolveUserEmail env userID) :=
    isolated_findUser.attempt.bind fun _ _ => Confined.pure trivial
  apply hemail.bind
  intro userEmail _
  have hcreate : Isolated env R w (AlertNoteRepo.create env
      { alertID, workspaceID := w, userID, userEmail, content, createdAt := 0, updatedAt := 0 }) :=
    isolated_createNote rfl halert
  exact hcreate.mapError

/-- A note that its author has found is inside. -/
theorem confined_findOwn {forbidden : String} :
    Confined (compartment env R w)
      (AlertNoteService.findOwn env w alertID noteID userID forbidden)
      fun note => R .alertNotes note.1 = true := by
  apply confined_verifyAlert.bind
  intro _ _
  apply confined_findNote.mapError.bind
  intro note hnote
  apply (Confined.failIf _).bind
  intro _ _
  apply (Confined.failIf _).bind
  intro _ _
  apply (Confined.failIf _).bind
  intro _ _
  exact Confined.pure hnote

theorem isolated_updateNote :
    Isolated env R w (AlertNoteService.update env w alertID noteID userID content) := by
  apply isolated_validateContent.bind
  intro _ _
  apply confined_findOwn.bind
  intro note hnote
  have hinside : R .alertNotes (note.1, { note.2 with content }).1 = true := hnote
  exact (isolated_updateContent hinside).mapError

theorem isolated_deleteService :
    Isolated env R w (AlertNoteService.delete env w alertID noteID userID) := by
  apply confined_findOwn.bind
  exact fun _ _ => isolated_deleteNote.mapError

end Notes

/-! ## Operations -/

/-- Every operation is confined to the region of its workspace. -/
theorem isolated_perform (op : Operation) : Isolated env R w (perform env w op) := by
  cases op with
  | listPackages => exact isolated_findByWorkspaceID
  | getPackage => exact isolated_findPackage.mapError
  | createPackage => exact isolated_createService
  | importPackages => exact Confined.foldl trivial fun _ _ _ _ => isolated_importEntry
  | blockPackage => exact isolated_blockPackage
  | unblockPackage => exact isolated_unblockPackage
  | removePackage => exact isolated_removal
  | approvePackage => exact isolated_approvePackage
  | rejectPackage => exact isolated_rejectPackage
  | bulkApprovePackages => exact isolated_bulkApprovePackages.bind fun _ _ => isolated_approved
  | bulkApproveAllSuggestions =>
      exact isolated_bulkApproveAllSuggestions.bind fun _ _ => isolated_approved
  | listSuggestions => exact isolated_findSuggestionsByWorkspaceID
  | listStalePackages => exact isolated_findStaleByWorkspaceID
  | countPackages => exact isolated_countByWorkspace
  | listByPackage => exact isolated_listByPackage
  | getRelease => exact isolated_getRelease
  | reanalyzeRelease => exact isolated_reanalyzeRelease
  | getAnalysisHistory => exact isolated_getAnalysisHistory
  | getPipelineStatus => exact isolated_countByWorkspaceAndStatus.mapError
  | getStats => exact isolated_getStats
  | getRecentReleases => exact isolated_findByWorkspaceIDWithDetails
  | getChartData => exact isolated_getChartData
  | reanalyzeAll => exact isolated_reanalyzeAll
  | listByAlert => exact isolated_listByAlert
  | createNote => exact isolated_noteService
  | updateNote => exact isolated_updateNote
  | deleteNote => exact isolated_deleteService

/-- The IDs that the calls of an environment generate. -/
def Generated (env : Env) (k : ID) : Prop :=
  ∃ n, env.newID n = k

/-- In a consistent state whose database has none of the generated IDs, the region of a workspace
is sound. -/
theorem sound_regionOf {s : World} (hinjective : Function.Injective env.newID)
    (hconsistent : TenantConsistent s.db) (hunused : ∀ n t, (s.db t).get? (env.newID n) = none) :
    Sound env (regionOf (Generated env) w s.db) w s where
  region := by
    refine inRegion_regionOf hconsistent ?_ w
    rintro k ⟨n, rfl⟩ t
    exact hunused n t
  generates := ⟨fun n t => regionOf_of_unused ⟨n, rfl⟩ t, hinjective⟩
  unused n _ t := hunused n t

/-- An operation for a workspace returns, enqueues and leaves of the rows of the workspace what
these rows and the users determine, and it changes no other row. -/
theorem tenant_isolation (env : Env) (op : Operation) (w : ID) (s₁ s₂ : World)
    (hinjective : Function.Injective env.newID)
    (hunused₁ : ∀ n t, (s₁.db t).get? (env.newID n) = none)
    (hunused₂ : ∀ n t, (s₂.db t).get? (env.newID n) = none)
    (hconsistent₁ : TenantConsistent s₁.db) (hconsistent₂ : TenantConsistent s₂.db)
    (husers : s₁.db.users = s₂.db.users) (hrows : ∀ t, rowsOf s₁.db w t = rowsOf s₂.db w t)
    (houtbox : s₁.outbox = s₂.outbox) (hcalls : s₁.calls = s₂.calls) :
    (perform env w op s₁).1 = (perform env w op s₂).1 ∧
      (perform env w op s₁).2.outbox = (perform env w op s₂).2.outbox ∧
      (∀ t, rowsOf (perform env w op s₁).2.db w t = rowsOf (perform env w op s₂).2.db w t) ∧
      ∀ v, v ≠ w → ∀ t, rowsOf (perform env w op s₁).2.db v t = rowsOf s₁.db v t := by
  have hs₁ := sound_regionOf (w := w) hinjective hconsistent₁ hunused₁
  have hs₂ := sound_regionOf (w := w) hinjective hconsistent₂ hunused₂
  have hinside : inside (regionOf (Generated env) w s₁.db) s₁.db =
      inside (regionOf (Generated env) w s₂.db) s₂.db := by
    refine inside_regionOf_eq ?_ ?_ husers hrows
    · rintro k ⟨n, rfl⟩ t
      exact hunused₁ n t
    · rintro k ⟨n, rfl⟩ t
      exact hunused₂ n t
  have hpart : (compartment env (regionOf (Generated env) w s₁.db) w).part s₁ =
      (compartment env (regionOf (Generated env) w s₂.db) w).part s₂ := by
    cases s₁
    cases s₂
    simp_all [compartment]
  obtain ⟨hresult, hafter⟩ :=
    Confined.agree (isolated_perform op) (isolated_perform op) hs₁ hs₂ hpart
  have hisolated : ∀ R, Isolated env R w (perform env w op) := fun _ => isolated_perform op
  have hkept₁ := hisolated _ s₁ hs₁
  have hkept₂ := hisolated _ s₂ hs₂
  refine ⟨hresult, ?_, ?_, ?_⟩
  · have hboxes := congrArg World.outbox hafter
    exact hboxes
  · intro t
    rw [← hkept₁.valid.region.rowsOf_inside rfl t, ← hkept₂.valid.region.rowsOf_inside rfl t]
    exact congrArg (fun s : World => rowsOf s.db w t) hafter
  · intro v hv t
    rw [← hkept₁.valid.region.rowsOf_outside hv t, ← hs₁.region.rowsOf_outside hv t]
    exact congrArg (fun db => rowsOf db v t) hkept₁.rest

/-- Two tenants: the first has a package with a release, the second a package of the given
name. -/
def sharedDatabase (name : GoString) : Database
  | .workspaces => (Table.single 1 ⟨⟩).insert 2 ⟨⟩
  | .packages =>
      (Table.single 11 (PackageService.newPackage 1 "react".toList "npm".toList .manual)).insert 12
        (PackageService.newPackage 2 name "npm".toList .manual)
  | .releases => Table.single 21 ⟨1, 11, "1.0.0".toList, 0, [], .completed, [], 0⟩
  | .releaseHashes => .empty
  | .diffs => .empty
  | .analyses => .empty
  | .alerts => .empty
  | .alertNotes => .empty
  | .users => .empty

/-- The IDs that are generated are not yet used. -/
theorem sharedDatabase_unused (name : GoString) (n : Nat) (t : TableName) :
    (sharedDatabase name t).get? (sampleEnv.newID n) = none := by
  have hkeys : (sharedDatabase name t).keys ⊆ [1, 2, 11, 12, 21] := by
    cases t with
    | workspaces => exact (by decide : [2, 1] ⊆ [1, 2, 11, 12, 21])
    | packages => exact (by decide : [12, 11] ⊆ [1, 2, 11, 12, 21])
    | releases => exact (by decide : [21] ⊆ [1, 2, 11, 12, 21])
    | _ => exact List.nil_subset _
  have hlow : ∀ k ∈ [1, 2, 11, 12, 21], k < 100 := by decide
  cases hget : (sharedDatabase name t).get? (sampleEnv.newID n) with
  | none => rfl
  | some row =>
      have hmem := hkeys (Table.mem_keys_iff.mpr (Option.isSome_of_eq_some hget))
      exact absurd (hlow _ hmem) (Nat.not_lt.mpr (Nat.le_add_right 100 n))

/-- The first tenant removes its package, whatever package the second has. -/
theorem tenant_isolation_removal :
    (perform sampleEnv 1 (.removePackage 11) ⟨sharedDatabase "vue".toList, [], 0⟩).1 =
        (perform sampleEnv 1 (.removePackage 11) ⟨sharedDatabase "preact".toList, [], 0⟩).1 ∧
      (perform sampleEnv 1 (.removePackage 11) ⟨sharedDatabase "vue".toList, [], 0⟩).2.outbox =
        (perform sampleEnv 1 (.removePackage 11)
          ⟨sharedDatabase "preact".toList, [], 0⟩).2.outbox := by
  have hconsistent : TenantConsistent (sharedDatabase "vue".toList) := by decide +kernel
  have hconsistent' : TenantConsistent (sharedDatabase "preact".toList) := by decide +kernel
  have hrows : ∀ t, rowsOf (sharedDatabase "vue".toList) 1 t =
      rowsOf (sharedDatabase "preact".toList) 1 t := by
    intro t
    cases t <;> rfl
  have hisolated := tenant_isolation sampleEnv (.removePackage 11) 1
    ⟨sharedDatabase "vue".toList, [], 0⟩ ⟨sharedDatabase "preact".toList, [], 0⟩
    (fun _ _ heq => Nat.add_left_cancel heq) (sharedDatabase_unused _) (sharedDatabase_unused _)
    hconsistent hconsistent' rfl hrows rfl rfl
  exact ⟨hisolated.1, hisolated.2.1⟩

end Core
end Veilence
