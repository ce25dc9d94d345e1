import Veilence.Core.Confined

/-!
# Releases, notes and the dashboard inside a region

The methods of the other repositories are confined to the region of a workspace.  Some of them
carry no workspace: they read and write by the ID of a package, a release, a diff or an alert.
Each of these is confined for an ID inside, and the checks in front of them find rows inside
only.

Main results:

- Theorems {lit}`confined_findRelease`, {lit}`confined_findAlert` and {lit}`confined_findNote`:
  what the checks find is inside.
- Theorems {lit}`confined_diffsOfReleases` and {lit}`confined_releasesOfPackage`: queries by an
  ID inside find rows inside.
- Theorem {lit}`isolated_createNote`: a new note on an alert inside.
-/

namespace Veilence
namespace Core

open Go Foundation

variable {env : Env} {R : TableName → ID → Bool} {w : ID} {db : Database}

/-! ## Releases -/

section Releases

theorem isolated_findByPackageIDAndWorkspace {packageID : ID} {page limit : Int} :
    Isolated env R w
      (ReleaseRepo.findByPackageIDAndWorkspace env packageID w page limit) := by
  apply isolated_listed
  · intro db h
    simp only [releasesOf_inside h]
  · intro db h
    simp only [releasesOf_inside h]

/-- A release that has been found is inside. -/
theorem confined_findRelease {id : ID} :
    Confined (compartment env R w) (ReleaseRepo.findByIDWithPackageAndWorkspace env id w)
      fun found => found.1.1 = id ∧ R .releases id = true := by
  have hrelease : Local R w fun db =>
      ((releasesOf db w).find? fun row => row.1.1 = id).map Prod.fst := by
    intro db h
    simp only [releasesOf_inside h]
  apply (confined_first hrelease).bind
  intro m hm
  obtain ⟨db, h, hfind⟩ := hm
  obtain ⟨row, hrow, rfl⟩ := Option.map_eq_some_iff.mp hfind
  have hfound := List.find?_some hrow
  have hid : row.1.1 = id := of_decide_eq_true hfound
  have hinside := inside_of_releasesOf h (List.mem_of_find?_eq_some hrow)
  rw [hid] at hinside
  have hpackage : Local R w fun db => (packagesOf db w).find? fun p => p.1 = row.1.2.packageID := by
    intro db h
    simp only [packagesOf_inside h]
  apply (confined_first hpackage).bind
  intro pkg _
  exact Confined.pure ⟨hid, hinside⟩

theorem isolated_findByWorkspaceIDWithDetails {page limit : Int}
    {sortClause : List (SortTerm ReleaseColumn)} {filters : ReleaseFilters} :
    Isolated env R w
      (ReleaseRepo.findByWorkspaceIDWithDetails env w page limit sortClause filters) := by
  have hcount : Local R w fun db => (ReleaseRepo.detailRows env w filters db).length := by
    intro db h
    simp only [detailRows_inside h]
  have hrows : Local R w fun db =>
      (paged page limit (ordered env (fun c row => c.key row.1.2 row.2.2) sortClause
        (ReleaseRepo.detailRows env w filters db))).map (ReleaseRepo.toDetails db) := by
    intro db h
    simp only [detailRows_inside h]
    refine List.map_congr_left fun row hrow => toDetails_inside h ?_
    exact inside_of_detailRows h (mem_of_paged_ordered env hrow)
  apply (confined_query hcount).bind
  intro total _
  apply Confined.ite
  · exact fun _ => Confined.pure trivial
  · intro _
    apply (confined_query hrows).bind
    exact fun _ _ => Confined.pure trivial

/-- The releases of a package inside are inside. -/
theorem confined_releasesOfPackage {packageID : ID} (hpackage : R .packages packageID = true) :
    Confined (compartment env R w) (ReleaseRepo.findByPackageIDAll env packageID)
      fun releases => ∀ r ∈ releases, R .releases r.1 = true := by
  have hlocal : Local R w fun db =>
      (releasesOfPackage db packageID).insertionSort fun r r' =>
        r'.2.createdAt ≤ r.2.createdAt := by
    intro db h
    simp only [releasesOfPackage_inside h hpackage]
  apply (confined_query hlocal).mono
  intro releases hreleases r hr
  obtain ⟨db, h, rfl⟩ := hreleases
  obtain ⟨hmem, hof⟩ := List.mem_filter.mp ((List.mem_insertionSort _).mp hr)
  rw [h.release_iff (Table.get?_of_mem hmem), of_decide_eq_true hof]
  exact hpackage

theorem isolated_updateStatus {id : ID} {status : ReleaseStatus} (hid : R .releases id = true) :
    Isolated env R w (ReleaseRepo.updateStatus env id status) := by
  have hupdate : Isolated env R w (update env "updating release status: " .releases
      (fun k (_ : Release) => k = id) fun _ (r : Release) => { r with status }) := by
    apply isolated_update
    · exact fun db h e he hsel => (of_decide_eq_true hsel : e.1 = id) ▸ hid
    · exact fun _ _ => ⟨rfl, rfl⟩
  exact hupdate.bind fun _ _ => isolated_affected

theorem isolated_countByWorkspaceAndStatus :
    Isolated env R w (ReleaseRepo.countByWorkspaceAndStatus env w) := by
  have hlocal : Local R w fun db =>
      countBy (fun row => row.1.2.status) (activeReleasesOf db w) := by
    intro db h
    simp only [activeReleasesOf_inside h]
  exact (confined_query hlocal).bind fun _ _ => Confined.pure trivial

/-- The first diff of a release inside is inside. -/
theorem confined_firstDiff {releaseID : ID} (hrelease : R .releases releaseID = true) :
    Confined (compartment env R w) (DiffRepo.findFirstByReleaseID env releaseID)
      fun found => ∀ d, found = some d → R .diffs d.1 = true := by
  have hlocal : Local R w fun db =>
      ((diffsOf db releaseID).insertionSort fun d d' => d.2.createdAt ≤ d'.2.createdAt).head? := by
    intro db h
    simp only [diffsOf_inside h hrelease]
  apply (confined_query hlocal).mono
  intro found hfound d hd
  obtain ⟨db, h, rfl⟩ := hfound
  exact inside_of_diffsOf h hrelease ((List.mem_insertionSort _).mp (List.mem_of_head? hd))

/-- The diffs of releases inside are inside. -/
theorem confined_diffsOfReleases {releaseIDs : List ID}
    (hreleases : ∀ k ∈ releaseIDs, R .releases k = true) :
    Confined (compartment env R w) (DiffRepo.findByReleaseIDs env releaseIDs)
      fun diffs => ∀ d ∈ diffs, R .diffs d.1 = true := by
  have hin : ∀ db, InRegion R w db → ∀ d ∈ db.diffs.entries, d.2.releaseID ∈ releaseIDs →
      R .diffs d.1 = true :=
    fun db h d hd hrelease => (h.diff_iff (Table.get?_of_mem hd)).trans (hreleases _ hrelease)
  apply Confined.ite
  · exact fun _ => Confined.pure fun d hd => absurd hd List.not_mem_nil
  · intro _
    have hlocal : Local R w fun db =>
        db.diffs.entries.filter fun d => d.2.releaseID ∈ releaseIDs := by
      intro db h
      apply Table.filter_filterKeys
      · exact fun d hd hsel => hin db h d hd (of_decide_eq_true hsel)
      · exact fun _ _ _ => rfl
    apply (confined_query hlocal).mono
    intro diffs hdiffs d hd
    obtain ⟨db, h, rfl⟩ := hdiffs
    obtain ⟨hmem, hsel⟩ := List.mem_filter.mp hd
    exact hin db h d hmem (of_decide_eq_true hsel)

theorem isolated_findByDiffID {diffID : ID} (hdiff : R .diffs diffID = true) :
    Isolated env R w (AnalysisRepo.findByDiffID env diffID) :=
  isolated_query fun _ h => analysesOf_inside h hdiff

theorem isolated_findByDiffIDs {diffIDs : List ID} (hdiffs : ∀ k ∈ diffIDs, R .diffs k = true) :
    Isolated env R w (AnalysisRepo.findByDiffIDs env diffIDs) := by
  apply Confined.ite
  · exact fun _ => Confined.pure trivial
  · intro _
    apply isolated_query
    intro db h
    apply Table.filter_filterKeys
    · intro a ha hsel
      exact (h.analysis_iff (Table.get?_of_mem ha)).trans (hdiffs _ (of_decide_eq_true hsel))
    · exact fun _ _ _ => rfl

end Releases

/-! ## Alerts, notes and users -/

section Notes

/-- An alert that has been found is inside. -/
theorem confined_findAlert {id : ID} :
    Confined (compartment env R w) (AlertRepo.findByIDAndWorkspaceID env id w)
      fun _ => R .alerts id = true := by
  have hlocal : Local R w fun db => (alertsOf db w).find? fun a => a.1 = id := by
    intro db h
    simp only [alertsOf_inside h]
  apply (confined_first hlocal).mono
  intro a ha
  obtain ⟨db, h, hfind⟩ := ha
  obtain ⟨hmem, hid⟩ := of_find? hfind
  rw [← hid]
  exact inside_of_alertsOf h hmem

/-- The users are inside. -/
theorem users_inside (h : InRegion R w db) (id : ID) :
    (Database.users (inside R db)).get? id = db.users.get? id :=
  Respects.get?_inside (h.users id)

theorem isolated_findUser {id : ID} : Isolated env R w (UserRepo.findByID env id) := by
  have hlocal : Local R w fun db => (db.users.get? id).filter fun u => u.deletedAt.isNone := by
    intro db h
    simp only [users_inside h]
  exact isolated_of_confined (confined_first hlocal)

theorem isolated_findByAlertID {alertID : ID} :
    Isolated env R w (AlertNoteRepo.findByAlertID env alertID w) := by
  apply isolated_query
  intro db h
  simp only [notesOf_inside h]

/-- A new note on an alert inside. -/
theorem isolated_createNote {note : AlertNote} (hnote : note.workspaceID = w)
    (halert : R .alerts note.alertID = true) :
    Isolated env R w (AlertNoteRepo.create env note) := by
  subst hnote
  apply confined_call
  intro s hs
  have hkey : (Database.alertNotes (inside R s.db)).get? (env.newID s.calls) =
      s.db.alertNotes.get? (env.newID s.calls) :=
    Respects.get?_inside (hs.generates.inside s.calls .alertNotes)
  have hparent : (Database.alerts (inside R s.db)).get? note.alertID =
      s.db.alerts.get? note.alertID :=
    Respects.get?_inside halert
  constructor
  · simp only [hkey, hparent, workspaces_inside hs.region, users_inside hs.region]
    split_ifs
    · rfl
    · rfl
    · rfl
    · rfl
    · exact congrArg Except.ok (Prod.ext rfl (inside_insert hs.generates _).symm)
  · intro r hr
    dsimp only at hr
    split_ifs at hr
    rw [← Except.ok.inj hr]
    refine ⟨outside_insert hs.generates _, hs.insert ?_ ?_, trivial⟩
    · intro v hv
      exact (Option.some.inj hv).symm
    · intro fk hfk hchild q hq
      simp only [schema, List.mem_cons, List.not_mem_nil, or_false] at hfk
      rcases hfk with rfl | rfl | rfl | rfl | rfl | rfl | rfl | rfl | rfl
      all_goals try exact absurd hchild (by decide)
      exact Option.some.inj hq ▸ halert

/-- A note that has been found is inside. -/
theorem confined_findNote {id : ID} :
    Confined (compartment env R w) (AlertNoteRepo.findByID env id w)
      fun note => R .alertNotes note.1 = true := by
  have hlocal : Local R w fun db => (notesOf db w).find? fun n => n.1 = id := by
    intro db h
    simp only [notesOf_inside h]
  apply (confined_first hlocal).mono
  intro note hnote
  obtain ⟨db, h, hfind⟩ := hnote
  exact inside_of_notesOf h (of_find? hfind).1

/-- A note inside gets its content. -/
theorem isolated_updateContent {note : Entry AlertNote} (hnote : R .alertNotes note.1 = true) :
    Isolated env R w (AlertNoteRepo.updateContent env note) := by
  have hsel : ∀ table : Table ID AlertNote,
      table.Selects (fun k _ => decide (k = note.1)) (R .alertNotes) :=
    fun _ e _ he => (of_decide_eq_true he : e.1 = note.1) ▸ hnote
  apply isolated_write (t := .alertNotes) (g := fun n (table : Table ID AlertNote) =>
    table.updateWhere (fun k _ => k = note.1) fun row =>
      { row with content := note.2.content, updatedAt := env.now n })
  · exact fun _ _ _ => rfl
  · intro n table
    exact Table.filterKeys_updateWhere ..
  · intro n db _
    exact Table.filterKeys_not_updateWhere (hsel _)
  · intro n db _
    exact Spares.updateWhere
      (fun k row hrow => hsel db.alertNotes (k, row) (Table.get?_eq_some_iff.mp hrow))
      fun _ row _ _ => ⟨rfl, rfl⟩

/-- The notes of the workspace are inside. -/
theorem isolated_deleteNote {id : ID} : Isolated env R w (AlertNoteRepo.delete env id w) := by
  have hsel : ∀ db, InRegion R w db → db.alertNotes.Selects
      (fun k (row : AlertNote) => decide (k = id ∧ row.workspaceID = w)) (R .alertNotes) :=
    fun db h e he hp =>
      (h.owner .alertNotes e.1 e.2 _ (Table.get?_of_mem he) rfl).mpr (of_decide_eq_true hp).2
  have hdelete : Isolated env R w (call env "deleting alert note: " fun _ db =>
      .ok ((db.alertNotes.keysWhere fun k (row : AlertNote) =>
          decide (k = id ∧ row.workspaceID = w)).length,
        db.set .alertNotes (db.alertNotes.deleteWhere fun k (row : AlertNote) =>
          decide (k = id ∧ row.workspaceID = w)))) := by
    apply isolated_write (t := .alertNotes) (g := fun _ (table : Table ID AlertNote) =>
      table.deleteWhere fun k (row : AlertNote) => decide (k = id ∧ row.workspaceID = w))
    · intro n db h
      exact congrArg List.length (Table.keysWhere_filterKeys (hsel db h))
    · intro n table
      exact Table.filterKeys_deleteWhere ..
    · intro n db h
      exact Table.filterKeys_not_deleteWhere (hsel db h)
    · intro n db h
      exact Spares.deleteWhere fun k row hrow =>
        hsel db h (k, row) (Table.get?_eq_some_iff.mp hrow)
  exact hdelete.bind fun _ _ => isolated_affected

end Notes

/-! ## The dashboard -/

section Dashboard

variable {fromTime toTime : Time}

theorem isolated_getStats : Isolated env R w (DashboardRepo.getStats env w) := by
  unfold DashboardRepo.getStats
  apply (confined_query ?_).bind
  · intro totalPackages _
    apply (confined_query ?_).bind
    · intro totalReleases _
      apply (confined_query ?_).bind
      · intro pendingAnalyses _
        apply (confined_query ?_).bind
        · intro activeAlerts _
          apply (confined_query ?_).bind
          · exact fun _ _ => Confined.pure trivial
          · intro db h
            simp only [activeAnalysesOf_inside h]
        · intro db h
          simp only [alertsOf_inside h]
      · intro db h
        simp only [activeReleasesOf_inside h]
    · intro db h
      simp only [activeReleasesOf_inside h]
  · intro db h
    simp only [packagesOf_inside h]

theorem createdReleases_inside (h : InRegion R w db) :
    DashboardRepo.createdReleases w fromTime toTime (inside R db) =
      DashboardRepo.createdReleases w fromTime toTime db := by
  unfold DashboardRepo.createdReleases
  rw [activeReleasesOf_inside h]

theorem isolated_getReleaseActivity :
    Isolated env R w (DashboardRepo.getReleaseActivity env w fromTime toTime) := by
  apply isolated_query
  intro db h
  simp only [createdReleases_inside h]

theorem isolated_getClassificationDistribution :
    Isolated env R w (DashboardRepo.getClassificationDistribution env w fromTime toTime) := by
  apply isolated_query
  intro db h
  simp only [activeAnalysesOf_inside h]

/-- A release inside has its diffs inside. -/
theorem mem_diffed_inside (h : InRegion R w db) {k : ID} (hk : R .releases k = true) :
    (k ∈ (Database.diffs (inside R db)).entries.map fun d => d.2.releaseID) ↔
      k ∈ db.diffs.entries.map fun d => d.2.releaseID := by
  constructor
  · intro hmem
    obtain ⟨d, hd, hrelease⟩ := List.mem_map.mp hmem
    exact List.mem_map.mpr ⟨d, List.mem_of_mem_filter hd, hrelease⟩
  · intro hmem
    obtain ⟨d, hd, hrelease⟩ := List.mem_map.mp hmem
    have hdiff : R .diffs d.1 = true := by
      rw [h.diff_iff (Table.get?_of_mem hd), hrelease]
      exact hk
    exact List.mem_map.mpr ⟨d, List.mem_filter.mpr ⟨hd, hdiff⟩, hrelease⟩

theorem isolated_getBaselineCount :
    Isolated env R w (DashboardRepo.getBaselineCount env w fromTime toTime) := by
  apply isolated_query
  intro db h
  dsimp only
  rw [createdReleases_inside h]
  refine congrArg List.length (List.filter_congr fun row hrow => ?_)
  have hinside := inside_of_activeReleasesOf h (List.mem_of_mem_filter hrow)
  simp only [mem_diffed_inside h hinside]

theorem isolated_getEcosystemDistribution :
    Isolated env R w (DashboardRepo.getEcosystemDistribution env w) := by
  apply isolated_query
  intro db h
  simp only [packagesOf_inside h]

theorem isolated_getAlertsBySeverity :
    Isolated env R w (DashboardRepo.getAlertsBySeverity env w fromTime toTime) := by
  apply isolated_query
  intro db h
  simp only [alertsOf_inside h]

theorem isolated_getReleaseStatusDistribution :
    Isolated env R w (DashboardRepo.getReleaseStatusDistribution env w fromTime toTime) := by
  apply isolated_query
  intro db h
  simp only [createdReleases_inside h]

theorem isolated_getUnanalyzedDiffIDs :
    Isolated env R w (DashboardRepo.getUnanalyzedDiffIDs env w) := by
  apply isolated_query
  intro db h
  dsimp only
  rw [activeDiffsOf_inside h]
  refine congrArg (List.map Prod.fst) (List.filter_congr fun d hd => ?_)
  rw [analysesOf_inside h (inside_of_activeDiffsOf h hd)]

end Dashboard

end Core
end Veilence
