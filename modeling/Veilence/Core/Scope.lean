import Veilence.Core.Repositories

/-!
# What the queries of a workspace read

The queries are scoped by a column, by a join, or by an ID that an earlier check has found
inside the region of the workspace.  Each of them reads the same from the whole database as from
the rows inside.

Main results:

- Theorems {lit}`packagesOf_inside`, {lit}`alertsOf_inside` and {lit}`notesOf_inside`: queries
  with a workspace column.
- Theorems {lit}`releasesOf_inside`, {lit}`activeDiffsOf_inside` and
  {lit}`activeAnalysesOf_inside`: joins that end at a package of the workspace.
- Theorems {lit}`diffsOf_inside` and {lit}`analysesOf_inside`: queries by an ID from inside.
- Theorem {lit}`detailRows_inside`: the listing of releases under every filter.
-/

namespace Veilence
namespace Core

open Go Foundation

variable {env : Env} {R : TableName → ID → Bool} {w : ID} {db : Database}

/-! ## Rows inside -/

section Rows

/-- A row that has been found by its ID. -/
theorem of_find? {V : Type} {rows : List (Entry V)} {id : ID} {e : Entry V}
    (h : rows.find? (fun e => e.1 = id) = some e) : e ∈ rows ∧ e.1 = id := by
  have hid := List.find?_some h
  exact ⟨List.mem_of_find?_eq_some h, of_decide_eq_true hid⟩

theorem packages_inside {k : ID} (hk : R .packages k = true) :
    (Database.packages (inside R db)).get? k = db.packages.get? k :=
  Respects.get?_inside hk

theorem releases_inside {k : ID} (hk : R .releases k = true) :
    (Database.releases (inside R db)).get? k = db.releases.get? k :=
  Respects.get?_inside hk

theorem diffs_inside {k : ID} (hk : R .diffs k = true) :
    (Database.diffs (inside R db)).get? k = db.diffs.get? k :=
  Respects.get?_inside hk

variable (h : InRegion R w db)

include h

theorem packagesOf_inside : packagesOf (inside R db) w = packagesOf db w := by
  apply Table.filter_filterKeys
  · intro p hp hw
    exact (h.package_owner (Table.get?_of_mem hp)).mpr (of_decide_eq_true hw)
  · exact fun _ _ _ => rfl

theorem alertsOf_inside : alertsOf (inside R db) w = alertsOf db w := by
  apply Table.filter_filterKeys
  · intro a ha hw
    exact (h.owner .alerts a.1 a.2 _ (Table.get?_of_mem ha) rfl).mpr (of_decide_eq_true hw)
  · exact fun _ _ _ => rfl

theorem notesOf_inside : notesOf (inside R db) w = notesOf db w := by
  apply Table.filter_filterKeys
  · intro n hn hw
    exact (h.owner .alertNotes n.1 n.2 _ (Table.get?_of_mem hn) rfl).mpr (of_decide_eq_true hw)
  · exact fun _ _ _ => rfl

/-- A package of the workspace is inside. -/
theorem inside_of_packagesOf {p : Entry Package} (hp : p ∈ packagesOf db w) :
    R .packages p.1 = true := by
  obtain ⟨hmem, hw⟩ := List.mem_filter.mp hp
  exact (h.package_owner (Table.get?_of_mem hmem)).mpr (of_decide_eq_true hw)

theorem inside_of_alertsOf {a : Entry Alert} (ha : a ∈ alertsOf db w) :
    R .alerts a.1 = true := by
  obtain ⟨hmem, hw⟩ := List.mem_filter.mp ha
  exact (h.owner .alerts a.1 a.2 _ (Table.get?_of_mem hmem) rfl).mpr (of_decide_eq_true hw)

theorem inside_of_notesOf {n : Entry AlertNote} (hn : n ∈ notesOf db w) :
    R .alertNotes n.1 = true := by
  obtain ⟨hmem, hw⟩ := List.mem_filter.mp hn
  exact (h.owner .alertNotes n.1 n.2 _ (Table.get?_of_mem hmem) rfl).mpr (of_decide_eq_true hw)

/-- A release with a package of the workspace is inside. -/
theorem inside_of_releaseIn {r : Entry Release} (hr : r ∈ db.releases.entries)
    {row : Entry Release × Entry Package} (hrow : releaseIn db w r = some row) :
    row.1 = r ∧ R .releases r.1 = true := by
  obtain ⟨p, hp, rfl⟩ := Option.map_eq_some_iff.mp hrow
  obtain ⟨hget, hw⟩ := Option.filter_eq_some_iff.mp hp
  refine ⟨rfl, ?_⟩
  rw [h.release_iff (Table.get?_of_mem hr)]
  exact (h.package_owner hget).mpr (of_decide_eq_true hw)

/-- The package of a release inside. -/
theorem releaseIn_inside {r : Entry Release} (hr : db.releases.get? r.1 = some r.2)
    (hk : R .releases r.1 = true) : releaseIn (inside R db) w r = releaseIn db w r := by
  have hpackage : R .packages r.2.packageID = true := (h.release_iff hr).symm.trans hk
  unfold releaseIn
  rw [packages_inside hpackage]

theorem releasesOf_inside : releasesOf (inside R db) w = releasesOf db w := by
  apply Table.filterMap_filterKeys
  · exact fun r hr row hrow => (inside_of_releaseIn h hr hrow).2
  · exact fun r hr hk => releaseIn_inside h (Table.get?_of_mem hr) hk

/-- The releases of the packages of the workspace are inside. -/
theorem inside_of_releasesOf {row : Entry Release × Entry Package} (hrow : row ∈ releasesOf db w) :
    R .releases row.1.1 = true := by
  obtain ⟨r, hr, hin⟩ := List.mem_filterMap.mp hrow
  obtain ⟨hfst, hk⟩ := inside_of_releaseIn h hr hin
  rw [hfst]
  exact hk

theorem activeReleasesOf_inside : activeReleasesOf (inside R db) w = activeReleasesOf db w := by
  unfold activeReleasesOf
  rw [releasesOf_inside h]

theorem inside_of_activeReleasesOf {row : Entry Release × Entry Package}
    (hrow : row ∈ activeReleasesOf db w) : R .releases row.1.1 = true :=
  inside_of_releasesOf h (List.mem_of_mem_filter hrow)

/-- The rows that refer to a row inside. -/
theorem releasesOfPackage_inside {k : ID} (hk : R .packages k = true) :
    releasesOfPackage (inside R db) k = releasesOfPackage db k := by
  apply Table.filter_filterKeys
  · intro r hr hpackage
    rw [h.release_iff (Table.get?_of_mem hr), of_decide_eq_true hpackage]
    exact hk
  · exact fun _ _ _ => rfl

theorem diffsOf_inside {k : ID} (hk : R .releases k = true) :
    diffsOf (inside R db) k = diffsOf db k := by
  apply Table.filter_filterKeys
  · intro d hd hrelease
    rw [h.diff_iff (Table.get?_of_mem hd), of_decide_eq_true hrelease]
    exact hk
  · exact fun _ _ _ => rfl

theorem analysesOf_inside {k : ID} (hk : R .diffs k = true) :
    analysesOf (inside R db) k = analysesOf db k := by
  apply Table.filter_filterKeys
  · intro a ha hdiff
    rw [h.analysis_iff (Table.get?_of_mem ha), of_decide_eq_true hdiff]
    exact hk
  · exact fun _ _ _ => rfl

theorem inside_of_diffsOf {k : ID} (hk : R .releases k = true) {d : Entry Diff}
    (hd : d ∈ diffsOf db k) : R .diffs d.1 = true := by
  obtain ⟨hmem, hrelease⟩ := List.mem_filter.mp hd
  rw [h.diff_iff (Table.get?_of_mem hmem), of_decide_eq_true hrelease]
  exact hk

/-- A release of an active package of the workspace is inside. -/
theorem inside_of_isActiveRelease {k : ID} (hk : isActiveRelease db w k = true) :
    R .releases k = true := by
  obtain ⟨r, hr, hany⟩ := (Option.any_eq_true ..).mp hk
  obtain ⟨row, hrow, -⟩ := (Option.any_eq_true ..).mp hany
  exact (inside_of_releaseIn h (Table.get?_eq_some_iff.mp hr) hrow).2

theorem isActiveRelease_inside {k : ID} (hk : R .releases k = true) :
    isActiveRelease (inside R db) w k = isActiveRelease db w k := by
  unfold isActiveRelease
  rw [releases_inside hk]
  cases hr : db.releases.get? k with
  | none => rfl
  | some r => simp only [Option.any_some, releaseIn_inside h (r := (k, r)) hr hk]

theorem activeDiffsOf_inside : activeDiffsOf (inside R db) w = activeDiffsOf db w := by
  apply Table.filter_filterKeys
  · intro d hd hactive
    exact (h.diff_iff (Table.get?_of_mem hd)).trans (inside_of_isActiveRelease h hactive)
  · intro d hd hk
    exact isActiveRelease_inside h ((h.diff_iff (Table.get?_of_mem hd)).symm.trans hk)

theorem inside_of_activeDiffsOf {d : Entry Diff} (hd : d ∈ activeDiffsOf db w) :
    R .diffs d.1 = true := by
  obtain ⟨hmem, hactive⟩ := List.mem_filter.mp hd
  exact (h.diff_iff (Table.get?_of_mem hmem)).trans (inside_of_isActiveRelease h hactive)

theorem activeAnalysesOf_inside : activeAnalysesOf (inside R db) w = activeAnalysesOf db w := by
  apply Table.filter_filterKeys
  · intro a ha hany
    obtain ⟨d, hd, hactive⟩ := (Option.any_eq_true ..).mp hany
    rw [h.analysis_iff (Table.get?_of_mem ha), h.diff_iff hd]
    exact inside_of_isActiveRelease h hactive
  · intro a ha hk
    have hdiff : R .diffs a.2.diffID = true := (h.analysis_iff (Table.get?_of_mem ha)).symm.trans hk
    rw [diffs_inside hdiff]
    cases hd : db.diffs.get? a.2.diffID with
    | none => rfl
    | some d =>
        simp only [Option.any_some]
        exact isActiveRelease_inside h ((h.diff_iff hd).symm.trans hdiff)

/-! ## Dependent queries -/

theorem mem_releasedSince_inside {t : Time} {k : ID} (hk : R .packages k = true) :
    k ∈ PackageRepo.releasedSince (inside R db) t ↔ k ∈ PackageRepo.releasedSince db t := by
  constructor
  · intro hmem
    obtain ⟨r, hr, rfl⟩ := List.mem_map.mp hmem
    obtain ⟨hin, ht⟩ := List.mem_filter.mp hr
    exact List.mem_map_of_mem (List.mem_filter.mpr ⟨List.mem_of_mem_filter hin, ht⟩)
  · intro hmem
    obtain ⟨r, hr, rfl⟩ := List.mem_map.mp hmem
    obtain ⟨hin, ht⟩ := List.mem_filter.mp hr
    have hrelease : R .releases r.1 = true := (h.release_iff (Table.get?_of_mem hin)).trans hk
    exact List.mem_map_of_mem
      (List.mem_filter.mpr ⟨List.mem_filter.mpr ⟨hin, hrelease⟩, ht⟩)

theorem staleRows_inside {staleBefore : Time} {filters : PackageFilters} :
    PackageRepo.staleRows env w staleBefore filters (inside R db) =
      PackageRepo.staleRows env w staleBefore filters db := by
  unfold PackageRepo.staleRows
  rw [packagesOf_inside h]
  refine List.filter_congr fun p hp => ?_
  simp only [mem_releasedSince_inside h (inside_of_packagesOf h hp)]

theorem lastReleaseAt_inside {k : ID} (hk : R .packages k = true) :
    PackageRepo.lastReleaseAt (inside R db) k = PackageRepo.lastReleaseAt db k := by
  unfold PackageRepo.lastReleaseAt
  rw [releasesOfPackage_inside h hk]

/-- The release and the package of a joined row are inside. -/
theorem package_of_releasesOf {row : Entry Release × Entry Package}
    (hrow : row ∈ releasesOf db w) : R .packages row.1.2.packageID = true := by
  obtain ⟨r, hr, hin⟩ := List.mem_filterMap.mp hrow
  obtain ⟨hfst, hk⟩ := inside_of_releaseIn h hr hin
  rw [hfst, ← h.release_iff (Table.get?_of_mem hr)]
  exact hk

theorem matchesFilters_inside {filters : ReleaseFilters} {row : Entry Release × Entry Package}
    (hrow : row ∈ releasesOf db w) :
    ReleaseRepo.matchesFilters env filters (inside R db) row =
      ReleaseRepo.matchesFilters env filters db row := by
  unfold ReleaseRepo.matchesFilters ReleaseRepo.isLatest
  rw [releasesOfPackage_inside h (package_of_releasesOf h hrow)]

theorem classifiedRows_inside {classification : Option GoString}
    {row : Entry Release × Entry Package} (hrow : R .releases row.1.1 = true) :
    ReleaseRepo.classifiedRows classification (inside R db) row =
      ReleaseRepo.classifiedRows classification db row := by
  have hanalyses : ∀ cls : GoString,
      ((diffsOf db row.1.1).flatMap fun d =>
        (analysesOf (inside R db) d.1).filter fun a => a.2.classification.text = cls) =
      (diffsOf db row.1.1).flatMap fun d =>
        (analysesOf db d.1).filter fun a => a.2.classification.text = cls := by
    intro cls
    refine List.flatMap_congr fun d hd => ?_
    rw [analysesOf_inside h (inside_of_diffsOf h hrow hd)]
  unfold ReleaseRepo.classifiedRows
  rw [diffsOf_inside h hrow]
  cases classification with
  | none => rfl
  | some cls => simp only [hanalyses]

theorem detailRows_inside {filters : ReleaseFilters} :
    ReleaseRepo.detailRows env w filters (inside R db) =
      ReleaseRepo.detailRows env w filters db := by
  unfold ReleaseRepo.detailRows
  rw [activeReleasesOf_inside h]
  have hfilter : (activeReleasesOf db w).filter
        (ReleaseRepo.matchesFilters env filters (inside R db)) =
      (activeReleasesOf db w).filter (ReleaseRepo.matchesFilters env filters db) :=
    List.filter_congr fun row hrow => matchesFilters_inside h (List.mem_of_mem_filter hrow)
  rw [hfilter]
  refine List.flatMap_congr fun row hrow => ?_
  exact classifiedRows_inside h (inside_of_activeReleasesOf h (List.mem_of_mem_filter hrow))

/-- The rows of the listing are inside. -/
theorem inside_of_detailRows {filters : ReleaseFilters} {row : Entry Release × Entry Package}
    (hrow : row ∈ ReleaseRepo.detailRows env w filters db) : R .releases row.1.1 = true := by
  obtain ⟨source, hsource, hin⟩ := List.mem_flatMap.mp hrow
  have heq : row = source := by
    unfold ReleaseRepo.classifiedRows at hin
    split at hin
    · exact List.mem_singleton.mp hin
    · split_ifs at hin
      · exact List.mem_singleton.mp hin
      · exact List.mem_singleton.mp hin
      · exact absurd hin List.not_mem_nil
      · obtain ⟨_, -, hmap⟩ := List.mem_map.mp hin
        exact hmap.symm
  rw [heq]
  exact inside_of_activeReleasesOf h (List.mem_of_mem_filter hsource)

theorem analysesOfRelease_inside {k : ID} (hk : R .releases k = true) :
    ReleaseRepo.analysesOfRelease (inside R db) k = ReleaseRepo.analysesOfRelease db k := by
  apply Table.filter_filterKeys
  · intro a ha hany
    obtain ⟨d, hd, hrelease⟩ := (Option.any_eq_true ..).mp hany
    rw [h.analysis_iff (Table.get?_of_mem ha), h.diff_iff hd, of_decide_eq_true hrelease]
    exact hk
  · intro a ha hin
    have hdiff : R .diffs a.2.diffID = true := (h.analysis_iff (Table.get?_of_mem ha)).symm.trans hin
    rw [diffs_inside hdiff]

theorem toDetails_inside {row : Entry Release × Entry Package}
    (hrow : R .releases row.1.1 = true) :
    ReleaseRepo.toDetails (inside R db) row = ReleaseRepo.toDetails db row := by
  unfold ReleaseRepo.toDetails ReleaseRepo.classificationColumn
  rw [analysesOfRelease_inside h hrow]

end Rows

end Core
end Veilence
