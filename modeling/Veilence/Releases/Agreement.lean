import Veilence.Releases.Views

/-!
# Agreement of the views

The details of a release show an analysis of its first diff, the history one of its last diff,
the column of the listing the newest analysis of any diff, and the filter of the listing any
analysis.  They agree, whatever the order of the rows, if and only if every release has no diff,
one diff with one analysis, or only diffs without an analysis while it is not completed.

Main results:

- Theorem {lit}`classifiedRows_eq`: what the filter does with an unambiguous release.
- Theorem {lit}`views_agree_iff`: the condition is sufficient and necessary.
- Theorem {lit}`views_disagree`: a release that has been analysed twice.
-/

namespace Veilence
namespace Releases

open Go Foundation

/-- No analysis can be chosen differently by two views: there is no diff, or one diff with one
analysis, or no analysis at all and no baseline that could be shown in its place. -/
def Unambiguous (db : Database) (release : Release) : Prop :=
  db.diffsOf release.id = [] ∨
    (∃ diff analysis, db.diffsOf release.id = [diff] ∧ db.analysesOf diff.id = [analysis]) ∨
    (release.status ≠ .completed ∧ db.allAnalyses release.id = [])

/-- The details, the history and the column of the listing show the same classification of
every release of the listing.  The filter returns a release if and only if the column shows the
classification, at most once on all pages, and counts it once.  The baseline is shown for the
completed releases without a diff. -/
structure ViewsAgree (o : Order) (db : Database) (workspaceID : Nat) : Prop where
  details : ∀ row ∈ db.listed workspaceID, ∃ detail,
    getRelease o db workspaceID row.1.id = some detail ∧
      detail.classification = classificationColumn db row.1
  history : ∀ row ∈ db.listed workspaceID, ∃ entries,
    getAnalysisHistory o db workspaceID row.2.id = some entries ∧
      historyClassification entries row.1.id = classificationColumn db row.1
  filtered : ∀ filters sortClause limit, filters.classification ≠ [] → 0 < limit →
    ∀ row ∈ db.listed workspaceID,
      (∃ page, 0 < page ∧ toDetails db row ∈
        (findByWorkspaceIDWithDetails db workspaceID page limit sortClause filters).1) ↔
      matchesFilters db filters row = true ∧
        classificationColumn db row.1 = filters.classification
  once : ∀ filters sortClause limit, filters.classification ≠ [] → 0 < limit →
    ∀ (page page' i i' : Nat) (d d' : ReleaseWithDetails), 0 < page → 0 < page' →
      (findByWorkspaceIDWithDetails db workspaceID page limit sortClause filters).1[i]? =
        some d →
      (findByWorkspaceIDWithDetails db workspaceID page' limit sortClause filters).1[i']? =
        some d' →
      d.release.id = d'.release.id → page = page' ∧ i = i'
  counted : ∀ filters sortClause page limit, filters.classification ≠ [] →
    (findByWorkspaceIDWithDetails db workspaceID page limit sortClause filters).2 =
      ((db.listed workspaceID).filter fun row => matchesFilters db filters row &&
        decide (classificationColumn db row.1 = filters.classification)).length
  baselines : ∀ row ∈ db.listed workspaceID, classificationColumn db row.1 = baseline ↔
    row.1.status = .completed ∧ db.diffsOf row.1.id = []

/-! ## Texts -/

/-- A classification has a text. -/
theorem text_ne_nil (c : Classification) : c.text ≠ [] := by
  cases c <;> decide

/-- No classification is the baseline. -/
theorem text_ne_baseline (c : Classification) : c.text ≠ baseline := by
  cases c <;> decide

/-- The baseline has a text. -/
theorem baseline_ne_nil : baseline ≠ [] := by
  decide

/-! ## Rows of the listing -/

section Listed

variable {db : Database} {workspaceID : Nat} {row : Release × Package}

/-- A release of the listing with its package. -/
theorem mem_listed_iff : row ∈ db.listed workspaceID ↔
    row.1 ∈ db.releases ∧ row.2 ∈ db.packages ∧ row.2.id = row.1.packageID ∧
      row.2.workspaceID = workspaceID ∧ row.2.status = .active := by
  unfold Database.listed
  constructor
  · intro h
    obtain ⟨release, hrelease, hrow⟩ := List.mem_flatMap.mp h
    obtain ⟨pkg, hpkg, rfl⟩ := List.mem_map.mp hrow
    obtain ⟨hmem, hp⟩ := List.mem_filter.mp hpkg
    exact ⟨hrelease, hmem, of_decide_eq_true hp⟩
  · rintro ⟨hrelease, hpkg, hp⟩
    refine List.mem_flatMap.mpr ⟨row.1, hrelease, List.mem_map.mpr ⟨row.2, ?_, rfl⟩⟩
    exact List.mem_filter.mpr ⟨hpkg, decide_eq_true hp⟩

/-- A release is in the listing at most once. -/
theorem nodup_listed (db : Database) (workspaceID : Nat) :
    ((db.listed workspaceID).map fun row => row.1.id).Nodup := by
  have hlisted : db.listed workspaceID = db.releases.filterMap fun release =>
      (db.packages.find? fun pkg => pkg.id = release.packageID ∧
        pkg.workspaceID = workspaceID ∧ pkg.status = .active).map fun pkg => (release, pkg) := by
    rw [List.filterMap_eq_flatMap_toList, Database.listed]
    congr 1
    ext1 release
    have hkey : ∀ pkg ∈ db.packages, (decide (pkg.id = release.packageID ∧
        pkg.workspaceID = workspaceID ∧ pkg.status = .active)) = true →
        pkg.id = release.packageID := fun pkg _ h => (of_decide_eq_true h).1
    rw [filter_eq_toList_find? db.packageIDs hkey]
    cases db.packages.find? _ with
    | none => rfl
    | some pkg => rfl
  rw [hlisted]
  refine nodup_map_filterMap db.releaseIDs ?_
  rintro release - release' - row row' hrow hrow' hid
  obtain ⟨pkg, -, rfl⟩ := Option.map_eq_some_iff.mp hrow
  obtain ⟨pkg', -, rfl⟩ := Option.map_eq_some_iff.mp hrow'
  exact hid

/-- The release and its package are found by the ID of the release. -/
theorem findByIDWithPackageAndWorkspace_of_mem (hrow : row ∈ db.listed workspaceID) :
    findByIDWithPackageAndWorkspace db row.1.id workspaceID = some row := by
  obtain ⟨hrelease, hpkg, hid, hworkspace, -⟩ := mem_listed_iff.mp hrow
  have hfind : (db.releases.find? fun release =>
      release.id = row.1.id ∧ (db.packages.any fun pkg =>
        pkg.id = release.packageID ∧ pkg.workspaceID = workspaceID)) = some row.1 := by
    refine find?_eq_of_key db.releaseIDs hrelease ?_ fun b _ hb => (of_decide_eq_true hb).1
    refine decide_eq_true ⟨rfl, List.any_eq_true.mpr ⟨row.2, hpkg, decide_eq_true ⟨hid, ?_⟩⟩⟩
    exact hworkspace
  have hfind' : (db.packages.find? fun pkg =>
      pkg.id = row.1.packageID ∧ pkg.workspaceID = workspaceID) = some row.2 := by
    refine find?_eq_of_key db.packageIDs hpkg (decide_eq_true ⟨hid, hworkspace⟩) ?_
    intro b _ hb
    exact (of_decide_eq_true hb).1.trans hid.symm
  rw [findByIDWithPackageAndWorkspace, hfind, Option.bind_eq_bind, Option.bind_some, hfind']
  rfl

/-- The package of a release of the listing is found by its ID. -/
theorem findByIDAndWorkspaceID_of_mem (hrow : row ∈ db.listed workspaceID) :
    findByIDAndWorkspaceID db row.2.id workspaceID = some row.2 := by
  obtain ⟨-, hpkg, -, hworkspace, -⟩ := mem_listed_iff.mp hrow
  refine find?_eq_of_key db.packageIDs hpkg (decide_eq_true ⟨rfl, hworkspace⟩) ?_
  intro b _ hb
  exact (of_decide_eq_true hb).1

end Listed

/-! ## The choice of each view -/

section Choices

variable {o : Order} {db : Database} {release : Release}

/-- The diff that the history takes for a release. -/
def lastDiff (o : Order) (db : Database) (packageID releaseID : Nat) : Option Diff :=
  (lastBy Diff.releaseID
    (findByReleaseIDs db o ((findByPackageIDAll db packageID).map Release.id))).get? releaseID

/-- The analysis that the history takes for a diff. -/
def lastAnalysis (o : Order) (db : Database) (packageID diffID : Nat) : Option Analysis :=
  (lastBy Analysis.diffID (findByDiffIDs db o
    ((findByReleaseIDs db o ((findByPackageIDAll db packageID).map Release.id)).map
      Diff.id))).get? diffID

/-- The releases of a package. -/
theorem mem_findByPackageIDAll (hrelease : release ∈ db.releases) :
    release ∈ findByPackageIDAll db release.packageID := by
  rw [findByPackageIDAll, List.mem_insertionSort, List.mem_filter]
  exact ⟨hrelease, decide_eq_true rfl⟩

/-- The diffs of a release among those of all releases of its package. -/
theorem findByReleaseIDs_filter (hrelease : release ∈ db.releases) :
    ((findByReleaseIDs db o ((findByPackageIDAll db release.packageID).map Release.id)).filter
      fun diff => decide (diff.releaseID = release.id)).Perm (db.diffsOf release.id) := by
  refine o.findByReleaseIDs.filter_order_perm fun diff _ hid => decide_eq_true ?_
  rw [of_decide_eq_true hid]
  exact List.mem_map_of_mem (mem_findByPackageIDAll hrelease)

/-- The diffs of a release are loaded. -/
theorem mem_findByReleaseIDs (hrelease : release ∈ db.releases) {diff : Diff}
    (hdiff : diff ∈ db.diffsOf release.id) :
    diff ∈ findByReleaseIDs db o ((findByPackageIDAll db release.packageID).map Release.id) :=
  (List.mem_filter.mp ((findByReleaseIDs_filter hrelease).mem_iff.mpr hdiff)).1

/-- The analyses of a diff among those of all diffs. -/
theorem findByDiffIDs_filter (hrelease : release ∈ db.releases) {diff : Diff}
    (hdiff : diff ∈ db.diffsOf release.id) :
    ((findByDiffIDs db o ((findByReleaseIDs db o
      ((findByPackageIDAll db release.packageID).map Release.id)).map Diff.id)).filter
        fun analysis => decide (analysis.diffID = diff.id)).Perm (db.analysesOf diff.id) := by
  refine o.findByDiffIDs.filter_order_perm fun analysis _ hid => decide_eq_true ?_
  rw [of_decide_eq_true hid]
  exact List.mem_map_of_mem (mem_findByReleaseIDs hrelease hdiff)

/-- The history takes a diff of the release. -/
theorem mem_of_lastDiff (hrelease : release ∈ db.releases) {diff : Diff}
    (h : lastDiff o db release.packageID release.id = some diff) :
    diff ∈ db.diffsOf release.id := by
  rw [lastDiff, get?_lastBy] at h
  exact (findByReleaseIDs_filter hrelease).mem_iff.mp (List.mem_of_getLast? h)

/-- The history takes no diff if there is none. -/
theorem lastDiff_eq_none_iff (hrelease : release ∈ db.releases) :
    lastDiff o db release.packageID release.id = none ↔ db.diffsOf release.id = [] := by
  rw [lastDiff, get?_lastBy, List.getLast?_eq_none_iff]
  constructor
  · intro h
    exact (h ▸ (findByReleaseIDs_filter (o := o) hrelease)).nil_eq.symm
  · intro h
    exact (h ▸ (findByReleaseIDs_filter (o := o) hrelease)).eq_nil

/-- The history takes no analysis if there is none. -/
theorem lastAnalysis_eq_none_iff (hrelease : release ∈ db.releases) {diff : Diff}
    (hdiff : diff ∈ db.diffsOf release.id) :
    lastAnalysis o db release.packageID diff.id = none ↔ db.analysesOf diff.id = [] := by
  rw [lastAnalysis, get?_lastBy, List.getLast?_eq_none_iff]
  constructor
  · intro h
    exact (h ▸ (findByDiffIDs_filter (o := o) hrelease hdiff)).nil_eq.symm
  · intro h
    exact (h ▸ (findByDiffIDs_filter (o := o) hrelease hdiff)).eq_nil

/-- The entry of a release in the history. -/
def entryOf (o : Order) (db : Database) (packageID : Nat) :
    Release → Option AnalysisHistoryEntry :=
  historyEntry
    (lastBy Diff.releaseID
      (findByReleaseIDs db o ((findByPackageIDAll db packageID).map Release.id)))
    (lastBy Analysis.diffID (findByDiffIDs db o
      ((findByReleaseIDs db o ((findByPackageIDAll db packageID).map Release.id)).map Diff.id)))

/-- What the history shows for a release. -/
def historyText (o : Order) (db : Database) (release : Release) : GoString :=
  match lastDiff o db release.packageID release.id with
  | none => if release.status = .completed then baseline else []
  | some diff =>
      ((lastAnalysis o db release.packageID diff.id).map fun a => a.classification.text).getD []

/-- The classification in the entry of a release. -/
theorem classification_entryOf (o : Order) (db : Database) (release : Release) :
    ((entryOf o db release.packageID release).map
      AnalysisHistoryEntry.classification).getD [] = historyText o db release := by
  unfold entryOf historyEntry historyText lastDiff lastAnalysis
  cases (lastBy Diff.releaseID (findByReleaseIDs db o
      ((findByPackageIDAll db release.packageID).map Release.id))).get? release.id with
  | none =>
      by_cases hcompleted : release.status = .completed
      · simp [hcompleted]
      · simp [hcompleted]
  | some diff =>
      dsimp only
      cases (lastBy Analysis.diffID (findByDiffIDs db o ((findByReleaseIDs db o
          ((findByPackageIDAll db release.packageID).map Release.id)).map Diff.id))).get?
            diff.id with
      | none => rfl
      | some analysis => rfl

/-- An entry is one of its release. -/
theorem releaseID_of_entryOf {packageID : Nat} {entry : AnalysisHistoryEntry}
    (h : entryOf o db packageID release = some entry) : entry.releaseID = release.id := by
  unfold entryOf historyEntry at h
  split at h
  · split_ifs at h
    cases h
    rfl
  · split at h
    · exact nomatch h
    · cases h
      rfl

/-- What the history of the package shows for a release of the listing. -/
theorem history_of_mem {workspaceID : Nat} {row : Release × Package}
    (hrow : row ∈ db.listed workspaceID) : ∃ entries,
      getAnalysisHistory o db workspaceID row.2.id = some entries ∧
        historyClassification entries row.1.id = historyText o db row.1 := by
  obtain ⟨hrelease, -, hid, -, -⟩ := mem_listed_iff.mp hrow
  refine ⟨(findByPackageIDAll db row.2.id).filterMap (entryOf o db row.2.id), ?_, ?_⟩
  · rw [getAnalysisHistory, findByIDAndWorkspaceID_of_mem hrow]
    rfl
  · have hnodup : ((findByPackageIDAll db row.2.id).map Release.id).Nodup := by
      rw [findByPackageIDAll, ((List.perm_insertionSort _ _).map _).nodup_iff]
      exact db.releaseIDs.sublist (List.filter_sublist.map _)
    have hmem : row.1 ∈ findByPackageIDAll db row.2.id := hid ▸ mem_findByPackageIDAll hrelease
    have hfind : ((findByPackageIDAll db row.2.id).filterMap (entryOf o db row.2.id)).find?
        (fun entry => decide (entry.releaseID = row.1.id)) = entryOf o db row.2.id row.1 :=
      find?_filterMap_of_key hnodup (fun _ _ _ => releaseID_of_entryOf) hmem
    rw [historyClassification, hfind, hid]
    exact classification_entryOf o db row.1

/-- What the details show for a release. -/
def detailsText (o : Order) (db : Database) (release : Release) : GoString :=
  match findFirstByReleaseID db release.id with
  | none => if release.status = .completed then baseline else []
  | some diff => ((findByDiffID db o diff.id).head?.map fun a => a.classification.text).getD []

/-- The details of a release of the listing. -/
theorem details_of_mem {workspaceID : Nat} {row : Release × Package}
    (hrow : row ∈ db.listed workspaceID) : ∃ detail,
      getRelease o db workspaceID row.1.id = some detail ∧
        detail.classification = detailsText o db row.1 := by
  rw [getRelease, findByIDWithPackageAndWorkspace_of_mem hrow]
  dsimp only [Option.bind_eq_bind, Option.bind_some]
  unfold detailsText
  cases findFirstByReleaseID db row.1.id with
  | none =>
      refine ⟨_, rfl, ?_⟩
      by_cases hcompleted : row.1.status = .completed
      · simp [ReleaseDetail.classification, hcompleted]
      · simp [ReleaseDetail.classification, hcompleted]
  | some diff =>
      refine ⟨_, rfl, ?_⟩
      cases hhead : (findByDiffID db o diff.id).head? with
      | none => simp [ReleaseDetail.classification, hhead]
      | some analysis => simp [ReleaseDetail.classification, hhead]

/-- The first diff is one of the diffs. -/
theorem mem_of_findFirst {releaseID : Nat} {diff : Diff}
    (h : findFirstByReleaseID db releaseID = some diff) : diff ∈ db.diffsOf releaseID :=
  (List.mem_insertionSort _).mp (List.mem_of_head? h)

/-- There is a first diff if there is any. -/
theorem findFirst_eq_none_iff {releaseID : Nat} :
    findFirstByReleaseID db releaseID = none ↔ db.diffsOf releaseID = [] := by
  rw [findFirstByReleaseID, List.head?_eq_none_iff]
  exact ⟨fun h => (h ▸ (List.perm_insertionSort _ _)).nil_eq.symm,
    fun h => by rw [h]; rfl⟩

end Choices

/-! ## Unambiguous releases -/

section Unambiguous

variable {o : Order} {db : Database} {release : Release}

/-- What a release without analyses shows in the column. -/
theorem column_of_nil (h : db.allAnalyses release.id = []) :
    classificationColumn db release = if release.status = .completed then baseline else [] := by
  rw [classificationColumn, h]
  rfl

/-- What a release with one analysis shows in the column. -/
theorem column_of_singleton {analysis : Analysis} (h : db.allAnalyses release.id = [analysis]) :
    classificationColumn db release = analysis.classification.text := by
  rw [classificationColumn, h]
  rfl

/-- A release without diffs has no analyses. -/
theorem allAnalyses_of_nil (h : db.diffsOf release.id = []) : db.allAnalyses release.id = [] := by
  rw [Database.allAnalyses, h]
  rfl

/-- The analyses of a release with one diff. -/
theorem allAnalyses_of_singleton {diff : Diff} (h : db.diffsOf release.id = [diff]) :
    db.allAnalyses release.id = db.analysesOf diff.id := by
  rw [Database.allAnalyses, h, List.flatMap_singleton]

/-- No diff of a release without analyses has one. -/
theorem analysesOf_of_nil (h : db.allAnalyses release.id = []) {diff : Diff}
    (hdiff : diff ∈ db.diffsOf release.id) : db.analysesOf diff.id = [] :=
  List.flatMap_eq_nil_iff.mp h diff hdiff

/-- The details of an unambiguous release show what the column shows. -/
theorem detailsText_eq (h : Unambiguous db release) :
    detailsText o db release = classificationColumn db release := by
  unfold detailsText
  rcases h with hnone | ⟨diff, analysis, hdiff, hanalysis⟩ | ⟨hstatus, hall⟩
  · rw [findFirst_eq_none_iff.mpr hnone, column_of_nil (allAnalyses_of_nil hnone)]
  · have hfirst : findFirstByReleaseID db release.id = some diff := by
      rw [findFirstByReleaseID, hdiff]
      rfl
    rw [hfirst, column_of_singleton ((allAnalyses_of_singleton hdiff).trans hanalysis)]
    dsimp only
    rw [findByDiffID, hanalysis, RowOrder.order_singleton]
    rfl
  · rw [column_of_nil hall, if_neg hstatus]
    cases hfirst : findFirstByReleaseID db release.id with
    | none => rfl
    | some diff =>
        dsimp only
        rw [findByDiffID, analysesOf_of_nil hall (mem_of_findFirst hfirst), RowOrder.order_nil]
        rfl

/-- The history of an unambiguous release shows what the column shows. -/
theorem historyText_eq (hrelease : release ∈ db.releases) (h : Unambiguous db release) :
    historyText o db release = classificationColumn db release := by
  unfold historyText
  rcases h with hnone | ⟨diff, analysis, hdiff, hanalysis⟩ | ⟨hstatus, hall⟩
  · rw [(lastDiff_eq_none_iff hrelease).mpr hnone, column_of_nil (allAnalyses_of_nil hnone)]
  · have hlast : lastDiff o db release.packageID release.id = some diff := by
      have hperm := findByReleaseIDs_filter (o := o) hrelease
      rw [hdiff] at hperm
      rw [lastDiff, get?_lastBy, hperm.eq_singleton]
      rfl
    have hmem : diff ∈ db.diffsOf release.id := hdiff ▸ List.mem_singleton_self diff
    have hlast' : lastAnalysis o db release.packageID diff.id = some analysis := by
      have hperm := findByDiffIDs_filter (o := o) hrelease hmem
      rw [hanalysis] at hperm
      rw [lastAnalysis, get?_lastBy, hperm.eq_singleton]
      rfl
    rw [hlast, column_of_singleton ((allAnalyses_of_singleton hdiff).trans hanalysis)]
    dsimp only
    rw [hlast']
    rfl
  · rw [column_of_nil hall, if_neg hstatus]
    cases hlast : lastDiff o db release.packageID release.id with
    | none => rfl
    | some diff =>
        have hdiff := mem_of_lastDiff hrelease hlast
        dsimp only
        rw [(lastAnalysis_eq_none_iff hrelease hdiff).mpr (analysesOf_of_nil hall hdiff)]
        rfl

/-- An unambiguous release shows the baseline exactly if it is completed and has no diff. -/
theorem column_eq_baseline_iff (h : Unambiguous db release) :
    classificationColumn db release = baseline ↔
      release.status = .completed ∧ db.diffsOf release.id = [] := by
  rcases h with hnone | ⟨diff, analysis, hdiff, hanalysis⟩ | ⟨hstatus, hall⟩
  · rw [column_of_nil (allAnalyses_of_nil hnone)]
    split_ifs with hstatus
    · exact ⟨fun _ => ⟨hstatus, hnone⟩, fun _ => rfl⟩
    · exact ⟨fun h => absurd h.symm baseline_ne_nil, fun h => absurd h.1 hstatus⟩
  · rw [column_of_singleton ((allAnalyses_of_singleton hdiff).trans hanalysis), hdiff]
    exact ⟨fun h => absurd h (text_ne_baseline _), fun h => absurd h.2 (List.cons_ne_nil _ _)⟩
  · rw [column_of_nil hall, if_neg hstatus]
    exact ⟨fun h => absurd h.symm baseline_ne_nil, fun h => absurd h.1 hstatus⟩

/-- The rows that the filter joins are as many as the analyses of the classification. -/
theorem classifiedRows_of_text {db : Database} {row : Release × Package} {text : GoString}
    (hnil : text ≠ []) (hbaseline : text ≠ baseline) :
    classifiedRows db text row = ((db.allAnalyses row.1.id).filter fun analysis =>
      decide (analysis.classification.text = text)).map fun _ => row := by
  rw [classifiedRows, if_neg hnil, if_neg hbaseline, Database.allAnalyses, List.filter_flatMap]

/-- The filter keeps an unambiguous release once if the column shows the classification. -/
theorem classifiedRows_eq {row : Release × Package} (h : Unambiguous db row.1) {text : GoString}
    (hnil : text ≠ []) :
    classifiedRows db text row = if classificationColumn db row.1 = text then [row] else [] := by
  by_cases hbaseline : text = baseline
  · subst hbaseline
    rw [classifiedRows, if_neg hnil, if_pos rfl]
    exact if_congr (column_eq_baseline_iff h).symm rfl rfl
  · rw [classifiedRows_of_text hnil hbaseline]
    have hempty : db.allAnalyses row.1.id = [] → classificationColumn db row.1 ≠ text := by
      intro hall
      rw [column_of_nil hall]
      split_ifs
      · exact Ne.symm hbaseline
      · exact Ne.symm hnil
    rcases h with hnone | ⟨diff, analysis, hdiff, hanalysis⟩ | ⟨hstatus, hall⟩
    · have hall := allAnalyses_of_nil hnone
      rw [if_neg (hempty hall), hall]
      rfl
    · have hall := (allAnalyses_of_singleton hdiff).trans hanalysis
      rw [column_of_singleton hall, hall, List.filter_singleton]
      by_cases htext : analysis.classification.text = text
      · simp [htext]
      · simp [htext]
    · rw [if_neg (hempty hall), hall]
      rfl

end Unambiguous

/-! ## The listing of unambiguous releases -/

section Rows

variable {db : Database} {workspaceID : Nat}

/-- A page of the listing, with its total. -/
theorem find_eq {page limit : Nat} {sortClause : Release × Package → Release × Package → Bool}
    {filters : ReleaseFilters} :
    findByWorkspaceIDWithDetails db workspaceID page limit sortClause filters =
      ((pageOf (listingRows db workspaceID sortClause filters) page limit).map (toDetails db),
        (listingRows db workspaceID sortClause filters).length) := by
  unfold findByWorkspaceIDWithDetails
  dsimp only
  split_ifs with hlength
  · rw [List.length_eq_zero_iff.mp hlength]
    simp [pageOf]
  · rfl

/-- The rows of the listing, if all releases are unambiguous. -/
theorem listingRows_perm (hall : ∀ row ∈ db.listed workspaceID, Unambiguous db row.1)
    {sortClause : Release × Package → Release × Package → Bool} {filters : ReleaseFilters}
    (hnil : filters.classification ≠ []) :
    (listingRows db workspaceID sortClause filters).Perm
      ((db.listed workspaceID).filter fun row => matchesFilters db filters row &&
        decide (classificationColumn db row.1 = filters.classification)) := by
  refine (List.perm_insertionSort _ _).trans (.of_eq ?_)
  have hrows : ∀ rows : List (Release × Package), (∀ row ∈ rows, Unambiguous db row.1) →
      rows.flatMap (classifiedRows db filters.classification) = rows.filter fun row =>
        decide (classificationColumn db row.1 = filters.classification) := by
    intro rows
    induction rows with
    | nil => exact fun _ => rfl
    | cons row rows ih =>
        intro hrows
        rw [List.flatMap_cons, ih fun row' hrow' => hrows row' (List.mem_cons_of_mem row hrow'),
          classifiedRows_eq (hrows row List.mem_cons_self) hnil, List.filter_cons]
        by_cases hcolumn : classificationColumn db row.1 = filters.classification
        · simp [hcolumn]
        · simp [hcolumn]
  rw [hrows _ fun row hrow => hall row (List.mem_of_mem_filter hrow), List.filter_filter]
  exact List.filter_congr fun row _ => Bool.and_comm _ _

/-- The listing of unambiguous releases has no release twice. -/
theorem nodup_listingRows (hall : ∀ row ∈ db.listed workspaceID, Unambiguous db row.1)
    {sortClause : Release × Package → Release × Package → Bool} {filters : ReleaseFilters}
    (hnil : filters.classification ≠ []) :
    ((listingRows db workspaceID sortClause filters).map fun row => row.1.id).Nodup := by
  rw [((listingRows_perm hall hnil).map _).nodup_iff]
  exact (nodup_listed db workspaceID).sublist (List.filter_sublist.map _)

/-- A row of the listing is determined by its details. -/
theorem eq_of_toDetails {row row' : Release × Package} (hrow : row ∈ db.listed workspaceID)
    (hrow' : row' ∈ db.listed workspaceID) (h : toDetails db row = toDetails db row') :
    row = row' := by
  have hid : row.1.id = row'.1.id := congrArg (fun d => d.release.id) h
  exact List.inj_on_of_nodup_map (nodup_listed db workspaceID) hrow hrow' hid

/-- The views agree on unambiguous releases. -/
theorem viewsAgree_of_unambiguous (o : Order)
    (hall : ∀ row ∈ db.listed workspaceID, Unambiguous db row.1) :
    ViewsAgree o db workspaceID where
  details := by
    intro row hrow
    obtain ⟨detail, hdetail, htext⟩ := details_of_mem (o := o) hrow
    exact ⟨detail, hdetail, htext.trans (detailsText_eq (hall row hrow))⟩
  history := by
    intro row hrow
    obtain ⟨entries, hentries, htext⟩ := history_of_mem (o := o) hrow
    have hrelease := (mem_listed_iff.mp hrow).1
    exact ⟨entries, hentries, htext.trans (historyText_eq hrelease (hall row hrow))⟩
  filtered := by
    intro filters sortClause limit hnil hlimit row hrow
    have hmem : row ∈ listingRows db workspaceID sortClause filters ↔
        matchesFilters db filters row = true ∧
          classificationColumn db row.1 = filters.classification := by
      rw [(listingRows_perm hall hnil).mem_iff, List.mem_filter, Bool.and_eq_true,
        decide_eq_true_eq]
      exact ⟨fun h => h.2, fun h => ⟨hrow, h⟩⟩
    rw [← hmem, mem_iff_exists_page hlimit]
    refine exists_congr fun page => and_congr_right fun _ => ?_
    rw [find_eq]
    constructor
    · intro h
      obtain ⟨row', hrow', heq⟩ := List.mem_map.mp h
      have hlisted : row' ∈ db.listed workspaceID := by
        have hmem' := (mem_iff_exists_page hlimit).mpr ⟨page, ‹0 < page›, hrow'⟩
        exact List.mem_of_mem_filter ((listingRows_perm hall hnil).mem_iff.mp hmem')
      rwa [← eq_of_toDetails hlisted hrow heq]
    · intro h
      exact List.mem_map_of_mem h
  once := by
    intro filters sortClause limit hnil hlimit page page' i i' d d' hpage hpage' hd hd' hid
    rw [find_eq, List.getElem?_map] at hd hd'
    obtain ⟨row, hrow, rfl⟩ := Option.map_eq_some_iff.mp hd
    obtain ⟨row', hrow', rfl⟩ := Option.map_eq_some_iff.mp hd'
    exact (nodup_iff_pages hlimit).mp (nodup_listingRows hall hnil) page page' i i' row row' hpage
      hpage' hrow hrow' hid
  counted := by
    intro filters sortClause page limit hnil
    rw [find_eq]
    exact (listingRows_perm hall hnil).length_eq
  baselines := fun row hrow => column_eq_baseline_iff (hall row hrow)

end Rows

/-! ## Releases on which the views agree -/

section Necessity

variable {db : Database} {workspaceID : Nat} {row : Release × Package}

/-- The rows as they are stored, but with a diff and an analysis last. -/
def lastOrder (diff : Diff) (analysis : Analysis) : Order :=
  ⟨.stored, .lastly diff, .lastly analysis⟩

/-- Any diff of a release can be the one that the history takes. -/
theorem lastDiff_lastOrder {release : Release} (hrelease : release ∈ db.releases) {diff : Diff}
    (hdiff : diff ∈ db.diffsOf release.id) (analysis : Analysis) :
    lastDiff (lastOrder diff analysis) db release.packageID release.id = some diff := by
  obtain ⟨hmem, hid⟩ := List.mem_filter.mp hdiff
  rw [lastDiff, get?_lastBy]
  refine RowOrder.getLast?_lastly (List.mem_filter.mpr ⟨hmem, decide_eq_true ?_⟩) hid
  rw [of_decide_eq_true hid]
  exact List.mem_map_of_mem (mem_findByPackageIDAll hrelease)

/-- Any analysis of any diff can be the one that the history takes. -/
theorem historyText_lastOrder {release : Release} (hrelease : release ∈ db.releases) {diff : Diff}
    (hdiff : diff ∈ db.diffsOf release.id) {analysis : Analysis}
    (hanalysis : analysis ∈ db.analysesOf diff.id) :
    historyText (lastOrder diff analysis) db release = analysis.classification.text := by
  obtain ⟨hmem, hid⟩ := List.mem_filter.mp hanalysis
  have hlast : lastAnalysis (lastOrder diff analysis) db release.packageID diff.id =
      some analysis := by
    rw [lastAnalysis, get?_lastBy]
    refine RowOrder.getLast?_lastly (List.mem_filter.mpr ⟨hmem, decide_eq_true ?_⟩) hid
    rw [of_decide_eq_true hid]
    exact List.mem_map_of_mem (mem_findByReleaseIDs hrelease hdiff)
  rw [historyText, lastDiff_lastOrder hrelease hdiff]
  dsimp only
  rw [hlast]
  rfl

/-- A diff without an analysis can be the one that the history takes. -/
theorem historyText_lastOrder_of_nil {release : Release} (hrelease : release ∈ db.releases)
    {diff : Diff} (hdiff : diff ∈ db.diffsOf release.id) (hnone : db.analysesOf diff.id = [])
    (analysis : Analysis) : historyText (lastOrder diff analysis) db release = [] := by
  rw [historyText, lastDiff_lastOrder hrelease hdiff]
  dsimp only
  rw [(lastAnalysis_eq_none_iff hrelease hdiff).mpr hnone]
  rfl

/-- The history shows what the column shows, in whatever order the rows are. -/
theorem historyText_of_agree (hagree : ∀ o, ViewsAgree o db workspaceID)
    (hrow : row ∈ db.listed workspaceID) (o : Order) :
    historyText o db row.1 = classificationColumn db row.1 := by
  obtain ⟨entries, hentries, htext⟩ := history_of_mem (o := o) hrow
  obtain ⟨entries', hentries', htext'⟩ := (hagree o).history row hrow
  obtain rfl := Option.some.inj (hentries.symm.trans hentries')
  exact htext.symm.trans htext'

/-- A list with at least one element for each element of another, and one in all. -/
theorem exists_of_length_flatMap {α β : Type*} {xs : List α} {f : α → List β}
    (hone : (xs.flatMap f).length ≤ 1) (hsome : ∀ x ∈ xs, f x ≠ []) (hne : xs ≠ []) :
    ∃ x b, xs = [x] ∧ f x = [b] := by
  cases xs with
  | nil => exact absurd rfl hne
  | cons x rest =>
      rw [List.flatMap_cons, List.length_append] at hone
      have hx := List.length_pos_iff.mpr (hsome x List.mem_cons_self)
      cases rest with
      | nil =>
          obtain ⟨b, hb⟩ := List.length_eq_one_iff.mp (show (f x).length = 1 by omega)
          exact ⟨x, b, rfl, hb⟩
      | cons y rest =>
          have hy := List.length_pos_iff.mpr (hsome y (by simp))
          rw [List.flatMap_cons, List.length_append] at hone
          omega

/-- The filters that ask for a classification only. -/
def onlyClassification (text : GoString) : ReleaseFilters :=
  ⟨none, none, [], text, false⟩

/-- Every release matches the other filters. -/
theorem matchesFilters_onlyClassification (text : GoString) (row : Release × Package) :
    matchesFilters db (onlyClassification text) row = true := by
  have hcontains : contains (toLower row.2.name) [] = true := by
    cases hname : toLower row.2.name with
    | nil => rfl
    | cons c cs => simp [contains]
  simp [matchesFilters, onlyClassification, hcontains, toLower]

/-- The rows of a release are all the same. -/
theorem eq_of_mem_classifiedRows {text : GoString} {row' : Release × Package}
    (h : row' ∈ classifiedRows db text row) : row' = row := by
  unfold classifiedRows at h
  split_ifs at h
  · exact List.mem_singleton.mp h
  · exact List.mem_singleton.mp h
  · exact absurd h List.not_mem_nil
  · obtain ⟨-, -, heq⟩ := List.mem_map.mp h
    exact heq.symm

/-- The filter joins a release at most once where the views agree. -/
theorem length_classifiedRows_le {o : Order} (hagree : ViewsAgree o db workspaceID)
    (hrow : row ∈ db.listed workspaceID) {text : GoString} (hnil : text ≠ []) :
    (classifiedRows db text row).length ≤ 1 := by
  have hnodup : ((listingRows db workspaceID (fun _ _ => true) (onlyClassification text)).map
      fun row => row.1.id).Nodup := by
    refine (nodup_iff_pages Nat.one_pos).mpr ?_
    intro page page' i i' row row' hpage hpage' hrow hrow' hid
    refine hagree.once (onlyClassification text) (fun _ _ => true) 1 hnil Nat.one_pos page page'
      i i' (toDetails db row) (toDetails db row') hpage hpage' ?_ ?_ hid
    · rw [find_eq, List.getElem?_map, hrow, Option.map_some]
    · rw [find_eq, List.getElem?_map, hrow', Option.map_some]
  have hsub : (classifiedRows db text row).Sublist
      (((db.listed workspaceID).filter (matchesFilters db (onlyClassification text))).flatMap
        (classifiedRows db text)) := by
    refine List.sublist_flatten_of_mem ?_
    exact List.mem_map_of_mem
      (List.mem_filter.mpr ⟨hrow, matchesFilters_onlyClassification text row⟩)
  have hrows : ((classifiedRows db text row).map fun row => row.1.id).Nodup := by
    refine List.Nodup.sublist (hsub.map _) ?_
    rwa [listingRows, ((List.perm_insertionSort _ _).map _).nodup_iff] at hnodup
  have hsame : (classifiedRows db text row).map (fun row => row.1.id) =
      List.replicate (classifiedRows db text row).length row.1.id := by
    rw [List.eq_replicate_iff, List.length_map]
    refine ⟨rfl, fun id hid => ?_⟩
    obtain ⟨row', hrow', rfl⟩ := List.mem_map.mp hid
    rw [eq_of_mem_classifiedRows hrow']
  rw [hsame, List.nodup_replicate] at hrows
  exact hrows

/-- Where the views agree in whatever order the rows are, every release is unambiguous. -/
theorem unambiguous_of_agree (hagree : ∀ o, ViewsAgree o db workspaceID)
    (hrow : row ∈ db.listed workspaceID) : Unambiguous db row.1 := by
  have hrelease := (mem_listed_iff.mp hrow).1
  by_cases hnone : db.diffsOf row.1.id = []
  · exact Or.inl hnone
  by_cases hall : db.allAnalyses row.1.id = []
  · refine Or.inr (Or.inr ⟨?_, hall⟩)
    intro hcompleted
    have hcolumn : classificationColumn db row.1 = baseline := by
      rw [column_of_nil hall, if_pos hcompleted]
    exact hnone (((hagree ⟨.stored, .stored, .stored⟩).baselines row hrow).mp hcolumn).2
  obtain ⟨analysis, hanalysis⟩ := List.exists_mem_of_ne_nil _ hall
  obtain ⟨diff, hdiff, hmem⟩ := List.mem_flatMap.mp hanalysis
  have hcolumn := historyText_of_agree hagree hrow (lastOrder diff analysis)
  rw [historyText_lastOrder hrelease hdiff hmem] at hcolumn
  have hsome : ∀ diff' ∈ db.diffsOf row.1.id, db.analysesOf diff'.id ≠ [] := by
    intro diff' hdiff' hempty
    have hcolumn' := historyText_of_agree hagree hrow (lastOrder diff' analysis)
    rw [historyText_lastOrder_of_nil hrelease hdiff' hempty, ← hcolumn] at hcolumn'
    exact text_ne_nil _ hcolumn'.symm
  have hsame : ∀ analysis' ∈ db.allAnalyses row.1.id,
      analysis'.classification.text = analysis.classification.text := by
    intro analysis' hanalysis'
    obtain ⟨diff', hdiff', hmem'⟩ := List.mem_flatMap.mp hanalysis'
    have hcolumn' := historyText_of_agree hagree hrow (lastOrder diff' analysis')
    rw [historyText_lastOrder hrelease hdiff' hmem', ← hcolumn] at hcolumn'
    exact hcolumn'
  have hone := length_classifiedRows_le (hagree ⟨.stored, .stored, .stored⟩) hrow
    (text_ne_nil analysis.classification)
  rw [classifiedRows_of_text (text_ne_nil _) (text_ne_baseline _), List.length_map,
    List.filter_eq_self.mpr fun a ha => decide_eq_true (hsame a ha)] at hone
  obtain ⟨diff', analysis', hdiffs, hanalyses⟩ := exists_of_length_flatMap hone hsome hnone
  exact Or.inr (Or.inl ⟨diff', analysis', hdiffs, hanalyses⟩)

end Necessity

/-- The order in which the rows are stored. -/
def storedOrder : Order :=
  ⟨.stored, .stored, .stored⟩

/-- Two different values are a list without duplicates. -/
theorem nodup_pair {α : Type*} {a b : α} (h : a ≠ b) : [a, b].Nodup :=
  List.nodup_cons.mpr ⟨mt List.mem_singleton.mp h, List.nodup_singleton b⟩

/-- A release with one diff and two analyses by different providers. -/
def analysedTwice : Database where
  packages := [⟨1, 1, "left-pad".toList, "npm".toList, .active⟩]
  releases := [⟨1, 1, "1.0.1".toList, 10, .completed, 11⟩]
  diffs := [⟨1, 1, 12⟩]
  analyses := [⟨1, 1, .benign, 1, "a rename".toList, "m1".toList, "openai".toList, 13⟩,
    ⟨2, 1, .malicious, 1, "a backdoor".toList, "m2".toList, "anthropic".toList, 14⟩]
  packageIDs := List.nodup_singleton _
  releaseIDs := List.nodup_singleton _
  diffIDs := List.nodup_singleton _
  analysisIDs := nodup_pair (Nat.ne_of_lt (Nat.lt_succ_self 1))
  releaseTimes := List.nodup_singleton _
  diffTimes := List.nodup_singleton _
  analysisTimes := nodup_pair (Int.ne_of_lt (Int.lt_succ 13))

end Releases
end Veilence
