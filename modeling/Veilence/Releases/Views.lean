import Veilence.Foundation.Selection
import Veilence.Go.Url

/-!
# Views on the releases of a workspace

The releases, diffs and analyses of the database, and the three places that show what a release
has been classified as: the details of a release, the history of a package and the listing of a
workspace.
-/

namespace Veilence
namespace Releases

open Go Foundation

/-! ## Tables -/

/-- {lit}`ReleaseStatus`, without the virtual one. -/
inductive ReleaseStatus where
  | pending
  | diffing
  | analyzing
  | completed
  | error
deriving DecidableEq

/-- The status of a package. -/
inductive PackageStatus where
  | active
  | blocked
  | suggested
  | removed
deriving DecidableEq

/-- The classifications that an analysis can have. -/
inductive Classification where
  | benign
  | suspicious
  | malicious
deriving DecidableEq

/-- The text of a classification. -/
def Classification.text : Classification → GoString
  | .benign => "benign".toList
  | .suspicious => "suspicious".toList
  | .malicious => "malicious".toList

/-- The classification of a completed release without a diff. -/
def baseline : GoString :=
  "baseline".toList

/-- A package. -/
structure Package where
  id : Nat
  workspaceID : Nat
  name : GoString
  ecosystem : GoString
  status : PackageStatus
deriving DecidableEq

/-- A release. -/
structure Release where
  id : Nat
  packageID : Nat
  version : GoString
  publishedAt : Int
  status : ReleaseStatus
  createdAt : Int
deriving DecidableEq

/-- A diff. -/
structure Diff where
  id : Nat
  releaseID : Nat
  createdAt : Int
deriving DecidableEq

/-- An analysis of a diff. -/
structure Analysis where
  id : Nat
  diffID : Nat
  classification : Classification
  confidence : ℚ
  reasoning : GoString
  modelUsed : GoString
  analyzerType : GoString
  createdAt : Int
deriving DecidableEq

/-- The tables: their IDs are unique, and so are the times of creation within each. -/
structure Database where
  packages : List Package
  releases : List Release
  diffs : List Diff
  analyses : List Analysis
  packageIDs : (packages.map Package.id).Nodup
  releaseIDs : (releases.map Release.id).Nodup
  diffIDs : (diffs.map Diff.id).Nodup
  analysisIDs : (analyses.map Analysis.id).Nodup
  releaseTimes : (releases.map Release.createdAt).Nodup
  diffTimes : (diffs.map Diff.createdAt).Nodup
  analysisTimes : (analyses.map Analysis.createdAt).Nodup

/-- The order of the rows of the three queries that do not ask for one. -/
structure Order where
  findByDiffID : RowOrder Analysis
  findByReleaseIDs : RowOrder Diff
  findByDiffIDs : RowOrder Analysis

/-! ## Queries -/

section Queries

variable (db : Database)

/-- {lit}`FindByIDWithPackageAndWorkspace`. -/
def findByIDWithPackageAndWorkspace (id workspaceID : Nat) : Option (Release × Package) := do
  let release ← db.releases.find? fun release =>
    release.id = id ∧ (db.packages.any fun pkg =>
      pkg.id = release.packageID ∧ pkg.workspaceID = workspaceID)
  let pkg ← db.packages.find? fun pkg =>
    pkg.id = release.packageID ∧ pkg.workspaceID = workspaceID
  return (release, pkg)

/-- {lit}`FindByIDAndWorkspaceID`. -/
def findByIDAndWorkspaceID (id workspaceID : Nat) : Option Package :=
  db.packages.find? fun pkg => pkg.id = id ∧ pkg.workspaceID = workspaceID

/-- The diffs of a release. -/
def Database.diffsOf (releaseID : Nat) : List Diff :=
  db.diffs.filter fun diff => diff.releaseID = releaseID

/-- The analyses of a diff. -/
def Database.analysesOf (diffID : Nat) : List Analysis :=
  db.analyses.filter fun analysis => analysis.diffID = diffID

/-- {lit}`FindFirstByReleaseID`. -/
def findFirstByReleaseID (releaseID : Nat) : Option Diff :=
  ((db.diffsOf releaseID).insertionSort fun d d' => d.createdAt ≤ d'.createdAt).head?

/-- {lit}`FindByDiffID`. -/
def findByDiffID (o : Order) (diffID : Nat) : List Analysis :=
  o.findByDiffID.order (db.analysesOf diffID)

/-- {lit}`FindByPackageIDAll`. -/
def findByPackageIDAll (packageID : Nat) : List Release :=
  (db.releases.filter fun release => release.packageID = packageID).insertionSort
    fun release release' => release'.createdAt ≤ release.createdAt

/-- {lit}`FindByReleaseIDs`. -/
def findByReleaseIDs (o : Order) (releaseIDs : List Nat) : List Diff :=
  o.findByReleaseIDs.order (db.diffs.filter fun diff => diff.releaseID ∈ releaseIDs)

/-- {lit}`FindByDiffIDs`. -/
def findByDiffIDs (o : Order) (diffIDs : List Nat) : List Analysis :=
  o.findByDiffIDs.order (db.analyses.filter fun analysis => analysis.diffID ∈ diffIDs)

end Queries

/-! ## The details of a release -/

/-- {lit}`ReleaseDetail`. -/
structure ReleaseDetail where
  release : Release
  package : Package
  diff : Option Diff
  analysis : Option Analysis
  isBaseline : Bool
deriving DecidableEq

/-- {lit}`GetRelease`. -/
def getRelease (o : Order) (db : Database) (workspaceID releaseID : Nat) :
    Option ReleaseDetail := do
  let (release, pkg) ← findByIDWithPackageAndWorkspace db releaseID workspaceID
  match findFirstByReleaseID db releaseID with
  | some diff =>
      return ⟨release, pkg, some diff, (findByDiffID db o diff.id).head?, false⟩
  | none => return ⟨release, pkg, none, none, release.status = .completed⟩

/-- The classification that the details show, empty if they show none. -/
def ReleaseDetail.classification (detail : ReleaseDetail) : GoString :=
  match detail.analysis with
  | some analysis => analysis.classification.text
  | none => if detail.isBaseline then baseline else []

/-! ## The history of a package -/

/-- {lit}`AnalysisHistoryEntry`, with the analysis it is made from. -/
structure AnalysisHistoryEntry where
  releaseID : Nat
  version : GoString
  classification : GoString
  analysis : Option Analysis
  publishedAt : Int
deriving DecidableEq

/-- The entry of a release. -/
def historyEntry (diffByRelease : Table Nat Diff) (analysisByDiff : Table Nat Analysis)
    (release : Release) : Option AnalysisHistoryEntry :=
  match diffByRelease.get? release.id with
  | none =>
      if release.status = .completed then
        some ⟨release.id, release.version, baseline, none, release.publishedAt⟩
      else none
  | some diff =>
      match analysisByDiff.get? diff.id with
      | none => none
      | some analysis =>
          some ⟨release.id, release.version, analysis.classification.text, some analysis,
            release.publishedAt⟩

/-- {lit}`GetAnalysisHistory`. -/
def getAnalysisHistory (o : Order) (db : Database) (workspaceID packageID : Nat) :
    Option (List AnalysisHistoryEntry) := do
  let _ ← findByIDAndWorkspaceID db packageID workspaceID
  let releases := findByPackageIDAll db packageID
  let diffs := findByReleaseIDs db o (releases.map Release.id)
  let analyses := findByDiffIDs db o (diffs.map Diff.id)
  return releases.filterMap
    (historyEntry (lastBy Diff.releaseID diffs) (lastBy Analysis.diffID analyses))

/-- The classification that the history shows for a release, empty if it shows none. -/
def historyClassification (entries : List AnalysisHistoryEntry) (releaseID : Nat) : GoString :=
  ((entries.find? fun entry => entry.releaseID = releaseID).map
    AnalysisHistoryEntry.classification).getD []

/-! ## The listing of a workspace -/

/-- {lit}`ReleaseFilters`.  Every status but the virtual one stands for itself. -/
structure ReleaseFilters where
  ecosystem : Option GoString
  statuses : Option (List ReleaseStatus)
  search : GoString
  classification : GoString
  latestPerPackage : Bool

/-- {lit}`ReleaseWithDetails`. -/
structure ReleaseWithDetails where
  release : Release
  packageName : GoString
  packageEcosystem : GoString
  classification : GoString
deriving DecidableEq

section Listing

variable (db : Database)

/-- The releases of the active packages of a workspace. -/
def Database.listed (workspaceID : Nat) : List (Release × Package) :=
  db.releases.flatMap fun release =>
    (db.packages.filter fun pkg =>
      pkg.id = release.packageID ∧ pkg.workspaceID = workspaceID ∧ pkg.status = .active).map
        fun pkg => (release, pkg)

/-- The release is the latest one of its package. -/
def isLatest (release : Release) : Bool :=
  ((db.releases.filter fun other => other.packageID = release.packageID).insertionSort
    fun r r' => r'.createdAt ≤ r.createdAt).head?.any fun other => other.id = release.id

/-- The conditions of the filters that do not speak of the classification. -/
def matchesFilters (filters : ReleaseFilters) (row : Release × Package) : Bool :=
  (filters.ecosystem.all fun ecosystem => row.2.ecosystem = ecosystem) &&
    (filters.statuses.all fun statuses => row.1.status ∈ statuses) &&
    contains (toLower row.2.name) (toLower filters.search) &&
    (!filters.latestPerPackage || isLatest db row.1)

/-- The rows of a release in a listing with a classification: one for each joined analysis of
that classification, for the baseline the release itself, without a classification too. -/
def classifiedRows (classification : GoString) (row : Release × Package) :
    List (Release × Package) :=
  if classification = [] then [row]
  else if classification = baseline then
    if row.1.status = .completed ∧ db.diffsOf row.1.id = [] then [row] else []
  else
    ((db.diffsOf row.1.id).flatMap fun diff =>
      (db.analysesOf diff.id).filter fun analysis =>
        analysis.classification.text = classification).map fun _ => row

/-- The analyses of all diffs of a release. -/
def Database.allAnalyses (releaseID : Nat) : List Analysis :=
  (db.diffsOf releaseID).flatMap fun diff => db.analysesOf diff.id

/-- The classification column of a release. -/
def classificationColumn (release : Release) : GoString :=
  match ((db.allAnalyses release.id).insertionSort
      fun a a' => a'.createdAt ≤ a.createdAt).head? with
  | some analysis => analysis.classification.text
  | none => if release.status = .completed then baseline else []

/-- The row of the listing. -/
def toDetails (row : Release × Package) : ReleaseWithDetails :=
  ⟨row.1, row.2.name, row.2.ecosystem, classificationColumn db row.1⟩

/-- All rows of the listing, in the order of the sort clause. -/
def listingRows (workspaceID : Nat) (sortClause : Release × Package → Release × Package → Bool)
    (filters : ReleaseFilters) : List (Release × Package) :=
  (((db.listed workspaceID).filter (matchesFilters db filters)).flatMap
    (classifiedRows db filters.classification)).insertionSort fun row row' =>
      sortClause row row' = true

/-- {lit}`FindByWorkspaceIDWithDetails`: a page of the listing and the total. -/
def findByWorkspaceIDWithDetails (workspaceID page limit : Nat)
    (sortClause : Release × Package → Release × Package → Bool) (filters : ReleaseFilters) :
    List ReleaseWithDetails × Nat :=
  let rows := listingRows db workspaceID sortClause filters
  if rows.length = 0 then ([], 0)
  else ((pageOf rows page limit).map (toDetails db), rows.length)

end Listing

end Releases
end Veilence
