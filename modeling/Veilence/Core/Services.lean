import Veilence.Core.Repositories

/-!
# The core services

The package, release, dashboard and alert-note services, each operation with the checks, the
calls and the error texts of the source.  An operation that inspects an error gets it from
{lit}`Procedure.attempt`.

Definition {lit}`perform` runs an operation for a workspace; {lit}`Operation` lists them with
their arguments, the sort orders as {lit}`parseSort` reads them.
-/

namespace Veilence
namespace Core

open Go Foundation

variable (env : Env)

/-- Wrap the error of an operation. -/
def wrapped {α : Type} (text : String) (p : Op α) : Op α :=
  p.mapError (Failure.wrap text)

/-- Wrap the error of an operation, unless it is that nothing has been found. -/
def orNotFound {α : Type} (notFound other : String) (p : Op α) : Op α :=
  p.mapError (Failure.onNotFound notFound other)

/-! ## Packages -/

/-- {lit}`ImportEntry`. -/
structure ImportEntry where
  name : GoString
  ecosystem : GoString

/-- {lit}`ImportErrorEntry`. -/
structure ImportErrorEntry where
  name : GoString
  error : GoString
deriving DecidableEq

/-- {lit}`ImportResult`. -/
structure ImportResult where
  imported : Nat
  skipped : Nat
  errors : List ImportErrorEntry
deriving DecidableEq

/-- One more error of an import. -/
def ImportResult.failed (result : ImportResult) (name error : GoString) : ImportResult :=
  { result with errors := result.errors ++ [⟨name, error⟩] }

namespace PackageService

/-- {lit}`validatePackageExists`: the registry is asked, where there is one. -/
def validatePackageExists (name ecosystem : GoString) : Op Unit :=
  if name = [] ∨ 200 < name.length then
    Procedure.fail ⟨"invalid package name".toList, .validation⟩
  else
    match env.registries ecosystem with
    | none => pure ()
    | some getPackage =>
        Procedure.failIf (!getPackage name)
          ⟨"package ".toList ++ env.quote name ++ " not found on ".toList ++ ecosystem ++
            " registry".toList, .validation⟩

/-- {lit}`ListPackages`. -/
def listPackages (workspaceID : ID) (page limit : Int)
    (sortClause : List (SortTerm PackageColumn)) (filters : PackageFilters) :
    Op (List (Entry Package) × Nat) :=
  PackageRepo.findByWorkspaceID env workspaceID page limit sortClause filters

/-- {lit}`GetPackage`. -/
def getPackage (workspaceID pkgID : ID) : Op (Entry Package) :=
  orNotFound "" "" (PackageRepo.findByIDAndWorkspaceID env pkgID workspaceID)

/-- A package that is monitored from now on. -/
def newPackage (workspaceID : ID) (name ecosystem : GoString) (source : PackageSource) :
    Package :=
  { workspaceID, name, ecosystem, source
    latestVersion := []
    description := []
    status := .active
    downloadCount := 0
    downloadCountUpdatedAt := none
    blockedAt := none
    blockedReason := []
    createdAt := 0
    updatedAt := 0 }

/-- {lit}`CreatePackage`. -/
def createPackage (workspaceID : ID) (name ecosystem : GoString) : Op (Entry Package) := do
  validatePackageExists env name ecosystem
  let found ← wrapped "checking existence: "
    (PackageRepo.existsByWorkspaceAndName env workspaceID name ecosystem)
  Procedure.failIf found ⟨"package already monitored: ".toList, .conflict⟩
  let pkg ← PackageRepo.create env (newPackage workspaceID name ecosystem .manual)
  logAction env "create" "package" (some pkg.1)
    ("added ".toList ++ ecosystem ++ " package ".toList ++ env.quote name ++
      " to monitoring".toList)
  pure pkg

/-- The creation of a package in {lit}`ImportPackages`. -/
def importNew (workspaceID : ID) (result : ImportResult) (entry : ImportEntry) :
    Op ImportResult := do
  let created ← (PackageRepo.create env
    (newPackage workspaceID entry.name entry.ecosystem .imported)).attempt
  match created with
  | .error _ => pure (result.failed entry.name "failed to create package".toList)
  | .ok _ => pure { result with imported := result.imported + 1 }

/-- The check of a package in {lit}`ImportPackages` that is not monitored yet. -/
def importUnknown (workspaceID : ID) (result : ImportResult) (entry : ImportEntry) :
    Op ImportResult := do
  let valid ← (validatePackageExists env entry.name entry.ecosystem).attempt
  match valid with
  | .error _ =>
      pure (result.failed entry.name
        ("not found on ".toList ++ entry.ecosystem ++ " registry".toList))
  | .ok _ => importNew env workspaceID result entry

/-- An entry of {lit}`ImportPackages`. -/
def importEntry (workspaceID : ID) (result : ImportResult) (entry : ImportEntry) :
    Op ImportResult := do
  let found ← (PackageRepo.existsByWorkspaceAndName env workspaceID entry.name
    entry.ecosystem).attempt
  match found with
  | .error _ => pure (result.failed entry.name "failed to check existence".toList)
  | .ok true => pure { result with skipped := result.skipped + 1 }
  | .ok false => importUnknown env workspaceID result entry

/-- {lit}`ImportPackages`. -/
def importPackages (workspaceID : ID) (entries : List ImportEntry) : Op ImportResult :=
  Procedure.foldl (importEntry env workspaceID) ⟨0, 0, []⟩ entries

/-- What the audit log says of a package. -/
def about (pkg : Entry Package) : GoString :=
  env.quote pkg.2.name ++ " (".toList ++ pkg.2.ecosystem ++ ")".toList

/-- {lit}`BlockPackage`. -/
def blockPackage (workspaceID pkgID : ID) (reason : GoString) : Op (Entry Package) := do
  orNotFound "package " "blocking package: "
    (PackageRepo.blockPackage env workspaceID pkgID reason)
  let pkg ← wrapped "fetching blocked package: "
    (PackageRepo.findByIDAndWorkspaceID env pkgID workspaceID)
  logAction env "block" "package" (some pkgID)
    ("blocked package ".toList ++ about env pkg ++
      if reason = [] then [] else ": ".toList ++ reason)
  pure pkg

/-- {lit}`UnblockPackage`. -/
def unblockPackage (workspaceID pkgID : ID) : Op (Entry Package) := do
  orNotFound "package " "unblocking package: "
    (PackageRepo.unblockPackage env workspaceID pkgID)
  let pkg ← wrapped "fetching unblocked package: "
    (PackageRepo.findByIDAndWorkspaceID env pkgID workspaceID)
  logAction env "unblock" "package" (some pkgID)
    ("unblocked package ".toList ++ about env pkg)
  pure pkg

/-- {lit}`RemovePackage`. -/
def removePackage (workspaceID pkgID : ID) : Op Unit := do
  let pkg ← orNotFound "package " "fetching package: "
    (PackageRepo.findByIDAndWorkspaceID env pkgID workspaceID)
  orNotFound "package " "removing package: " (PackageRepo.removePackage env workspaceID pkgID)
  logAction env "remove" "package" (some pkgID)
    ("removed package ".toList ++ about env pkg ++ " from monitoring".toList)

/-- {lit}`ApprovePackage`. -/
def approvePackage (workspaceID pkgID : ID) : Op (Entry Package) := do
  orNotFound "package " "" (PackageRepo.approvePackage env workspaceID pkgID)
  let pkg ← wrapped "fetching approved package: "
    (PackageRepo.findByIDAndWorkspaceID env pkgID workspaceID)
  logAction env "approve" "package" (some pkgID)
    ("approved suggested package ".toList ++ about env pkg ++ " for monitoring".toList)
  triggerMonitoring env workspaceID
  pure pkg

/-- {lit}`RejectPackage`. -/
def rejectPackage (workspaceID pkgID : ID) : Op Unit := do
  let pkg ← orNotFound "package " "fetching package: "
    (PackageRepo.findByIDAndWorkspaceID env pkgID workspaceID)
  orNotFound "package " "" (PackageRepo.rejectPackage env workspaceID pkgID)
  logAction env "reject" "package" (some pkgID)
    ("rejected suggested package ".toList ++ about env pkg)

/-- What follows a bulk approval. -/
def approved (workspaceID : ID) (action all : String) (count : Nat) : Op Nat := do
  logAction env action "package" none
    (all.toList ++ itoa count ++ " suggested packages".toList)
  if 0 < count then triggerMonitoring env workspaceID else pure ()
  pure count

/-- {lit}`BulkApprovePackages`. -/
def bulkApprovePackages (workspaceID : ID) (pkgIDs : List ID) : Op Nat := do
  let count ← PackageRepo.bulkApprovePackages env workspaceID pkgIDs
  approved env workspaceID "bulk_approve" "bulk approved " count

/-- {lit}`BulkApproveAllSuggestions`. -/
def bulkApproveAllSuggestions (workspaceID : ID) : Op Nat := do
  let count ← PackageRepo.bulkApproveAllSuggestions env workspaceID
  approved env workspaceID "bulk_approve_all" "bulk approved all " count

/-- {lit}`ListSuggestions`. -/
def listSuggestions (workspaceID : ID) (page limit : Int)
    (sortClause : List (SortTerm PackageColumn)) (filters : PackageFilters) :
    Op (List (Entry Package) × Nat) :=
  PackageRepo.findSuggestionsByWorkspaceID env workspaceID page limit sortClause filters

/-- {lit}`ListStalePackages`. -/
def listStalePackages (workspaceID : ID) (staleBefore : Time) (page limit : Int)
    (sortClause : List (SortTerm PackageColumn)) (filters : PackageFilters) :
    Op (List (Entry Package × Option Time) × Nat) :=
  PackageRepo.findStaleByWorkspaceID env workspaceID staleBefore page limit sortClause filters

/-- {lit}`CountPackages`. -/
def countPackages (workspaceID : ID) : Op Nat :=
  PackageRepo.countByWorkspace env workspaceID

end PackageService

/-! ## Releases -/

/-- {lit}`ReleaseDetail`. -/
structure ReleaseDetail where
  release : Entry Release
  package : Entry Package
  diff : Option (Entry Diff)
  analysis : Option (Entry Analysis)
  isBaseline : Bool

/-- {lit}`AnalysisHistoryEntry`, with the analysis it is made from. -/
structure AnalysisHistoryEntry where
  releaseID : ID
  version : GoString
  classification : GoString
  analysis : Option Analysis
  analyzedAt : GoString
  publishedAt : GoString

namespace ReleaseService

/-- {lit}`ListByPackage`. -/
def listByPackage (workspaceID packageID : ID) (page limit : Int) :
    Op (List (Entry Release) × Nat) := do
  let _ ← orNotFound "" "verifying package: "
    (PackageRepo.findByIDAndWorkspaceID env packageID workspaceID)
  ReleaseRepo.findByPackageIDAndWorkspace env packageID workspaceID page limit

/-- The details of a release that has a diff. -/
def withDiff (found : Entry Release × Entry Package) (diff : Entry Diff) : Op ReleaseDetail := do
  let analyses ← (AnalysisRepo.findByDiffID env diff.1).attempt
  pure ⟨found.1, found.2, some diff, analyses.toOption.bind List.head?, false⟩

/-- {lit}`GetRelease`. -/
def getRelease (workspaceID releaseID : ID) : Op ReleaseDetail := do
  let found ← orNotFound "" ""
    (ReleaseRepo.findByIDWithPackageAndWorkspace env releaseID workspaceID)
  let diff ← (DiffRepo.findFirstByReleaseID env releaseID).attempt
  match diff with
  | .ok (some diff) => withDiff env found diff
  | _ => pure ⟨found.1, found.2, none, none, found.1.2.status = .completed⟩

/-- Set the status of a release and enqueue a job for it. -/
def requeue (workspaceID : ID) (found : Entry Release × Entry Package) (status : ReleaseStatus)
    (jobType : String) (referenceID : ID) : Op ID := do
  wrapped "updating status: " (ReleaseRepo.updateStatus env found.1.1 status)
  wrapped ("enqueue " ++ jobType ++ ": ")
    (enqueue env jobType workspaceID referenceID
      (some (found.2.2.name, found.1.2.version, found.2.2.ecosystem)))

/-- {lit}`ReanalyzeRelease`: a message and the ID of the job. -/
def reanalyzeRelease (workspaceID releaseID : ID) : Op (GoString × ID) := do
  Procedure.failIf (!env.hasQueue) ⟨"queue not configured".toList, .plain⟩
  let found ← orNotFound "" ""
    (ReleaseRepo.findByIDWithPackageAndWorkspace env releaseID workspaceID)
  let diff ← (DiffRepo.findFirstByReleaseID env found.1.1).attempt
  match diff with
  | .ok (some diff) => do
      let jobID ← requeue env workspaceID found .analyzing "analyze" diff.1
      pure ("release re-queued for analysis".toList, jobID)
  | _ => do
      let jobID ← requeue env workspaceID found .pending "diff" found.1.1
      pure ("release re-queued for diffing and analysis".toList, jobID)

/-- The entry of a release in the history. -/
def historyEntry (diffByRelease : Table ID (Entry Diff)) (analysisByDiff : Table ID (Entry Analysis))
    (rel : Entry Release) : Option AnalysisHistoryEntry :=
  match diffByRelease.get? rel.1 with
  | none =>
      if rel.2.status = .completed then
        some ⟨rel.1, rel.2.version, "baseline".toList, none, [], env.formatTime rel.2.publishedAt⟩
      else none
  | some d =>
      (analysisByDiff.get? d.1).map fun a =>
        ⟨rel.1, rel.2.version, a.2.classification.text, some a.2, env.formatTime a.2.createdAt,
          env.formatTime rel.2.publishedAt⟩

/-- {lit}`GetAnalysisHistory`. -/
def getAnalysisHistory (workspaceID packageID : ID) : Op (List AnalysisHistoryEntry) := do
  let _ ← orNotFound "" "verifying package: "
    (PackageRepo.findByIDAndWorkspaceID env packageID workspaceID)
  let releases ← wrapped "loading releases: " (ReleaseRepo.findByPackageIDAll env packageID)
  if releases = [] then pure []
  else do
    let diffs ← wrapped "loading diffs: "
      (DiffRepo.findByReleaseIDs env (releases.map Prod.fst))
    let analyses ← wrapped "loading analyses: "
      (AnalysisRepo.findByDiffIDs env (diffs.map Prod.fst))
    pure (releases.filterMap (historyEntry env (lastBy (fun d => d.2.releaseID) diffs)
      (lastBy (fun a => a.2.diffID) analyses)))

/-- {lit}`GetPipelineStatus`. -/
def getPipelineStatus (workspaceID : ID) : Op PipelineStatus :=
  wrapped "getting pipeline status: " (ReleaseRepo.countByWorkspaceAndStatus env workspaceID)

end ReleaseService

/-! ## The dashboard -/

/-- {lit}`ChartData`. -/
structure ChartData where
  releaseActivity : List (GoString × Nat)
  classifications : List (GoString × Nat)
  ecosystems : List (GoString × Nat)
  alertsBySeverity : List (AlertSeverity × Nat)
  releaseStatuses : List (ReleaseStatus × Nat)

namespace DashboardService

/-- {lit}`GetStats`. -/
def getStats (workspaceID : ID) : Op DashboardStats :=
  DashboardRepo.getStats env workspaceID

/-- {lit}`GetRecentReleases`. -/
def getRecentReleases (workspaceID : ID) (page limit : Int)
    (sortClause : List (SortTerm ReleaseColumn)) (filters : ReleaseFilters) :
    Op (List ReleaseWithDetails × Nat) :=
  ReleaseRepo.findByWorkspaceIDWithDetails env workspaceID page limit sortClause filters

/-- The days from one time to another. -/
def daysBetween (fromTime toTime : Time) : List Time :=
  if toTime < fromTime then []
  else (List.range (((toTime - fromTime) / 86400).toNat + 1)).map fun i => fromTime + 86400 * i

/-- A map that a loop fills, read at a key; the last row of a key counts. -/
def countAt {κ : Type} [DecidableEq κ] (rows : List (κ × Nat)) (k : κ) : Nat :=
  (rows.reverse.lookup k).getD 0

/-- {lit}`GetChartData`. -/
def getChartData (workspaceID : ID) (fromTime toTime : Time) : Op ChartData := do
  let activityRows ← wrapped "release activity: "
    (DashboardRepo.getReleaseActivity env workspaceID fromTime toTime)
  let dayMap := activityRows.map fun row => (env.formatDate row.1, row.2)
  let releaseActivity := (daysBetween fromTime toTime).map fun d =>
    (env.formatDate d, countAt dayMap (env.formatDate d))
  let classRows ← wrapped "classification dist: "
    (DashboardRepo.getClassificationDistribution env workspaceID fromTime toTime)
  let baselineCount ← wrapped "baseline count: "
    (DashboardRepo.getBaselineCount env workspaceID fromTime toTime)
  let classifications := classRows ++
    if 0 < baselineCount then [("baseline".toList, baselineCount)] else []
  let ecosystems ← wrapped "ecosystem dist: "
    (DashboardRepo.getEcosystemDistribution env workspaceID)
  let alertRows ← wrapped "alerts by severity: "
    (DashboardRepo.getAlertsBySeverity env workspaceID fromTime toTime)
  let alertsBySeverity := [.critical, .high, .medium, .low].map fun sev =>
    (sev, countAt alertRows sev)
  let releaseStatuses ← wrapped "release statuses: "
    (DashboardRepo.getReleaseStatusDistribution env workspaceID fromTime toTime)
  pure ⟨releaseActivity, classifications, ecosystems, alertsBySeverity, releaseStatuses⟩

/-- The loop of {lit}`ReanalyzeAll`: how many jobs have been queued, and the error that ended
it. -/
def enqueueAll (workspaceID : ID) : List ID → Nat → Op (Nat × Option Failure)
  | [], queued => pure (queued, none)
  | id :: ids, queued => do
      let job ← (enqueue env "analyze" workspaceID id none).attempt
      match job with
      | .error e =>
          pure (queued, some { e with
            text := "enqueue diff ".toList ++ env.showID id ++ ": ".toList ++ e.text })
      | .ok _ => enqueueAll workspaceID ids (queued + 1)

/-- {lit}`ReanalyzeAll`. -/
def reanalyzeAll (workspaceID : ID) : Op (Nat × Option Failure) := do
  Procedure.failIf (!env.hasQueue) ⟨"queue not configured".toList, .plain⟩
  let diffIDs ← DashboardRepo.getUnanalyzedDiffIDs env workspaceID
  enqueueAll env workspaceID diffIDs 0

end DashboardService

/-! ## Alert notes -/

namespace AlertNoteService

/-- {lit}`MaxNoteLength`. -/
def maxNoteLength : Nat :=
  10000

/-- The check that the alert is one of the workspace. -/
def verifyAlert (workspaceID alertID : ID) : Op (Entry Alert) :=
  orNotFound "alert " "verifying alert ownership: "
    (AlertRepo.findByIDAndWorkspaceID env alertID workspaceID)

/-- {lit}`ListByAlert`. -/
def listByAlert (workspaceID alertID : ID) : Op (List (Entry AlertNote)) := do
  let _ ← verifyAlert env workspaceID alertID
  (AlertNoteRepo.findByAlertID env alertID workspaceID).mapError fun e =>
    { e with text := "listing notes for alert ".toList ++ env.showID alertID ++ ": ".toList ++
      e.text }

/-- The checks of the content of a note. -/
def validateContent (content : GoString) : Op Unit := do
  Procedure.failIf (content = []) ⟨"content is required".toList, .plain⟩
  Procedure.failIf (maxNoteLength < content.length)
    ⟨"content must be at most 10000 characters".toList, .plain⟩

/-- {lit}`resolveUserEmail`: an empty text if the user is not found. -/
def resolveUserEmail (userID : ID) : Op GoString := do
  let user ← (UserRepo.findByID env userID).attempt
  pure ((user.toOption.map User.email).getD [])

/-- {lit}`Create`. -/
def create (workspaceID alertID userID : ID) (content : GoString) : Op (Entry AlertNote) := do
  validateContent content
  let _ ← verifyAlert env workspaceID alertID
  let userEmail ← resolveUserEmail env userID
  wrapped "creating alert note: " (AlertNoteRepo.create env
    { alertID, workspaceID, userID, userEmail, content, createdAt := 0, updatedAt := 0 })

/-- The note of an alert of the workspace, for its author. -/
def findOwn (workspaceID alertID noteID userID : ID) (forbidden : String) :
    Op (Entry AlertNote) := do
  let _ ← verifyAlert env workspaceID alertID
  let note ← orNotFound "alert note " "finding alert note: "
    (AlertNoteRepo.findByID env noteID workspaceID)
  Procedure.failIf (note.2.workspaceID ≠ workspaceID) ⟨"alert note ".toList, .notFound⟩
  Procedure.failIf (note.2.alertID ≠ alertID) ⟨"alert note ".toList, .notFound⟩
  Procedure.failIf (note.2.userID ≠ userID) ⟨forbidden.toList, .forbidden⟩
  pure note

/-- {lit}`Update`. -/
def update (workspaceID alertID noteID userID : ID) (content : GoString) :
    Op (Entry AlertNote) := do
  validateContent content
  let note ← findOwn env workspaceID alertID noteID userID
    "only the note author can edit: "
  wrapped "updating alert note: "
    (AlertNoteRepo.updateContent env (note.1, { note.2 with content }))

/-- {lit}`Delete`. -/
def delete (workspaceID alertID noteID userID : ID) : Op Unit := do
  let _ ← findOwn env workspaceID alertID noteID userID
    "only the note author can delete: "
  wrapped "deleting alert note: " (AlertNoteRepo.delete env noteID workspaceID)

end AlertNoteService

/-! ## Operations -/

/-- {lit}`parseSort`: the term of an allowed column, else the default. -/
def parseSort {Column : Type} (sortBy sortDir : GoString)
    (allowedColumns : List (GoString × Column)) (defaultSort : List (SortTerm Column)) :
    List (SortTerm Column) :=
  match allowedColumns.lookup sortBy with
  | none => defaultSort
  | some column => [⟨column, sortDir = "desc".toList⟩]

/-- The columns that {lit}`ListPackages` allows. -/
def packageColumns : List (GoString × PackageColumn) :=
  [("name".toList, .name), ("ecosystem".toList, .ecosystem),
    ("latestVersion".toList, .latestVersion), ("downloadCount".toList, .downloadCount),
    ("source".toList, .source), ("status".toList, .status), ("createdAt".toList, .createdAt)]

/-- The columns that {lit}`ListSuggestions` allows. -/
def suggestionColumns : List (GoString × PackageColumn) :=
  [("name".toList, .name), ("ecosystem".toList, .ecosystem),
    ("downloadCount".toList, .downloadCount)]

/-- The columns that {lit}`ListStalePackages` allows. -/
def staleColumns : List (GoString × PackageColumn) :=
  [("name".toList, .name), ("ecosystem".toList, .ecosystem),
    ("latestVersion".toList, .latestVersion), ("downloadCount".toList, .downloadCount),
    ("source".toList, .source), ("createdAt".toList, .createdAt)]

/-- The default order of packages. -/
def defaultPackageSort : List (SortTerm PackageColumn) :=
  [⟨.downloadCount, true⟩, ⟨.name, false⟩]

/-- The columns that {lit}`GetRecentReleases` allows. -/
def releaseColumns : List (GoString × ReleaseColumn) :=
  [("createdAt".toList, .createdAt), ("version".toList, .version),
    ("publishedAt".toList, .publishedAt), ("status".toList, .status),
    ("packageName".toList, .packageName), ("packageEcosystem".toList, .packageEcosystem)]

/-- The default order of releases. -/
def defaultReleaseSort : List (SortTerm ReleaseColumn) :=
  [⟨.createdAt, true⟩]

/-- The operations, with their arguments besides the workspace. -/
inductive Operation where
  | listPackages (page limit : Int) (sortBy sortDir : GoString) (filters : PackageFilters)
  | getPackage (pkgID : ID)
  | createPackage (name ecosystem : GoString)
  | importPackages (entries : List ImportEntry)
  | blockPackage (pkgID : ID) (reason : GoString)
  | unblockPackage (pkgID : ID)
  | removePackage (pkgID : ID)
  | approvePackage (pkgID : ID)
  | rejectPackage (pkgID : ID)
  | bulkApprovePackages (pkgIDs : List ID)
  | bulkApproveAllSuggestions
  | listSuggestions (page limit : Int) (sortBy sortDir : GoString) (filters : PackageFilters)
  | listStalePackages (staleBefore : Time) (page limit : Int) (sortBy sortDir : GoString)
      (filters : PackageFilters)
  | countPackages
  | listByPackage (packageID : ID) (page limit : Int)
  | getRelease (releaseID : ID)
  | reanalyzeRelease (releaseID : ID)
  | getAnalysisHistory (packageID : ID)
  | getPipelineStatus
  | getStats
  | getRecentReleases (page limit : Int) (sortBy sortDir : GoString) (filters : ReleaseFilters)
  | getChartData (fromTime toTime : Time)
  | reanalyzeAll
  | listByAlert (alertID : ID)
  | createNote (alertID userID : ID) (content : GoString)
  | updateNote (alertID noteID userID : ID) (content : GoString)
  | deleteNote (alertID noteID userID : ID)

/-- What an operation returns. -/
def Operation.Result : Operation → Type
  | .listPackages .. | .listSuggestions .. => List (Entry Package) × Nat
  | .getPackage _ | .createPackage .. | .blockPackage .. | .unblockPackage _
  | .approvePackage _ => Entry Package
  | .importPackages _ => ImportResult
  | .removePackage _ | .rejectPackage _ | .deleteNote .. => Unit
  | .bulkApprovePackages _ | .bulkApproveAllSuggestions | .countPackages => Nat
  | .listStalePackages .. => List (Entry Package × Option Time) × Nat
  | .listByPackage .. => List (Entry Release) × Nat
  | .getRelease _ => ReleaseDetail
  | .reanalyzeRelease _ => GoString × ID
  | .getAnalysisHistory _ => List AnalysisHistoryEntry
  | .getPipelineStatus => PipelineStatus
  | .getStats => DashboardStats
  | .getRecentReleases .. => List ReleaseWithDetails × Nat
  | .getChartData .. => ChartData
  | .reanalyzeAll => Nat × Option Failure
  | .listByAlert _ => List (Entry AlertNote)
  | .createNote .. | .updateNote .. => Entry AlertNote

/-- Perform an operation for a workspace. -/
def perform (w : ID) : (op : Operation) → Op op.Result
  | .listPackages page limit sortBy sortDir filters =>
      PackageService.listPackages env w page limit
        (parseSort sortBy sortDir packageColumns defaultPackageSort) filters
  | .getPackage pkgID => PackageService.getPackage env w pkgID
  | .createPackage name ecosystem => PackageService.createPackage env w name ecosystem
  | .importPackages entries => PackageService.importPackages env w entries
  | .blockPackage pkgID reason => PackageService.blockPackage env w pkgID reason
  | .unblockPackage pkgID => PackageService.unblockPackage env w pkgID
  | .removePackage pkgID => PackageService.removePackage env w pkgID
  | .approvePackage pkgID => PackageService.approvePackage env w pkgID
  | .rejectPackage pkgID => PackageService.rejectPackage env w pkgID
  | .bulkApprovePackages pkgIDs => PackageService.bulkApprovePackages env w pkgIDs
  | .bulkApproveAllSuggestions => PackageService.bulkApproveAllSuggestions env w
  | .listSuggestions page limit sortBy sortDir filters =>
      PackageService.listSuggestions env w page limit
        (parseSort sortBy sortDir suggestionColumns defaultPackageSort) filters
  | .listStalePackages staleBefore page limit sortBy sortDir filters =>
      PackageService.listStalePackages env w staleBefore page limit
        (parseSort sortBy sortDir staleColumns defaultPackageSort) filters
  | .countPackages => PackageService.countPackages env w
  | .listByPackage packageID page limit =>
      ReleaseService.listByPackage env w packageID page limit
  | .getRelease releaseID => ReleaseService.getRelease env w releaseID
  | .reanalyzeRelease releaseID => ReleaseService.reanalyzeRelease env w releaseID
  | .getAnalysisHistory packageID => ReleaseService.getAnalysisHistory env w packageID
  | .getPipelineStatus => ReleaseService.getPipelineStatus env w
  | .getStats => DashboardService.getStats env w
  | .getRecentReleases page limit sortBy sortDir filters =>
      DashboardService.getRecentReleases env w page limit
        (parseSort sortBy sortDir releaseColumns defaultReleaseSort) filters
  | .getChartData fromTime toTime => DashboardService.getChartData env w fromTime toTime
  | .reanalyzeAll => DashboardService.reanalyzeAll env w
  | .listByAlert alertID => AlertNoteService.listByAlert env w alertID
  | .createNote alertID userID content => AlertNoteService.create env w alertID userID content
  | .updateNote alertID noteID userID content =>
      AlertNoteService.update env w alertID noteID userID content
  | .deleteNote alertID noteID userID =>
      AlertNoteService.delete env w alertID noteID userID

end Core
end Veilence
