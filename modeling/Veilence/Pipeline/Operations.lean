import Veilence.Pipeline.Registry

/-!
# The operations of the release pipeline

A poll of a package, the processing of a diff job and of an analyze job,
{lit}`ReanalyzeRelease` and {lit}`recoverStuckReleases`, each as a program of single
calls.  A failing call does not end an operation by itself: the code decides, and at
several places it goes on.

A job that a worker processes runs until its handler returns; without an error the job is
then removed from the queue, otherwise, and when the worker dies, it is idle again.
-/

namespace Veilence
namespace Pipeline

open Go Foundation

/-- What an operation returns: nothing, or an error with the text it begins with. -/
inductive Result where
  | ok
  | error (message : GoString)
deriving DecidableEq

/-! ## Polling a package -/

/-- The versions that a poll considers: those published after the latest known release,
or the two newest when no release is known. -/
def newVersions (latestKnownRelease : Option Release) (versions : List RegistryVersionInfo) :
    List RegistryVersionInfo :=
  match latestKnownRelease with
  | some known =>
      versions.filter fun v => known.publishedAt < v.publishedAt ∧ v.version ≠ known.version
  | none => versions.take 2

/-- The versions, the oldest first. -/
def oldestFirst (versions : List RegistryVersionInfo) : List RegistryVersionInfo :=
  versions.insertionSort fun a b => a.publishedAt ≤ b.publishedAt

/-- The row that a poll creates for a version. -/
def releaseOf (packageID : Nat) (v : RegistryVersionInfo) : Release :=
  { packageID := packageID
    version := v.version
    publishedAt := v.publishedAt
    tarballURL := v.tarballURL
    status := .pending
    errorMessage := [] }

/-- The loop over the new versions.  Whatever fails, the next version follows. -/
def createReleases (packageID : Nat) : List RegistryVersionInfo → Body Result
  | [] => return .ok
  | v :: versions => do
      match ← send (.findReleaseByPackageAndVersion packageID v.version) with
      | some none =>
          match ← send (.createRelease (releaseOf packageID v)) with
          | none => createReleases packageID versions
          | some id =>
              let _ ← send (.enqueue (.diff id))
              createReleases packageID versions
      | _ => createReleases packageID versions

/-- {lit}`checkPackageForNewReleases`.  A failing lookup of the latest release counts as
no known release. -/
def checkPackageForNewReleases (cfg : Config) (packageID : Nat) (pkg : Package) :
    Body Result := do
  match ← getPackage cfg pkg with
  | none => return .error "fetching package info".toList
  | some [] => return .ok
  | some versions =>
      let latestKnownRelease ← send (.findLatestRelease packageID)
      createReleases packageID
        (oldestFirst (newVersions (latestKnownRelease.getD none) versions))

/-! ## Diff jobs -/

/-- Mark a release as failed and return the error. -/
def markError (releaseID : Nat) (message : GoString) : Body Result := do
  let _ ← send (.updateReleaseError releaseID message)
  return .error message

/-- The part of {lit}`ProcessRelease` with a previous release: download, extract and
compare the archives, store the diff and queue its analysis. -/
def diffAgainst (cfg : Config) (releaseID : Nat) (release : Release) (pkg : Package)
    (prevReleaseID : Nat) (prevRelease : Release) : Body Result := do
  if cfg.clients pkg.ecosystem = false then return .error "unknown ecosystem".toList
  else
    match ← send (.downloadTarball release.tarballURL) with
    | none => markError releaseID "downloading new tarball".toList
    | some _ =>
    match ← send (.downloadTarball prevRelease.tarballURL) with
    | none => markError releaseID "downloading previous tarball".toList
    | some _ =>
    match ← send (.extractArchive release.tarballURL) with
    | none => markError releaseID "extracting new tarball".toList
    | some _ =>
    match ← send (.extractArchive prevRelease.tarballURL) with
    | none => markError releaseID "extracting previous tarball".toList
    | some _ =>
    match ← send (.generateDiff prevRelease.tarballURL release.tarballURL) with
    | none => markError releaseID "generating diff".toList
    | some _ =>
    match ← send (.createDiff releaseID prevReleaseID) with
    | none => markError releaseID "saving diff".toList
    | some diffID =>
        let _ ← send (.updateReleaseStatus releaseID .analyzing)
        match ← send (.enqueue (.analyze diffID)) with
        | none => return .error "enqueuing analyze job".toList
        | some _ => return .ok

/-- {lit}`ProcessRelease`.  A failing lookup of the previous release counts as no previous
release, and the error of the status update is not looked at. -/
def processRelease (cfg : Config) (releaseID : Nat) : Body Result := do
  match ← send (.findReleaseByIDWithPackage releaseID) with
  | some (some (release, pkg)) =>
      let _ ← send (.updateReleaseStatus releaseID .diffing)
      match ← send (.findPreviousCompletedRelease release.packageID release.publishedAt) with
      | some (some (prevReleaseID, prevRelease)) =>
          diffAgainst cfg releaseID release pkg prevReleaseID prevRelease
      | _ =>
          let _ ← send (.updateReleaseStatus releaseID .completed)
          return .ok
  | _ => return .error "loading release".toList

/-! ## Analyze jobs -/

/-- The severity of the alert for a classification, if there is one. -/
def alertSeverity : Classification → Option AlertSeverity
  | .benign => none
  | .suspicious => some .medium
  | .malicious => some .critical

/-- Create the alert for a classification. -/
def createAlertFor (releaseID : Nat) (classification : Classification) : Body Unit := do
  match alertSeverity classification with
  | none => return ()
  | some severity =>
      let _ ← send (.createAlert releaseID severity)
      return ()

/-- The loop over the providers, with whether an analysis was created so far. -/
def analyzeWith (diffID : DiffID) (analysisCreated : Bool) : List GoString → Body Bool
  | [] => return analysisCreated
  | provider :: providers => do
      match ← send (.analyze provider diffID) with
      | none => analyzeWith diffID analysisCreated providers
      | some classification =>
          match ← send (.createAnalysis diffID classification) with
          | none => analyzeWith diffID analysisCreated providers
          | some _ =>
              createAlertFor diffID.release classification
              analyzeWith diffID true providers

/-- {lit}`ProcessDiff`.  The error of the last status update is only logged. -/
def processDiff (cfg : Config) (diffID : DiffID) : Body Result := do
  match ← send (.findDiffWithRelease diffID) with
  | some (some (diff, _)) =>
      match ← send (.findReleaseByID diff.prevReleaseID) with
      | some (some _) =>
          match ← analyzeWith diffID false cfg.providers with
          | false => return .error "all providers failed".toList
          | true =>
              let _ ← send (.updateReleaseStatus diffID.release .completed)
              return .ok
      | _ => return .error "loading previous release".toList
  | _ => return .error "loading diff".toList

/-! ## Requeueing releases -/

/-- {lit}`ReanalyzeRelease`. -/
def reanalyzeRelease (workspaceID : GoString) (releaseID : Nat) : Body Result := do
  match ← send (.findByIDWithPackageAndWorkspace releaseID workspaceID) with
  | some (some _) =>
      match ← send (.findFirstByReleaseID releaseID) with
      | some (some diffID) =>
          match ← send (.updateReleaseStatus releaseID .analyzing) with
          | none => return .error "updating status".toList
          | some _ =>
              match ← send (.enqueue (.analyze diffID)) with
              | none => return .error "enqueue analyze".toList
              | some _ => return .ok
      | _ =>
          match ← send (.updateReleaseStatus releaseID .pending) with
          | none => return .error "updating status".toList
          | some _ =>
              match ← send (.enqueue (.diff releaseID)) with
              | none => return .error "enqueue diff".toList
              | some _ => return .ok
  | _ => return .error "not found".toList

/-- One release in {lit}`recoverStuckReleases`.  Errors of queries and updates are not
looked at: a failing query finds nothing. -/
def recoverRelease (releaseID : Nat) (release : Release) : Body Unit := do
  match release.status with
  | .diffing =>
      let _ ← send (.updateReleaseStatus releaseID .pending)
      let _ ← send (.enqueue (.diff releaseID))
      return ()
  | .analyzing =>
      match ← send (.findFirstByReleaseID releaseID) with
      | some (some diffID) =>
          let analysisCount ← send (.countAnalyses diffID)
          if analysisCount.getD 0 = 0 then
            let _ ← send (.enqueue (.analyze diffID))
            return ()
          else
            let _ ← send (.updateReleaseStatus releaseID .completed)
            return ()
      | _ =>
          let _ ← send (.updateReleaseStatus releaseID .pending)
          let _ ← send (.enqueue (.diff releaseID))
          return ()
  | _ => return ()

/-- The loop of {lit}`recoverStuckReleases`. -/
def recoverReleases : List (Nat × Release) → Body Result
  | [] => return .ok
  | (releaseID, release) :: stuck => do
      recoverRelease releaseID release
      recoverReleases stuck

/-- {lit}`recoverStuckReleases`. -/
def recoverStuckReleases : Body Result := do
  let stuck ← send .findStuckReleases
  recoverReleases (stuck.getD [])

/-! ## The system -/

/-- The operations. -/
inductive Op where
  | poll (packageID : Nat) (pkg : Package)
  | processRelease (jobID releaseID : Nat)
  | processDiff (jobID : Nat) (diffID : DiffID)
  | reanalyzeRelease (workspaceID : GoString) (releaseID : Nat)
  | recoverStuckReleases
deriving DecidableEq

/-- The job that an operation processes. -/
def Op.job : Op → Option (Nat × JobRef)
  | .processRelease jobID releaseID => some (jobID, .diff releaseID)
  | .processDiff jobID diffID => some (jobID, .analyze diffID)
  | _ => none

/-- The body of an operation. -/
def bodyOf (cfg : Config) : Op → Body Result
  | .poll packageID pkg => checkPackageForNewReleases cfg packageID pkg
  | .processRelease _ releaseID => processRelease cfg releaseID
  | .processDiff _ diffID => processDiff cfg diffID
  | .reanalyzeRelease workspaceID releaseID => reanalyzeRelease workspaceID releaseID
  | .recoverStuckReleases => recoverStuckReleases

/-- A poll is about a stored package, a worker takes an idle job. -/
def State.enabled (s : State) : Op → Prop
  | .poll packageID pkg => s.packages.get? packageID = some pkg
  | op => ∀ jobID ref, op.job = some (jobID, ref) → s.queue.get? jobID = some ⟨ref, false⟩

instance (s : State) (op : Op) : Decidable (s.enabled op) :=
  match op with
  | .poll _ _ => inferInstanceAs (Decidable (_ = _))
  | .processRelease jobID releaseID =>
      decidable_of_iff (s.queue.get? jobID = some ⟨.diff releaseID, false⟩) <| by
        simp [State.enabled, Op.job]
  | .processDiff jobID diffID =>
      decidable_of_iff (s.queue.get? jobID = some ⟨.analyze diffID, false⟩) <| by
        simp [State.enabled, Op.job]
  | .reanalyzeRelease _ _ | .recoverStuckReleases =>
      isTrue <| by simp [State.enabled, Op.job]

/-- Mark the job of an operation as running or idle. -/
def State.setRunning (s : State) (op : Op) (running : Bool) : State :=
  match op.job with
  | none => s
  | some (jobID, _) =>
      { s with queue := s.queue.modify jobID fun job => { job with running := running } }

/-- The end of an operation: without an error its job is removed, otherwise idle. -/
def State.done (s : State) (op : Op) : Result → State
  | .error _ => s.setRunning op false
  | .ok =>
      match op.job with
      | none => s
      | some (jobID, _) => { s with queue := s.queue.remove jobID }

/-- The outside services change, and packages are added. -/
inductive Env : State → State → Prop where
  | outside {s : State} (outside : Outside) : Env s { s with outside := outside }
  | package {s : State} {packageID : Nat} (hnew : s.packages.get? packageID = none)
      (pkg : Package) : Env s { s with packages := s.packages.insert packageID pkg }

/-- The release pipeline.  Every call can fail. -/
def pipelineSystem (cfg : Config) : System State Op Call Answer Result where
  body := bodyOf cfg
  exec := State.exec
  fallible _ := true
  sticky := false
  enabled := State.enabled
  begin s op := s.setRunning op true
  done := State.done
  stop s op := s.setRunning op false
  env := Env

instance (cfg : Config) (s : State) (op : Op) : Decidable ((pipelineSystem cfg).enabled s op) :=
  inferInstanceAs (Decidable (s.enabled op))

/-- A state of the pipeline with its operations. -/
abbrev PipelineWorld := World State Op Call Answer Result

/-- The pipeline before the first operation. -/
def start (packages : Table Nat Package) (outside : Outside) : PipelineWorld :=
  .initial (.initial packages outside)

/-! ## One package with one version -/

/-- The configuration with one provider and all clients. -/
def defaultConfig : Config :=
  ⟨fun _ => true, ["claude".toList], fun name version => name ++ version⟩

/-- A package on npm. -/
def onePackage : Package :=
  ⟨"w".toList, "p".toList, .npm⟩

/-- The first version of the package. -/
def firstVersion : RegistryVersionInfo :=
  ⟨"1.0.0".toList, 1, "p/1.0.0".toList⟩

/-- The registry that lists the first version, with providers that find everything
benign. -/
def oneVersionOutside : Outside where
  listed _ _ := [firstVersion]
  goList _ := []
  goTime _ _ := 0
  verdict _ _ := .benign

/-- The pipeline that monitors the package. -/
def monitoring : PipelineWorld :=
  start (.single 0 onePackage) oneVersionOutside

end Pipeline
end Veilence
