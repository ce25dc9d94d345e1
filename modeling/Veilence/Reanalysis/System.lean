import Veilence.Core.Database
import Veilence.Pipeline.Operations

/-!
# Re-analysing diffs while the workers run

{lit}`ReanalyzeAll` beside the workers that process diff jobs and analyze jobs, with the rows by
which it chooses the diffs: the status of a package, and the analyses with their providers.

The queue keeps a job from its {lit}`Enqueue` until it is completed.  A failed job is pending
again or, after too many attempts, dead.  A request queues jobs without metadata, and only the
calls of requests can fail.  Jobs are not taken from workers that are still at work.
-/

namespace Veilence
namespace Reanalysis

open Go Foundation

open Pipeline (Ecosystem Release ReleaseStatus Classification AlertSeverity alertSeverity
  latestPublished)

/-! ## Rows -/

/-- A package with its monitoring status. -/
structure Package extends Pipeline.Package where
  status : Core.PackageStatus
deriving DecidableEq

/-- A stored diff. -/
structure Diff where
  releaseID : Nat
  prevReleaseID : Nat
deriving DecidableEq

/-- The assessment of a diff by a provider. -/
structure Analysis where
  diffID : Nat
  classification : Classification
  analyzerType : GoString
deriving DecidableEq

/-- An alert; the analysis that it is about can have been removed. -/
structure Alert where
  workspaceID : GoString
  analysisID : Option Nat
  releaseID : Nat
  packageID : Nat
  severity : AlertSeverity
deriving DecidableEq

/-- The job type with the reference ID. -/
inductive JobRef where
  | diff (releaseID : Nat)
  | analyze (diffID : Nat)
deriving DecidableEq

/-- The diff that a job names. -/
def JobRef.diffID : JobRef → Option Nat
  | .diff _ => none
  | .analyze diffID => some diffID

/-- The metadata of a job. -/
structure JobMetadata where
  package : GoString
  version : GoString
  ecosystem : Ecosystem
deriving DecidableEq

/-- The status of a job that is in the queue. -/
inductive JobStatus where
  | pending
  | processing
  | dead
deriving DecidableEq

/-- A job in the queue. -/
structure Job where
  ref : JobRef
  workspaceID : GoString
  metadata : Option JobMetadata
  status : JobStatus
  attempts : Nat
  maxAttempts : Nat
deriving DecidableEq

/-! ## The state -/

/-- The database with two of its foreign keys, the queue with its number of attempts, and what
the providers answer at the moment. -/
structure State where
  packages : Table Nat Package
  releases : Ledger Release
  diffs : Table Nat Diff
  analyses : Ledger Analysis
  alerts : Ledger Alert
  queue : Ledger Job
  maxAttempts : Nat
  verdict : GoString → Nat → Classification
  prevRelease_isSome : ∀ id diff, diffs.get? id = some diff →
    (releases.get? diff.prevReleaseID).isSome = true
  analysis_isSome : ∀ id alert a, alerts.get? id = some alert → alert.analysisID = some a →
    (analyses.get? a).isSome = true

/-! ## Queries -/

/-- A release with its package. -/
def State.releaseWithPackage (s : State) (id : Nat) : Option (Release × Package) :=
  (s.releases.get? id).bind fun release =>
    (s.packages.get? release.packageID).map fun pkg => (release, pkg)

/-- A diff with its release and its package. -/
def State.diffWithRelease (s : State) (id : Nat) : Option (Diff × Release × Package) :=
  (s.diffs.get? id).bind fun diff =>
    (s.releaseWithPackage diff.releaseID).map fun found => (diff, found)

/-- The latest completed release of a package before a publish time. -/
def State.previousCompleted (s : State) (packageID : Nat) (before : Int) :
    Option (Nat × Release) :=
  latestPublished <| s.releases.rows.entries.filter fun e =>
    e.2.packageID = packageID ∧ e.2.status = .completed ∧ e.2.publishedAt < before

/-- The diff has an analysis. -/
def Analyzed (s : State) (diffID : Nat) : Prop :=
  ∃ id a, s.analyses.get? id = some a ∧ a.diffID = diffID

/-- The diff is one of an active package of the workspace. -/
def Eligible (s : State) (workspaceID : GoString) (diffID : Nat) : Prop :=
  ∃ diff release pkg, s.diffWithRelease diffID = some (diff, release, pkg) ∧
    pkg.workspaceID = workspaceID ∧ pkg.status = .active

/-- The rows of {lit}`GetUnanalyzedDiffIDs`. -/
def State.unanalyzedDiffIDs (s : State) (workspaceID : GoString) : List Nat :=
  s.diffs.keys.filter fun id =>
    (s.diffWithRelease id).any (fun found =>
      found.2.2.workspaceID = workspaceID ∧ found.2.2.status = .active) &&
      !s.analyses.rows.entries.any fun e => e.2.diffID = id

/-- An ID for a new diff, which neither a diff has nor a job names. -/
def State.freshDiffID (s : State) : Nat :=
  (s.diffs.keys ++ s.queue.rows.entries.filterMap fun e => e.2.ref.diffID).foldr max 0 + 1

/-! ## Calls -/

/-- The calls of {lit}`ReanalyzeAll` and of the workers. -/
inductive Call where
  | getUnanalyzedDiffIDs (workspaceID : GoString)
  | enqueue (ref : JobRef) (workspaceID : GoString) (metadata : Option JobMetadata)
  | findReleaseByIDWithPackage (id : Nat)
  | findPreviousCompletedRelease (packageID : Nat) (before : Int)
  | updateReleaseStatus (id : Nat) (status : ReleaseStatus)
  | updateReleaseError (id : Nat) (message : GoString)
  | downloadTarball (url : GoString)
  | extractArchive (url : GoString)
  | generateDiff (oldURL newURL : GoString)
  | createDiff (releaseID prevReleaseID : Nat)
  | findDiffWithRelease (id : Nat)
  | findReleaseByID (id : Nat)
  | analyze (provider : GoString) (diffID : Nat)
  | createAnalysis (analysis : Analysis)
  | createAlert (alert : Alert)
deriving DecidableEq

/-- What a call answers; a foreign key can reject a new diff. -/
abbrev Answer : Call → Type
  | .getUnanalyzedDiffIDs _ => List Nat
  | .enqueue _ _ _ => Nat
  | .findReleaseByIDWithPackage _ => Option (Release × Package)
  | .findPreviousCompletedRelease _ _ => Option (Nat × Release)
  | .createDiff _ _ => Option Nat
  | .findDiffWithRelease _ => Option (Diff × Release × Package)
  | .findReleaseByID _ => Option Release
  | .analyze _ _ => Classification
  | .createAnalysis _ => Nat
  | _ => Unit

/-- The calls that belong to a request and not to a worker. -/
def Call.ofRequest : Call → Bool
  | .getUnanalyzedDiffIDs _ | .enqueue _ _ none => true
  | _ => false

/-- The state with a changed row of a release. -/
def State.updateRelease (s : State) (id : Nat) (f : Release → Release) : State :=
  { s with
    releases := s.releases.modify id f
    prevRelease_isSome := fun id' diff hdiff =>
      Ledger.isSome_get?_modify (s.prevRelease_isSome id' diff hdiff) }

/-- The state with a changed queue. -/
def State.withQueue (s : State) (queue : Ledger Job) : State :=
  { s with queue := queue }

/-- The state with a new diff. -/
def State.addDiff (s : State) (diff : Diff)
    (hprev : (s.releases.get? diff.prevReleaseID).isSome = true) : State :=
  { s with
    diffs := s.diffs.insert s.freshDiffID diff
    prevRelease_isSome := by
      intro id' diff' hdiff'
      rw [Table.get?_insert] at hdiff'
      split_ifs at hdiff'
      · rwa [← Option.some.inj hdiff']
      · exact s.prevRelease_isSome id' diff' hdiff' }

/-- The state with a new analysis. -/
def State.addAnalysis (s : State) (analysis : Analysis) : State :=
  { s with
    analyses := s.analyses.add analysis
    analysis_isSome := by
      intro id alert a halert ha
      obtain ⟨row, hrow⟩ := Option.isSome_iff_exists.mp (s.analysis_isSome id alert a halert ha)
      rw [Ledger.get?_add_of_some hrow]
      rfl }

/-- The state with a new alert. -/
def State.addAlert (s : State) (alert : Alert)
    (hanalysis : ∀ a, alert.analysisID = some a → (s.analyses.get? a).isSome = true) : State :=
  { s with
    alerts := s.alerts.add alert
    analysis_isSome := by
      intro id alert' a halert' ha
      rcases Ledger.of_get?_add halert' with ⟨-, rfl⟩ | hold
      · exact hanalysis a ha
      · exact s.analysis_isSome id alert' a hold ha }

/-- Carry out a call. -/
def State.exec (s : State) : (c : Call) → State × Answer c
  | .getUnanalyzedDiffIDs workspaceID => (s, s.unanalyzedDiffIDs workspaceID)
  | .enqueue ref workspaceID metadata =>
      (s.withQueue (s.queue.add ⟨ref, workspaceID, metadata, .pending, 0, s.maxAttempts⟩),
        s.queue.next)
  | .findReleaseByIDWithPackage id => (s, s.releaseWithPackage id)
  | .findPreviousCompletedRelease packageID before => (s, s.previousCompleted packageID before)
  | .updateReleaseStatus id status =>
      (s.updateRelease id fun r => { r with status := status }, ())
  | .updateReleaseError id message =>
      (s.updateRelease id fun r => { r with status := .error, errorMessage := message }, ())
  | .downloadTarball _ => (s, ())
  | .extractArchive _ => (s, ())
  | .generateDiff _ _ => (s, ())
  | .createDiff releaseID prevReleaseID =>
      if hprev : (s.releases.get? releaseID).isSome = true ∧
          (s.releases.get? prevReleaseID).isSome = true then
        (s.addDiff ⟨releaseID, prevReleaseID⟩ hprev.2, some s.freshDiffID)
      else (s, none)
  | .findDiffWithRelease id => (s, s.diffWithRelease id)
  | .findReleaseByID id => (s, s.releases.get? id)
  | .analyze provider diffID => (s, s.verdict provider diffID)
  | .createAnalysis analysis => (s.addAnalysis analysis, s.analyses.next)
  | .createAlert alert =>
      if hanalysis : ∀ a, alert.analysisID = some a → (s.analyses.get? a).isSome = true then
        (s.addAlert alert hanalysis, ())
      else (s, ())

/-- The body of an operation or of a part of it. -/
abbrev Body (α : Type) := Prog Call Answer α

/-- A single call. -/
abbrev send (c : Call) : Body (Option (Answer c)) :=
  Prog.call c

/-- The configuration: whether the requests have a queue, the ecosystems with a registry client,
and the providers, of which there is at least one and no type is there twice. -/
structure Config where
  queue : Bool
  clients : Ecosystem → Bool
  providers : List GoString
  nodup_providers : providers.Nodup
  providers_ne_nil : providers ≠ []

/-- What an operation returns; an error with the text it begins with.  {lit}`ReanalyzeAll` returns
the number of queued diffs with its error. -/
inductive Result where
  | ok
  | reanalyzed (queued : Nat) (failure : Option GoString)
  | error (message : GoString)
deriving DecidableEq

/-! ## Re-analysing -/

/-- The loop of {lit}`ReanalyzeAll`. -/
def queueDiffs (workspaceID : GoString) (queued : Nat) : List Nat → Body Result
  | [] => return .reanalyzed queued none
  | id :: diffIDs => do
      match ← send (.enqueue (.analyze id) workspaceID none) with
      | none => return .reanalyzed queued (some "enqueue diff".toList)
      | some _ => queueDiffs workspaceID (queued + 1) diffIDs

/-- {lit}`ReanalyzeAll`. -/
def reanalyzeAll (cfg : Config) (workspaceID : GoString) : Body Result := do
  if cfg.queue = false then return .reanalyzed 0 (some "queue not configured".toList)
  else
    match ← send (.getUnanalyzedDiffIDs workspaceID) with
    | none => return .reanalyzed 0 (some "querying unanalyzed diff IDs".toList)
    | some diffIDs => queueDiffs workspaceID 0 diffIDs

/-! ## Diff jobs -/

/-- Mark a release as failed and return the error. -/
def markError (releaseID : Nat) (message : GoString) : Body Result := do
  let _ ← send (.updateReleaseError releaseID message)
  return .error message

/-- The part of {lit}`ProcessRelease` with a previous release. -/
def diffAgainst (cfg : Config) (releaseID : Nat) (release : Release) (pkg : Package)
    (prevReleaseID : Nat) (prevRelease : Release) : Body Result := do
  if cfg.clients pkg.ecosystem = false then return .error "unknown ecosystem".toList
  else
    match ← send (.downloadTarball release.tarballURL) with
    | none => markError releaseID "downloading new tarball".toList
    | some _ =>
    match ← send (.downloadTarball prevRelease.tarballURL) with
    | none => markError releaseID "downloading previous tarball".toList
    | some _ =>
    match ← send (.extractArchive release.tarballURL) with
    | none => markError releaseID "extracting new tarball".toList
    | some _ =>
    match ← send (.extractArchive prevRelease.tarballURL) with
    | none => markError releaseID "extracting previous tarball".toList
    | some _ =>
    match ← send (.generateDiff prevRelease.tarballURL release.tarballURL) with
    | none => markError releaseID "generating diff".toList
    | some _ =>
    match ← send (.createDiff releaseID prevReleaseID) with
    | some (some diffID) =>
        let _ ← send (.updateReleaseStatus releaseID .analyzing)
        match ← send (.enqueue (.analyze diffID) pkg.workspaceID
            (some ⟨pkg.name, release.version, pkg.ecosystem⟩)) with
        | none => return .error "enqueuing analyze job".toList
        | some _ => return .ok
    | _ => markError releaseID "saving diff".toList

/-- {lit}`ProcessRelease`. -/
def processRelease (cfg : Config) (releaseID : Nat) : Body Result := do
  match ← send (.findReleaseByIDWithPackage releaseID) with
  | some (some (release, pkg)) =>
      let _ ← send (.updateReleaseStatus releaseID .diffing)
      match ← send (.findPreviousCompletedRelease release.packageID release.publishedAt) with
      | some (some (prevReleaseID, prevRelease)) =>
          diffAgainst cfg releaseID release pkg prevReleaseID prevRelease
      | _ =>
          let _ ← send (.updateReleaseStatus releaseID .completed)
          return .ok
  | _ => return .error "loading release".toList

/-! ## Analyze jobs -/

/-- Create the alert for an analysis; an error is logged. -/
def createAlertFor (diff : Diff) (release : Release) (pkg : Package) (analysisID : Nat)
    (classification : Classification) : Body Unit := do
  match alertSeverity classification with
  | none => return ()
  | some severity =>
      let _ ← send (.createAlert
        { workspaceID := pkg.workspaceID
          analysisID := some analysisID
          releaseID := diff.releaseID
          packageID := release.packageID
          severity := severity })
      return ()

/-- The loop over the providers, with whether an analysis was created so far. -/
def analyzeWith (diffID : Nat) (diff : Diff) (release : Release) (pkg : Package)
    (analysisCreated : Bool) : List GoString → Body Bool
  | [] => return analysisCreated
  | provider :: providers => do
      match ← send (.analyze provider diffID) with
      | none => analyzeWith diffID diff release pkg analysisCreated providers
      | some classification =>
          match ← send (.createAnalysis ⟨diffID, classification, provider⟩) with
          | none => analyzeWith diffID diff release pkg analysisCreated providers
          | some analysisID =>
              createAlertFor diff release pkg analysisID classification
              analyzeWith diffID diff release pkg true providers

/-- {lit}`ProcessDiff`. -/
def processDiff (cfg : Config) (diffID : Nat) : Body Result := do
  match ← send (.findDiffWithRelease diffID) with
  | some (some (diff, release, pkg)) =>
      match ← send (.findReleaseByID diff.prevReleaseID) with
      | some (some _) =>
          match ← analyzeWith diffID diff release pkg false cfg.providers with
          | false => return .error "all providers failed".toList
          | true =>
              let _ ← send (.updateReleaseStatus diff.releaseID .completed)
              return .ok
      | _ => return .error "loading previous release".toList
  | _ => return .error "loading diff".toList

/-! ## The system -/

/-- The operations. -/
inductive Op where
  | reanalyzeAll (workspaceID : GoString)
  | processRelease (jobID releaseID : Nat)
  | processDiff (jobID diffID : Nat)
deriving DecidableEq

/-- The job that an operation processes. -/
def Op.job : Op → Option (Nat × JobRef)
  | .reanalyzeAll _ => none
  | .processRelease jobID releaseID => some (jobID, .diff releaseID)
  | .processDiff jobID diffID => some (jobID, .analyze diffID)

/-- The body of an operation. -/
def bodyOf (cfg : Config) : Op → Body Result
  | .reanalyzeAll workspaceID => reanalyzeAll cfg workspaceID
  | .processRelease _ releaseID => processRelease cfg releaseID
  | .processDiff _ diffID => processDiff cfg diffID

/-- The job is there and pending. -/
def State.HasPending (s : State) (jobID : Nat) (ref : JobRef) : Prop :=
  (s.queue.get? jobID).any (fun job => job.ref = ref ∧ job.status = .pending) = true

instance (s : State) (jobID : Nat) (ref : JobRef) : Decidable (s.HasPending jobID ref) :=
  inferInstanceAs (Decidable (_ = true))

theorem hasPending_iff {s : State} {jobID : Nat} {ref : JobRef} :
    s.HasPending jobID ref ↔ ∃ job, s.queue.get? jobID = some job ∧ job.ref = ref ∧
      job.status = .pending := by
  unfold State.HasPending
  simp [Option.any_eq_true]

/-- A worker takes a pending job. -/
def State.enabled (s : State) (op : Op) : Prop :=
  ∀ e, op.job = some e → s.HasPending e.1 e.2

/-- A job that a worker takes. -/
def Job.take (job : Job) : Job :=
  { job with status := .processing }

/-- A job whose processing has failed is pending again, or it is dead. -/
def Job.fail (job : Job) : Job :=
  { job with
    attempts := job.attempts + 1
    status := if job.maxAttempts ≤ job.attempts + 1 then .dead else .pending }

/-- The queue in which a worker has taken its job. -/
def State.begin (s : State) (op : Op) : State :=
  match op.job with
  | none => s
  | some (jobID, _) => s.withQueue (s.queue.modify jobID Job.take)

/-- The end of an operation: its job is completed, or it fails. -/
def State.done (s : State) (op : Op) : Result → State
  | .error _ =>
      match op.job with
      | none => s
      | some (jobID, _) => s.withQueue (s.queue.modify jobID Job.fail)
  | _ =>
      match op.job with
      | none => s
      | some (jobID, _) => s.withQueue (s.queue.remove jobID)

/-- The requests and the workers, while the providers change their minds.  The job of a worker
that is lost stays as it is. -/
def reanalysisSystem (cfg : Config) : System State Op Call Answer Result where
  body := bodyOf cfg
  exec := State.exec
  fallible := Call.ofRequest
  sticky := false
  enabled := State.enabled
  begin := State.begin
  done := State.done
  stop := fun s _ => s
  env := fun s s' => ∃ verdict, s' = { s with verdict := verdict }

instance (s : State) (op : Op) : Decidable (s.enabled op) :=
  match hjob : op.job with
  | none => isTrue fun e he => absurd (hjob.symm.trans he) (Option.some_ne_none e).symm
  | some e =>
      decidable_of_iff (s.HasPending e.1 e.2) <| by
        unfold State.enabled
        simp [hjob]

instance (cfg : Config) (s : State) (op : Op) :
    Decidable ((reanalysisSystem cfg).enabled s op) :=
  inferInstanceAs (Decidable (s.enabled op))

/-- A world of the requests and the workers. -/
abbrev ReanalysisWorld := World State Op Call Answer Result

/-! ## A diff that waits -/

/-- Analyses by one provider, which a worker of each kind reaches. -/
def oneProvider : Config where
  queue := true
  clients := fun _ => true
  providers := ["claude".toList]
  nodup_providers := List.nodup_singleton _
  providers_ne_nil := List.cons_ne_nil _ _

/-- Two releases of an active package with the diff between them, whose provider finds it
malicious. -/
def oneDiff : State where
  packages := Table.single 0 ⟨⟨"w".toList, "p".toList, .npm⟩, .active⟩
  releases := (Ledger.empty.add ⟨0, "1.0.0".toList, 1, "p/1.0.0".toList, .completed, []⟩).add
    ⟨0, "1.1.0".toList, 2, "p/1.1.0".toList, .analyzing, []⟩
  diffs := Table.single 0 ⟨1, 0⟩
  analyses := .empty
  alerts := .empty
  queue := .empty
  maxAttempts := 5
  verdict := fun _ _ => .malicious
  prevRelease_isSome := by
    intro id diff hdiff
    rw [Table.get?_eq_some_iff] at hdiff
    obtain ⟨-, rfl⟩ := Prod.mk.inj (List.mem_singleton.mp hdiff)
    rfl
  analysis_isSome := fun _ _ _ halert => absurd halert.symm (Option.some_ne_none _)

/-- The diff with its analyze job in the queue. -/
def oneQueued : State :=
  (oneDiff.exec (.enqueue (.analyze 0) "w".toList
    (some ⟨"p".toList, "1.1.0".toList, .npm⟩))).1

end Reanalysis
end Veilence
