import Mathlib
import Veilence.Foundation.Ledger
import Veilence.Go.Text

/-!
# The rows, the queue and the calls of the release pipeline

The tables that the poller, the workers and the release endpoints share, and the calls
they make: to the registries, to the repositories, to the queue and to the LLM
providers.  A call either succeeds and takes effect at once or fails without effect.

The queue keeps a job from its {lit}`Enqueue` until a worker has processed it without an
error, so it loses nothing; pending, dead and interrupted jobs are all idle.  Package
metadata, file hashes, notifications and the contents of diffs decide nothing here and
are left out.

Main results:

- Theorem {lit}`release_of_exec`: a call changes the status and the error message of a
  release and nothing else of it.
-/

namespace Veilence
namespace Pipeline

open Go Foundation

/-! ## Rows -/

/-- The ecosystems. -/
inductive Ecosystem where
  | python
  | npm
  | go
deriving DecidableEq

/-- A version in the listing of a registry. -/
structure RegistryVersionInfo where
  version : GoString
  publishedAt : Int
  tarballURL : GoString
deriving DecidableEq

/-- A monitored package. -/
structure Package where
  workspaceID : GoString
  name : GoString
  ecosystem : Ecosystem
deriving DecidableEq

/-- The processing status of a release. -/
inductive ReleaseStatus where
  | pending
  | diffing
  | analyzing
  | completed
  | error
deriving DecidableEq

/-- The statuses that {lit}`in_progress` stands for. -/
def ReleaseStatus.InProgress : ReleaseStatus → Prop
  | .pending | .diffing | .analyzing => True
  | .completed | .error => False

instance : DecidablePred ReleaseStatus.InProgress
  | .pending | .diffing | .analyzing => inferInstanceAs (Decidable True)
  | .completed | .error => inferInstanceAs (Decidable False)

/-- A release of a package. -/
structure Release where
  packageID : Nat
  version : GoString
  publishedAt : Int
  tarballURL : GoString
  status : ReleaseStatus
  errorMessage : GoString
deriving DecidableEq

/-- The ID of a diff.  No two diffs share an ID, so the ID tells the release. -/
structure DiffID where
  release : Nat
  serial : Nat
deriving DecidableEq

/-- A stored diff, filed under its ID. -/
structure Diff where
  prevReleaseID : Nat
deriving DecidableEq

/-- The assessment of a diff. -/
inductive Classification where
  | benign
  | suspicious
  | malicious
deriving DecidableEq

/-- The severity of an alert. -/
inductive AlertSeverity where
  | medium
  | critical
deriving DecidableEq

/-! ## The queue -/

/-- The job type with the reference ID. -/
inductive JobRef where
  | diff (releaseID : Nat)
  | analyze (diffID : DiffID)
deriving DecidableEq

/-- The release that a job is about. -/
def JobRef.release : JobRef → Nat
  | .diff releaseID => releaseID
  | .analyze diffID => diffID.release

/-- A job; it is running while a worker processes it. -/
structure Job where
  ref : JobRef
  running : Bool
deriving DecidableEq

/-! ## The state -/

/-- What the outside services answer at the moment: the versions a registry lists, the
version list of the Go proxy and its publish times, and the verdicts of the providers. -/
structure Outside where
  listed : Ecosystem → GoString → List RegistryVersionInfo
  goList : GoString → GoString
  goTime : GoString → GoString → Int
  verdict : GoString → DiffID → Classification

/-- The database, the queue and the outside services.  `baselines` records the releases
that were completed while they had no stored diff. -/
structure State where
  packages : Table Nat Package
  releases : Ledger Release
  diffs : Table DiffID Diff
  analyses : List (DiffID × Classification)
  alerts : List (Nat × AlertSeverity)
  queue : Ledger Job
  outside : Outside
  baselines : List Nat

/-- The state without releases and jobs. -/
def State.initial (packages : Table Nat Package) (outside : Outside) : State :=
  ⟨packages, .empty, .empty, [], [], .empty, outside, []⟩

/-- The release has a stored diff. -/
def HasDiff (s : State) (releaseID : Nat) : Prop :=
  ∃ d ∈ s.diffs.keys, d.release = releaseID

instance (s : State) (releaseID : Nat) : Decidable (HasDiff s releaseID) :=
  List.decidableBEx (fun d : DiffID => d.release = releaseID) s.diffs.keys

/-! ## Queries -/

/-- The release rows that satisfy a condition. -/
def State.releasesWhere (s : State) (cond : Release → Bool) : List (Nat × Release) :=
  s.releases.rows.entries.filter fun e => cond e.2

/-- The row with the latest publish time, the first one in case of a tie. -/
def latestPublished : List (Nat × Release) → Option (Nat × Release)
  | [] => none
  | row :: rows =>
      match latestPublished rows with
      | none => some row
      | some later => if row.2.publishedAt < later.2.publishedAt then some later else some row

/-- The latest release of a package. -/
def State.latestRelease (s : State) (packageID : Nat) : Option Release :=
  (latestPublished (s.releasesWhere fun r => r.packageID = packageID)).map Prod.snd

/-- The release of a package with a version. -/
def State.releaseOfVersion (s : State) (packageID : Nat) (version : GoString) : Option Nat :=
  ((s.releasesWhere fun r => r.packageID = packageID ∧ r.version = version).head?).map Prod.fst

/-- The latest completed release of a package before a publish time. -/
def State.previousCompleted (s : State) (packageID : Nat) (before : Int) :
    Option (Nat × Release) :=
  latestPublished (s.releasesWhere fun r =>
    r.packageID = packageID ∧ r.status = .completed ∧ r.publishedAt < before)

/-- A release with its package. -/
def State.releaseWithPackage (s : State) (id : Nat) : Option (Release × Package) :=
  match s.releases.get? id with
  | none => none
  | some release => (s.packages.get? release.packageID).map fun pkg => (release, pkg)

/-- The first diff of a release. -/
def State.firstDiff (s : State) (releaseID : Nat) : Option DiffID :=
  (s.diffs.keys.filter fun d => d.release = releaseID).argmin DiffID.serial

/-! ## Calls -/

/-- The calls of the pipeline. -/
inductive Call where
  | listVersions (ecosystem : Ecosystem) (name : GoString)
  | goVersionList (name : GoString)
  | goVersionInfo (name version : GoString)
  | downloadTarball (url : GoString)
  | extractArchive (url : GoString)
  | generateDiff (oldURL newURL : GoString)
  | findLatestRelease (packageID : Nat)
  | findReleaseByPackageAndVersion (packageID : Nat) (version : GoString)
  | createRelease (release : Release)
  | findReleaseByIDWithPackage (id : Nat)
  | findPreviousCompletedRelease (packageID : Nat) (before : Int)
  | updateReleaseStatus (id : Nat) (status : ReleaseStatus)
  | updateReleaseError (id : Nat) (message : GoString)
  | createDiff (releaseID prevReleaseID : Nat)
  | findDiffWithRelease (id : DiffID)
  | findReleaseByID (id : Nat)
  | createAnalysis (id : DiffID) (classification : Classification)
  | createAlert (releaseID : Nat) (severity : AlertSeverity)
  | findByIDWithPackageAndWorkspace (id : Nat) (workspaceID : GoString)
  | findFirstByReleaseID (releaseID : Nat)
  | findStuckReleases
  | countAnalyses (id : DiffID)
  | analyze (provider : GoString) (id : DiffID)
  | enqueue (ref : JobRef)
deriving DecidableEq

/-- What a call answers. -/
abbrev Answer : Call → Type
  | .listVersions _ _ => List RegistryVersionInfo
  | .goVersionList _ => GoString
  | .goVersionInfo _ _ => Int
  | .findLatestRelease _ => Option Release
  | .findReleaseByPackageAndVersion _ _ => Option Nat
  | .createRelease _ => Nat
  | .findReleaseByIDWithPackage _ => Option (Release × Package)
  | .findPreviousCompletedRelease _ _ => Option (Nat × Release)
  | .createDiff _ _ => DiffID
  | .findDiffWithRelease _ => Option (Diff × Release × Package)
  | .findReleaseByID _ => Option Release
  | .findByIDWithPackageAndWorkspace _ _ => Option (Release × Package)
  | .findFirstByReleaseID _ => Option DiffID
  | .findStuckReleases => List (Nat × Release)
  | .countAnalyses _ => Nat
  | .analyze _ _ => Classification
  | .enqueue _ => Nat
  | _ => Unit

/-- The state in which a release has a status; completing a release without a diff is
recorded. -/
def State.setStatus (s : State) (id : Nat) (status : ReleaseStatus) : State :=
  { s with
    releases := s.releases.modify id fun r => { r with status := status }
    baselines :=
      if status = .completed ∧ (s.releases.get? id).isSome ∧ ¬HasDiff s id
      then id :: s.baselines else s.baselines }

/-- Carry out a call. -/
def State.exec (s : State) : (c : Call) → State × Answer c
  | .listVersions ecosystem name => (s, s.outside.listed ecosystem name)
  | .goVersionList name => (s, s.outside.goList name)
  | .goVersionInfo name version => (s, s.outside.goTime name version)
  | .downloadTarball _ => (s, ())
  | .extractArchive _ => (s, ())
  | .generateDiff _ _ => (s, ())
  | .findLatestRelease packageID => (s, s.latestRelease packageID)
  | .findReleaseByPackageAndVersion packageID version =>
      (s, s.releaseOfVersion packageID version)
  | .createRelease release => ({ s with releases := s.releases.add release }, s.releases.next)
  | .findReleaseByIDWithPackage id => (s, s.releaseWithPackage id)
  | .findPreviousCompletedRelease packageID before => (s, s.previousCompleted packageID before)
  | .updateReleaseStatus id status => (s.setStatus id status, ())
  | .updateReleaseError id message =>
      ({ s with releases := s.releases.modify id fun r =>
          { r with status := .error, errorMessage := message } }, ())
  | .createDiff releaseID prevReleaseID =>
      let d : DiffID := ⟨releaseID, s.diffs.entries.length⟩
      ({ s with diffs := s.diffs.insert d ⟨prevReleaseID⟩ }, d)
  | .findDiffWithRelease id =>
      (s, match s.diffs.get? id, s.releaseWithPackage id.release with
        | some diff, some (release, pkg) => some (diff, release, pkg)
        | _, _ => none)
  | .findReleaseByID id => (s, s.releases.get? id)
  | .createAnalysis id classification =>
      ({ s with analyses := (id, classification) :: s.analyses }, ())
  | .createAlert releaseID severity =>
      ({ s with alerts := (releaseID, severity) :: s.alerts }, ())
  | .findByIDWithPackageAndWorkspace id workspaceID =>
      (s, (s.releaseWithPackage id).filter fun e => e.2.workspaceID = workspaceID)
  | .findFirstByReleaseID releaseID => (s, s.firstDiff releaseID)
  | .findStuckReleases => (s, s.releasesWhere fun r => r.status = .diffing ∨ r.status = .analyzing)
  | .countAnalyses id => (s, (s.analyses.filter fun e => e.1 = id).length)
  | .analyze provider id => (s, s.outside.verdict provider id)
  | .enqueue ref => ({ s with queue := s.queue.add ⟨ref, false⟩ }, s.queue.next)

/-- What a call does to the row of a release. -/
theorem release_of_exec {s : State} {c : Call} {x : Nat} {release : Release}
    (hrelease : (s.exec c).1.releases.get? x = some release) :
    (∃ before, s.releases.get? x = some before ∧
      (release = before ∨
        (∃ status, c = .updateReleaseStatus x status ∧
          release = { before with status := status }) ∨
        ∃ message, c = .updateReleaseError x message ∧
          release = { before with status := .error, errorMessage := message })) ∨
      (c = .createRelease release ∧ x = s.releases.next) := by
  cases c with
  | createRelease new =>
      have hadd : (s.releases.add new).get? x = some release := hrelease
      rw [Ledger.get?_add] at hadd
      split_ifs at hadd with hx
      · exact Or.inr ⟨by rw [Option.some.inj hadd], hx⟩
      · exact Or.inl ⟨release, hadd, Or.inl rfl⟩
  | updateReleaseStatus id status =>
      have hset : (s.releases.modify id _).get? x = some release := hrelease
      rw [Ledger.get?_modify] at hset
      split_ifs at hset with hx
      · subst hx
        obtain ⟨before, hbefore, rfl⟩ := Option.map_eq_some_iff.mp hset
        exact Or.inl ⟨before, hbefore, Or.inr (Or.inl ⟨status, rfl, rfl⟩)⟩
      · exact Or.inl ⟨release, hset, Or.inl rfl⟩
  | updateReleaseError id message =>
      have hset : (s.releases.modify id _).get? x = some release := hrelease
      rw [Ledger.get?_modify] at hset
      split_ifs at hset with hx
      · subst hx
        obtain ⟨before, hbefore, rfl⟩ := Option.map_eq_some_iff.mp hset
        exact Or.inl ⟨before, hbefore, Or.inr (Or.inr ⟨message, rfl, rfl⟩)⟩
      · exact Or.inl ⟨release, hset, Or.inl rfl⟩
  | _ => exact Or.inl ⟨release, hrelease, Or.inl rfl⟩

end Pipeline
end Veilence
