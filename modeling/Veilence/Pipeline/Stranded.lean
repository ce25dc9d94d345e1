import Veilence.Foundation.Custody
import Veilence.Pipeline.Grounded

/-!
# When a release is stranded

A release in progress needs a job that brings it forward.  The status of a release and
the queue are changed by different calls, so in between an operation owes the job; and a
worker owes the release of the job that it processes.  An operation that fails or stops
with such a debt strands the release.  That is so for an {lit}`Enqueue` that fails after
the status was set, and for the status update that ends a job, whose error nobody looks
at.

Main results:

- Theorem {lit}`guarded_bodyOf`: every status that an operation sets is followed by the
  calls that pay for it.
- Theorem {lit}`referenced_of_run`: without a failure or a stop that leaves a debt, every
  release in progress is referenced by a job when no operation is in progress.
- Theorem {lit}`release_stranded_by_failing_enqueue`: a poll whose {lit}`Enqueue` fails
  strands its release.
-/

namespace Veilence
namespace Pipeline

open Go Foundation

/-! ## The custody of releases -/

/-- An idle job is about the release. -/
def Idle (s : State) (releaseID : Nat) : Prop :=
  ∃ id job, s.queue.get? id = some job ∧ job.ref.release = releaseID ∧ job.running = false

/-- The release is not in progress, or an idle job is about it. -/
def Secured (s : State) (releaseID : Nat) : Prop :=
  ∀ release, s.releases.get? releaseID = some release → release.status.InProgress →
    Idle s releaseID

/-- The calls that secure a release: to end its progress and to queue a job. -/
def Adds : Call → Nat → Prop
  | .updateReleaseStatus id status, x => id = x ∧ ¬status.InProgress
  | .updateReleaseError id _, x => id = x
  | .enqueue ref, x => ref.release = x
  | _, _ => False

/-- The calls that bring a release into progress. -/
def Takes : (c : Call) → Answer c → Nat → Prop
  | .createRelease _, created, x => created = x
  | .updateReleaseStatus id status, _, x => id = x ∧ status.InProgress
  | _, _, _ => False

/-- The operation processes a job about the release. -/
def Op.Processes (op : Op) (x : Nat) : Prop :=
  ∃ jobID ref, op.job = some (jobID, ref) ∧ ref.release = x

/-- An error of the operation makes a job about the release idle again. -/
def Settles (op : Op) (result : Result) (x : Nat) : Prop :=
  op.Processes x ∧ ∃ message, result = .error message

/-- Calls take no job away. -/
theorem idle_exec {s : State} {x : Nat} (hidle : Idle s x) (c : Call) :
    Idle (s.exec c).1 x := by
  obtain ⟨id, job, hjob, hrest⟩ := hidle
  cases c with
  | enqueue ref => exact ⟨id, job, Ledger.get?_add_of_some hjob, hrest⟩
  | _ => exact ⟨id, job, hjob, hrest⟩

theorem secured_of_adds {s : State} {c : Call} {x : Nat} (hadds : Adds c x) :
    Secured (s.exec c).1 x := by
  intro release hrelease hstatus
  cases c with
  | updateReleaseStatus id status =>
      obtain ⟨rfl, hnot⟩ := hadds
      rcases release_of_exec hrelease with ⟨before, _, rfl | ⟨_, heq, rfl⟩ | ⟨_, heq, _⟩⟩ | ⟨heq, _⟩
      · have hset : (s.releases.modify id _).get? id = some release := hrelease
        rw [Ledger.get?_modify, if_pos rfl] at hset
        obtain ⟨_, _, rfl⟩ := Option.map_eq_some_iff.mp hset
        exact absurd hstatus hnot
      · cases heq
        exact absurd hstatus hnot
      · cases heq
      · cases heq
  | updateReleaseError id message =>
      obtain rfl := hadds
      have hset : (s.releases.modify id _).get? id = some release := hrelease
      rw [Ledger.get?_modify, if_pos rfl] at hset
      obtain ⟨_, _, rfl⟩ := Option.map_eq_some_iff.mp hset
      exact absurd hstatus not_false
  | enqueue ref =>
      refine ⟨s.queue.next, ⟨ref, false⟩, ?_, hadds, rfl⟩
      change (s.queue.add _).get? _ = _
      rw [Ledger.get?_add, if_pos rfl]
  | _ => exact hadds.elim

theorem secured_or_takes {s : State} {c : Call} {x : Nat} (hsecured : Secured s x) :
    Secured (s.exec c).1 x ∨ Takes c (s.exec c).2 x := by
  by_cases htakes : Takes c (s.exec c).2 x
  · exact Or.inr htakes
  · refine Or.inl fun release hrelease hstatus => ?_
    rcases release_of_exec hrelease with
      ⟨before, hbefore, rfl | ⟨status, rfl, rfl⟩ | ⟨message, rfl, rfl⟩⟩ | ⟨rfl, hx⟩
    · exact idle_exec (hsecured _ hbefore hstatus) c
    · exact absurd ⟨rfl, hstatus⟩ htakes
    · exact absurd hstatus not_false
    · exact absurd hx.symm htakes

/-- The custody of the releases in progress. -/
def custody (cfg : Config) : Custody (pipelineSystem cfg) Nat where
  secured := Secured
  adds := Adds
  takes := Takes
  sound := Sound
  usable _ := Sound
  settles := Settles
  secured_of_adds := secured_of_adds
  secured_or_takes := secured_or_takes
  fallible_of_takes := fun _ => rfl

section Bodies

variable {cfg : Config} {x : Nat} {α : Type} {settled : α → Prop} {ends : Result → Prop}

/-- No call is excused from its debt. -/
abbrev Guarded (cfg : Config) (settled : α → Prop) (x : Nat) (p : Body α) : Prop :=
  (custody cfg).Guarded (fun _ => False) settled x p

/-- A call that takes nothing leaves the guard to what follows. -/
theorem guarded_send {c : Call} {f : Option (Answer c) → Body α} (hc : ∀ r, ¬Takes c r x)
    (hf : ∀ r, Sound c r → Guarded cfg settled x (f (some r)))
    (hnone : Guarded cfg settled x (f none)) : Guarded cfg settled x (send c >>= f) :=
  ⟨fun r hsound => ⟨fun htakes => absurd htakes (hc r), hf r hsound⟩, hnone⟩

/-- A call that brings a release into progress must be followed by the payment. -/
theorem guarded_taking {c : Call} {f : Option (Answer c) → Body α}
    (hc : ∀ r, Takes c r x → (custody cfg).Owes settled x (f (some r)))
    (hf : ∀ r, Sound c r → Guarded cfg settled x (f (some r)))
    (hnone : Guarded cfg settled x (f none)) : Guarded cfg settled x (send c >>= f) :=
  ⟨fun r hsound => ⟨fun htakes => Or.inr (hc r htakes), hf r hsound⟩, hnone⟩

/-- Calls that only have to succeed leave the debt to what follows. -/
theorem owes_send {c : Call} {f : Option (Answer c) → Body α}
    (hf : ∀ r, Sound c r → (custody cfg).Owes settled x (f (some r))) :
    (custody cfg).Owes settled x (send c >>= f) :=
  Or.inr hf

/-- A call that secures the release pays the debt. -/
theorem owes_of_adds {c : Call} {f : Option (Answer c) → Body α} (hc : Adds c x) :
    (custody cfg).Owes settled x (send c >>= f) :=
  Or.inl hc

/-- A final {lit}`Enqueue` takes nothing. -/
theorem guarded_enqueue {ref : JobRef} {f : Option Nat → Body α}
    (hf : ∀ r, Guarded cfg settled x (f r)) :
    Guarded cfg settled x (send (.enqueue ref) >>= f) :=
  guarded_send (fun _ => id) (fun _ _ => hf _) (hf none)

/-! ## Polls -/

theorem guarded_goVersions (name : GoString) (versionCount : Nat)
    (versions : List RegistryVersionInfo) (lines : List GoString) :
    Guarded cfg (fun _ => False) x (goVersions cfg name versionCount versions lines) := by
  induction lines generalizing versionCount versions with
  | nil => trivial
  | cons line lines ih =>
      simp only [goVersions]
      split_ifs
      · trivial
      · exact ih _ _
      · exact guarded_send (fun _ => id) (fun _ _ => ih _ _) (ih _ _)

theorem guarded_getPackage (pkg : Package) :
    Guarded cfg (fun _ => False) x (getPackage cfg pkg) := by
  rw [getPackage]
  split
  · split_ifs
    · trivial
    · refine guarded_send (fun _ => id) (fun body _ => ?_) trivial
      refine (guarded_goVersions _ _ _ _).bind (fun versions => ?_) fun _ hnot => hnot.elim
      split_ifs <;> trivial
  · exact guarded_send (fun _ => id) (fun _ _ => trivial) trivial

/-- A created release is queued next. -/
theorem guarded_createReleases (packageID : Nat) (versions : List RegistryVersionInfo) :
    Guarded cfg ends x (createReleases packageID versions) := by
  induction versions with
  | nil => trivial
  | cons v versions ih =>
      refine guarded_send (fun _ => id) ?_ ih
      rintro (_ | id) _
      · refine guarded_taking (fun id htakes => owes_of_adds htakes) (fun id _ => ?_) ih
        exact guarded_enqueue fun _ => ih
      · exact ih

theorem guarded_checkPackageForNewReleases (packageID : Nat) (pkg : Package) :
    Guarded cfg ends x (checkPackageForNewReleases cfg packageID pkg) := by
  refine (guarded_getPackage pkg).bind ?_ fun _ hnot => hnot.elim
  rintro (_ | _ | ⟨v, versions⟩)
  · trivial
  · trivial
  · exact guarded_send (fun _ => id) (fun _ _ => guarded_createReleases _ _)
      (guarded_createReleases _ _)

/-! ## Diff jobs -/

theorem guarded_markError (releaseID : Nat) (message : GoString) :
    Guarded cfg ends x (markError releaseID message) :=
  guarded_send (fun _ => id) (fun _ _ => trivial) trivial

/-- An operation that ends with an {lit}`Enqueue`. -/
theorem guarded_lastEnqueue {ref : JobRef} {message : GoString} : Guarded cfg ends x (do
    match ← send (.enqueue ref) with
    | none => return .error message
    | some _ => return .ok) := by
  refine guarded_enqueue ?_
  rintro (_ | _) <;> trivial

/-- A stored diff leads to the analysis job. -/
theorem guarded_diffAgainst (releaseID : Nat) (release : Release) (pkg : Package)
    (prevReleaseID : Nat) (prevRelease : Release) :
    Guarded cfg ends x
      (diffAgainst cfg releaseID release pkg prevReleaseID prevRelease) := by
  rw [diffAgainst]
  split_ifs
  · trivial
  · refine guarded_send (fun _ => id) (fun _ _ => ?_) (guarded_markError _ _)
    refine guarded_send (fun _ => id) (fun _ _ => ?_) (guarded_markError _ _)
    refine guarded_send (fun _ => id) (fun _ _ => ?_) (guarded_markError _ _)
    refine guarded_send (fun _ => id) (fun _ _ => ?_) (guarded_markError _ _)
    refine guarded_send (fun _ => id) (fun _ _ => ?_) (guarded_markError _ _)
    refine guarded_send (fun _ => id) (fun diffID hdiff => ?_) (guarded_markError _ _)
    refine guarded_taking (fun _ htakes => ?_) (fun _ _ => guarded_lastEnqueue)
      guarded_lastEnqueue
    exact owes_of_adds (hdiff.trans htakes.1)

/-- Whatever happens to the archives, the release is paid for or the job fails. -/
theorem owes_diffAgainst (herror : ∀ message, ends (.error message)) (releaseID : Nat)
    (release : Release) (pkg : Package) (prevReleaseID : Nat) (prevRelease : Release) :
    (custody cfg).Owes ends releaseID
      (diffAgainst cfg releaseID release pkg prevReleaseID prevRelease) := by
  rw [diffAgainst]
  split_ifs
  · exact herror _
  · refine owes_send fun _ _ => owes_send fun _ _ => owes_send fun _ _ => ?_
    refine owes_send fun _ _ => owes_send fun _ _ => owes_send fun diffID hdiff => ?_
    exact owes_send fun _ _ => owes_of_adds hdiff

/-- Once the release is being diffed it is completed, paid for, or the job fails. -/
theorem owes_afterDiffing (herror : ∀ message, ends (.error message)) (releaseID : Nat)
    (release : Release) (pkg : Package) :
    (custody cfg).Owes ends releaseID (do
      match ← send (.findPreviousCompletedRelease release.packageID release.publishedAt) with
      | some (some (prevReleaseID, prevRelease)) =>
          diffAgainst cfg releaseID release pkg prevReleaseID prevRelease
      | _ =>
          let _ ← send (.updateReleaseStatus releaseID .completed)
          return .ok) := by
  refine owes_send ?_
  rintro (_ | ⟨prevReleaseID, prevRelease⟩) _
  · exact owes_of_adds ⟨rfl, id⟩
  · exact owes_diffAgainst herror _ _ _ _ _

theorem guarded_processRelease {releaseID : Nat}
    (herror : x = releaseID → ∀ message, ends (.error message)) :
    Guarded cfg ends x (processRelease cfg releaseID) := by
  have hcomplete : Guarded cfg ends x
      (send (.updateReleaseStatus releaseID .completed) >>= fun _ => .ret .ok) :=
    guarded_send (fun _ h => h.2) (fun _ _ => trivial) trivial
  refine guarded_send (fun _ => id) ?_ trivial
  rintro (_ | ⟨release, pkg⟩) _
  · trivial
  · have hrest : Guarded cfg ends x (do
        match ← send (.findPreviousCompletedRelease release.packageID release.publishedAt) with
        | some (some (prevReleaseID, prevRelease)) =>
            diffAgainst cfg releaseID release pkg prevReleaseID prevRelease
        | _ =>
            let _ ← send (.updateReleaseStatus releaseID .completed)
            return .ok) := by
      refine guarded_send (fun _ => id) ?_ hcomplete
      rintro (_ | ⟨prevReleaseID, prevRelease⟩) _
      · exact hcomplete
      · exact guarded_diffAgainst _ _ _ _ _
    refine guarded_taking (fun _ htakes => ?_) (fun _ _ => hrest) hrest
    obtain ⟨rfl, _⟩ := htakes
    exact owes_afterDiffing (herror rfl) _ _ _

theorem owes_processRelease (herror : ∀ message, ends (.error message)) (releaseID : Nat) :
    (custody cfg).Owes ends releaseID (processRelease cfg releaseID) := by
  refine owes_send ?_
  rintro (_ | ⟨release, pkg⟩) _
  · exact herror _
  · exact owes_send fun _ _ => owes_afterDiffing herror _ _ _

/-! ## Analyze jobs -/

theorem guarded_analyzeWith (diffID : DiffID) (analysisCreated : Bool)
    (providers : List GoString) :
    Guarded cfg (fun _ => False) x (analyzeWith diffID analysisCreated providers) := by
  induction providers generalizing analysisCreated with
  | nil => trivial
  | cons provider providers ih =>
      refine guarded_send (fun _ => id) (fun classification _ => ?_) (ih _)
      refine guarded_send (fun _ => id) (fun _ _ => ?_) (ih _)
      cases classification with
      | benign => exact ih _
      | suspicious => exact guarded_send (fun _ => id) (fun _ _ => ih _) (ih _)
      | malicious => exact guarded_send (fun _ => id) (fun _ _ => ih _) (ih _)

theorem guarded_processDiff (diffID : DiffID) :
    Guarded cfg ends x (processDiff cfg diffID) := by
  refine guarded_send (fun _ => id) ?_ trivial
  rintro (_ | ⟨diff, _⟩) _
  · trivial
  · refine guarded_send (fun _ => id) ?_ trivial
    rintro (_ | _) _
    · trivial
    · refine (guarded_analyzeWith _ _ _).bind ?_ fun _ hnot => hnot.elim
      rintro (_ | _)
      · trivial
      · exact guarded_send (fun _ h => h.2) (fun _ _ => trivial) trivial

/-- The loop over the providers is followed by whatever pays for both of its results. -/
theorem owes_analyzeWith {f : Bool → Body α}
    (hf : ∀ created, (custody cfg).Owes settled x (f created)) (diffID : DiffID)
    (analysisCreated : Bool) (providers : List GoString) :
    (custody cfg).Owes settled x (analyzeWith diffID analysisCreated providers >>= f) := by
  induction providers generalizing analysisCreated with
  | nil => exact hf _
  | cons provider providers ih =>
      refine Or.inr fun classification _ => Or.inr fun _ _ => ?_
      cases classification with
      | benign => exact ih true
      | suspicious => exact Or.inr fun _ _ => ih true
      | malicious => exact Or.inr fun _ _ => ih true

theorem owes_processDiff (herror : ∀ message, ends (.error message)) (diffID : DiffID) :
    (custody cfg).Owes ends diffID.release (processDiff cfg diffID) := by
  refine owes_send ?_
  rintro (_ | ⟨diff, _⟩) _
  · exact herror _
  · refine owes_send ?_
    rintro (_ | _) _
    · exact herror _
    · refine owes_analyzeWith ?_ _ _ _
      rintro (_ | _)
      · exact herror _
      · exact owes_of_adds ⟨rfl, id⟩

/-! ## Requeueing -/

/-- The last part of a re-analysis without a diff. -/
theorem guarded_requeueDiff (releaseID : Nat) : Guarded cfg ends x (do
    match ← send (.updateReleaseStatus releaseID .pending) with
    | none => return .error "updating status".toList
    | some _ =>
        match ← send (.enqueue (.diff releaseID)) with
        | none => return .error "enqueue diff".toList
        | some _ => return .ok) :=
  guarded_taking (fun _ htakes => owes_of_adds htakes.1) (fun _ _ => guarded_lastEnqueue) trivial

theorem guarded_reanalyzeRelease (workspaceID : GoString) (releaseID : Nat) :
    Guarded cfg ends x (reanalyzeRelease workspaceID releaseID) := by
  refine guarded_send (fun _ => id) ?_ trivial
  rintro (_ | _) _
  · trivial
  · refine guarded_send (fun _ => id) ?_ (guarded_requeueDiff releaseID)
    rintro (_ | diffID) hsound
    · exact guarded_requeueDiff releaseID
    · refine guarded_taking (fun _ htakes => ?_) (fun _ _ => guarded_lastEnqueue) trivial
      exact owes_of_adds ((hsound diffID rfl).trans htakes.1)

theorem guarded_recoverRelease (releaseID : Nat) (release : Release) :
    Guarded cfg (fun _ => False) x (recoverRelease releaseID release) := by
  have hdiff : Guarded cfg (fun _ => False) x (do
      let _ ← send (.updateReleaseStatus releaseID .pending)
      let _ ← send (.enqueue (.diff releaseID))
      return () : Body Unit) :=
    guarded_taking (fun _ htakes => owes_of_adds htakes.1)
      (fun _ _ => guarded_enqueue fun _ => trivial) (guarded_enqueue fun _ => trivial)
  rw [recoverRelease]
  split
  · exact hdiff
  · refine guarded_send (fun _ => id) ?_ hdiff
    rintro (_ | diffID) _
    · exact hdiff
    · have hcount (n : Nat) : Guarded cfg (fun _ => False) x
          (if n = 0 then do
            let _ ← send (.enqueue (.analyze diffID))
            return ()
          else do
            let _ ← send (.updateReleaseStatus releaseID .completed)
            return () : Body Unit) := by
        split_ifs
        · exact guarded_enqueue fun _ => trivial
        · exact guarded_send (fun _ h => h.2) (fun _ _ => trivial) trivial
      exact guarded_send (fun _ => id) (fun n _ => hcount n) (hcount 0)
  · trivial

theorem guarded_recoverStuckReleases :
    Guarded cfg ends x recoverStuckReleases := by
  have hloop (stuck : List (Nat × Release)) :
      Guarded cfg ends x (recoverReleases stuck) := by
    induction stuck with
    | nil => trivial
    | cons e stuck ih =>
        obtain ⟨releaseID, release⟩ := e
        exact (guarded_recoverRelease releaseID release).bind (fun _ => ih)
          fun _ hnot => hnot.elim
  exact guarded_send (fun _ => id) (fun stuck _ => hloop _) (hloop _)

/-- Every status that an operation sets is followed by the calls that pay for it. -/
theorem guarded_bodyOf (op : Op) :
    Guarded cfg (fun result => Settles op result x) x (bodyOf cfg op) := by
  cases op with
  | poll packageID pkg => exact guarded_checkPackageForNewReleases packageID pkg
  | processRelease jobID releaseID =>
      refine guarded_processRelease fun hx message => ?_
      exact ⟨⟨jobID, .diff releaseID, rfl, hx.symm⟩, message, rfl⟩
  | processDiff jobID diffID => exact guarded_processDiff diffID
  | reanalyzeRelease workspaceID releaseID => exact guarded_reanalyzeRelease _ _
  | recoverStuckReleases => exact guarded_recoverStuckReleases

/-- A worker owes the release of its job. -/
theorem owes_bodyOf {op : Op} (hop : op.Processes x) :
    (custody cfg).Owes (fun result => Settles op result x) x (bodyOf cfg op) := by
  have herror : ∀ message, Settles op (.error message) x := fun message => ⟨hop, message, rfl⟩
  obtain ⟨jobID, ref, hjob, rfl⟩ := hop
  cases op with
  | processRelease jobID releaseID =>
      obtain ⟨rfl, rfl⟩ := Prod.mk.inj (Option.some.inj hjob)
      exact owes_processRelease herror releaseID
  | processDiff jobID diffID =>
      obtain ⟨rfl, rfl⟩ := Prod.mk.inj (Option.some.inj hjob)
      exact owes_processDiff herror diffID
  | _ => simp [Op.job] at hjob

end Bodies

/-! ## The runs -/

/-- The steps that strand no release.  When a call fails, each release that its operation
owes is still owed afterwards, or is not in progress, referenced by an idle job or owed
by another operation; when an operation stops, the same holds of each release that it
owes and whose job it does not process. -/
def Safe (cfg : Config) (w : PipelineWorld) : Label Op → Prop
  | .fail i => ∀ x op c k failed, w.threads i = some ⟨op, .cmd c k, failed⟩ →
      (custody cfg).OwesThread x ⟨op, .cmd c k, failed⟩ →
        (custody cfg).OwesThread x ⟨op, k none, true⟩ ∨ (custody cfg).CoveredBut w i x
  | .stop i => ∀ x t, w.threads i = some t → (custody cfg).OwesThread x t →
      t.op.Processes x ∨ (custody cfg).CoveredBut w i x
  | _ => True

/-- What holds in every state of a run of safe steps. -/
structure Inv (cfg : Config) (w : PipelineWorld) : Prop where
  guarded : ∀ i t, w.threads i = some t → ∀ x,
    Guarded cfg (fun result => Settles t.op result x) x t.prog
  running : ∀ i t, w.threads i = some t → ∀ jobID ref, t.op.job = some (jobID, ref) →
    w.store.queue.get? jobID = some ⟨ref, true⟩
  single : ∀ i t, w.threads i = some t → ∀ j u, w.threads j = some u → i ≠ j →
    ∀ jobID ref ref', t.op.job = some (jobID, ref) → u.op.job ≠ some (jobID, ref')
  covered : ∀ x, (custody cfg).Covered w x

/-- The invariant holds before the first operation. -/
theorem inv_start (cfg : Config) (packages : Table Nat Package) (outside : Outside) :
    Inv cfg (start packages outside) where
  guarded := by simp [start, World.initial]
  running := by simp [start, World.initial]
  single := by simp [start, World.initial]
  covered := fun x => Or.inl (by simp [custody, Secured, start, World.initial, State.initial])

/-! ## Jobs of operations -/

/-- A job that the operation does not process is as before. -/
theorem get?_setRunning_of_ne {s : State} {op : Op} {running : Bool} {id : Nat}
    (hid : ∀ ref, op.job ≠ some (id, ref)) :
    (s.setRunning op running).queue.get? id = s.queue.get? id := by
  simp only [State.setRunning]
  split
  · rfl
  · rename_i jobID ref hop
    have hne : id ≠ jobID := fun heq => hid ref (heq ▸ hop)
    simp [Ledger.get?_modify, hne]

theorem get?_done_of_ne {s : State} {op : Op} {result : Result} {id : Nat}
    (hid : ∀ ref, op.job ≠ some (id, ref)) :
    (s.done op result).queue.get? id = s.queue.get? id := by
  cases result with
  | error message => exact get?_setRunning_of_ne hid
  | ok =>
      simp only [State.done]
      split
      · rfl
      · rename_i jobID ref hop
        have hne : id ≠ jobID := fun heq => hid ref (heq ▸ hop)
        simp [Ledger.get?_remove, hne]

/-- The job that the operation processes is marked. -/
theorem get?_setRunning {s : State} {op : Op} {running before : Bool} {jobID : Nat}
    {ref : JobRef} (hop : op.job = some (jobID, ref))
    (hjob : s.queue.get? jobID = some ⟨ref, before⟩) :
    (s.setRunning op running).queue.get? jobID = some ⟨ref, running⟩ := by
  simp [State.setRunning, hop, Ledger.get?_modify, hjob]

/-- A release stays secured when a job is taken, given back or removed, unless its idle
job is taken. -/
theorem secured_of_queue {s s' : State} {x : Nat} (hsecured : Secured s x)
    (hreleases : s'.releases = s.releases) (hidle : Idle s x → Idle s' x) : Secured s' x := by
  intro release hrelease hstatus
  rw [hreleases] at hrelease
  exact hidle (hsecured release hrelease hstatus)

section Preservation

variable {cfg : Config} {w : PipelineWorld} {i : Nat}

/-- An idle job is not the one that a running operation processes. -/
theorem Inv.ne_of_idle (hinv : Inv cfg w) {t : Thread Op Call Answer Result}
    (hthread : w.threads i = some t) {id : Nat} {job : Job}
    (hjob : w.store.queue.get? id = some job) (hidle : job.running = false) :
    ∀ ref, t.op.job ≠ some (id, ref) := by
  intro ref hop
  have hrunning := hinv.running i t hthread id ref hop
  rw [hjob] at hrunning
  obtain rfl := Option.some.inj hrunning
  simp at hidle

/-- The other operations keep their jobs when the one at `i` changes. -/
theorem Inv.others (hinv : Inv cfg w) {store : State}
    {t : Option (Thread Op Call Answer Result)}
    (hjobs : ∀ j u, j ≠ i → w.threads j = some u → ∀ jobID ref, u.op.job = some (jobID, ref) →
      store.queue.get? jobID = w.store.queue.get? jobID)
    (hnew : ∀ u, t = some u → ∀ jobID ref, u.op.job = some (jobID, ref) →
      store.queue.get? jobID = some ⟨ref, true⟩) :
    ∀ j u, w.setThread i t j = some u → ∀ jobID ref, u.op.job = some (jobID, ref) →
      store.queue.get? jobID = some ⟨ref, true⟩ := by
  refine World.forall_setThread (P := fun _ (u : Thread Op Call Answer Result) =>
    ∀ jobID ref, u.op.job = some (jobID, ref) →
      store.queue.get? jobID = some ⟨ref, true⟩) ?_ hnew
  intro j hj u hu jobID ref hop
  rw [hjobs j u hj hu jobID ref hop]
  exact hinv.running j u hu jobID ref hop

/-- No two operations process the same job when a new one takes a job of its own. -/
theorem Inv.single_setThread (hinv : Inv cfg w) {t : Option (Thread Op Call Answer Result)}
    (hnew : ∀ u, t = some u → ∀ j v, j ≠ i → w.threads j = some v →
      ∀ jobID ref ref', u.op.job = some (jobID, ref) → v.op.job ≠ some (jobID, ref')) :
    ∀ j u, w.setThread i t j = some u → ∀ j' v, w.setThread i t j' = some v → j ≠ j' →
      ∀ jobID ref ref', u.op.job = some (jobID, ref) → v.op.job ≠ some (jobID, ref') := by
  intro j u hu j' v hv hne jobID ref ref' hop hop'
  by_cases hj : j = i
  · subst hj
    rw [w.setThread_self] at hu
    rw [w.setThread_of_ne t (Ne.symm hne)] at hv
    exact hnew u hu j' v (Ne.symm hne) hv jobID ref ref' hop hop'
  · rw [w.setThread_of_ne t hj] at hu
    by_cases hj' : j' = i
    · subst hj'
      rw [w.setThread_self] at hv
      exact hnew v hv j u hne hu jobID ref' ref hop' hop
    · rw [w.setThread_of_ne t hj'] at hv
      exact hinv.single j u hu j' v hv hne jobID ref ref' hop hop'

/-- A started operation keeps the invariant. -/
theorem Inv.start {op : Op} (hinv : Inv cfg w) (hfree : w.threads i = none)
    (henabled : w.store.enabled op) :
    Inv cfg ⟨w.store.setRunning op true,
      w.setThread i (some ⟨op, bodyOf cfg op, false⟩), w.log⟩ := by
  have hjob : ∀ jobID ref, op.job = some (jobID, ref) →
      w.store.queue.get? jobID = some ⟨ref, false⟩ := by
    intro jobID ref hop
    cases op with
    | poll packageID pkg => simp [Op.job] at hop
    | _ => exact henabled jobID ref hop
  have hfresh : ∀ j u, w.threads j = some u → ∀ jobID ref ref',
      op.job = some (jobID, ref) → u.op.job ≠ some (jobID, ref') :=
    fun j u hu jobID ref ref' hop =>
      hinv.ne_of_idle hu (hjob jobID ref hop) rfl ref'
  refine ⟨?_, ?_, ?_, fun x => ?_⟩
  · refine World.forall_setThread (P := fun _ t => ∀ x,
      Guarded cfg (fun result => Settles t.op result x) x t.prog)
      (fun j _ => hinv.guarded j) ?_
    rintro u ⟨⟩ x
    exact guarded_bodyOf op
  · refine hinv.others (fun j u _ hu jobID ref hop => ?_) ?_
    · exact get?_setRunning_of_ne fun ref' hop' => hfresh j u hu jobID ref' ref hop' hop
    · rintro u ⟨⟩ jobID ref hop
      exact get?_setRunning hop (hjob jobID ref hop)
  · refine hinv.single_setThread ?_
    rintro u ⟨⟩ j v _ hv
    exact hfresh j v hv
  · refine Custody.covered_start (S := pipelineSystem cfg) hfree (hinv.covered x) ?_
    intro hsecured
    by_cases hprocesses : op.Processes x
    · exact Or.inr (owes_bodyOf hprocesses)
    · refine Or.inl (secured_of_queue hsecured (releases_setRunning _ _ _) ?_)
      rintro ⟨id, job, hget, rfl, hidle⟩
      refine ⟨id, job, ?_, rfl, hidle⟩
      refine (get?_setRunning_of_ne fun ref hop => hprocesses ⟨id, ref, hop, ?_⟩).trans hget
      rw [hjob id ref hop] at hget
      obtain rfl := Option.some.inj hget
      rfl

/-- A call keeps the invariant. -/
theorem Inv.exec {op : Op} {c : Call} {k : Option (Answer c) → Body Result} {failed : Bool}
    (hinv : Inv cfg w) (hthread : w.threads i = some ⟨op, .cmd c k, failed⟩) :
    Inv cfg ⟨(w.store.exec c).1,
      w.setThread i (some ⟨op, k (some (w.store.exec c).2), failed⟩), .ran op c :: w.log⟩ := by
  have hkeep : ∀ id job, w.store.queue.get? id = some job →
      (w.store.exec c).1.queue.get? id = some job := by
    intro id job hjob
    cases c with
    | enqueue ref => exact Ledger.get?_add_of_some hjob
    | _ => exact hjob
  refine ⟨?_, ?_, ?_, fun x => ?_⟩
  · refine World.forall_setThread (P := fun _ t => ∀ x,
      Guarded cfg (fun result => Settles t.op result x) x t.prog)
      (fun j _ => hinv.guarded j) ?_
    rintro u ⟨⟩ x
    exact ((hinv.guarded i _ hthread x).1 _ (sound_exec w.store c)).2
  · refine hinv.others (fun j u _ hu jobID ref hop => ?_) ?_
    · have hrunning := hinv.running j u hu jobID ref hop
      rw [hkeep _ _ hrunning, hrunning]
    · rintro u ⟨⟩ jobID ref hop
      exact hkeep _ _ (hinv.running i _ hthread jobID ref hop)
  · refine hinv.single_setThread ?_
    rintro u ⟨⟩ j v hj hv
    exact hinv.single i _ hthread j v hv (Ne.symm hj)
  · rcases Custody.covered_exec_guarded (S := pipelineSystem cfg) (K := custody cfg) hthread
      (fun hsticky => absurd hsticky (by simp [pipelineSystem])) (hinv.guarded i _ hthread x)
      (hinv.covered x) (sound_exec w.store c) (sound_exec w.store c) with ⟨hnot, _⟩ | hcovered
    · exact hnot.elim
    · exact hcovered

/-- A failing call keeps the invariant when it leaves no debt. -/
theorem Inv.fail {op : Op} {c : Call} {k : Option (Answer c) → Body Result} {failed : Bool}
    (hinv : Inv cfg w) (hsafe : Safe cfg w (.fail i))
    (hthread : w.threads i = some ⟨op, .cmd c k, failed⟩) :
    Inv cfg ⟨w.store, w.setThread i (some ⟨op, k none, true⟩), w.log⟩ := by
  refine ⟨?_, ?_, ?_, fun x => Custody.covered_fail ?_⟩
  · refine World.forall_setThread (P := fun _ t => ∀ x,
      Guarded cfg (fun result => Settles t.op result x) x t.prog)
      (fun j _ => hinv.guarded j) ?_
    rintro u ⟨⟩ x
    exact (hinv.guarded i _ hthread x).2
  · refine hinv.others (fun _ _ _ _ _ _ _ => rfl) ?_
    rintro u ⟨⟩ jobID ref hop
    exact hinv.running i _ hthread jobID ref hop
  · refine hinv.single_setThread ?_
    rintro u ⟨⟩ j v hj hv
    exact hinv.single i _ hthread j v hv (Ne.symm hj)
  · rcases (hinv.covered x).owes_or_but i with ⟨t, ht, howes⟩ | hbut
    · obtain rfl := Option.some.inj (hthread.symm.trans ht)
      exact hsafe x op c k failed hthread howes
    · exact Or.inr hbut

/-- An operation that is gone leaves the others as they are. -/
theorem Inv.gone {t : Thread Op Call Answer Result} {store : State}
    {log : List (Event Op Call Result)} (hinv : Inv cfg w) (hthread : w.threads i = some t)
    (hjobs : ∀ id, (∀ ref, t.op.job ≠ some (id, ref)) →
      store.queue.get? id = w.store.queue.get? id)
    (hcovered : ∀ x, (custody cfg).Covered ⟨store, w.setThread i none, log⟩ x) :
    Inv cfg ⟨store, w.setThread i none, log⟩ := by
  refine ⟨?_, ?_, hinv.single_setThread (by simp), hcovered⟩
  · exact World.forall_setThread (P := fun _ t => ∀ x,
      Guarded cfg (fun result => Settles t.op result x) x t.prog)
      (fun j _ => hinv.guarded j) (by simp)
  · refine hinv.others ?_ (by simp)
    intro j u hj hu jobID ref hop
    refine hjobs jobID fun ref' hop' => ?_
    exact hinv.single i t hthread j u hu (Ne.symm hj) jobID ref' ref hop' hop

/-- The release of a job that is given back is secured. -/
theorem Inv.secured_of_processes (hinv : Inv cfg w) {t : Thread Op Call Answer Result}
    (hthread : w.threads i = some t) {x : Nat} (hprocesses : t.op.Processes x) :
    Secured (w.store.setRunning t.op false) x := by
  obtain ⟨jobID, ref, hop, rfl⟩ := hprocesses
  intro release _ _
  exact ⟨jobID, ⟨ref, false⟩, get?_setRunning hop (hinv.running i t hthread jobID ref hop),
    rfl, rfl⟩

/-- An idle job stays idle when an operation is gone. -/
theorem Inv.secured_gone (hinv : Inv cfg w) {t : Thread Op Call Answer Result}
    (hthread : w.threads i = some t) {store : State}
    (hreleases : store.releases = w.store.releases)
    (hjobs : ∀ id, (∀ ref, t.op.job ≠ some (id, ref)) →
      store.queue.get? id = w.store.queue.get? id) {x : Nat} (hsecured : Secured w.store x) :
    Secured store x := by
  refine secured_of_queue hsecured hreleases ?_
  rintro ⟨id, job, hget, hrelease, hidle⟩
  exact ⟨id, job, (hjobs id (hinv.ne_of_idle hthread hget hidle)).trans hget, hrelease, hidle⟩

/-- A stopped operation keeps the invariant when it leaves no debt. -/
theorem Inv.stop {t : Thread Op Call Answer Result} (hinv : Inv cfg w)
    (hsafe : Safe cfg w (.stop i)) (hthread : w.threads i = some t) :
    Inv cfg ⟨w.store.setRunning t.op false, w.setThread i none, w.log⟩ := by
  refine hinv.gone hthread (fun _ => get?_setRunning_of_ne) fun x => ?_
  by_cases hprocesses : t.op.Processes x
  · exact Or.inl (hinv.secured_of_processes hthread hprocesses)
  · have hbut : (custody cfg).CoveredBut w i x := by
      rcases (hinv.covered x).owes_or_but i with ⟨u, hu, howes⟩ | hbut
      · obtain rfl := Option.some.inj (hthread.symm.trans hu)
        exact (hsafe x t hthread howes).resolve_left hprocesses
      · exact hbut
    exact Custody.covered_stop (S := pipelineSystem cfg) hbut fun hsecured =>
      hinv.secured_gone hthread (releases_setRunning _ _ _)
        (fun _ => get?_setRunning_of_ne) hsecured

/-- A finished operation keeps the invariant. -/
theorem Inv.finish {op : Op} {result : Result} {failed : Bool} (hinv : Inv cfg w)
    (hthread : w.threads i = some ⟨op, .ret result, failed⟩) :
    Inv cfg ⟨w.store.done op result, w.setThread i none, .returned op result :: w.log⟩ := by
  refine hinv.gone hthread (fun _ => get?_done_of_ne) fun x => ?_
  refine Custody.covered_finish (S := pipelineSystem cfg) hthread (hinv.covered x)
    (fun hsecured => ?_) ?_
  · exact hinv.secured_gone hthread (releases_done _ _ _) (fun _ => get?_done_of_ne) hsecured
  · rintro ⟨hprocesses, message, rfl⟩
    exact hinv.secured_of_processes hthread hprocesses

/-- Safe steps keep the invariant. -/
theorem Inv.step {l : Label Op} {w' : PipelineWorld} (hinv : Inv cfg w) (hsafe : Safe cfg w l)
    (hstep : (pipelineSystem cfg).Step w l w') : Inv cfg w' := by
  cases hstep with
  | start hfree henabled => exact hinv.start hfree henabled
  | exec hthread _ => exact hinv.exec hthread
  | fail hthread _ => exact hinv.fail hsafe hthread
  | stop hthread => exact hinv.stop hsafe hthread
  | finish hthread => exact hinv.finish hthread
  | env henv =>
      cases henv with
      | outside outside => exact ⟨hinv.guarded, hinv.running, hinv.single, hinv.covered⟩
      | package hnew pkg => exact ⟨hinv.guarded, hinv.running, hinv.single, hinv.covered⟩

/-- Every run of safe steps keeps all releases covered and all operations grounded. -/
theorem inv_of_run {packages : Table Nat Package} {outside : Outside}
    (hrun : Run (pipelineSystem cfg).Step (Safe cfg) (start packages outside) w) :
    Inv cfg w ∧ ∃ vain, Grounds vain w :=
  hrun.invariant (I := fun w => Inv cfg w ∧ ∃ vain, Grounds vain w)
    ⟨inv_start cfg packages outside, _, grounds_start packages outside⟩
    fun _ _ _ ⟨hinv, _, hgrounds⟩ hsafe hstep => ⟨hinv.step hsafe hstep, _, hgrounds.step hstep⟩

/-- In a run of safe steps, whenever no operation is in progress every release that is
pending, diffing or analyzing is referenced by a queued job: a diff job with its ID or an
analyze job with the ID of one of its diffs. -/
theorem referenced_of_run {packages : Table Nat Package} {outside : Outside}
    (hrun : Run (pipelineSystem cfg).Step (Safe cfg) (start packages outside) w)
    (hquiet : w.Quiescent) {releaseID : Nat} {release : Release}
    (hrelease : w.store.releases.get? releaseID = some release)
    (hstatus : release.status.InProgress) :
    ∃ id job, w.store.queue.get? id = some job ∧
      (job.ref = .diff releaseID ∨
        ∃ d ∈ w.store.diffs.keys, d.release = releaseID ∧ job.ref = .analyze d) := by
  obtain ⟨hinv, vain, hgrounds⟩ := inv_of_run hrun
  have hsecured : Secured w.store releaseID :=
    Custody.secured_of_quiescent (K := custody cfg) (hinv.covered releaseID) hquiet
  obtain ⟨id, job, hjob, hjobrelease, _⟩ := hsecured release hrelease hstatus
  refine ⟨id, job, hjob, ?_⟩
  cases href : job.ref with
  | diff r =>
      rw [href] at hjobrelease
      exact Or.inl (by rw [← hjobrelease]; rfl)
  | analyze d =>
      rw [href] at hjobrelease
      exact Or.inr ⟨d, hgrounds.jobs id job d hjob href, hjobrelease, rfl⟩

end Preservation

/-! ## One release, queued and stranded -/

/-- A poll of the package in which no call fails. -/
def pollLabels : List (Label Op) :=
  [.start 0 (.poll 0 onePackage), .exec 0, .exec 0, .exec 0, .exec 0, .exec 0, .finish 0]

/-- A poll of the package whose last call, {lit}`Enqueue`, fails. -/
def failingPollLabels : List (Label Op) :=
  [.start 0 (.poll 0 onePackage), .exec 0, .exec 0, .exec 0, .exec 0, .fail 0, .finish 0]

/-- The steps without failures and stops. -/
def isCalm (_ : PipelineWorld) : Label Op → Bool
  | .stop _ | .fail _ => false
  | _ => true

/-- Such steps are safe. -/
theorem safe_of_isCalm (w : PipelineWorld) (l : Label Op) (hcalm : isCalm w l = true) :
    Safe defaultConfig w l := by
  cases l with
  | stop i => simp [isCalm] at hcalm
  | fail i => simp [isCalm] at hcalm
  | _ => trivial

/-- The first release is pending and the poll has ended. -/
def firstPending (w : PipelineWorld) : Bool :=
  (w.store.releases.get? 0).any (fun release => release.status = .pending) &&
    (w.threads 0).isNone

/-- Then the first release is in progress. -/
theorem exists_of_firstPending {w : PipelineWorld} (hfirst : firstPending w = true) :
    (∃ release, w.store.releases.get? 0 = some release ∧ release.status.InProgress) ∧
      (w.threads 0).isNone = true := by
  obtain ⟨hpending, hdone⟩ := Bool.and_eq_true_iff.mp hfirst
  obtain ⟨release, hrelease, hstatus⟩ := (Option.any_eq_true _ _).mp hpending
  refine ⟨⟨release, hrelease, ?_⟩, hdone⟩
  rw [of_decide_eq_true hstatus]
  trivial

/-- The release of an undisturbed poll is referenced by a job. -/
theorem referenced_of_run_poll :
    ∃ w release, Run (pipelineSystem defaultConfig).Step (Safe defaultConfig) monitoring w ∧
      w.Quiescent ∧ w.store.releases.get? 0 = some release ∧ release.status.InProgress ∧
      ∃ id job, w.store.queue.get? id = some job ∧
        (job.ref = .diff 0 ∨ ∃ d ∈ w.store.diffs.keys, d.release = 0 ∧ job.ref = .analyze d) := by
  obtain ⟨w, hsteps, htest⟩ := System.exists_of_steps? (pipelineSystem defaultConfig) isCalm
    monitoring pollLabels firstPending (by decide +kernel)
  obtain ⟨⟨release, hrelease, hstatus⟩, hdone⟩ := exists_of_firstPending htest
  have hrun := System.run_of_steps? safe_of_isCalm hsteps
  have hquiet : w.Quiescent := by
    refine System.quiescent_of_steps? hsteps (fun _ => rfl) ?_
    simpa [pollLabels, Label.thread] using hdone
  exact ⟨w, release, hrun, hquiet, hrelease, hstatus,
    referenced_of_run hrun hquiet hrelease hstatus⟩

/-- A poll whose {lit}`Enqueue` fails leaves its release in progress without any job. -/
theorem release_stranded_by_failing_enqueue :
    ∃ w release, Run (pipelineSystem defaultConfig).Step (fun _ _ => True) monitoring w ∧
      w.Quiescent ∧ w.store.releases.get? 0 = some release ∧ release.status.InProgress ∧
      ∀ id, w.store.queue.get? id = none := by
  obtain ⟨w, hsteps, htest⟩ := System.exists_of_steps? (pipelineSystem defaultConfig)
    (fun _ _ => true) monitoring failingPollLabels
    (fun w => firstPending w && w.store.queue.rows.entries.isEmpty) (by decide +kernel)
  obtain ⟨hfirst, hempty⟩ := Bool.and_eq_true_iff.mp htest
  obtain ⟨⟨release, hrelease, hstatus⟩, hdone⟩ := exists_of_firstPending hfirst
  have hquiet : w.Quiescent := by
    refine System.quiescent_of_steps? hsteps (fun _ => rfl) ?_
    simpa [failingPollLabels, Label.thread] using hdone
  refine ⟨w, release, System.run_of_steps? (fun _ _ _ => trivial) hsteps, hquiet, hrelease,
    hstatus, fun id => ?_⟩
  simp [Ledger.get?, Table.get?, List.isEmpty_iff.mp hempty]

end Pipeline
end Veilence
