import Veilence.Reanalysis.Discipline

/-!
# One worker for every job

What holds of the workers at every moment, however requests and workers interleave: a job that is
being processed has one worker, the mode of a worker tells the truth about the rows of its diff,
and no two workers are about to create an alert for one analysis.

Main results:

- Theorem {lit}`Steady.step`: every step keeps this.
- Theorem {lit}`Steady.served`: a diff that is served stays so.
-/

namespace Veilence
namespace Reanalysis

open Go Foundation

/-! ## What a call leaves as it is -/

section Rows

variable {s : State} {c : Call}

/-- The package of a diff. -/
def State.packageOf (s : State) (diffID : Nat) : Option Package :=
  (s.diffWithRelease diffID).map fun found => found.2.2

theorem packageOf_eq (s : State) (diffID : Nat) :
    s.packageOf diffID = (s.diffs.get? diffID).bind fun diff =>
      (s.releases.get? diff.releaseID).bind fun release => s.packages.get? release.packageID := by
  unfold State.packageOf State.diffWithRelease State.releaseWithPackage
  cases s.diffs.get? diffID with
  | none => rfl
  | some diff =>
      dsimp only [Option.bind_some]
      cases s.releases.get? diff.releaseID with
      | none => rfl
      | some release =>
          dsimp only [Option.bind_some]
          cases s.packages.get? release.packageID with
          | none => rfl
          | some pkg => rfl

theorem eligible_iff {workspaceID : GoString} {diffID : Nat} :
    Eligible s workspaceID diffID ↔
      ∃ pkg, s.packageOf diffID = some pkg ∧ pkg.workspaceID = workspaceID ∧
        pkg.status = .active := by
  unfold Eligible State.packageOf
  constructor
  · intro h
    obtain ⟨diff, release, pkg, hfound, hpkg⟩ := h
    exact ⟨pkg, by rw [hfound]; rfl, hpkg⟩
  · intro h
    obtain ⟨pkg, hpackage, hpkg⟩ := h
    obtain ⟨⟨diff, release, pkg'⟩, hfound, rfl⟩ := Option.map_eq_some_iff.mp hpackage
    exact ⟨diff, release, pkg', hfound, hpkg⟩

/-- A change of a release that leaves its package changes the package of no diff. -/
theorem packageOf_updateRelease (s : State) (id : Nat) (f : Pipeline.Release → Pipeline.Release)
    (hf : ∀ r, (f r).packageID = r.packageID) (diffID : Nat) :
    (s.updateRelease id f).packageOf diffID = s.packageOf diffID := by
  rw [packageOf_eq, packageOf_eq]
  unfold State.updateRelease
  dsimp only
  cases s.diffs.get? diffID with
  | none => rfl
  | some diff =>
      dsimp only [Option.bind_some]
      rw [Ledger.get?_modify]
      split_ifs with hid
      · rw [hid]
        cases s.releases.get? id with
        | none => rfl
        | some release =>
            dsimp only [Option.map_some, Option.bind_some]
            rw [hf]
      · rfl

/-- A diff with a row or a job is not the next one. -/
theorem ne_freshDiffID_of_diff {diffID : Nat} {diff : Diff}
    (hdiff : s.diffs.get? diffID = some diff) : diffID ≠ s.freshDiffID := by
  have hmem : diffID ∈ s.diffs.keys := Table.mem_keys_iff.mpr (by rw [hdiff]; rfl)
  have hle := Table.le_foldr_max (List.mem_append_left
    (s.queue.rows.entries.filterMap fun e => e.2.ref.diffID) hmem)
  exact Nat.ne_of_lt (Nat.lt_succ_of_le hle)

theorem ne_freshDiffID_of_job {diffID jobID : Nat} {job : Job}
    (hjob : s.queue.get? jobID = some job) (href : job.ref = .analyze diffID) :
    diffID ≠ s.freshDiffID := by
  have hentry : (jobID, job) ∈ s.queue.rows.entries := Table.get?_eq_some_iff.mp hjob
  have hmem : diffID ∈ s.queue.rows.entries.filterMap fun e => e.2.ref.diffID :=
    List.mem_filterMap.mpr ⟨(jobID, job), hentry, by dsimp only; rw [href]; rfl⟩
  have hle := Table.le_foldr_max (List.mem_append_right s.diffs.keys hmem)
  exact Nat.ne_of_lt (Nat.lt_succ_of_le hle)

/-- No call changes the package of a diff, except that the next one gets a package. -/
theorem packageOf_exec (s : State) (c : Call) {diffID : Nat} (hold : diffID ≠ s.freshDiffID) :
    (s.exec c).1.packageOf diffID = s.packageOf diffID := by
  cases c with
  | updateReleaseStatus id status =>
      exact packageOf_updateRelease s id (fun r => { r with status := status })
        (fun _ => rfl) diffID
  | updateReleaseError id message =>
      exact packageOf_updateRelease s id
        (fun r => { r with status := .error, errorMessage := message }) (fun _ => rfl) diffID
  | createDiff releaseID prevReleaseID =>
      dsimp only [State.exec]
      split_ifs with hprev
      · rw [packageOf_eq, packageOf_eq]
        dsimp only [State.addDiff]
        rw [Table.get?_insert_of_ne hold]
      · rfl
  | createAlert alert =>
      dsimp only [State.exec]
      split_ifs <;> rfl
  | _ => rfl

/-- Releases stay. -/
theorem release_isSome_exec (c : Call) {id : Nat} (hsome : (s.releases.get? id).isSome = true) :
    ((s.exec c).1.releases.get? id).isSome = true := by
  cases c with
  | updateReleaseStatus id' status => exact Ledger.isSome_get?_modify hsome
  | updateReleaseError id' message => exact Ledger.isSome_get?_modify hsome
  | createDiff releaseID prevReleaseID =>
      dsimp only [State.exec]
      split_ifs <;> exact hsome
  | createAlert alert =>
      dsimp only [State.exec]
      split_ifs <;> exact hsome
  | _ => exact hsome

/-- Only the creation of an analysis changes the analyses. -/
theorem analyses_exec (s : State) {c : Call} (hc : ∀ a, c ≠ .createAnalysis a) :
    (s.exec c).1.analyses = s.analyses := by
  cases c with
  | createAnalysis a => exact absurd rfl (hc a)
  | createDiff releaseID prevReleaseID =>
      dsimp only [State.exec]
      split_ifs <;> rfl
  | createAlert alert =>
      dsimp only [State.exec]
      split_ifs <;> rfl
  | _ => rfl

/-- Analyses stay. -/
theorem analysis_exec (c : Call) {id : Nat} {a : Analysis} (ha : s.analyses.get? id = some a) :
    (s.exec c).1.analyses.get? id = some a := by
  by_cases hc : ∃ a', c = .createAnalysis a'
  · obtain ⟨a', rfl⟩ := hc
    exact Ledger.get?_add_of_some ha
  · rw [analyses_exec s fun a' heq => hc ⟨a', heq⟩]
    exact ha

theorem analyzed_exec (c : Call) {diffID : Nat} (ha : Analyzed s diffID) :
    Analyzed (s.exec c).1 diffID := by
  obtain ⟨id, a, hget, hdiff⟩ := ha
  exact ⟨id, a, analysis_exec c hget, hdiff⟩

/-- Only the creation of an alert changes the alerts. -/
theorem alerts_exec (s : State) {c : Call} (hc : ∀ alert, c ≠ .createAlert alert) :
    (s.exec c).1.alerts = s.alerts := by
  cases c with
  | createAlert alert => exact absurd rfl (hc alert)
  | createDiff releaseID prevReleaseID =>
      dsimp only [State.exec]
      split_ifs <;> rfl
  | _ => rfl

/-- A new alert is the one that a call creates. -/
theorem alert_exec {id : Nat} {alert : Alert}
    (halert : (s.exec c).1.alerts.get? id = some alert) :
    s.alerts.get? id = some alert ∨ (c = .createAlert alert ∧ id = s.alerts.next) := by
  by_cases hc : ∃ alert', c = .createAlert alert'
  · obtain ⟨alert', rfl⟩ := hc
    dsimp only [State.exec] at halert
    split_ifs at halert
    · rcases Ledger.of_get?_add halert with ⟨hid, rfl⟩ | hold
      · exact Or.inr ⟨rfl, hid⟩
      · exact Or.inl hold
    · exact Or.inl halert
  · rw [alerts_exec s fun alert' heq => hc ⟨alert', heq⟩] at halert
    exact Or.inl halert

/-- Only {lit}`Enqueue` changes the queue. -/
theorem queue_exec (s : State) {c : Call} (hc : ∀ ref workspaceID metadata,
    c ≠ .enqueue ref workspaceID metadata) : (s.exec c).1.queue = s.queue := by
  cases c with
  | enqueue ref workspaceID metadata => exact absurd rfl (hc ref workspaceID metadata)
  | createDiff releaseID prevReleaseID =>
      dsimp only [State.exec]
      split_ifs <;> rfl
  | createAlert alert =>
      dsimp only [State.exec]
      split_ifs <;> rfl
  | _ => rfl

/-- No call changes a job. -/
theorem job_exec (c : Call) {id : Nat} {job : Job} (hjob : s.queue.get? id = some job) :
    (s.exec c).1.queue.get? id = some job := by
  by_cases hc : ∃ ref workspaceID metadata, c = .enqueue ref workspaceID metadata
  · obtain ⟨ref, workspaceID, metadata, rfl⟩ := hc
    exact Ledger.get?_add_of_some hjob
  · rw [queue_exec s fun ref workspaceID metadata heq => hc ⟨ref, workspaceID, metadata, heq⟩]
    exact hjob

end Rows

/-! ## What a worker does to its job -/

/-- A worker that starts takes its job and no other one. -/
theorem job_begin (s : State) (op : Op) (id : Nat) :
    (s.begin op).queue.get? id =
      if op.job.map Prod.fst = some id then (s.queue.get? id).map Job.take
      else s.queue.get? id := by
  unfold State.begin
  cases op.job with
  | none => rfl
  | some e =>
      obtain ⟨jobID, ref⟩ := e
      dsimp only [State.withQueue, Option.map_some]
      rw [Ledger.get?_modify]
      by_cases hid : id = jobID
      · rw [if_pos hid, if_pos (congrArg some hid.symm), hid]
      · rw [if_neg hid, if_neg fun heq => hid (Option.some.inj heq).symm]

/-- The job after the end of its operation. -/
def Result.jobAfter (job : Job) : Result → Option Job
  | .error _ => some job.fail
  | _ => none

/-- A worker that ends completes its job or fails it, and changes no other one. -/
theorem job_done (s : State) (op : Op) (result : Result) (id : Nat) :
    (s.done op result).queue.get? id =
      if op.job.map Prod.fst = some id then (s.queue.get? id).bind result.jobAfter
      else s.queue.get? id := by
  unfold State.done
  cases op.job with
  | none => cases result <;> rfl
  | some e =>
      obtain ⟨jobID, ref⟩ := e
      rw [Option.map_some]
      by_cases hid : id = jobID
      · rw [if_pos (congrArg some hid.symm), ← hid]
        cases result with
        | error message =>
            dsimp only [State.withQueue]
            rw [Ledger.get?_modify, if_pos rfl]
            cases s.queue.get? id <;> rfl
        | _ =>
            dsimp only [State.withQueue]
            rw [Ledger.get?_remove, if_pos rfl]
            cases s.queue.get? id <;> rfl
      · rw [if_neg fun heq => hid (Option.some.inj heq).symm]
        cases result with
        | error message =>
            dsimp only [State.withQueue]
            rw [Ledger.get?_modify, if_neg hid]
        | _ =>
            dsimp only [State.withQueue]
            rw [Ledger.get?_remove, if_neg hid]

/-- The start and the end of an operation change the queue only. -/
theorem begin_eq (s : State) (op : Op) : s.begin op = s.withQueue (s.begin op).queue := by
  unfold State.begin
  cases op.job <;> rfl

theorem done_eq (s : State) (op : Op) (result : Result) :
    s.done op result = s.withQueue (s.done op result).queue := by
  unfold State.done
  cases op.job <;> cases result <;> rfl

/-! ## Modes and rows -/

/-- The mode belongs to the operation, and what it says of the rows is true. -/
def Mode.Sound (s : State) : Op → Mode → Prop
  | .reanalyzeAll _, .requesting _ => True
  | .processRelease _ _, .free => True
  | .processDiff _ _, .loading none => True
  | .processDiff _ _, .loading (some prevReleaseID) =>
      (s.releases.get? prevReleaseID).isSome = true
  | .processDiff _ diffID, .missing => s.packageOf diffID = none
  | .processDiff _ diffID, .analyzing _ pending created =>
      (created = true → Analyzed s diffID) ∧
        ∀ id, pending = some id → (∃ a, s.analyses.get? id = some a ∧ a.diffID = diffID) ∧
          ∀ alertID alert, s.alerts.get? alertID = some alert → alert.analysisID ≠ some id
  | _, _ => False

section Sound

variable {cfg : Config} {s : State} {op : Op} {m : Mode} {c : Call}

/-- The queue does not matter. -/
theorem sound_withQueue (queue : Ledger Job) :
    m.Sound (s.withQueue queue) op ↔ m.Sound s op :=
  Iff.rfl

/-- The diff of an operation has a job. -/
def Named (s : State) (op : Op) : Prop :=
  ∀ jobID diffID, op = .processDiff jobID diffID →
    ∃ id job, s.queue.get? id = some job ∧ job.ref = .analyze diffID

/-- A call changes nothing that a mode says, unless it creates the alert for the analysis that
the mode is about. -/
theorem Mode.Sound.exec (hsound : m.Sound s op) (hnamed : Named s op)
    (halert : ∀ alert todo id created, c = .createAlert alert →
      m = .analyzing todo (some id) created → alert.analysisID ≠ some id) :
    m.Sound (s.exec c).1 op := by
  cases op with
  | reanalyzeAll workspaceID =>
      cases m with
      | requesting left => trivial
      | _ => exact hsound
  | processRelease jobID releaseID =>
      cases m with
      | free => trivial
      | _ => exact hsound
  | processDiff jobID diffID =>
      obtain ⟨id, job, hjob, href⟩ := hnamed jobID diffID rfl
      cases m with
      | loading prevReleaseID =>
          cases prevReleaseID with
          | none => trivial
          | some prev => exact release_isSome_exec c hsound
      | missing => exact (packageOf_exec s c (ne_freshDiffID_of_job hjob href)).trans hsound
      | analyzing todo pending created =>
          refine ⟨fun h => analyzed_exec c (hsound.1 h), fun id' hid' => ?_⟩
          obtain ⟨⟨a, ha, hdiff⟩, hnone⟩ := hsound.2 id' hid'
          refine ⟨⟨a, analysis_exec c ha, hdiff⟩, fun alertID alert hget => ?_⟩
          rcases alert_exec hget with hold | ⟨hc, -⟩
          · exact hnone alertID alert hold
          · exact halert alert todo id' created hc (by rw [hid'])
      | _ => exact hsound

/-- The mode after a call of the operation itself. -/
theorem Mode.Sound.next (hsound : m.Sound s op) (hnamed : Named s op)
    (hpermits : m.Permits op c) : (m.next cfg c (s.exec c).2).Sound (s.exec c).1 op := by
  cases c with
  | getUnanalyzedDiffIDs workspaceID =>
      obtain ⟨rfl, -⟩ := hpermits
      trivial
  | enqueue ref workspaceID metadata =>
      rcases hpermits with rfl | ⟨diffID, left, rfl, -⟩
      · exact hsound.exec hnamed fun _ _ _ _ hc _ => Call.noConfusion hc
      · cases op with
        | reanalyzeAll workspaceID' => trivial
        | _ => exact hsound
  | findDiffWithRelease id =>
      obtain ⟨jobID, rfl, rfl⟩ := hpermits
      dsimp only [State.exec]
      cases hfound : s.diffWithRelease id with
      | none => exact congrArg (Option.map fun found => found.2.2) hfound
      | some found =>
          obtain ⟨diff, hdiff, hrest⟩ := Option.bind_eq_some_iff.mp hfound
          obtain ⟨rest, -, rfl⟩ := Option.map_eq_some_iff.mp hrest
          exact s.prevRelease_isSome id diff hdiff
  | findReleaseByID id =>
      obtain ⟨jobID, diffID, rfl, rfl⟩ := hpermits
      dsimp only [State.exec]
      obtain ⟨release, hrelease⟩ := Option.isSome_iff_exists.mp hsound
      rw [hrelease]
      exact ⟨fun h => Bool.noConfusion h, fun _ h => absurd h.symm (Option.some_ne_none _)⟩
  | createAnalysis a =>
      obtain ⟨jobID, todo, pending, created, rfl, rfl, -⟩ := hpermits
      have hnew : (s.addAnalysis a).analyses.get? s.analyses.next = some a := by
        dsimp only [State.addAnalysis]
        rw [Ledger.get?_add, if_pos rfl]
      refine ⟨fun _ => ⟨s.analyses.next, a, hnew, rfl⟩, fun id hid => ?_⟩
      obtain rfl := Option.some.inj hid
      refine ⟨⟨a, hnew, rfl⟩, fun alertID alert hget href => ?_⟩
      -- The foreign key: no alert is about an analysis that is not there yet.
      have hsome := s.analysis_isSome alertID alert _ hget href
      dsimp only [State.exec] at hsome
      rw [Ledger.get?_next] at hsome
      exact Bool.false_ne_true hsome
  | createAlert alert =>
      obtain ⟨jobID, diffID, todo, pending, created, rfl, rfl, -⟩ := hpermits
      exact ⟨fun h => analyzed_exec _ (hsound.1 h),
        fun _ h => absurd h.symm (Option.some_ne_none _)⟩
  | _ =>
      refine hsound.exec hnamed fun alert todo id created hc _ => ?_
      cases hc

/-- A call after which an alert may follow has created the analysis, or has been about to create
the alert before. -/
theorem pending_next {todo : List GoString} {id : Nat} {created : Bool}
    (hnext : m.next cfg c (s.exec c).2 = .analyzing todo (some id) created) :
    id = s.analyses.next ∨ ∃ todo' created', m = .analyzing todo' (some id) created' := by
  cases c with
  | createAnalysis a =>
      cases m with
      | analyzing todo' pending' created' =>
          injection hnext with _ hid
          exact Or.inl (Option.some.inj hid).symm
      | _ => exact Mode.noConfusion hnext
  | createAlert alert =>
      cases m with
      | analyzing todo' pending' created' =>
          injection hnext with _ hid
          exact absurd hid.symm (Option.some_ne_none id)
      | _ => exact Mode.noConfusion hnext
  | getUnanalyzedDiffIDs workspaceID => exact Mode.noConfusion hnext
  | enqueue ref workspaceID metadata =>
      cases m with
      | analyzing todo' pending' created' => exact Or.inr ⟨_, _, hnext⟩
      | requesting left =>
          rcases left with _ | _ | ⟨diffID, left⟩ <;> exact Mode.noConfusion hnext
      | _ => exact Mode.noConfusion hnext
  | findDiffWithRelease id' =>
      dsimp only [State.exec] at hnext
      cases hfound : s.diffWithRelease id' with
      | none =>
          rw [hfound] at hnext
          exact Mode.noConfusion hnext
      | some found =>
          rw [hfound] at hnext
          exact Mode.noConfusion hnext
  | findReleaseByID id' =>
      dsimp only [State.exec] at hnext
      cases hfound : s.releases.get? id' with
      | none =>
          rw [hfound] at hnext
          exact Mode.noConfusion hnext
      | some found =>
          rw [hfound] at hnext
          injection hnext with _ hid
          exact absurd hid.symm (Option.some_ne_none id)
  | _ => exact Or.inr ⟨_, _, hnext⟩

end Sound

/-! ## The invariant -/

/-- The modes after a step. -/
abbrev modesAfter (cfg : Config) (modes : Nat → Mode) (w : ReanalysisWorld) (l : Label Op) :
    Nat → Mode :=
  (discipline cfg).after (reanalysisSystem cfg) modes w l

/-- What holds of the workers at every moment. -/
structure Steady (cfg : Config) (modes : Nat → Mode) (w : ReanalysisWorld) : Prop where
  kept : (discipline cfg).Kept (reanalysisSystem cfg) modes w
  held : ∀ i op jobID ref, w.ops i = some op → op.job = some (jobID, ref) →
    ∃ job, w.store.queue.get? jobID = some job ∧ job.ref = ref ∧ job.status = .processing
  alone : ∀ i i' op op' jobID ref ref', w.ops i = some op → w.ops i' = some op' →
    op.job = some (jobID, ref) → op'.job = some (jobID, ref') → i = i'
  sound : ∀ i op, w.ops i = some op → (modes i).Sound w.store op
  apart : ∀ i i' todo todo' id created created', modes i = .analyzing todo (some id) created →
    modes i' = .analyzing todo' (some id) created' → i = i'

section Steady

variable {cfg : Config} {modes : Nat → Mode} {w w' : ReanalysisWorld}

/-- Before the first call. -/
theorem steady_initial (s : State) : Steady cfg (fun _ => .free) (.initial s) where
  kept := ⟨fun _ _ h => absurd h.symm (Option.some_ne_none _), fun _ _ => rfl⟩
  held := fun _ _ _ _ h => absurd h.symm (Option.some_ne_none _)
  alone := fun _ _ _ _ _ _ _ h => absurd h.symm (Option.some_ne_none _)
  sound := fun _ _ h => absurd h.symm (Option.some_ne_none _)
  apart := fun _ _ _ _ _ _ _ h => Mode.noConfusion h

/-- The call that sends a command. -/
theorem ops_of_thread {i : Nat} {t : Thread Op Call Answer Result}
    (hthread : w.threads i = some t) : w.ops i = some t.op :=
  congrArg (Option.map Thread.op) hthread

/-- The diff of a worker has a job. -/
theorem Steady.named (h : Steady cfg modes w) {i : Nat} {op : Op} (hop : w.ops i = some op) :
    Named w.store op := by
  intro jobID diffID heq
  obtain ⟨job, hjob, href, -⟩ := h.held i op jobID (.analyze diffID) hop (by rw [heq]; rfl)
  exact ⟨jobID, job, hjob, href⟩

/-- A call that is about to create an alert is one in progress. -/
theorem Steady.pending (h : Steady cfg modes w) {i : Nat} {todo : List GoString} {id : Nat}
    {created : Bool} (hmode : modes i = .analyzing todo (some id) created) :
    ∃ a, w.store.analyses.get? id = some a := by
  cases hop : w.ops i with
  | none =>
      have hidle := h.kept.idle i (Option.map_eq_none_iff.mp hop)
      exact Mode.noConfusion (hidle.symm.trans hmode)
  | some op =>
      have hsound := h.sound i op hop
      rw [hmode] at hsound
      cases op with
      | processDiff jobID diffID =>
          obtain ⟨⟨a, ha, -⟩, -⟩ := hsound.2 id rfl
          exact ⟨a, ha⟩
      | _ => exact hsound.elim

/-- The job of a worker is being processed. -/
theorem Steady.held_step (h : Steady cfg modes w) {l : Label Op}
    (hstep : (reanalysisSystem cfg).Step w l w') {i : Nat} {op : Op} {jobID : Nat} {ref : JobRef}
    (hop : w'.ops i = some op) (hjob : op.job = some (jobID, ref)) :
    ∃ job, w'.store.queue.get? jobID = some job ∧ job.ref = ref ∧ job.status = .processing := by
  rcases hstep.of_ops hop with rfl | ⟨hold, -, hfinish⟩
  · cases hstep with
    | start hfree henabled =>
        -- The job has been pending, and the worker has taken it.
        obtain ⟨job, hget, href, -⟩ := hasPending_iff.mp (henabled (jobID, ref) hjob)
        refine ⟨job.take, ?_, href, rfl⟩
        dsimp only [reanalysisSystem]
        rw [job_begin, if_pos (by rw [hjob]; rfl), hget]
        rfl
  · obtain ⟨job, hget, href, hstatus⟩ := h.held i op jobID ref hold hjob
    cases hstep with
    | start hfree henabled =>
        dsimp only [reanalysisSystem]
        rw [job_begin]
        split_ifs
        · exact ⟨job.take, by rw [hget]; rfl, href, rfl⟩
        · exact ⟨job, hget, href, hstatus⟩
    | exec hthread hlive => exact ⟨job, job_exec _ hget, href, hstatus⟩
    | fail hthread hfallible => exact ⟨job, hget, href, hstatus⟩
    | stop hthread => exact ⟨job, hget, href, hstatus⟩
    | @finish j op' result failed hthread =>
        refine ⟨job, ?_, href, hstatus⟩
        dsimp only [reanalysisSystem]
        rw [job_done, if_neg, hget]
        intro heq
        obtain ⟨⟨jobID', ref'⟩, hjob', rfl⟩ := Option.map_eq_some_iff.mp heq
        obtain rfl := h.alone i j op op' _ ref ref' hold (ops_of_thread hthread) hjob hjob'
        exact hfinish rfl
    | env henv =>
        obtain ⟨verdict, rfl⟩ := henv
        exact ⟨job, hget, href, hstatus⟩

/-- A worker that starts takes a job that no other one has. -/
theorem Steady.ne_of_enabled (h : Steady cfg modes w) {op op' : Op} {i jobID : Nat}
    {ref ref' : JobRef} (henabled : w.store.enabled op) (hjob : op.job = some (jobID, ref))
    (hop : w.ops i = some op') (hjob' : op'.job = some (jobID, ref')) : False := by
  obtain ⟨job, hget, -, hstatus⟩ := h.held i op' jobID ref' hop hjob'
  obtain ⟨job', hget', -, hpending⟩ := hasPending_iff.mp (henabled (jobID, ref) hjob)
  obtain rfl := Option.some.inj (hget.symm.trans hget')
  exact JobStatus.noConfusion (hstatus.symm.trans hpending)

/-- No job has two workers. -/
theorem Steady.alone_step (h : Steady cfg modes w) {l : Label Op}
    (hstep : (reanalysisSystem cfg).Step w l w') {i i' : Nat} {op op' : Op} {jobID : Nat}
    {ref ref' : JobRef} (hop : w'.ops i = some op) (hop' : w'.ops i' = some op')
    (hjob : op.job = some (jobID, ref)) (hjob' : op'.job = some (jobID, ref')) : i = i' := by
  rcases hstep.of_ops hop with rfl | ⟨hold, -, -⟩
  · rcases hstep.of_ops hop' with heq | ⟨hold', -, -⟩
    · exact (Label.start.inj heq).1
    · cases hstep with
      | start hfree henabled => exact (h.ne_of_enabled henabled hjob hold' hjob').elim
  · rcases hstep.of_ops hop' with rfl | ⟨hold', -, -⟩
    · cases hstep with
      | start hfree henabled => exact (h.ne_of_enabled henabled hjob' hold hjob).elim
    · exact h.alone i i' op op' jobID ref ref' hold hold' hjob hjob'

/-- The modes stay true. -/
theorem Steady.sound_step (h : Steady cfg modes w) {l : Label Op}
    (hstep : (reanalysisSystem cfg).Step w l w') {i : Nat} {op : Op} (hop : w'.ops i = some op) :
    (modesAfter cfg modes w l i).Sound w'.store op := by
  rcases hstep.of_ops hop with rfl | ⟨hold, hstop, hfinish⟩
  · cases hstep with
    | start hfree henabled =>
        dsimp only [modesAfter, Discipline.after]
        rw [Function.update_self]
        cases op <;> trivial
  · have hsound := h.sound i op hold
    cases hstep with
    | @start j op' hfree henabled =>
        have hi : i ≠ j := by
          intro heq
          rw [heq, World.ops, hfree] at hold
          exact absurd hold.symm (Option.some_ne_none op)
        dsimp only [modesAfter, Discipline.after, reanalysisSystem]
        rw [Function.update_of_ne hi, begin_eq, sound_withQueue]
        exact hsound
    | @exec j op' c k failed hthread hlive =>
        have hpermits := h.kept.permitted hthread hlive
        rw [modesAfter, Discipline.after_exec hthread]
        by_cases hi : i = j
        · subst hi
          obtain rfl := Option.some.inj ((ops_of_thread hthread).symm.trans hold)
          rw [Function.update_self]
          exact hsound.next (h.named hold) hpermits
        · rw [Function.update_of_ne hi]
          refine hsound.exec (h.named hold) fun alert todo id created hc hmode href => ?_
          -- The other worker is about to create an alert for another analysis.
          subst hc
          obtain ⟨jobID, diffID, todo', pending, created', -, hmode', href'⟩ := hpermits
          obtain rfl := Option.some.inj (href.symm.trans href')
          exact hi (h.apart i j _ _ _ _ _ hmode hmode')
    | fail hthread hfallible => exact hsound
    | @stop j t hthread =>
        dsimp only [modesAfter, Discipline.after]
        rw [Function.update_of_ne fun heq => hstop (by rw [heq])]
        exact hsound
    | @finish j op' result failed hthread =>
        dsimp only [modesAfter, Discipline.after, reanalysisSystem]
        rw [Function.update_of_ne fun heq => hfinish (by rw [heq]), done_eq, sound_withQueue]
        exact hsound
    | env henv =>
        obtain ⟨verdict, rfl⟩ := henv
        exact hsound

/-- A call is about to create an alert because it has created the analysis in this step, or it
has been about to do so. -/
theorem pending_step {l : Label Op} (hstep : (reanalysisSystem cfg).Step w l w') {i : Nat}
    {todo : List GoString} {id : Nat} {created : Bool}
    (hmode : modesAfter cfg modes w l i = .analyzing todo (some id) created) :
    (l = .exec i ∧ id = w.store.analyses.next) ∨
      ∃ todo' created', modes i = .analyzing todo' (some id) created' := by
  cases hstep with
  | @start j op' hfree henabled =>
      dsimp only [modesAfter, Discipline.after] at hmode
      by_cases hi : i = j
      · rw [hi, Function.update_self] at hmode
        cases op' <;> exact Mode.noConfusion hmode
      · rw [Function.update_of_ne hi] at hmode
        exact Or.inr ⟨_, _, hmode⟩
  | @exec j op' c k failed hthread hlive =>
      rw [modesAfter, Discipline.after_exec hthread] at hmode
      by_cases hi : i = j
      · rw [hi, Function.update_self] at hmode
        rcases pending_next hmode with hid | hold
        · exact Or.inl ⟨by rw [hi], hid⟩
        · exact Or.inr (by rw [hi]; exact hold)
      · rw [Function.update_of_ne hi] at hmode
        exact Or.inr ⟨_, _, hmode⟩
  | fail hthread hfallible => exact Or.inr ⟨_, _, hmode⟩
  | @stop j t hthread =>
      dsimp only [modesAfter, Discipline.after] at hmode
      by_cases hi : i = j
      · rw [hi, Function.update_self] at hmode
        exact Mode.noConfusion hmode
      · rw [Function.update_of_ne hi] at hmode
        exact Or.inr ⟨_, _, hmode⟩
  | @finish j op' result failed hthread =>
      dsimp only [modesAfter, Discipline.after] at hmode
      by_cases hi : i = j
      · rw [hi, Function.update_self] at hmode
        exact Mode.noConfusion hmode
      · rw [Function.update_of_ne hi] at hmode
        exact Or.inr ⟨_, _, hmode⟩
  | env henv => exact Or.inr ⟨_, _, hmode⟩

/-- The next analysis is nobody's. -/
theorem Steady.ne_next (h : Steady cfg modes w) {i : Nat} {todo : List GoString} {id : Nat}
    {created : Bool} (hmode : modes i = .analyzing todo (some id) created) :
    id ≠ w.store.analyses.next := by
  obtain ⟨a, ha⟩ := h.pending hmode
  exact Nat.ne_of_lt (Ledger.lt_of_get? ha)

/-- No two workers are about to create an alert for one analysis. -/
theorem Steady.apart_step (h : Steady cfg modes w) {l : Label Op}
    (hstep : (reanalysisSystem cfg).Step w l w') {i i' : Nat} {todo todo' : List GoString}
    {id : Nat} {created created' : Bool}
    (hmode : modesAfter cfg modes w l i = .analyzing todo (some id) created)
    (hmode' : modesAfter cfg modes w l i' = .analyzing todo' (some id) created') : i = i' := by
  rcases pending_step hstep hmode with ⟨hl, hid⟩ | ⟨_, _, hold⟩
  · rcases pending_step hstep hmode' with ⟨hl', -⟩ | ⟨_, _, hold'⟩
    · exact Label.exec.inj (hl.symm.trans hl')
    · exact absurd hid (h.ne_next hold')
  · rcases pending_step hstep hmode' with ⟨-, hid'⟩ | ⟨_, _, hold'⟩
    · exact absurd hid' (h.ne_next hold)
    · exact h.apart i i' _ _ _ _ _ hold hold'

/-- Every step keeps what holds of the workers. -/
theorem Steady.step (h : Steady cfg modes w) {l : Label Op}
    (hstep : (reanalysisSystem cfg).Step w l w') : Steady cfg (modesAfter cfg modes w l) w' where
  kept := h.kept.step (fun _ _ => trivial) (follows_bodyOf cfg) hstep
  held := fun _ _ _ _ => h.held_step hstep
  alone := fun _ _ _ _ _ _ _ => h.alone_step hstep
  sound := fun _ _ => h.sound_step hstep
  apart := fun _ _ _ _ _ _ _ => h.apart_step hstep

end Steady

/-! ## Diffs that are served -/

/-- The diff has an analysis, or an analyze job that is pending or being processed. -/
def Served (s : State) (diffID : Nat) : Prop :=
  Analyzed s diffID ∨ ∃ id job, s.queue.get? id = some job ∧ job.ref = .analyze diffID ∧
    job.status ≠ .dead

section Served

variable {cfg : Config} {modes : Nat → Mode} {w w' : ReanalysisWorld} {diffID : Nat}

/-- The package of a diff stays. -/
theorem packageOf_step {l : Label Op} (hstep : (reanalysisSystem cfg).Step w l w') {pkg : Package}
    (hpackage : w.store.packageOf diffID = some pkg) : w'.store.packageOf diffID = some pkg := by
  cases hstep with
  | start hfree henabled =>
      dsimp only [reanalysisSystem]
      rw [begin_eq]
      exact hpackage
  | exec hthread hlive =>
      obtain ⟨found, hfound, -⟩ := Option.map_eq_some_iff.mp hpackage
      obtain ⟨diff, hdiff, -⟩ := Option.bind_eq_some_iff.mp hfound
      exact (packageOf_exec _ _ (ne_freshDiffID_of_diff hdiff)).trans hpackage
  | finish hthread =>
      dsimp only [reanalysisSystem]
      rw [done_eq]
      exact hpackage
  | env henv =>
      obtain ⟨verdict, rfl⟩ := henv
      exact hpackage
  | _ => exact hpackage

/-- Analyses stay. -/
theorem analyzed_step {l : Label Op} (hstep : (reanalysisSystem cfg).Step w l w')
    (hanalyzed : Analyzed w.store diffID) : Analyzed w'.store diffID := by
  cases hstep with
  | start hfree henabled =>
      dsimp only [reanalysisSystem]
      rw [begin_eq]
      exact hanalyzed
  | exec hthread hlive => exact analyzed_exec _ hanalyzed
  | finish hthread =>
      dsimp only [reanalysisSystem]
      rw [done_eq]
      exact hanalyzed
  | env henv =>
      obtain ⟨verdict, rfl⟩ := henv
      exact hanalyzed
  | _ => exact hanalyzed

/-- A worker that has processed a diff with a package leaves an analysis behind. -/
theorem Steady.analyzed_of_finish (h : Steady cfg modes w) {i jobID : Nat} {result : Result}
    {failed : Bool} (hthread : w.threads i = some ⟨.processDiff jobID diffID, .ret result, failed⟩)
    {pkg : Package} (hpackage : w.store.packageOf diffID = some pkg) :
    Analyzed w.store diffID := by
  have hsound := h.sound i _ (ops_of_thread hthread)
  have hresult := h.kept.result hthread
  cases result with
  | ok =>
      obtain ⟨todo, pending, hmode⟩ := hresult jobID diffID rfl
      rw [hmode] at hsound
      exact hsound.1 rfl
  | error message =>
      rw [hresult jobID diffID rfl] at hsound
      exact absurd (hsound.symm.trans hpackage).symm (Option.some_ne_none pkg)
  | reanalyzed queued failure =>
      cases failure with
      | none =>
          have hmode : modes i = .requesting (some []) := hresult
          rw [hmode] at hsound
          exact hsound.elim
      | some message => exact absurd hresult (Option.some_ne_none _)

/-- A diff that is served stays so. -/
theorem Steady.served (h : Steady cfg modes w) {l : Label Op}
    (hstep : (reanalysisSystem cfg).Step w l w') {pkg : Package}
    (hpackage : w.store.packageOf diffID = some pkg) (hserved : Served w.store diffID) :
    Served w'.store diffID := by
  rcases hserved with hanalyzed | ⟨id, job, hjob, href, hstatus⟩
  · exact Or.inl (analyzed_step hstep hanalyzed)
  · cases hstep with
    | start hfree henabled =>
        refine Or.inr ⟨id, ?_⟩
        dsimp only [reanalysisSystem]
        rw [job_begin]
        split_ifs
        · exact ⟨job.take, by rw [hjob]; rfl, href, fun heq => JobStatus.noConfusion heq⟩
        · exact ⟨job, hjob, href, hstatus⟩
    | exec hthread hlive => exact Or.inr ⟨id, job, job_exec _ hjob, href, hstatus⟩
    | @finish j op result failed hthread =>
        by_cases hid : op.job.map Prod.fst = some id
        · -- The worker of this job has left an analysis behind.
          obtain ⟨⟨id', ref⟩, hopjob, rfl⟩ := Option.map_eq_some_iff.mp hid
          obtain ⟨job', hjob', href', -⟩ := h.held j op id' ref (ops_of_thread hthread) hopjob
          obtain rfl := Option.some.inj (hjob.symm.trans hjob')
          obtain rfl := href'.symm.trans href
          cases op with
          | processDiff jobID diffID' =>
              obtain ⟨rfl, hdiff⟩ := Prod.mk.inj (Option.some.inj hopjob)
              obtain rfl := JobRef.analyze.inj hdiff
              exact Or.inl (analyzed_step (.finish hthread)
                (h.analyzed_of_finish hthread hpackage))
          | processRelease jobID releaseID =>
              exact JobRef.noConfusion (Prod.mk.inj (Option.some.inj hopjob)).2
          | reanalyzeAll workspaceID => exact absurd hopjob.symm (Option.some_ne_none _)
        · refine Or.inr ⟨id, job, ?_, href, hstatus⟩
          dsimp only [reanalysisSystem]
          rw [job_done, if_neg hid, hjob]
    | env henv =>
        obtain ⟨verdict, rfl⟩ := henv
        exact Or.inr ⟨id, job, hjob, href, hstatus⟩
    | _ => exact Or.inr ⟨id, job, hjob, href, hstatus⟩

end Served

end Reanalysis
end Veilence
