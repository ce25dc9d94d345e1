import Veilence.Reanalysis.Workers

/-!
# As many analyses as jobs

{lit}`ReanalyzeAll` queues every diff without an analysis, also one whose analyze job is pending or
being processed, and nobody looks for such a job.  Each job then makes an analysis of each
provider.

The analyses of a diff are attributed to the jobs that have made them.

Main results:

- Theorem {lit}`Counted.step`: every step keeps the attribution.
- Theorem {lit}`reanalyzed_of_run`: a diff gets at most one analysis of a provider for each of its
  jobs, and a successful call leaves no diff of an active package unserved.
- Theorem {lit}`analyzed_twice`: a call during a backlog doubles the work.
-/

namespace Veilence
namespace Reanalysis

open Go Foundation

/-! ## Counts -/

/-- The analyses of a diff by a provider. -/
def analysesBy (s : State) (diffID : Nat) (provider : GoString) : List (Nat × Analysis) :=
  s.analyses.rows.entries.filter fun e => e.2.diffID = diffID ∧ e.2.analyzerType = provider

/-- The alerts about these analyses. -/
def alertsBy (s : State) (diffID : Nat) (provider : GoString) : List (Nat × Alert) :=
  s.alerts.rows.entries.filter fun e => e.2.analysisID.any fun id =>
    (s.analyses.get? id).any fun a => a.diffID = diffID ∧ a.analyzerType = provider

/-- The analyze jobs of a diff that are pending or being processed. -/
def openJobs (s : State) (diffID : Nat) : List (Nat × Job) :=
  s.queue.rows.entries.filter fun e => e.2.ref = .analyze diffID ∧ e.2.status ≠ .dead

/-- What has happened so far. -/
abbrev Log : Type :=
  List (Event Op Call Result)

/-- An analyze job of the diff has been queued. -/
def queues (diffID : Nat) : Event Op Call Result → Bool
  | .ran _ (.enqueue (.analyze diffID') _ _) => diffID' = diffID
  | _ => false

/-- A call of {lit}`ReanalyzeAll` for the workspace has succeeded. -/
def succeeds (workspaceID : GoString) : Event Op Call Result → Bool
  | .returned (.reanalyzeAll workspaceID') (.reanalyzed _ none) => workspaceID' = workspaceID
  | _ => false

/-- How many analyze jobs of the diff have been queued. -/
def queuedFor (diffID : Nat) (log : Log) : Nat :=
  log.countP (queues diffID)

/-- How many calls of {lit}`ReanalyzeAll` for the workspace have succeeded. -/
def successes (workspaceID : GoString) (log : Log) : Nat :=
  log.countP (succeeds workspaceID)

section Counts

variable {s : State} {diffID : Nat} {provider : GoString}

theorem mem_analysesBy {id : Nat} {a : Analysis} :
    (id, a) ∈ analysesBy s diffID provider ↔
      s.analyses.get? id = some a ∧ a.diffID = diffID ∧ a.analyzerType = provider := by
  unfold analysesBy
  rw [List.mem_filter, decide_eq_true_iff]
  exact and_congr_left' Table.get?_eq_some_iff.symm

theorem mem_openJobs {id : Nat} {job : Job} :
    (id, job) ∈ openJobs s diffID ↔
      s.queue.get? id = some job ∧ job.ref = .analyze diffID ∧ job.status ≠ .dead := by
  unfold openJobs
  rw [List.mem_filter, decide_eq_true_iff]
  exact and_congr_left' Table.get?_eq_some_iff.symm

theorem mem_alertsBy {id : Nat} {alert : Alert} :
    (id, alert) ∈ alertsBy s diffID provider ↔
      s.alerts.get? id = some alert ∧ ∃ analysisID a, alert.analysisID = some analysisID ∧
        (analysisID, a) ∈ analysesBy s diffID provider := by
  unfold alertsBy
  rw [List.mem_filter]
  refine and_congr Table.get?_eq_some_iff.symm ?_
  simp [Option.any_eq_true, mem_analysesBy]

end Counts

/-! ## The attribution -/

/-- A worker in this mode has made an analysis of the provider. -/
def Mode.Made (provider : GoString) : Mode → Prop
  | .analyzing todo _ true => provider ∉ todo
  | _ => False

/-- The analyses of a diff without analyses at the beginning, attributed to jobs: each to the job
that has made it, and no two of one provider to one job. -/
structure Counted (modes : Nat → Mode) (diffID : Nat) (w₀ w : ReanalysisWorld) (jobs : List Nat)
    (maker : Nat → Nat) : Prop where
  bound : jobs.length + queuedFor diffID w₀.log ≤
    (openJobs w₀.store diffID).length + queuedFor diffID w.log
  known : ∀ jobID ∈ jobs, jobID < w.store.queue.next
  listed : ∀ jobID job, w.store.queue.get? jobID = some job → job.ref = .analyze diffID →
    job.status ≠ .dead → jobID ∈ jobs
  made : ∀ id a, w.store.analyses.get? id = some a → a.diffID = diffID → maker id ∈ jobs
  distinct : ∀ id id' a a', w.store.analyses.get? id = some a →
    w.store.analyses.get? id' = some a' → a.diffID = diffID → a'.diffID = diffID →
    a.analyzerType = a'.analyzerType → maker id = maker id' → id = id'
  waiting : ∀ jobID job, w.store.queue.get? jobID = some job → job.ref = .analyze diffID →
    job.status = .pending → ∀ id a, w.store.analyses.get? id = some a → a.diffID = diffID →
      maker id ≠ jobID
  working : ∀ i jobID, w.ops i = some (.processDiff jobID diffID) → ∀ id a,
    w.store.analyses.get? id = some a → a.diffID = diffID → maker id = jobID →
      (modes i).Made a.analyzerType
  alerted : ∀ alertID alertID' alert alert' id a, w.store.alerts.get? alertID = some alert →
    w.store.alerts.get? alertID' = some alert' → alert.analysisID = some id →
    alert'.analysisID = some id → w.store.analyses.get? id = some a → a.diffID = diffID →
      alertID = alertID'

section Counted

variable {cfg : Config} {modes : Nat → Mode} {diffID : Nat} {w₀ w w' : ReanalysisWorld}
  {jobs : List Nat} {maker : Nat → Nat}

/-- At the beginning there is nothing to attribute. -/
theorem counted_start (hnone : ¬Analyzed w.store diffID) :
    Counted modes diffID w w ((openJobs w.store diffID).map Prod.fst) id where
  bound := by rw [List.length_map]
  known := by
    intro jobID hmem
    obtain ⟨⟨id, job⟩, hjob, rfl⟩ := List.mem_map.mp hmem
    exact Ledger.lt_of_get? (mem_openJobs.mp hjob).1
  listed := fun jobID job hget href hstatus =>
    List.mem_map.mpr ⟨(jobID, job), mem_openJobs.mpr ⟨hget, href, hstatus⟩, rfl⟩
  made := fun id a ha hdiff => absurd ⟨id, a, ha, hdiff⟩ hnone
  distinct := fun id _ a _ ha _ hdiff => absurd ⟨id, a, ha, hdiff⟩ hnone
  waiting := fun _ _ _ _ _ id a ha hdiff => absurd ⟨id, a, ha, hdiff⟩ hnone
  working := fun _ _ _ id a ha hdiff => absurd ⟨id, a, ha, hdiff⟩ hnone
  alerted := fun _ _ _ _ id a _ _ _ _ ha hdiff => absurd ⟨id, a, ha, hdiff⟩ hnone

/-- What a worker has made stays made, as long as it creates no further analysis. -/
theorem made_next {m : Mode} {op : Op} {c : Call} (hpermits : m.Permits op c)
    (hc : ∀ a, c ≠ .createAnalysis a) {provider : GoString} (hmade : m.Made provider)
    (r : Answer c) : (m.next cfg c r).Made provider := by
  cases c with
  | getUnanalyzedDiffIDs workspaceID =>
      obtain ⟨-, rfl⟩ := hpermits
      exact hmade.elim
  | enqueue ref workspaceID metadata =>
      rcases hpermits with rfl | ⟨_, _, rfl, -⟩ <;> exact hmade.elim
  | findDiffWithRelease id =>
      obtain ⟨_, -, rfl⟩ := hpermits
      exact hmade.elim
  | findReleaseByID id =>
      obtain ⟨_, _, -, rfl⟩ := hpermits
      exact hmade.elim
  | createAnalysis a => exact absurd rfl (hc a)
  | createAlert alert =>
      obtain ⟨_, _, _, _, created, -, rfl, -⟩ := hpermits
      cases created <;> exact hmade
  | _ => exact hmade

/-- What a worker has made stays made when it creates a further analysis. -/
theorem made_filter {todo : List GoString} {pending id : Option Nat} {created : Bool}
    {provider other : GoString} (hmade : (Mode.analyzing todo pending created).Made other) :
    (Mode.analyzing (todo.filter (· ≠ provider)) id true).Made other := by
  cases created with
  | false => exact hmade.elim
  | true => exact fun hmem => hmade (List.mem_filter.mp hmem).1

/-- Steps that create no analysis, no alert and no job. -/
theorem Counted.of_same (h : Counted modes diffID w₀ w jobs maker) {modes' : Nat → Mode}
    (hanalyses : w'.store.analyses = w.store.analyses)
    (halerts : w'.store.alerts = w.store.alerts)
    (hlog : queuedFor diffID w'.log = queuedFor diffID w.log)
    (hnext : w'.store.queue.next = w.store.queue.next)
    (hlisted : ∀ jobID job, w'.store.queue.get? jobID = some job → job.ref = .analyze diffID →
      job.status ≠ .dead → jobID ∈ jobs)
    (hwaiting : ∀ jobID job, w'.store.queue.get? jobID = some job → job.ref = .analyze diffID →
      job.status = .pending → ∀ id a, w.store.analyses.get? id = some a → a.diffID = diffID →
        maker id ≠ jobID)
    (hworking : ∀ i jobID, w'.ops i = some (.processDiff jobID diffID) → ∀ id a,
      w.store.analyses.get? id = some a → a.diffID = diffID → maker id = jobID →
        (modes' i).Made a.analyzerType) :
    Counted modes' diffID w₀ w' jobs maker where
  bound := by rw [hlog]; exact h.bound
  known := by rw [hnext]; exact h.known
  listed := hlisted
  made := by rw [hanalyses]; exact h.made
  distinct := by rw [hanalyses]; exact h.distinct
  waiting := by rw [hanalyses]; exact hwaiting
  working := by rw [hanalyses]; exact hworking
  alerted := by rw [hanalyses, halerts]; exact h.alerted

/-- The number of the next job. -/
theorem next_begin (s : State) (op : Op) : (s.begin op).queue.next = s.queue.next := by
  unfold State.begin
  cases op.job with
  | none => rfl
  | some e => exact Ledger.next_modify _ _ _

theorem next_done (s : State) (op : Op) (result : Result) :
    (s.done op result).queue.next = s.queue.next := by
  unfold State.done
  cases op.job with
  | none => cases result <;> rfl
  | some e =>
      cases result with
      | error message => exact Ledger.next_modify _ _ _
      | _ => rfl

/-- A worker that starts has made nothing for its job. -/
theorem Counted.start (h : Counted modes diffID w₀ w jobs maker) {i : Nat} {op : Op}
    (hstep : (reanalysisSystem cfg).Step w (.start i op) w') :
    Counted (modesAfter cfg modes w (.start i op)) diffID w₀ w' jobs maker := by
  have hold : ∀ j op', w'.ops j = some op' → (j = i ∧ op' = op) ∨ w.ops j = some op' := by
    intro j op' hop
    rcases hstep.of_ops hop with heq | ⟨hop, -⟩
    · exact Or.inl ⟨(Label.start.inj heq).1.symm, (Label.start.inj heq).2.symm⟩
    · exact Or.inr hop
  cases hstep with
  | start hfree henabled =>
      -- A job in the new queue has been there before, and it is taken or has not changed.
      have hjob : ∀ jobID job', (w.store.begin op).queue.get? jobID = some job' →
          ∃ job, w.store.queue.get? jobID = some job ∧
            (job' = job ∨ op.job.map Prod.fst = some jobID ∧ job' = job.take) := by
        intro jobID job' hget
        rw [job_begin] at hget
        split_ifs at hget with hid
        · obtain ⟨job, hold, rfl⟩ := Option.map_eq_some_iff.mp hget
          exact ⟨job, hold, Or.inr ⟨hid, rfl⟩⟩
        · exact ⟨job', hget, Or.inl rfl⟩
      -- The job of the worker has been pending.
      have hpending : ∀ jobID, op.job.map Prod.fst = some jobID → ∃ job,
          w.store.queue.get? jobID = some job ∧ some (jobID, job.ref) = op.job ∧
            job.status = .pending := by
        intro jobID hid
        obtain ⟨⟨jobID', ref⟩, hopjob, rfl⟩ := Option.map_eq_some_iff.mp hid
        obtain ⟨job, hget, rfl, hstatus⟩ := hasPending_iff.mp (henabled (jobID', ref) hopjob)
        exact ⟨job, hget, hopjob.symm, hstatus⟩
      apply h.of_same
      · dsimp only [reanalysisSystem]
        rw [begin_eq]
        rfl
      · dsimp only [reanalysisSystem]
        rw [begin_eq]
        rfl
      · rfl
      · exact next_begin _ _
      · intro jobID job' hget href hstatus
        obtain ⟨job, hget', rfl | ⟨hid, rfl⟩⟩ := hjob jobID job' hget
        · exact h.listed jobID _ hget' href hstatus
        · obtain ⟨job', hget'', -, hstatus'⟩ := hpending jobID hid
          obtain rfl := Option.some.inj (hget'.symm.trans hget'')
          exact h.listed jobID _ hget' href fun heq =>
            JobStatus.noConfusion (heq.symm.trans hstatus')
      · intro jobID job' hget href hstatus
        obtain ⟨job, hget', rfl | ⟨hid, rfl⟩⟩ := hjob jobID job' hget
        · exact h.waiting jobID _ hget' href hstatus
        · exact JobStatus.noConfusion hstatus
      · intro j jobID hop id a ha hdiff hmaker
        rcases hold j _ hop with ⟨rfl, rfl⟩ | hop
        · obtain ⟨job, hget, href, hstatus⟩ := hpending jobID rfl
          have href := (Prod.mk.inj (Option.some.inj href)).2
          exact absurd hmaker (h.waiting jobID job hget href hstatus id a ha hdiff)
        · have hj : j ≠ i := by
            intro heq
            rw [heq, World.ops, hfree] at hop
            exact absurd hop.symm (Option.some_ne_none _)
          dsimp only [modesAfter, Discipline.after]
          rw [Function.update_of_ne hj]
          exact h.working j jobID hop id a ha hdiff hmaker

/-- The operation that has a job for the diff. -/
theorem eq_processDiff {op : Op} {jobID : Nat}
    (hjob : op.job = some (jobID, .analyze diffID)) : op = .processDiff jobID diffID := by
  cases op with
  | processDiff jobID' diffID' =>
      obtain ⟨rfl, href⟩ := Prod.mk.inj (Option.some.inj hjob)
      rw [JobRef.analyze.inj href]
  | processRelease jobID' releaseID =>
      exact JobRef.noConfusion (Prod.mk.inj (Option.some.inj hjob)).2
  | reanalyzeAll workspaceID => exact absurd hjob.symm (Option.some_ne_none _)

/-- A worker that fails has made nothing for its job. -/
theorem Counted.finish (h : Counted modes diffID w₀ w jobs maker) (hsteady : Steady cfg modes w)
    {i : Nat} (hstep : (reanalysisSystem cfg).Step w (.finish i) w') :
    Counted (modesAfter cfg modes w (.finish i)) diffID w₀ w' jobs maker := by
  have hold : ∀ j op', w'.ops j = some op' → j ≠ i ∧ w.ops j = some op' := by
    intro j op' hop
    rcases hstep.of_ops hop with heq | ⟨hop, -, hj⟩
    · cases heq
    · exact ⟨fun heq => hj (by rw [heq]), hop⟩
  cases hstep with
  | @finish _ op result failed hthread =>
      have hop := ops_of_thread hthread
      -- A job in the new queue has not changed, or it has failed.
      have hjob : ∀ jobID job', (w.store.done op result).queue.get? jobID = some job' →
          ∃ job, w.store.queue.get? jobID = some job ∧
            (job' = job ∨ op.job = some (jobID, job.ref) ∧ job.status = .processing ∧
              job' = job.fail ∧ ∃ message, result = .error message) := by
        intro jobID job' hget
        rw [job_done] at hget
        split_ifs at hget with hid
        · obtain ⟨job, hget', hafter⟩ := Option.bind_eq_some_iff.mp hget
          obtain ⟨⟨jobID', ref⟩, hopjob, rfl⟩ := Option.map_eq_some_iff.mp hid
          obtain ⟨job'', hget'', rfl, hstatus⟩ := hsteady.held i op jobID' ref hop hopjob
          obtain rfl := Option.some.inj (hget'.symm.trans hget'')
          cases result with
          | error message =>
              exact ⟨job, hget', Or.inr ⟨hopjob, hstatus, (Option.some.inj hafter).symm,
                message, rfl⟩⟩
          | _ => exact absurd hafter.symm (Option.some_ne_none job')
        · exact ⟨job', hget, Or.inl rfl⟩
      apply h.of_same
      · dsimp only [reanalysisSystem]
        rw [done_eq]
        rfl
      · dsimp only [reanalysisSystem]
        rw [done_eq]
        rfl
      · rfl
      · exact next_done _ _ _
      · intro jobID job' hget href hstatus
        obtain ⟨job, hget', rfl | ⟨-, hprocessing, rfl, -⟩⟩ := hjob jobID job' hget
        · exact h.listed jobID _ hget' href hstatus
        · exact h.listed jobID job hget' href fun heq =>
            JobStatus.noConfusion (heq.symm.trans hprocessing)
      · intro jobID job' hget href hstatus id a ha hdiff hmaker
        obtain ⟨job, hget', rfl | ⟨hopjob, -, rfl, message, rfl⟩⟩ := hjob jobID job' hget
        · exact h.waiting jobID _ hget' href hstatus id a ha hdiff hmaker
        · have href : job.ref = .analyze diffID := href
          rw [href] at hopjob
          obtain rfl := eq_processDiff hopjob
          have hmade := h.working i jobID hop id a ha hdiff hmaker
          have hmode : modes i = .missing := hsteady.kept.result hthread jobID diffID rfl
          rw [hmode] at hmade
          exact hmade
      · intro j jobID hopj id a ha hdiff hmaker
        obtain ⟨hj, hopj⟩ := hold j _ hopj
        dsimp only [modesAfter, Discipline.after]
        rw [Function.update_of_ne hj]
        exact h.working j jobID hopj id a ha hdiff hmaker

/-- The world after a command of a call. -/
structure Ran (modes : Nat → Mode) (w : ReanalysisWorld) (i : Nat) (op : Op) (c : Call)
    (w' : ReanalysisWorld) : Prop where
  sent : w.ops i = some op
  permits : (modes i).Permits op c
  store : w'.store = (w.store.exec c).1
  log : w'.log = .ran op c :: w.log
  ops : ∀ j op', w'.ops j = some op' → w.ops j = some op'

section Commands

variable {i : Nat} {op : Op} {c : Call}

/-- The modes after a command. -/
abbrev modesRan (cfg : Config) (modes : Nat → Mode) (w : ReanalysisWorld) (i : Nat) (c : Call) :
    Nat → Mode :=
  Function.update modes i ((modes i).next cfg c (w.store.exec c).2)

/-- What the workers have made stays made, as long as no analysis is created. -/
theorem Counted.working_ran (h : Counted modes diffID w₀ w jobs maker)
    (hran : Ran modes w i op c w') (hc : ∀ a, c ≠ .createAnalysis a) {j jobID : Nat}
    (hop : w'.ops j = some (.processDiff jobID diffID)) {id : Nat} {a : Analysis}
    (ha : w.store.analyses.get? id = some a) (hdiff : a.diffID = diffID)
    (hmaker : maker id = jobID) : (modesRan cfg modes w i c j).Made a.analyzerType := by
  have hmade := h.working j jobID (hran.ops j _ hop) id a ha hdiff hmaker
  unfold modesRan
  by_cases hj : j = i
  · subst hj
    rw [Function.update_self]
    exact made_next hran.permits hc hmade _
  · rw [Function.update_of_ne hj]
    exact hmade

/-- Nothing but {lit}`Enqueue` queues a job. -/
theorem queuedFor_ran (hran : Ran modes w i op c w')
    (henqueue : ∀ ref workspaceID metadata, c ≠ .enqueue ref workspaceID metadata) :
    queuedFor diffID w'.log = queuedFor diffID w.log := by
  rw [hran.log, queuedFor, List.countP_cons_of_neg]
  · rfl
  · intro hqueues
    cases c with
    | enqueue ref workspaceID metadata => exact henqueue _ _ _ rfl
    | _ => exact Bool.false_ne_true hqueues

/-- A command that creates no job, no analysis and no alert. -/
theorem Counted.command (cfg : Config) (h : Counted modes diffID w₀ w jobs maker)
    (hran : Ran modes w i op c w')
    (henqueue : ∀ ref workspaceID metadata, c ≠ .enqueue ref workspaceID metadata)
    (hanalysis : ∀ a, c ≠ .createAnalysis a) (halert : ∀ alert, c ≠ .createAlert alert) :
    Counted (modesRan cfg modes w i c) diffID w₀ w' jobs maker := by
  have hqueue : w'.store.queue = w.store.queue := by rw [hran.store, queue_exec _ henqueue]
  apply h.of_same
  · rw [hran.store, analyses_exec _ hanalysis]
  · rw [hran.store, alerts_exec _ halert]
  · exact queuedFor_ran hran henqueue
  · rw [hqueue]
  · rw [hqueue]
    exact h.listed
  · rw [hqueue]
    exact h.waiting
  · exact fun j jobID hop id a ha hdiff hmaker => h.working_ran hran hanalysis hop ha hdiff hmaker

/-- A job is queued. -/
theorem Counted.enqueue (cfg : Config) (h : Counted modes diffID w₀ w jobs maker) {ref : JobRef}
    {workspaceID : GoString} {metadata : Option JobMetadata}
    (hran : Ran modes w i op (.enqueue ref workspaceID metadata) w') :
    ∃ jobs', Counted (modesRan cfg modes w i (.enqueue ref workspaceID metadata)) diffID w₀ w'
      jobs' maker := by
  have hanalyses : w'.store.analyses = w.store.analyses := by rw [hran.store]; rfl
  have halerts : w'.store.alerts = w.store.alerts := by rw [hran.store]; rfl
  have hqueue : w'.store.queue = w.store.queue.add
      ⟨ref, workspaceID, metadata, .pending, 0, w.store.maxAttempts⟩ := by rw [hran.store]; rfl
  -- The new job counts if it is about the diff.
  obtain ⟨jobs', hbound, hsub, hback, hnew⟩ : ∃ jobs' : List Nat,
      jobs'.length + queuedFor diffID w.log = jobs.length + queuedFor diffID w'.log ∧
        (∀ jobID ∈ jobs, jobID ∈ jobs') ∧
        (∀ jobID ∈ jobs', jobID ∈ jobs ∨ jobID = w.store.queue.next) ∧
        (ref = .analyze diffID → w.store.queue.next ∈ jobs') := by
    rw [hran.log]
    by_cases href : ref = .analyze diffID
    · subst href
      refine ⟨w.store.queue.next :: jobs, ?_, fun _ => List.mem_cons_of_mem _, ?_,
        fun _ => List.mem_cons_self⟩
      · rw [queuedFor, queuedFor, List.countP_cons_of_pos (by simp [queues]), List.length_cons]
        omega
      · intro jobID hmem
        exact (List.mem_cons.mp hmem).symm
    · refine ⟨jobs, ?_, fun _ => id, fun _ => Or.inl, fun heq => absurd heq href⟩
      rw [queuedFor, queuedFor, List.countP_cons_of_neg]
      intro hqueues
      cases ref with
      | diff releaseID => exact Bool.false_ne_true hqueues
      | analyze diffID' => exact href (congrArg JobRef.analyze (of_decide_eq_true hqueues))
  have hknown : ∀ id a, w.store.analyses.get? id = some a → a.diffID = diffID →
      maker id < w.store.queue.next := fun id a ha hdiff => h.known _ (h.made id a ha hdiff)
  refine ⟨jobs', ?_, ?_, ?_, ?_, ?_, ?_, ?_, ?_⟩
  · have hold := h.bound
    omega
  · intro jobID hmem
    rw [hqueue]
    rcases hback jobID hmem with hold | rfl
    · exact Nat.lt_succ_of_lt (h.known jobID hold)
    · exact Nat.lt_succ_self _
  · intro jobID job hget href hstatus
    rw [hqueue] at hget
    rcases Ledger.of_get?_add hget with ⟨rfl, rfl⟩ | hold
    · exact hnew href
    · exact hsub _ (h.listed jobID job hold href hstatus)
  · intro id a ha hdiff
    rw [hanalyses] at ha
    exact hsub _ (h.made id a ha hdiff)
  · rw [hanalyses]
    exact h.distinct
  · intro jobID job hget href hstatus id a ha hdiff
    rw [hqueue] at hget
    rw [hanalyses] at ha
    rcases Ledger.of_get?_add hget with ⟨rfl, rfl⟩ | hold
    · exact Nat.ne_of_lt (hknown id a ha hdiff)
    · exact h.waiting jobID job hold href hstatus id a ha hdiff
  · intro j jobID hop id a ha hdiff hmaker
    rw [hanalyses] at ha
    exact h.working_ran hran (fun _ heq => Call.noConfusion heq) hop ha hdiff hmaker
  · rw [hanalyses, halerts]
    exact h.alerted

/-- An alert is created. -/
theorem Counted.createAlert (h : Counted modes diffID w₀ w jobs maker)
    (hsteady : Steady cfg modes w) {alert : Alert} (hran : Ran modes w i op (.createAlert alert) w') :
    Counted (modesRan cfg modes w i (.createAlert alert)) diffID w₀ w' jobs maker := by
  have hanalyses : w'.store.analyses = w.store.analyses := by
    rw [hran.store, analyses_exec _ fun _ heq => Call.noConfusion heq]
  have hqueue : w'.store.queue = w.store.queue := by
    rw [hran.store, queue_exec _ fun _ _ _ heq => Call.noConfusion heq]
  have hlog : queuedFor diffID w'.log = queuedFor diffID w.log :=
    queuedFor_ran hran fun _ _ _ heq => Call.noConfusion heq
  -- A new alert is the first about its analysis.
  have hfirst : ∀ alertID alert' id, w.store.alerts.get? alertID = some alert' →
      alert'.analysisID = some id → alert.analysisID ≠ some id := by
    intro alertID alert' id hget href' href
    obtain ⟨jobID, diffID', todo, pending, created, rfl, hmode, hpending⟩ := hran.permits
    have hsound := hsteady.sound i _ hran.sent
    rw [hmode] at hsound
    exact (hsound.2 pending rfl).2 alertID alert' hget (href'.trans (href.symm.trans hpending))
  refine ⟨?_, ?_, ?_, ?_, ?_, ?_, ?_, ?_⟩
  · rw [hlog]
    exact h.bound
  · rw [hqueue]
    exact h.known
  · rw [hqueue]
    exact h.listed
  · rw [hanalyses]
    exact h.made
  · rw [hanalyses]
    exact h.distinct
  · rw [hqueue, hanalyses]
    exact h.waiting
  · intro j jobID hop id a ha hdiff hmaker
    rw [hanalyses] at ha
    exact h.working_ran hran (fun _ heq => Call.noConfusion heq) hop ha hdiff hmaker
  · intro alertID alertID' alert₁ alert₂ id a hget hget' href href' ha hdiff
    rw [hanalyses] at ha
    rw [hran.store] at hget hget'
    rcases alert_exec hget with hold | ⟨hc, hid⟩
    · rcases alert_exec hget' with hold' | ⟨hc', -⟩
      · exact h.alerted _ _ _ _ id a hold hold' href href' ha hdiff
      · rw [← Call.createAlert.inj hc'] at href'
        exact absurd href' (hfirst alertID _ id hold href)
    · rcases alert_exec hget' with hold' | ⟨-, hid'⟩
      · rw [← Call.createAlert.inj hc] at href
        exact absurd href (hfirst alertID' _ id hold' href')
      · rw [hid, hid']

/-- An analysis is created. -/
theorem Counted.createAnalysis (h : Counted modes diffID w₀ w jobs maker)
    (hsteady : Steady cfg modes w) {a : Analysis}
    (hran : Ran modes w i op (.createAnalysis a) w') :
    ∃ maker', Counted (modesRan cfg modes w i (.createAnalysis a)) diffID w₀ w' jobs maker' := by
  have hanalyses : w'.store.analyses = w.store.analyses.add a := by rw [hran.store]; rfl
  have halerts : w'.store.alerts = w.store.alerts := by rw [hran.store]; rfl
  have hqueue : w'.store.queue = w.store.queue := by rw [hran.store]; rfl
  have hlog : queuedFor diffID w'.log = queuedFor diffID w.log :=
    queuedFor_ran hran fun _ _ _ heq => Call.noConfusion heq
  obtain ⟨jobID, todo, pending, created, rfl, hmode, htodo⟩ := hran.permits
  obtain ⟨job, hjob, href, hstatus⟩ := hsteady.held i _ jobID (.analyze a.diffID) hran.sent rfl
  -- The new analysis is attributed to the job of the worker, the others as before.
  have hself : Function.update maker w.store.analyses.next jobID w.store.analyses.next = jobID :=
    Function.update_self _ _ _
  have hother : ∀ {id a'}, w.store.analyses.get? id = some a' →
      Function.update maker w.store.analyses.next jobID id = maker id := fun ha' =>
    Function.update_of_ne (Nat.ne_of_lt (Ledger.lt_of_get? ha')) _ _
  -- The worker has made no other analysis of the provider for this job.
  have hfirst : ∀ id a', w.store.analyses.get? id = some a' → a'.diffID = diffID →
      a.diffID = diffID → a'.analyzerType = a.analyzerType → maker id ≠ jobID := by
    intro id a' ha' hdiff' hdiff htype hmaker
    have hsent := hran.sent
    rw [hdiff] at hsent
    have hmade := h.working i jobID hsent id a' ha' hdiff' hmaker
    rw [hmode, htype] at hmade
    cases created with
    | false => exact hmade
    | true => exact hmade htodo
  refine ⟨Function.update maker w.store.analyses.next jobID, ?_, ?_, ?_, ?_, ?_, ?_, ?_, ?_⟩
  · rw [hlog]
    exact h.bound
  · rw [hqueue]
    exact h.known
  · rw [hqueue]
    exact h.listed
  · intro id a' ha' hdiff'
    rw [hanalyses] at ha'
    rcases Ledger.of_get?_add ha' with ⟨rfl, rfl⟩ | hold
    · rw [hself]
      rw [hdiff'] at href
      exact h.listed jobID job hjob href fun heq => JobStatus.noConfusion (heq.symm.trans hstatus)
    · rw [hother hold]
      exact h.made id a' hold hdiff'
  · intro id id' a₁ a₂ ha₁ ha₂ hdiff₁ hdiff₂ htype hmaker
    rw [hanalyses] at ha₁ ha₂
    rcases Ledger.of_get?_add ha₁ with ⟨rfl, rfl⟩ | hold
    · rcases Ledger.of_get?_add ha₂ with ⟨rfl, -⟩ | hold'
      · rfl
      · rw [hself, hother hold'] at hmaker
        exact absurd hmaker.symm (hfirst id' a₂ hold' hdiff₂ hdiff₁ htype.symm)
    · rcases Ledger.of_get?_add ha₂ with ⟨rfl, rfl⟩ | hold'
      · rw [hself, hother hold] at hmaker
        exact absurd hmaker (hfirst id a₁ hold hdiff₁ hdiff₂ htype)
      · rw [hother hold, hother hold'] at hmaker
        exact h.distinct id id' a₁ a₂ hold hold' hdiff₁ hdiff₂ htype hmaker
  · intro jobID' job' hget href' hstatus' id a' ha' hdiff'
    rw [hqueue] at hget
    rw [hanalyses] at ha'
    rcases Ledger.of_get?_add ha' with ⟨rfl, rfl⟩ | hold
    · rw [hself]
      rintro rfl
      obtain rfl := Option.some.inj (hjob.symm.trans hget)
      exact JobStatus.noConfusion (hstatus.symm.trans hstatus')
    · rw [hother hold]
      exact h.waiting jobID' job' hget href' hstatus' id a' hold hdiff'
  · intro j jobID' hop id a' ha' hdiff' hmaker
    rw [hanalyses] at ha'
    have hop := hran.ops j _ hop
    unfold modesRan
    by_cases hj : j = i
    · subst hj
      rw [Function.update_self, hmode]
      rcases Ledger.of_get?_add ha' with ⟨rfl, rfl⟩ | hold
      · exact fun hmem => of_decide_eq_true (List.mem_filter.mp hmem).2 rfl
      · rw [hother hold] at hmaker
        have hmade := h.working j jobID' hop id a' hold hdiff' hmaker
        rw [hmode] at hmade
        exact made_filter hmade
    · rw [Function.update_of_ne hj]
      rcases Ledger.of_get?_add ha' with ⟨rfl, rfl⟩ | hold
      · rw [hself] at hmaker
        subst hmaker
        exact absurd (hsteady.alone j i _ _ jobID _ _ hop hran.sent rfl rfl) hj
      · rw [hother hold] at hmaker
        exact h.working j jobID' hop id a' hold hdiff' hmaker
  · intro alertID alertID' alert alert' id a' hget hget' href href' ha' hdiff'
    rw [hanalyses] at ha'
    rw [halerts] at hget hget'
    rcases Ledger.of_get?_add ha' with ⟨rfl, -⟩ | hold
    · have hsome := w.store.analysis_isSome alertID alert _ hget href
      rw [Ledger.get?_next] at hsome
      exact absurd hsome Bool.false_ne_true
    · exact h.alerted alertID alertID' alert alert' id a' hget hget' href href' hold hdiff'

end Commands

/-- A command of a call. -/
theorem Steady.ran (hsteady : Steady cfg modes w) {i : Nat} {op : Op} {c : Call}
    {k : Option (Answer c) → Prog Call Answer Result} {failed : Bool}
    (hthread : w.threads i = some ⟨op, .cmd c k, failed⟩)
    (hlive : (reanalysisSystem cfg).sticky = true → (reanalysisSystem cfg).fallible c = true →
      failed = false) :
    Ran modes w i op c ⟨(w.store.exec c).1,
      w.setThread i (some ⟨op, k (some (w.store.exec c).2), failed⟩), .ran op c :: w.log⟩ where
  sent := ops_of_thread hthread
  permits := hsteady.kept.permitted hthread hlive
  store := rfl
  log := rfl
  ops := by
    intro j op' hop
    have hstep : (reanalysisSystem cfg).Step w (.exec i) _ := .exec hthread hlive
    rcases hstep.of_ops hop with heq | ⟨hold, -⟩
    · cases heq
    · exact hold

/-- Every step keeps the attribution. -/
theorem Counted.step (h : Counted modes diffID w₀ w jobs maker) (hsteady : Steady cfg modes w)
    {l : Label Op} (hstep : (reanalysisSystem cfg).Step w l w') :
    ∃ jobs' maker', Counted (modesAfter cfg modes w l) diffID w₀ w' jobs' maker' := by
  have hstep' := hstep
  cases hstep with
  | start hfree henabled => exact ⟨jobs, maker, h.start hstep'⟩
  | @exec i op c k failed hthread hlive =>
      have hran := hsteady.ran hthread hlive
      rw [modesAfter, Discipline.after_exec hthread]
      cases c with
      | enqueue ref workspaceID metadata =>
          obtain ⟨jobs', hnew⟩ := h.enqueue cfg hran
          exact ⟨jobs', maker, hnew⟩
      | createAnalysis a =>
          obtain ⟨maker', hnew⟩ := h.createAnalysis hsteady hran
          exact ⟨jobs, maker', hnew⟩
      | createAlert alert => exact ⟨jobs, maker, h.createAlert hsteady hran⟩
      | _ =>
          refine ⟨jobs, maker, h.command cfg hran ?_ ?_ ?_⟩
          · exact fun _ _ _ heq => Call.noConfusion heq
          · exact fun _ heq => Call.noConfusion heq
          · exact fun _ heq => Call.noConfusion heq
  | fail hthread hfallible =>
      refine ⟨jobs, maker, h.of_same rfl rfl rfl rfl h.listed h.waiting ?_⟩
      intro j jobID hop id a ha hdiff hmaker
      rcases hstep'.of_ops hop with heq | ⟨hold, -⟩
      · cases heq
      · exact h.working j jobID hold id a ha hdiff hmaker
  | @stop i t hthread =>
      refine ⟨jobs, maker, h.of_same rfl rfl rfl rfl h.listed h.waiting ?_⟩
      intro j jobID hop id a ha hdiff hmaker
      rcases hstep'.of_ops hop with heq | ⟨hold, hj, -⟩
      · cases heq
      · dsimp only [modesAfter, Discipline.after]
        rw [Function.update_of_ne fun heq => hj (by rw [heq])]
        exact h.working j jobID hold id a ha hdiff hmaker
  | finish hthread => exact ⟨jobs, maker, h.finish hsteady hstep'⟩
  | env henv =>
      obtain ⟨verdict, rfl⟩ := henv
      exact ⟨jobs, maker, h.of_same rfl rfl rfl rfl h.listed h.waiting h.working⟩

/-- No more analyses of a provider than jobs. -/
theorem Counted.length_analysesBy_le (h : Counted modes diffID w₀ w jobs maker)
    (provider : GoString) : (analysesBy w.store diffID provider).length ≤ jobs.length := by
  have hentries : (analysesBy w.store diffID provider).Nodup :=
    (w.store.analyses.rows.nodup.of_map).filter _
  have hnodup : ((analysesBy w.store diffID provider).map fun e => maker e.1).Nodup := by
    refine hentries.map_on fun e he e' he' hmaker => ?_
    obtain ⟨ha, hdiff, htype⟩ := mem_analysesBy.mp he
    obtain ⟨ha', hdiff', htype'⟩ := mem_analysesBy.mp he'
    have hid := h.distinct _ _ _ _ ha ha' hdiff hdiff' (htype.trans htype'.symm) hmaker
    rw [hid] at ha
    exact Prod.ext hid (Option.some.inj (ha.symm.trans ha'))
  have hsub : ((analysesBy w.store diffID provider).map fun e => maker e.1) ⊆ jobs := by
    intro jobID hmem
    obtain ⟨e, he, rfl⟩ := List.mem_map.mp hmem
    obtain ⟨ha, hdiff, -⟩ := mem_analysesBy.mp he
    exact h.made _ _ ha hdiff
  simpa using (hnodup.subperm hsub).length_le

/-- No more alerts than analyses. -/
theorem Counted.length_alertsBy_le (h : Counted modes diffID w₀ w jobs maker)
    (provider : GoString) :
    (alertsBy w.store diffID provider).length ≤ (analysesBy w.store diffID provider).length := by
  have hentries : (alertsBy w.store diffID provider).Nodup :=
    (w.store.alerts.rows.nodup.of_map).filter _
  have hnodup : ((alertsBy w.store diffID provider).map fun e => e.2.analysisID).Nodup := by
    refine hentries.map_on fun e he e' he' heq => ?_
    obtain ⟨hget, id, a, href, ha⟩ := mem_alertsBy.mp he
    obtain ⟨hget', -⟩ := mem_alertsBy.mp he'
    obtain ⟨ha, hdiff, -⟩ := mem_analysesBy.mp ha
    have hid := h.alerted _ _ _ _ id a hget hget' href (heq.symm.trans href) ha hdiff
    rw [hid] at hget
    exact Prod.ext hid (Option.some.inj (hget.symm.trans hget'))
  have hsub : ((alertsBy w.store diffID provider).map fun e => e.2.analysisID) ⊆
      (analysesBy w.store diffID provider).map fun e => some e.1 := by
    intro analysisID hmem
    obtain ⟨e, he, rfl⟩ := List.mem_map.mp hmem
    obtain ⟨-, id, a, href, ha⟩ := mem_alertsBy.mp he
    exact List.mem_map.mpr ⟨(id, a), ha, href.symm⟩
  simpa using (hnodup.subperm hsub).length_le

end Counted

/-! ## Requests -/

/-- A diff of an active package is in the list of every request that has begun since the
beginning, or it is served; and it is served once a request has succeeded. -/
structure Listed (modes : Nat → Mode) (workspaceID : GoString) (diffID : Nat)
    (w₀ w : ReanalysisWorld) : Prop where
  eligible : ∃ pkg, w.store.packageOf diffID = some pkg ∧ pkg.workspaceID = workspaceID ∧
    pkg.status = .active
  requests : ∀ i left, w.ops i = some (.reanalyzeAll workspaceID) →
    modes i = .requesting (some left) → diffID ∈ left ∨ Served w.store diffID
  served : successes workspaceID w₀.log < successes workspaceID w.log → Served w.store diffID

section Listed

variable {cfg : Config} {modes : Nat → Mode} {workspaceID : GoString} {diffID : Nat}
  {w₀ w w' : ReanalysisWorld}

/-- The query finds the diffs of active packages that have no analysis. -/
theorem mem_unanalyzedDiffIDs {s : State} {pkg : Package}
    (hpackage : s.packageOf diffID = some pkg) (hworkspace : pkg.workspaceID = workspaceID)
    (hactive : pkg.status = .active) (hnone : ¬Analyzed s diffID) :
    diffID ∈ s.unanalyzedDiffIDs workspaceID := by
  obtain ⟨found, hfound, rfl⟩ := Option.map_eq_some_iff.mp hpackage
  obtain ⟨diff, hdiff, -⟩ := Option.bind_eq_some_iff.mp hfound
  have hunanalyzed : (s.analyses.rows.entries.any fun e => e.2.diffID = diffID) = false := by
    rw [List.any_eq_false]
    intro e he hdiff
    exact hnone ⟨e.1, e.2, Table.get?_eq_some_iff.mpr he, of_decide_eq_true hdiff⟩
  unfold State.unanalyzedDiffIDs
  rw [List.mem_filter]
  refine ⟨Table.mem_keys_iff.mpr (by rw [hdiff]; rfl), ?_⟩
  rw [hfound, hunanalyzed, Option.any_some, Bool.and_eq_true, decide_eq_true_iff]
  exact ⟨⟨hworkspace, hactive⟩, rfl⟩

theorem of_succeeds {op : Op} {result : Result}
    (hsucceeds : succeeds workspaceID (.returned op result) = true) :
    op = .reanalyzeAll workspaceID ∧ ∃ queued, result = .reanalyzed queued none := by
  cases op with
  | reanalyzeAll workspaceID' =>
      cases result with
      | reanalyzed queued failure =>
          cases failure with
          | none => exact ⟨congrArg Op.reanalyzeAll (of_decide_eq_true hsucceeds), queued, rfl⟩
          | some message => exact absurd hsucceeds Bool.false_ne_true
      | _ => exact absurd hsucceeds Bool.false_ne_true
  | _ => exact absurd hsucceeds Bool.false_ne_true

/-- A request that has sent a call has the diff in its list, or the diff is served. -/
theorem Listed.ran (h : Listed modes workspaceID diffID w₀ w) {i : Nat} {c : Call}
    (hran : Ran modes w i (.reanalyzeAll workspaceID) c w')
    (hserved : Served w.store diffID → Served w'.store diffID) {left : List Nat}
    (hmode : (modes i).next cfg c (w.store.exec c).2 = .requesting (some left)) :
    diffID ∈ left ∨ Served w'.store diffID := by
  have hpermits := hran.permits
  cases c with
  | getUnanalyzedDiffIDs workspaceID' =>
      obtain ⟨hop, -⟩ := hpermits
      obtain rfl := Op.reanalyzeAll.inj hop
      obtain rfl := Option.some.inj (Mode.requesting.inj hmode)
      by_cases hanalyzed : Analyzed w.store diffID
      · exact Or.inr (hserved (Or.inl hanalyzed))
      · obtain ⟨pkg, hpackage, hworkspace, hactive⟩ := h.eligible
        exact Or.inl (mem_unanalyzedDiffIDs hpackage hworkspace hactive hanalyzed)
  | enqueue ref workspaceID' metadata =>
      rcases hpermits with hfree | ⟨diffID', left', hlist, rfl⟩
      · rw [hfree] at hmode
        exact Mode.noConfusion hmode
      · rw [hlist] at hmode
        obtain rfl := Option.some.inj (Mode.requesting.inj hmode)
        rcases h.requests i _ hran.sent hlist with hmem | hold
        · rcases List.mem_cons.mp hmem with rfl | hmem
          · -- The request has just queued the diff.
            refine Or.inr (Or.inr ⟨w.store.queue.next, ⟨.analyze diffID, workspaceID', metadata,
              .pending, 0, w.store.maxAttempts⟩, ?_, rfl, fun h => JobStatus.noConfusion h⟩)
            rw [hran.store]
            exact (Ledger.get?_add _ _ _).trans (if_pos rfl)
          · exact Or.inl hmem
        · exact Or.inr (hserved hold)
  | findDiffWithRelease id =>
      obtain ⟨jobID, hop, -⟩ := hpermits
      exact Op.noConfusion hop
  | findReleaseByID id =>
      obtain ⟨jobID, diffID', hop, -⟩ := hpermits
      exact Op.noConfusion hop
  | createAnalysis a =>
      obtain ⟨jobID, todo, pending, created, hop, -⟩ := hpermits
      exact Op.noConfusion hop
  | createAlert alert =>
      obtain ⟨jobID, diffID', todo, pending, created, hop, -⟩ := hpermits
      exact Op.noConfusion hop
  | _ => exact (h.requests i left hran.sent hmode).imp id hserved

/-- Every step keeps the diff in the lists, or serves it. -/
theorem Listed.step (h : Listed modes workspaceID diffID w₀ w) (hsteady : Steady cfg modes w)
    {l : Label Op} (hstep : (reanalysisSystem cfg).Step w l w') :
    Listed (modesAfter cfg modes w l) workspaceID diffID w₀ w' := by
  obtain ⟨pkg, hpackage, hpkg⟩ := h.eligible
  have hserved : Served w.store diffID → Served w'.store diffID := hsteady.served hstep hpackage
  refine ⟨⟨pkg, packageOf_step hstep hpackage, hpkg⟩, ?_, ?_⟩
  · intro i left hop hmode
    have hrequests : w.ops i = some (.reanalyzeAll workspaceID) →
        modes i = .requesting (some left) → diffID ∈ left ∨ Served w'.store diffID :=
      fun hold hmode => (h.requests i left hold hmode).imp id hserved
    rcases hstep.of_ops hop with rfl | ⟨hold, hstop, hfinish⟩
    · dsimp only [modesAfter, Discipline.after] at hmode
      rw [Function.update_self] at hmode
      exact absurd (Mode.requesting.inj hmode).symm (Option.some_ne_none left)
    · cases hstep with
      | @start j op hfree henabled =>
          dsimp only [modesAfter, Discipline.after] at hmode
          rw [Function.update_of_ne] at hmode
          · exact hrequests hold hmode
          · intro heq
            rw [heq, World.ops, hfree] at hold
            exact absurd hold.symm (Option.some_ne_none _)
      | @exec j op c k failed hthread hlive =>
          rw [modesAfter, Discipline.after_exec hthread] at hmode
          by_cases hi : i = j
          · subst hi
            obtain rfl := Option.some.inj ((ops_of_thread hthread).symm.trans hold)
            rw [Function.update_self] at hmode
            exact h.ran (hsteady.ran hthread hlive) hserved hmode
          · rw [Function.update_of_ne hi] at hmode
            exact hrequests hold hmode
      | fail hthread hfallible => exact hrequests hold hmode
      | @stop j t hthread =>
          dsimp only [modesAfter, Discipline.after] at hmode
          rw [Function.update_of_ne fun heq => hstop (by rw [heq])] at hmode
          exact hrequests hold hmode
      | @finish j op result failed hthread =>
          dsimp only [modesAfter, Discipline.after] at hmode
          rw [Function.update_of_ne fun heq => hfinish (by rw [heq])] at hmode
          exact hrequests hold hmode
      | env henv => exact hrequests hold hmode
  · intro hmore
    cases hstep with
    | @finish j op result failed hthread =>
        by_cases hsucceeds : succeeds workspaceID (.returned op result) = true
        · -- The list of a request that has succeeded is empty.
          obtain ⟨rfl, queued, rfl⟩ := of_succeeds hsucceeds
          have hmode : modes j = .requesting (some []) := hsteady.kept.result hthread
          rcases h.requests j [] (ops_of_thread hthread) hmode with hmem | hold
          · exact absurd hmem List.not_mem_nil
          · exact hserved hold
        · have hsame : successes workspaceID (.returned op result :: w.log) =
              successes workspaceID w.log := List.countP_cons_of_neg hsucceeds
          exact hserved (h.served (lt_of_lt_of_eq hmore hsame))
    | _ => exact hserved (h.served hmore)

end Listed

/-! ## Runs -/

section Runs

variable {cfg : Config} {w₀ w : ReanalysisWorld}

/-- In every run the workers are steady. -/
theorem steady_of_run {s : State}
    (hrun : Run (reanalysisSystem cfg).Step (fun _ _ => True) (.initial s) w) :
    ∃ modes, Steady cfg modes w := by
  refine Run.invariant (I := fun v => ∃ modes, Steady cfg modes v) hrun ⟨_, steady_initial s⟩ ?_
  rintro v l v' ⟨modes, hsteady⟩ - hstep
  exact ⟨_, hsteady.step hstep⟩

/-- A diff that had no analysis when the calls of {lit}`ReanalyzeAll` began, while only workers
were at work, has at most one analysis of a provider for each analyze job that was pending or
being processed then or has been queued since, and no more alerts than analyses; and if it is one
of an active package, it is served once a call has succeeded. -/
theorem reanalyzed_of_run {s : State}
    (hbefore : Run (reanalysisSystem cfg).Step (fun _ _ => True) (.initial s) w₀)
    (hworkers : ∀ i op, w₀.ops i = some op → op.job ≠ none)
    (hrun : Run (reanalysisSystem cfg).Step (fun _ _ => True) w₀ w) {diffID : Nat}
    (hnone : ¬Analyzed w₀.store diffID) :
    (∀ provider,
      (analysesBy w.store diffID provider).length + queuedFor diffID w₀.log ≤
          (openJobs w₀.store diffID).length + queuedFor diffID w.log ∧
        (alertsBy w.store diffID provider).length ≤
          (analysesBy w.store diffID provider).length) ∧
      ∀ workspaceID, Eligible w₀.store workspaceID diffID →
        successes workspaceID w₀.log < successes workspaceID w.log → Served w.store diffID := by
  obtain ⟨modes, hsteady⟩ := steady_of_run hbefore
  constructor
  · let I := fun v => ∃ modes, Steady cfg modes v ∧
      ∃ jobs maker, Counted modes diffID w₀ v jobs maker
    have hinv : I w := by
      refine Run.invariant (I := I) hrun ⟨modes, hsteady, _, _, counted_start hnone⟩ ?_
      rintro v l v' ⟨modes', hsteady', jobs, maker, hcounted⟩ - hstep
      exact ⟨_, hsteady'.step hstep, hcounted.step hsteady' hstep⟩
    obtain ⟨modes', -, jobs, maker, hcounted⟩ := hinv
    intro provider
    have hle := hcounted.length_analysesBy_le provider
    have hbound := hcounted.bound
    exact ⟨by omega, hcounted.length_alertsBy_le provider⟩
  · intro workspaceID heligible hmore
    let I := fun v => ∃ modes, Steady cfg modes v ∧ Listed modes workspaceID diffID w₀ v
    have hstart : Listed modes workspaceID diffID w₀ w₀ := by
      refine ⟨eligible_iff.mp heligible, fun i left hop => ?_, fun h => absurd h (lt_irrefl _)⟩
      exact absurd rfl (hworkers i _ hop)
    have hinv : I w := by
      refine Run.invariant (I := I) hrun ⟨modes, hsteady, hstart⟩ ?_
      rintro v l v' ⟨modes', hsteady', hlisted⟩ - hstep
      exact ⟨_, hsteady'.step hstep, hlisted.step hsteady' hstep⟩
    obtain ⟨modes', -, hlisted⟩ := hinv
    exact hlisted.served hmore

end Runs

/-! ## Two runs -/

/-- Nothing fails and no call is lost. -/
def uninterrupted : Label Op → Bool
  | .fail _ | .stop _ => false
  | _ => true

theorem not_analyzed_of_empty {s : State} (hempty : s.analyses.rows.entries = []) (diffID : Nat) :
    ¬Analyzed s diffID := by
  rintro ⟨id, a, ha, -⟩
  have hmem : (id, a) ∈ s.analyses.rows.entries := Table.get?_eq_some_iff.mp ha
  rw [hempty] at hmem
  exact List.not_mem_nil hmem

/-- A diff without a job is queued by a call and analysed by a worker, once. -/
theorem reanalyzed_of_run_once : ∃ w : ReanalysisWorld,
    Run (reanalysisSystem oneProvider).Step (fun _ _ => True) (.initial oneDiff) w ∧
      (analysesBy w.store 0 "claude".toList).length ≤ 1 ∧ Served w.store 0 := by
  let labels : List (Label Op) := Label.alone 0 (.reanalyzeAll "w".toList) 2 ++
    Label.alone 1 (.processDiff 0 0) 6
  let test : ReanalysisWorld → Bool := fun w =>
    queuedFor 0 w.log = 1 ∧ successes "w".toList w.log = 1
  obtain ⟨w, hsteps, htest⟩ := System.exists_of_steps? (reanalysisSystem oneProvider)
    (fun _ _ => true) (.initial oneDiff) labels test (by decide +kernel)
  have hrun : Run (reanalysisSystem oneProvider).Step (fun _ _ => True) (.initial oneDiff) w :=
    System.run_of_steps? (fun _ _ _ => trivial) hsteps
  obtain ⟨hqueued, hsuccess⟩ : queuedFor 0 w.log = 1 ∧ successes "w".toList w.log = 1 :=
    of_decide_eq_true htest
  obtain ⟨hcount, hserved⟩ := reanalyzed_of_run (.refl _)
    (fun _ _ hop => absurd hop.symm (Option.some_ne_none _)) hrun
    (not_analyzed_of_empty rfl 0)
  have hle := (hcount "claude".toList).1
  rw [hqueued] at hle
  refine ⟨w, hrun, hle, hserved "w".toList ?_ ?_⟩
  · exact ⟨_, _, _, rfl, rfl, rfl⟩
  · rw [hsuccess]
    exact Nat.zero_lt_one

/-- A diff whose job is still pending is queued again by a call.  Two workers then analyse it
twice, and there are two alerts. -/
theorem analyzed_twice : ¬Analyzed oneQueued 0 ∧ ∃ w : ReanalysisWorld,
    Run (reanalysisSystem oneProvider).Step (fun _ l => uninterrupted l = true)
        (.initial oneQueued) w ∧
      (analysesBy w.store 0 "claude".toList).length = 2 ∧
      (alertsBy w.store 0 "claude".toList).length = 2 := by
  refine ⟨not_analyzed_of_empty rfl 0, ?_⟩
  let labels : List (Label Op) := Label.alone 0 (.reanalyzeAll "w".toList) 2 ++
    Label.alone 1 (.processDiff 0 0) 6 ++ Label.alone 2 (.processDiff 1 0) 6
  let test : ReanalysisWorld → Bool := fun w =>
    (analysesBy w.store 0 "claude".toList).length = 2 ∧
      (alertsBy w.store 0 "claude".toList).length = 2
  obtain ⟨w, hsteps, htest⟩ := System.exists_of_steps? (reanalysisSystem oneProvider)
    (fun _ l => uninterrupted l) (.initial oneQueued) labels test (by decide +kernel)
  have hrun : Run (reanalysisSystem oneProvider).Step (fun _ l => uninterrupted l = true)
      (.initial oneQueued) w := System.run_of_steps? (fun _ _ => id) hsteps
  exact ⟨w, hrun, of_decide_eq_true htest⟩

end Reanalysis
end Veilence
