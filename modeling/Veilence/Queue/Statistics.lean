import Veilence.Queue.Effects
import Veilence.Queue.Representation
import Veilence.Queue.Views

/-!
# Queue statistics

{lit}`Stats` and {lit}`StatsForWorkspace` after runs of calls that do not overlap and meet no
error.  The jobs that are pending, processing and dead are counted in containers of their own
type; the completed ones are counted by {lit}`Complete`, once for the queue and once for the
workspace, whatever their type is.

Main results:

- Theorem {lit}`Tallied.step`: every call keeps the records and the counters in step with the
  jobs that were enqueued and completed.
- Theorem {lit}`stats_sum_iff`: the numbers for a type add up to the jobs that were enqueued if
  and only if no job of another type has been completed.
- Theorem {lit}`stats_mixed`: one completed job of another type is counted.
-/

namespace Veilence
namespace Queue

open Go Foundation

/-! ## The statistics of a type -/

/-- {lit}`Stats`, with nothing for an error of the database; without a counter the completed
jobs are none. -/
def stats (jobType : GoString) : ViewBody (Option QueueStats) := do
  let _ ← cleanStaleSortedSetMembers (.processing jobType)
  let _ ← cleanStaleSortedSetMembers (.dead jobType)
  match ← ask (.llen (.pending jobType)) with
  | none => return none
  | some pending =>
  match ← ask (.zcard (.processing jobType)) with
  | none => return none
  | some processing =>
  match ← ask (.zcard (.dead jobType)) with
  | none => return none
  | some dead =>
  let completed := (← ask (.hget "total_completed".toList)).getD 0
  return some ⟨pending, processing, completed, dead⟩

/-- The sum of the numbers. -/
def QueueStats.sum (s : QueueStats) : Int :=
  s.pending + s.processing + s.dead + s.completed

/-- The status of the jobs in a container. -/
def View.status : View → JobStatus
  | pending => .pending
  | processing => .processing
  | dead => .dead

section Reading

variable {db : Redis} {jobType workspaceID : GoString}

/-- The statistics count the members of the containers. -/
theorem run_stats (hlive : Unexpired db jobType) :
    ∃ s, queries.run (stats jobType) db = (db, some s) ∧
      s.completed = db.stats "total_completed".toList ∧
      ∀ v : View, v.count s = (v.ids db jobType).length := by
  have hdead : ∀ id ∈ rangeOf (db.zsets (.dead jobType)), (db.jobs.get? id).isSome :=
    fun id hid => hlive .dead id (List.mem_reverse.mpr hid)
  refine ⟨⟨(db.lists (.pending jobType)).length, (db.zsets (.processing jobType)).keys.length,
    db.stats "total_completed".toList, (db.zsets (.dead jobType)).keys.length⟩, ?_, rfl, ?_⟩
  · rw [stats, Machine.run_bind_of (run_cleanStaleSortedSetMembers (hlive .processing)),
      Machine.run_bind_of (run_cleanStaleSortedSetMembers hdead)]
    rfl
  · intro v
    cases v with
    | pending => simp [View.count, View.ids]
    | processing => simp [View.count, View.ids, length_rangeOf]
    | dead => simp [View.count, View.ids, length_rangeOf]

end Reading

/-! ## Records by number -/

/-- The records of the jobs. -/
def Redis.records (db : Redis) : List Job :=
  db.jobs.entries.map Prod.snd

/-- Tables with the same values have the same entries. -/
theorem perm_entries {K V : Type*} [DecidableEq K] {t t' : Table K V}
    (hget : ∀ k, t'.get? k = t.get? k) : t'.entries.Perm t.entries := by
  rw [List.perm_ext_iff_of_nodup (List.Nodup.of_map _ t'.nodup) (List.Nodup.of_map _ t.nodup)]
  rintro ⟨k, v⟩
  rw [← Table.get?_eq_some_iff, ← Table.get?_eq_some_iff, hget]

section Records

variable {db db' : Redis} {job job' : Job} {jobType workspaceID : GoString}

/-- A new record. -/
theorem records_add (hfresh : db.jobs.get? job.id = none)
    (hget : ∀ id, db'.jobs.get? id = if id = job.id then some job else db.jobs.get? id) :
    db'.records.Perm (job :: db.records) := by
  have hperm : db'.jobs.entries.Perm (db.jobs.insert job.id job).entries :=
    perm_entries fun id => by rw [hget, Table.get?_insert]
  have habsent : (db.jobs.erase job.id).entries.Perm db.jobs.entries := by
    apply perm_entries
    intro id
    rw [Table.get?_erase]
    split_ifs with hid
    · rw [hid, hfresh]
    · rfl
  exact (hperm.trans (habsent.cons _)).map Prod.snd

/-- A replaced record: the others and the old one, the others and the new one. -/
theorem records_overwrite (hwrites : Overwrites db db' job job') :
    ∃ others, db.records.Perm (job :: others) ∧ db'.records.Perm (job' :: others) := by
  refine ⟨(db.jobs.erase job.id).entries.map Prod.snd, ?_, ?_⟩
  · have hperm : db.jobs.entries.Perm (db.jobs.insert job.id job).entries := by
      apply perm_entries
      intro id
      rw [Table.get?_insert]
      split_ifs with hid
      · rw [hid, hwrites.stored]
      · rfl
    exact hperm.map Prod.snd
  · have hperm : db'.jobs.entries.Perm (db.jobs.insert job.id job').entries :=
      perm_entries fun id => by rw [hwrites.jobs]
    exact hperm.map Prod.snd

/-- Records that agree on what is read of them. -/
theorem records_agree {κ : Type*} {f : Job → κ}
    (hagree : ∀ id, (db'.jobs.get? id).map f = (db.jobs.get? id).map f) :
    (db'.records.map f).Perm (db.records.map f) := by
  let read (e : GoString × Job) : GoString × κ := (e.1, f e.2)
  have hnodup : ∀ db : Redis, (db.jobs.entries.map read).Nodup := by
    intro db
    apply List.Nodup.of_map Prod.fst
    rw [List.map_map]
    exact db.jobs.nodup
  have hmem : ∀ (db : Redis) (id : GoString) (x : κ),
      (id, x) ∈ db.jobs.entries.map read ↔ (db.jobs.get? id).map f = some x := by
    intro db id x
    simp [read, ← Table.get?_eq_some_iff]
  have hperm : (db'.jobs.entries.map read).Perm (db.jobs.entries.map read) := by
    rw [List.perm_ext_iff_of_nodup (hnodup db') (hnodup db)]
    rintro ⟨id, x⟩
    rw [hmem, hmem, hagree]
  have hread : ∀ db : Redis, db.records.map f = (db.jobs.entries.map read).map Prod.snd := by
    intro db
    rw [Redis.records, List.map_map, List.map_map]
    rfl
  rw [hread, hread]
  exact hperm.map Prod.snd

/-- The IDs in a container are those of the records with its type and status. -/
theorem ids_perm (hfiled : Filed db) (v : View) :
    (v.ids db jobType).Perm ((db.jobs.entries.filter fun e =>
      e.2.type = jobType ∧ e.2.status = v.status).map Prod.fst) := by
  have hmem : ∀ id, id ∈ v.ids db jobType ↔ HasStatus db jobType id v.status := by
    intro id
    cases v with
    | pending => rw [View.ids, List.mem_reverse, hfiled.pending, View.status]
    | processing => rw [View.ids, mem_rangeOf, hfiled.processing, View.status]
    | dead => rw [View.ids, List.mem_reverse, mem_rangeOf, hfiled.dead, View.status]
  have hnodup : (v.ids db jobType).Nodup := by
    cases v with
    | pending => exact List.nodup_reverse.mpr (hfiled.nodup jobType)
    | processing => exact nodup_rangeOf _
    | dead => exact List.nodup_reverse.mpr (nodup_rangeOf _)
  rw [List.perm_ext_iff_of_nodup hnodup (db.jobs.nodup.sublist (List.filter_sublist.map _))]
  intro id
  rw [hmem, List.mem_map]
  constructor
  · rintro ⟨job, hstored, htype, hstatus⟩
    refine ⟨(id, job), List.mem_filter.mpr ⟨Table.get?_eq_some_iff.mp hstored, ?_⟩, rfl⟩
    simp [htype, hstatus]
  · rintro ⟨⟨_, job⟩, he, rfl⟩
    obtain ⟨hstored, hcondition⟩ := List.mem_filter.mp he
    obtain ⟨htype, hstatus⟩ := of_decide_eq_true hcondition
    exact ⟨job, Table.get?_eq_some_iff.mpr hstored, htype, hstatus⟩

/-- The members of a container are the records with its type and status. -/
theorem length_ids (hfiled : Filed db) (v : View) :
    (v.ids db jobType).length =
      db.records.countP fun job => job.type = jobType ∧ job.status = v.status := by
  rw [(ids_perm hfiled v).length_eq, List.length_map, ← List.countP_eq_length_filter,
    Redis.records, List.countP_map]
  rfl

/-- The jobs of a workspace in a container are the records with its type and status. -/
theorem length_workspaceJobs (hfiled : Filed db) (v : View) :
    (workspaceJobs v db jobType workspaceID).length =
      db.records.countP fun job =>
        (job.type = jobType ∧ job.workspaceID = workspaceID) ∧ job.status = v.status := by
  have hloaded : ((db.jobs.entries.filter fun e =>
      e.2.type = jobType ∧ e.2.status = v.status).map Prod.fst).filterMap db.jobs.get? =
      (db.jobs.entries.filter fun e => e.2.type = jobType ∧ e.2.status = v.status).map Prod.snd := by
    rw [List.filterMap_map, ← List.filterMap_eq_map]
    apply List.filterMap_congr
    intro e he
    exact Table.get?_eq_some_iff.mpr (List.mem_of_mem_filter he)
  have hperm := ((@ids_perm db jobType hfiled v).filterMap db.jobs.get?).filter
    fun job => job.workspaceID = workspaceID
  rw [hloaded] at hperm
  rw [workspaceJobs, filterJobsByWorkspace, View.jobs, hperm.length_eq,
    ← List.countP_eq_length_filter, List.countP_map, List.countP_filter, Redis.records,
    List.countP_map]
  apply List.countP_congr
  intro e _
  simp only [Function.comp_apply, decide_eq_true_eq, Bool.and_eq_true]
  tauto

/-- Every container of filed jobs has live records. -/
theorem Filed.unexpired (hfiled : Filed db) : Unexpired db jobType := by
  intro v id hid
  have hmem := (ids_perm hfiled v).subset hid
  obtain ⟨e, he, rfl⟩ := List.mem_map.mp hmem
  rw [Table.get?_eq_some_iff.mpr (List.mem_of_mem_filter he)]
  rfl

/-- Jobs by status, when none has failed for good. -/
theorem countP_status {jobs : List Job} (hfailed : ∀ job ∈ jobs, job.status ≠ .failed)
    (p : Job → Prop) [DecidablePred p] :
    jobs.countP p = jobs.countP (fun job => p job ∧ job.status = .pending) +
      jobs.countP (fun job => p job ∧ job.status = .processing) +
      jobs.countP (fun job => p job ∧ job.status = .dead) +
      jobs.countP (fun job => p job ∧ job.status = .completed) := by
  induction jobs with
  | nil => rfl
  | cons job jobs ih =>
      have hrest := ih fun other hother => hfailed other (List.mem_cons_of_mem job hother)
      have hstatus := hfailed job List.mem_cons_self
      simp only [List.countP_cons, hrest]
      by_cases hp : p job
      · cases hjob : job.status with
        | failed => exact absurd hjob hstatus
        | _ =>
            simp [hp]
            omega
      · simp [hp]

end Records
/-! ## What calls do to workspaces and counters -/

/-- Every record keeps its workspace, and the counters of completed jobs stay. -/
structure Steady (db db' : Redis) : Prop where
  workspace : ∀ id job, db.jobs.get? id = some job →
    ∃ job', db'.jobs.get? id = some job' ∧ job'.workspaceID = job.workspaceID
  stats : ∀ field, field ≠ "total_enqueued".toList → field ≠ "total_dead".toList →
    db'.stats field = db.stats field

section Steadiness

variable {cfg : Config} {db mid db' : Redis} {job job' : Job} {jobType : GoString} {a : Outcome}

theorem Steady.trans (hfirst : Steady db mid) (hsecond : Steady mid db') : Steady db db' where
  workspace := by
    intro id job hjob
    obtain ⟨job', hjob', hsame⟩ := hfirst.workspace id job hjob
    obtain ⟨job'', hjob'', hsame'⟩ := hsecond.workspace id job' hjob'
    exact ⟨job'', hjob'', hsame'.trans hsame⟩
  stats := fun field henqueued hdead =>
    (hsecond.stats field henqueued hdead).trans (hfirst.stats field henqueued hdead)

/-- Nothing is written. -/
theorem steady_of_eq (hjobs : db'.jobs = db.jobs) (hstats : db'.stats = db.stats) :
    Steady db db' where
  workspace := fun _ job hjob => ⟨job, by rw [hjobs, hjob], rfl⟩
  stats := fun field _ _ => by rw [hstats]

/-- A record is written over one of the same workspace. -/
theorem Overwrites.steady (hwrites : Overwrites db db' job job')
    (hworkspace : job'.workspaceID = job.workspaceID)
    (hstats : ∀ field, field ≠ "total_enqueued".toList → field ≠ "total_dead".toList →
      db'.stats field = db.stats field) : Steady db db' where
  workspace := by
    intro id stored hget
    rw [hwrites.get]
    split_ifs with hid
    · rw [hid, hwrites.stored, Option.some.injEq] at hget
      exact ⟨job', rfl, hget ▸ hworkspace⟩
    · exact ⟨stored, hget, rfl⟩
  stats := hstats

/-- A call that is about a held value is about the stored record. -/
def AboutStored (db : Redis) (op : Op) : Prop :=
  ∀ entry, op.heldJob = some entry → db.jobs.get? entry.2.id = some entry.2

/-- Every call but {lit}`Enqueue` and {lit}`Complete` is steady. -/
theorem steady_of_call {op : Op} (hkeyed : Keyed db) (habout : AboutStored db op)
    (henqueue : ∀ jobType workspaceID referenceID metadata,
      op ≠ .enqueue jobType workspaceID referenceID metadata)
    (hcomplete : ∀ jobType job, op ≠ .complete jobType job)
    (hrun : Finishes (bodyOf cfg op) db a db') : Steady db db' := by
  cases op with
  | enqueue jobType workspaceID referenceID metadata => exact absurd rfl (henqueue _ _ _ _)
  | complete jobType job => exact absurd rfl (hcomplete _ _)
  | dequeue jobType =>
      obtain ⟨hstats, ⟨hjobs, -⟩ | ⟨job, now, -, hwrites⟩⟩ := dequeue_effect hkeyed hrun
      · exact steady_of_eq hjobs hstats
      · exact hwrites.steady rfl fun _ _ _ => by rw [hstats]
  | fail jobType job jobErr =>
      obtain ⟨now, later, hjobs, hstats⟩ := fail_effect hrun
      have hwrites : Overwrites db db' job (job.missed jobErr now later) :=
        ⟨habout _ rfl, job.missed_id jobErr now later, hjobs⟩
      refine hwrites.steady ?_ fun field _ hfield => hstats field hfield
      unfold Job.missed
      split_ifs <;> rfl
  | putBack jobType job =>
      obtain ⟨hjobs, hstats⟩ := putBack_effect hrun
      have hwrites : Overwrites db db' job { job with status := .pending } :=
        ⟨habout _ rfl, rfl, hjobs⟩
      exact hwrites.steady rfl fun _ _ _ => by rw [hstats]
  | recoverStuckJobs jobType =>
      refine recoverStuckJobs_touches (R := Steady) (fun _ _ _ => Steady.trans)
        (fun _ _ => steady_of_eq) (fun db db' job now hwrites hstats => ?_) hkeyed hrun
      refine hwrites.steady ?_ fun _ _ _ => by rw [hstats]
      unfold Job.recovered
      split_ifs <;> rfl
  | requeueDead jobType jobID =>
      obtain ⟨hstats, hjobs | ⟨job, now, later, -, hwrites⟩⟩ := requeueDead_effect hkeyed hrun
      · exact steady_of_eq hjobs hstats
      · exact hwrites.steady rfl fun _ _ _ => by rw [hstats]
  | requeueAllDead jobType =>
      refine requeueAllDead_touches (R := Steady) (fun _ _ _ => Steady.trans)
        (fun _ _ => steady_of_eq) (fun db db' job now later _ hwrites hstats => ?_) hkeyed hrun
      exact hwrites.steady rfl fun _ _ _ => by rw [hstats]

end Steadiness

/-! ## Tallies -/

/-- A history with the type and the workspace of every job that was enqueued and of every job
that was completed. -/
structure Tally where
  history : History
  enqueued : List (GoString × GoString)
  completed : List (GoString × GoString)

/-- What a call enqueues. -/
def Op.enqueues : Op → List (GoString × GoString)
  | .enqueue jobType workspaceID _ _ => [(jobType, workspaceID)]
  | _ => []

/-- What a call completes. -/
def Op.completes : Op → List (GoString × GoString)
  | .complete _ job => [(job.type, job.workspaceID)]
  | _ => []

namespace Tally

/-- Before the first call. -/
def initial : Tally :=
  ⟨.initial, [], []⟩

/-- A call of the queue that runs alone and meets no error. -/
def Call (cfg : Config) (t : Tally) (op : Op) (t' : Tally) : Prop :=
  t.history.Call cfg op t'.history ∧ t'.enqueued = op.enqueues ++ t.enqueued ∧
    t'.completed = op.completes ++ t.completed

/-- The calls of workers are about the jobs that they hold, and a job is requeued with its own
type. -/
def Allowed (t : Tally) (op : Op) : Prop :=
  t.history.Allowed op

end Tally

/-- The type and the workspace of a job. -/
def Job.owner (job : Job) : GoString × GoString :=
  (job.type, job.workspaceID)

/-- The records and the counters are in step with the jobs enqueued and completed. -/
structure Tallied (cfg : Config) (t : Tally) : Prop where
  inStep : InStep cfg t.history
  enqueued : (t.history.db.records.map Job.owner).Perm t.enqueued
  completed : ((t.history.db.records.filter fun job => job.status = .completed).map
    Job.owner).Perm t.completed
  total : t.history.db.stats "total_completed".toList = t.completed.length
  own : ∀ workspaceID, t.history.db.stats ("completed:".toList ++ workspaceID) =
    t.completed.countP fun c => c.2 = workspaceID

section Tallying

variable {cfg : Config} {t t' : Tally} {db' : Redis} {job : Job} {a : Outcome}

/-- Before the first call. -/
theorem tallied_initial (cfg : Config) : Tallied cfg Tally.initial where
  inStep := inStep_initial cfg
  enqueued := by simp [Tally.initial, History.initial, Redis.empty, Redis.records, Table.empty]
  completed := by simp [Tally.initial, History.initial, Redis.empty, Redis.records, Table.empty]
  total := by simp [Tally.initial, History.initial, Redis.empty]
  own := by simp [Tally.initial, History.initial, Redis.empty]

/-- A held value is the stored one. -/
theorem InStep.aboutStored {h : History} (hinv : InStep cfg h) {op : Op} (hallowed : h.Allowed op) :
    AboutStored h.db op :=
  fun entry hentry => (hinv.held entry (hallowed.1 entry hentry)).1

/-- What is read of the records after a steady call that enqueues and completes nothing. -/
theorem agree_of_steady {h h' : History} (hinv : InStep cfg h) (hinv' : InStep cfg h')
    (hsteady : Steady h.db h'.db) (henqueued : h'.enqueued = h.enqueued)
    (hcompleted : h'.completed = h.completed) (id : GoString) :
    (h'.db.jobs.get? id).map (fun job => (job.owner, decide (job.status = .completed))) =
      (h.db.jobs.get? id).map fun job => (job.owner, decide (job.status = .completed)) := by
  cases hstored : h.db.jobs.get? id with
  | none =>
      cases hstored' : h'.db.jobs.get? id with
      | none => rfl
      | some job' =>
          have hmem := (hinv'.enqueued (job'.type, id)).mpr ⟨job', hstored', rfl⟩
          rw [henqueued, hinv.enqueued] at hmem
          obtain ⟨job, hjob, _⟩ := hmem
          rw [hstored] at hjob
          cases hjob
  | some job =>
      obtain ⟨job', hstored', hworkspace⟩ := hsteady.workspace id job hstored
      have htype : job'.type = job.type := by
        have hmem := (hinv.enqueued (job.type, id)).mpr ⟨job, hstored, rfl⟩
        rw [← henqueued, hinv'.enqueued] at hmem
        obtain ⟨stored, hget, hsame⟩ := hmem
        rw [hstored', Option.some.injEq] at hget
        rw [hget, hsame]
      have hstatus : job'.status = .completed ↔ job.status = .completed := by
        have hleft := hinv'.completed id
        rw [hcompleted, hinv.completed id, hstored, hstored'] at hleft
        simpa using hleft.symm
      rw [hstored']
      simp [Job.owner, htype, hworkspace, hstatus]

/-- The counters of completed jobs are none of the others. -/
theorem completed_field_ne (workspaceID : GoString) :
    "completed:".toList ++ workspaceID ≠ "total_enqueued".toList ∧
      "completed:".toList ++ workspaceID ≠ "total_dead".toList := by
  constructor
  · rintro ⟨⟩
  · rintro ⟨⟩

/-- A steady call that enqueues and completes nothing keeps the tally. -/
theorem Tallied.steady (hinv : Tallied cfg t) (hinStep : InStep cfg t'.history)
    (hsteady : Steady t.history.db t'.history.db)
    (hhistory : t'.history.enqueued = t.history.enqueued ∧
      t'.history.completed = t.history.completed)
    (henqueued : t'.enqueued = t.enqueued) (hcompleted : t'.completed = t.completed) :
    Tallied cfg t' := by
  have hperm := records_agree (agree_of_steady hinv.inStep hinStep hsteady hhistory.1 hhistory.2)
  have howner : ∀ jobs : List Job, jobs.map Job.owner =
      (jobs.map fun job => (job.owner, decide (job.status = .completed))).map Prod.fst := by
    intro jobs
    rw [List.map_map]
    rfl
  have hdone : ∀ jobs : List Job, (jobs.filter fun job => job.status = .completed).map Job.owner =
      ((jobs.map fun job => (job.owner, decide (job.status = .completed))).filter Prod.snd).map
        Prod.fst := by
    intro jobs
    rw [List.filter_map, List.map_map]
    rfl
  constructor
  case inStep => exact hinStep
  case enqueued =>
    rw [henqueued, howner]
    refine (hperm.map Prod.fst).trans ?_
    rw [← howner]
    exact hinv.enqueued
  case completed =>
    rw [hcompleted, hdone]
    refine ((hperm.filter _).map Prod.fst).trans ?_
    rw [← hdone]
    exact hinv.completed
  case total =>
    rw [hcompleted, ← hinv.total]
    exact hsteady.stats _ (by decide) (by decide)
  case own =>
    intro workspaceID
    rw [hcompleted, ← hinv.own]
    exact hsteady.stats _ (completed_field_ne _).1 (completed_field_ne _).2

/-- {lit}`Complete` keeps the tally. -/
theorem Tallied.complete (hinv : Tallied cfg t) (hinStep : InStep cfg t'.history)
    (hstored : t.history.db.jobs.get? job.id = some job) (hstatus : job.status = .processing)
    (hrun : Finishes (complete job) t.history.db a t'.history.db)
    (henqueued : t'.enqueued = t.enqueued) (hcompleted : t'.completed = job.owner :: t.completed) :
    Tallied cfg t' := by
  obtain ⟨now, hjobs, htotal, hown⟩ := complete_effect hrun
  have hwrites : Overwrites t.history.db t'.history.db job (job.finished now) :=
    ⟨hstored, rfl, hjobs⟩
  obtain ⟨others, hbefore, hafter⟩ := records_overwrite hwrites
  constructor
  case inStep => exact hinStep
  case enqueued =>
    rw [henqueued]
    exact ((hafter.map Job.owner).trans (hbefore.map Job.owner).symm).trans hinv.enqueued
  case completed =>
    have hnew := (hafter.filter fun job => job.status = .completed).map Job.owner
    have hold := (hbefore.filter fun job => job.status = .completed).map Job.owner
    rw [List.filter_cons_of_pos (by simp [Job.finished])] at hnew
    rw [List.filter_cons_of_neg (by simp [hstatus])] at hold
    rw [hcompleted]
    exact hnew.trans ((hold.symm.trans hinv.completed).cons _)
  case total =>
    rw [htotal, hinv.total, hcompleted, List.length_cons, Nat.cast_add, Nat.cast_one]
  case own =>
    intro workspaceID
    rw [hown, hinv.own, hcompleted, List.countP_cons]
    by_cases hworkspace : workspaceID = job.workspaceID
    · simp [hworkspace, Job.owner]
    · simp [hworkspace, Ne.symm hworkspace, Job.owner]

/-- {lit}`Enqueue` keeps the tally. -/
theorem Tallied.enqueue (hinv : Tallied cfg t) (hinStep : InStep cfg t'.history)
    {jobType workspaceID referenceID : GoString} {metadata : List (GoString × GoString)}
    (hrun : Finishes (enqueue cfg jobType workspaceID referenceID metadata) t.history.db a
      t'.history.db)
    (henqueued : t'.enqueued = (jobType, workspaceID) :: t.enqueued)
    (hcompleted : t'.completed = t.completed) : Tallied cfg t' := by
  obtain ⟨job, -, hid, -, hjobs, htype, hworkspace, hstatus, -, -, hstats⟩ := enqueue_effect hrun
  have hfresh : t.history.db.jobs.get? job.id = none := by
    rw [hid]
    exact fresh_of_numbered hinv.inStep.filed.numbered
  have hperm : t'.history.db.records.Perm (job :: t.history.db.records) :=
    records_add hfresh fun id => by rw [hjobs, Table.get?_insert]
  have howner : job.owner = (jobType, workspaceID) := by rw [Job.owner, htype, hworkspace]
  constructor
  case inStep => exact hinStep
  case enqueued =>
    have hnew := hperm.map Job.owner
    rw [List.map_cons, howner] at hnew
    rw [henqueued]
    exact hnew.trans (hinv.enqueued.cons _)
  case completed =>
    have hnew := (hperm.filter fun job => job.status = .completed).map Job.owner
    rw [List.filter_cons_of_neg (by simp [hstatus])] at hnew
    rw [hcompleted]
    exact hnew.trans hinv.completed
  case total =>
    rw [hcompleted, ← hinv.total]
    exact hstats _ (by decide)
  case own =>
    intro workspaceID
    rw [hcompleted, ← hinv.own]
    exact hstats _ (completed_field_ne _).1

/-- A call that does neither enqueue nor complete leaves what was enqueued and completed. -/
theorem History.after_lists (h : History) {op : Op} (a : Outcome) (db' : Redis)
    (henqueue : ∀ jobType workspaceID referenceID metadata,
      op ≠ .enqueue jobType workspaceID referenceID metadata)
    (hcomplete : ∀ jobType job, op ≠ .complete jobType job) :
    (h.after op a db').enqueued = h.enqueued ∧ (h.after op a db').completed = h.completed := by
  cases op with
  | enqueue jobType workspaceID referenceID metadata => exact absurd rfl (henqueue _ _ _ _)
  | complete jobType job => exact absurd rfl (hcomplete _ _)
  | dequeue jobType =>
      cases a with
      | job job => cases job <;> exact ⟨rfl, rfl⟩
      | _ => exact ⟨rfl, rfl⟩
  | _ => exact ⟨rfl, rfl⟩

/-- Every call keeps the tally. -/
theorem Tallied.step (hmax : 1 ≤ cfg.maxAttempts) (hinv : Tallied cfg t) {op : Op}
    (hallowed : t.Allowed op) (hcall : t.Call cfg op t') : Tallied cfg t' := by
  obtain ⟨hhistory, henqueued, hcompleted⟩ := hcall
  have hinStep := (hinv.inStep.step hmax hallowed hhistory).1
  have habout := hinv.inStep.aboutStored hallowed
  obtain ⟨a, db', hrun, hafter⟩ := hhistory
  obtain rfl : t'.history.db = db' := by rw [hafter, History.after_db]
  by_cases henqueue : ∃ jobType workspaceID referenceID metadata,
      op = .enqueue jobType workspaceID referenceID metadata
  · obtain ⟨jobType, workspaceID, referenceID, metadata, rfl⟩ := henqueue
    exact hinv.enqueue hinStep hrun henqueued hcompleted
  by_cases hcomplete : ∃ jobType job, op = .complete jobType job
  · obtain ⟨jobType, job, rfl⟩ := hcomplete
    obtain ⟨hstored, -, hstatus⟩ := hinv.inStep.stored (hallowed.1 _ rfl)
    exact hinv.complete hinStep hstored hstatus hrun henqueued hcompleted
  · push Not at henqueue hcomplete
    have hsteady := steady_of_call hinv.inStep.filed.keyed habout henqueue hcomplete hrun
    have hlists := t.history.after_lists a t'.history.db henqueue hcomplete
    rw [← hafter] at hlists
    have hnone : op.enqueues = [] ∧ op.completes = [] := by
      cases op with
      | enqueue jobType workspaceID referenceID metadata => exact absurd rfl (henqueue _ _ _ _)
      | complete jobType job => exact absurd rfl (hcomplete _ _)
      | _ => exact ⟨rfl, rfl⟩
    rw [hnone.1, List.nil_append] at henqueued
    rw [hnone.2, List.nil_append] at hcompleted
    exact hinv.steady hinStep hsteady hlists henqueued hcompleted

/-- The jobs of some owners: pending, processing, dead and completed ones make up those that
were enqueued. -/
theorem Tallied.sum (hinv : Tallied cfg t) (p : GoString × GoString → Prop) [DecidablePred p] :
    t.history.db.records.countP (fun job => p job.owner ∧ job.status = .pending) +
      t.history.db.records.countP (fun job => p job.owner ∧ job.status = .processing) +
      t.history.db.records.countP (fun job => p job.owner ∧ job.status = .dead) +
      t.completed.countP p = t.enqueued.countP p := by
  have hfailed : ∀ job ∈ t.history.db.records, job.status ≠ .failed := by
    intro job hjob hstatus
    obtain ⟨⟨id, _⟩, he, rfl⟩ := List.mem_map.mp hjob
    have hattempted := (hinv.inStep.attempted _ _ (Table.get?_eq_some_iff.mpr he)).2
    rw [hstatus] at hattempted
    exact hattempted
  have henqueued := hinv.enqueued.countP_eq p
  have hcompleted := hinv.completed.countP_eq p
  rw [List.countP_map] at henqueued
  rw [List.countP_map, List.countP_filter] at hcompleted
  have hstatus := countP_status hfailed fun job => p job.owner
  have hdone : t.history.db.records.countP (fun job => p job.owner ∧ job.status = .completed) =
      t.completed.countP p := by
    rw [← hcompleted]
    apply List.countP_congr
    intro job _
    simp
  rw [← henqueued, ← hdone]
  exact hstatus.symm

/-- All elements that satisfy one condition satisfy another one exactly when as many satisfy
both. -/
theorem countP_and_iff {α : Type*} {xs : List α} {p q : α → Prop} [DecidablePred p]
    [DecidablePred q] :
    xs.countP q = xs.countP (fun x => p x ∧ q x) ↔ ∀ x ∈ xs, q x → p x := by
  have hboth : xs.countP (fun x => p x ∧ q x) = (xs.filter (fun x => q x)).countP (fun x => p x) := by
    rw [List.countP_filter]
    apply List.countP_congr
    intro x _
    simp
  rw [hboth, List.countP_eq_length_filter, eq_comm, List.countP_eq_length]
  simp

/-- Numbers of jobs that count the completed ones by another condition. -/
theorem Tallied.sum_iff (hinv : Tallied cfg t) (p q : GoString × GoString → Prop)
    [DecidablePred p] [DecidablePred q] {s : QueueStats}
    (hcount : ∀ v : View, v.count s = t.history.db.records.countP fun job =>
      (p job.owner ∧ q job.owner) ∧ job.status = v.status)
    (hcompleted : s.completed = t.completed.countP fun c => q c) :
    s.sum = t.enqueued.countP (fun c => p c ∧ q c) ↔ ∀ c ∈ t.completed, q c → p c := by
  have hsum := hinv.sum fun c => p c ∧ q c
  have hpending : s.pending = t.history.db.records.countP fun job =>
      (p job.owner ∧ q job.owner) ∧ job.status = .pending := hcount .pending
  have hprocessing : s.processing = t.history.db.records.countP fun job =>
      (p job.owner ∧ q job.owner) ∧ job.status = .processing := hcount .processing
  have hdead : s.dead = t.history.db.records.countP fun job =>
      (p job.owner ∧ q job.owner) ∧ job.status = .dead := hcount .dead
  rw [← countP_and_iff, QueueStats.sum, hpending, hprocessing, hdead, hcompleted, ← hsum]
  omega

/-- In every run of calls that do not overlap and meet no error, the numbers of {lit}`Stats` for a
type add up to the jobs of the type that were enqueued if and only if no job of another type has
been completed, and the numbers of {lit}`StatsForWorkspace` add up to those of the workspace if and
only if no job of the workspace with another type has been completed. -/
theorem stats_sum_iff {cfg : Config} (hmax : 1 ≤ cfg.maxAttempts) {t : Tally}
    (hrun : Run (Tally.Call cfg) Tally.Allowed Tally.initial t) (jobType : GoString) :
    (∃ s, queries.run (stats jobType) t.history.db = (t.history.db, some s) ∧
      (s.sum = t.enqueued.countP (fun c => c.1 = jobType) ↔
        ∀ c ∈ t.completed, c.1 = jobType)) ∧
      ∀ workspaceID, ∃ s,
        queries.run (statsForWorkspace jobType workspaceID) t.history.db =
          (t.history.db, .ok s) ∧
        (s.sum = t.enqueued.countP (fun c => c.1 = jobType ∧ c.2 = workspaceID) ↔
          ∀ c ∈ t.completed, c.2 = workspaceID → c.1 = jobType) := by
  have hinv : Tallied cfg t := hrun.invariant (tallied_initial cfg)
    fun _ _ _ hinv hallowed hcall => hinv.step hmax hallowed hcall
  have hfiled := hinv.inStep.filed
  constructor
  · obtain ⟨s, hstats, hcompleted, hcount⟩ := @run_stats t.history.db jobType hfiled.unexpired
    refine ⟨s, hstats, ?_⟩
    have hiff := @hinv.sum_iff _ _ (fun c => c.1 = jobType) (fun _ => True) _ _ s
    simp only [and_true, true_implies] at hiff
    apply hiff
    · intro v
      rw [hcount, length_ids hfiled]
      rfl
    · rw [hcompleted, hinv.total]
      simp
  · intro workspaceID
    obtain ⟨s, hstats, hcompleted, hcount⟩ :=
      @run_statsForWorkspace t.history.db jobType workspaceID hfiled.unexpired
    refine ⟨s, hstats, hinv.sum_iff (fun c => c.1 = jobType) (fun c => c.2 = workspaceID) ?_ ?_⟩
    · intro v
      rw [hcount, length_workspaceJobs hfiled]
      rfl
    · rw [hcompleted, hinv.own]

end Tallying

/-! ## Two types -/

/-- The tally after a call at a time. -/
def Tally.call (t : Tally) (cfg : Config) (now : Int) (op : Op) : Tally :=
  ⟨t.history.call cfg now op, op.enqueues ++ t.enqueued, op.completes ++ t.completed⟩

theorem Tally.call_spec (t : Tally) (cfg : Config) (now : Int) (op : Op) :
    t.Call cfg op (t.call cfg now op) :=
  ⟨History.call_spec _ _ _ _, rfl, rfl⟩

/-- A diff job is enqueued and dequeued. -/
def heldTally : Tally :=
  (Tally.initial.call defaultConfig 0 (.enqueue "diff".toList "w".toList "r".toList [])).call
    defaultConfig 0 (.dequeue "diff".toList)

/-- What the worker holds. -/
def heldDiffJob : Job where
  id := "1".toList
  type := "diff".toList
  workspaceID := "w".toList
  referenceID := "r".toList
  status := .processing
  attempts := 0
  maxAttempts := 5
  lastError := []
  metadata := []
  createdAt := 0
  updatedAt := 0
  nextRunAt := 0

/-- The diff job is completed. -/
def mixedTally : Tally :=
  heldTally.call defaultConfig 0 (.complete "diff".toList heldDiffJob)

/-- Its calls are a run. -/
theorem run_mixedTally :
    Run (Tally.Call defaultConfig) Tally.Allowed Tally.initial mixedTally := by
  have hheld : heldTally.history.held = [("diff".toList, heldDiffJob)] := by decide +kernel
  have hrun : Run (Tally.Call defaultConfig) Tally.Allowed Tally.initial heldTally := by
    refine ((Run.refl _).snoc (Tally.call_spec _ _ _ _) ⟨?_, ?_⟩).snoc
      (Tally.call_spec _ _ _ _) ⟨?_, ?_⟩ <;> simp [Op.heldJob]
  refine hrun.snoc (Tally.call_spec _ _ _ _) ⟨?_, by simp⟩
  rintro _ ⟨⟩
  rw [hheld]
  exact List.mem_singleton_self _

/-- The numbers for its own type add up. -/
theorem stats_sum_mixed :
    ∃ s, queries.run (stats "diff".toList) mixedTally.history.db = (mixedTally.history.db, some s) ∧
      s.sum = mixedTally.enqueued.countP (fun c => c.1 = "diff".toList) := by
  obtain ⟨⟨s, hstats, hsum⟩, -⟩ := stats_sum_iff (by decide) run_mixedTally "diff".toList
  exact ⟨s, hstats, hsum.mpr (by decide +kernel)⟩

/-- The other type has no job, and both statistics count one that is completed. -/
theorem stats_mixed :
    Run (Tally.Call defaultConfig) Tally.Allowed Tally.initial mixedTally ∧
      mixedTally.enqueued.countP (fun c => c.1 = "analyze".toList) = 0 ∧
      (queries.run (stats "analyze".toList) mixedTally.history.db).2 = some ⟨0, 0, 1, 0⟩ ∧
      (queries.run (statsForWorkspace "analyze".toList "w".toList) mixedTally.history.db).2 =
        .ok ⟨0, 0, 1, 0⟩ := by
  refine ⟨run_mixedTally, ?_, ?_, ?_⟩
  · decide +kernel
  · decide +kernel
  · decide +kernel

end Queue
end Veilence
