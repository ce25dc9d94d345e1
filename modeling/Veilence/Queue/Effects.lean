import Veilence.Queue.Filing

/-!
# What calls write

The record that each call writes and what it does to the counters, on any database with keyed
records: whether the containers agree with the records does not matter here.

Main results:

- Theorems {lit}`enqueue_effect`, {lit}`dequeue_effect`, {lit}`complete_effect`,
  {lit}`fail_effect`, {lit}`putBack_effect`, {lit}`recoverJob_effect` and
  {lit}`requeueDead_effect`: the written record.
- Theorems {lit}`recoverStuckJobs_touches` and {lit}`requeueAllDead_touches`: what holds of every
  written record holds of all records that a loop leaves.
-/

namespace Veilence
namespace Queue

open Go Foundation

/-! ## Written records -/

/-- The record after {lit}`Dequeue`. -/
def Job.taken (job : Job) (now : Int) : Job :=
  { job with status := .processing, updatedAt := now }

/-- The record after {lit}`Complete`. -/
def Job.finished (job : Job) (now : Int) : Job :=
  { job with status := .completed, updatedAt := now }

/-- The record after {lit}`Fail`, which reads the clock a second time for the next attempt. -/
def Job.missed (job : Job) (jobErr : GoString) (now later : Int) : Job :=
  if job.attempts + 1 ≥ job.maxAttempts then
    { job with
      attempts := job.attempts + 1
      lastError := sanitizeJobError jobErr
      updatedAt := now
      status := .dead }
  else
    { job with
      attempts := job.attempts + 1
      lastError := sanitizeJobError jobErr
      updatedAt := now
      status := .pending
      nextRunAt := later + backoff (job.attempts + 1) }

/-- The record keeps its ID. -/
theorem Job.missed_id (job : Job) (jobErr : GoString) (now later : Int) :
    (job.missed jobErr now later).id = job.id := by
  unfold Job.missed
  split_ifs <;> rfl

/-- The record after the recovery of a stuck job. -/
def Job.recovered (job : Job) (now : Int) : Job :=
  if job.attempts ≥ job.maxAttempts then
    { job with
      status := .dead
      lastError := "recovered from stuck state, max attempts exceeded".toList
      updatedAt := now }
  else { job with status := .pending, updatedAt := now }

/-- The record after {lit}`RequeueDead`. -/
def Job.revived (job : Job) (now later : Int) : Job :=
  { job with
    status := .pending
    attempts := 0
    lastError := []
    updatedAt := now
    nextRunAt := later }

/-- The stored record of a job is replaced. -/
structure Overwrites (db db' : Redis) (job job' : Job) : Prop where
  stored : db.jobs.get? job.id = some job
  id : job'.id = job.id
  jobs : db'.jobs = db.jobs.insert job.id job'

/-- The records after one of them has been replaced. -/
theorem Overwrites.get {db db' : Redis} {job job' : Job} (hwrites : Overwrites db db' job job')
    (id : GoString) : db'.jobs.get? id = if id = job.id then some job' else db.jobs.get? id := by
  rw [hwrites.jobs, Table.get?_insert]

section Effects

variable {db db' : Redis} {job : Job} {jobType id : GoString} {a : Outcome}

/-- {lit}`Enqueue` writes a new record under the next ID. -/
theorem enqueue_effect {cfg : Config} {workspaceID referenceID : GoString}
    {metadata : List (GoString × GoString)}
    (hrun : Finishes (enqueue cfg jobType workspaceID referenceID metadata) db a db') :
    ∃ job : Job, a = .id job.id ∧ job.id = itoa (db.idCounter + 1) ∧
      db'.idCounter = db.idCounter + 1 ∧ db'.jobs = db.jobs.insert job.id job ∧
      job.type = jobType ∧ job.workspaceID = workspaceID ∧ job.status = .pending ∧
      job.attempts = 0 ∧ job.maxAttempts = cfg.maxAttempts ∧
      ∀ field, field ≠ "total_enqueued".toList → db'.stats field = db.stats field := by
  rw [enqueue, finishes_send_of fun _ => rfl] at hrun
  dsimp only at hrun
  rw [finishes_clock] at hrun
  obtain ⟨now, hrun⟩ := hrun
  rw [finishes_set, finishes_lpush, finishes_hincrby, finishes_pure] at hrun
  obtain ⟨rfl, rfl⟩ := hrun
  exact ⟨_, rfl, rfl, rfl, rfl, rfl, rfl, rfl, rfl, rfl,
    fun field hfield => Function.update_of_ne hfield _ _⟩

/-- The next ID has no record when the IDs with records have been counted. -/
theorem fresh_of_numbered
    (hnumbered : ∀ id job, db.jobs.get? id = some job → ∃ n ≤ db.idCounter, itoa n = id) :
    db.jobs.get? (itoa (db.idCounter + 1)) = none := by
  cases hget : db.jobs.get? (itoa (db.idCounter + 1)) with
  | none => rfl
  | some job =>
      obtain ⟨n, hn, heq⟩ := hnumbered _ job hget
      have := itoa_injective heq
      omega

/-- {lit}`Dequeue` returns no job and writes nothing, or it returns the record that it writes. -/
theorem dequeue_effect (hkeyed : Keyed db) (hrun : Finishes (dequeue jobType) db a db') :
    db'.stats = db.stats ∧
      ((db'.jobs = db.jobs ∧ ∀ job, a ≠ .job (some job)) ∨
        ∃ job now, a = .job (some (job.taken now)) ∧ Overwrites db db' job (job.taken now)) := by
  rw [dequeue, finishes_send] at hrun
  obtain ⟨now, hrun⟩ := hrun
  have hjobs : (db.run now (.lmove (.pending jobType) (.temp jobType))).1.jobs = db.jobs := by
    simp only [Redis.run]
    split <;> rfl
  have hstats : (db.run now (.lmove (.pending jobType) (.temp jobType))).1.stats = db.stats := by
    simp only [Redis.run]
    split <;> rfl
  generalize (db.run now (.lmove (.pending jobType) (.temp jobType))).1 = mid at hrun hjobs hstats
  generalize (db.run now (.lmove (.pending jobType) (.temp jobType))).2 = moved at hrun
  cases moved with
  | none =>
      obtain ⟨rfl, rfl⟩ := finishes_pure.mp hrun
      exact ⟨hstats, Or.inl ⟨hjobs, by simp⟩⟩
  | some id =>
      dsimp only at hrun
      rw [finishes_send_of fun _ => rfl, finishes_loadJob] at hrun
      simp only [jobs_setList, hjobs] at hrun
      cases hstored : db.jobs.get? id with
      | none =>
          rw [hstored] at hrun
          obtain ⟨rfl, rfl⟩ := finishes_pure.mp hrun
          exact ⟨hstats, Or.inl ⟨hjobs, by simp⟩⟩
      | some job =>
          obtain rfl : job.id = id := hkeyed id job hstored
          rw [hstored] at hrun
          dsimp only at hrun
          rw [finishes_clock] at hrun
          obtain ⟨later, hrun⟩ := hrun
          rw [finishes_saveJob, finishes_zadd, finishes_pure] at hrun
          obtain ⟨rfl, rfl⟩ := hrun
          refine ⟨hstats, Or.inr ⟨job, later, rfl, hstored, rfl, ?_⟩⟩
          rw [← hjobs]
          rfl

/-- {lit}`Complete` counts the job twice. -/
theorem complete_effect (hrun : Finishes (complete job) db a db') :
    ∃ now, db'.jobs = db.jobs.insert job.id (job.finished now) ∧
      db'.stats "total_completed".toList = db.stats "total_completed".toList + 1 ∧
      ∀ workspaceID, db'.stats ("completed:".toList ++ workspaceID) =
        db.stats ("completed:".toList ++ workspaceID) +
          if workspaceID = job.workspaceID then 1 else 0 := by
  rw [complete, finishes_clock] at hrun
  obtain ⟨now, hrun⟩ := hrun
  rw [finishes_set, finishes_zrem, finishes_hincrby, finishes_hincrby, finishes_pure] at hrun
  obtain ⟨-, rfl⟩ := hrun
  have htotal : ∀ workspaceID, "completed:".toList ++ workspaceID ≠ "total_completed".toList := by
    intro workspaceID heq
    cases heq
  refine ⟨now, rfl, ?_, ?_⟩
  · simp only [Redis.setZset]
    rw [Function.update_of_ne (Ne.symm (htotal _)), Function.update_self]
  · intro workspaceID
    simp only [Redis.setZset]
    split_ifs with hown
    · rw [hown, Function.update_self, Function.update_of_ne (htotal _)]
    · rw [Function.update_of_ne (by simpa using hown), Function.update_of_ne (htotal _), Int.add_zero]

/-- {lit}`Fail` writes one record and counts no completed job. -/
theorem fail_effect {jobErr : GoString} (hrun : Finishes (fail job jobErr) db a db') :
    ∃ now later, db'.jobs = db.jobs.insert job.id (job.missed jobErr now later) ∧
      ∀ field, field ≠ "total_dead".toList → db'.stats field = db.stats field := by
  rw [fail, finishes_clock] at hrun
  obtain ⟨now, hrun⟩ := hrun
  rw [finishes_zrem] at hrun
  dsimp only at hrun
  split_ifs at hrun with hdead
  · rw [finishes_saveJob, finishes_zadd, finishes_hincrby, finishes_pure] at hrun
    obtain ⟨-, rfl⟩ := hrun
    refine ⟨now, now, ?_, fun field hfield => Function.update_of_ne hfield _ _⟩
    rw [Job.missed, if_pos hdead]
    rfl
  · rw [finishes_clock] at hrun
    obtain ⟨later, hrun⟩ := hrun
    rw [finishes_saveJob, finishes_lpush, finishes_pure] at hrun
    obtain ⟨-, rfl⟩ := hrun
    refine ⟨now, later, ?_, fun _ _ => rfl⟩
    rw [Job.missed, if_neg hdead]
    rfl

/-- The put-back writes one record. -/
theorem putBack_effect (hrun : Finishes (putBack jobType job) db a db') :
    db'.jobs = db.jobs.insert job.id { job with status := .pending } ∧ db'.stats = db.stats := by
  rw [putBack, finishes_saveJob, finishes_lpush, finishes_zrem, finishes_pure] at hrun
  obtain ⟨-, rfl⟩ := hrun
  exact ⟨rfl, rfl⟩

/-- A turn of {lit}`RecoverStuckJobs` writes the record of the job, if there is one. -/
theorem recoverJob_effect (hkeyed : Keyed db) {b : Bool}
    (hrun : Finishes (recoverJob jobType id) db b db') :
    db'.stats = db.stats ∧
      (db'.jobs = db.jobs ∨ ∃ job now, Overwrites db db' job (job.recovered now)) := by
  rw [recoverJob, finishes_loadJob] at hrun
  cases hstored : db.jobs.get? id with
  | none =>
      rw [hstored] at hrun
      obtain ⟨-, rfl⟩ := finishes_pure.mp hrun
      exact ⟨rfl, Or.inl rfl⟩
  | some job =>
      obtain rfl : job.id = id := hkeyed id job hstored
      rw [hstored] at hrun
      dsimp only at hrun
      rw [finishes_zrem, finishes_clock] at hrun
      obtain ⟨now, hrun⟩ := hrun
      split_ifs at hrun with hdead
      · rw [finishes_saveJob, finishes_zadd, finishes_pure] at hrun
        obtain ⟨-, rfl⟩ := hrun
        refine ⟨rfl, Or.inr ⟨job, now, ?_⟩⟩
        rw [Job.recovered, if_pos hdead]
        exact ⟨hstored, rfl, rfl⟩
      · rw [finishes_saveJob, finishes_lpush, finishes_pure] at hrun
        obtain ⟨-, rfl⟩ := hrun
        refine ⟨rfl, Or.inr ⟨job, now, ?_⟩⟩
        rw [Job.recovered, if_neg hdead]
        exact ⟨hstored, rfl, rfl⟩

/-- {lit}`RequeueDead` writes the record of a dead job. -/
theorem requeueDead_effect (hkeyed : Keyed db)
    (hrun : Finishes (requeueDead jobType id) db a db') :
    db'.stats = db.stats ∧
      (db'.jobs = db.jobs ∨
        ∃ job now later, job.status = .dead ∧ Overwrites db db' job (job.revived now later)) := by
  rw [requeueDead, finishes_loadJob] at hrun
  cases hstored : db.jobs.get? id with
  | none =>
      rw [hstored] at hrun
      obtain ⟨-, rfl⟩ := finishes_pure.mp hrun
      exact ⟨rfl, Or.inl rfl⟩
  | some job =>
      obtain rfl : job.id = id := hkeyed id job hstored
      rw [hstored] at hrun
      dsimp only at hrun
      split_ifs at hrun with halive
      · obtain ⟨-, rfl⟩ := finishes_pure.mp hrun
        exact ⟨rfl, Or.inl rfl⟩
      · rw [finishes_clock] at hrun
        obtain ⟨now, hrun⟩ := hrun
        rw [finishes_clock] at hrun
        obtain ⟨later, hrun⟩ := hrun
        rw [finishes_saveJob, finishes_zrem, finishes_lpush, finishes_pure] at hrun
        obtain ⟨-, rfl⟩ := hrun
        exact ⟨rfl, Or.inr ⟨job, now, later, not_not.mp halive, hstored, rfl, rfl⟩⟩

/-- Replacing a record keeps the records under their own IDs. -/
theorem Overwrites.keyed {job' : Job} (hwrites : Overwrites db db' job job') (hkeyed : Keyed db) :
    Keyed db' := by
  intro id stored hget
  rw [hwrites.get] at hget
  split_ifs at hget with hid
  · rw [← Option.some.inj hget, hwrites.id, hid]
  · exact hkeyed id stored hget

/-- Unchanged records are under their own IDs. -/
theorem keyed_of_jobs_eq (hkeyed : Keyed db) (hjobs : db'.jobs = db.jobs) : Keyed db' := by
  intro id stored hget
  rw [hjobs] at hget
  exact hkeyed id stored hget

end Effects

/-! ## Loops -/

section Loops

variable {db db' : Redis} {jobType : GoString} {ids : List GoString} {n : Nat} {a : Outcome}
  {R : Redis → Redis → Prop}

/-- What every recovery of a job does to the records, {lit}`RecoverStuckJobs` does. -/
theorem recoverStuckJobs_touches {cfg : Config}
    (htrans : ∀ first second third, R first second → R second third → R first third)
    (hsame : ∀ db db', db'.jobs = db.jobs → db'.stats = db.stats → R db db')
    (hstep : ∀ db db' job now, Overwrites db db' job (job.recovered now) → db'.stats = db.stats →
      R db db') (hkeyed : Keyed db)
    (hrun : Finishes (recoverStuckJobs cfg jobType) db a db') : R db db' := by
  have hloop : ∀ {ids : List GoString} {db : Redis} {n : Nat}, Keyed db →
      Finishes (recoverLoop jobType n ids) db a db' → R db db' := by
    intro ids
    induction ids with
    | nil =>
        intro db n _ hrun
        obtain ⟨-, rfl⟩ := finishes_pure.mp hrun
        exact hsame _ _ rfl rfl
    | cons id ids ih =>
        intro db n hkeyed hrun
        rw [recoverLoop, finishes_bind] at hrun
        obtain ⟨recovered, mid, hfirst, hsecond⟩ := hrun
        have hrest : ∃ n, Finishes (recoverLoop jobType n ids) mid a db' := by
          cases recovered with
          | false => exact ⟨_, hsecond⟩
          | true => exact ⟨_, hsecond⟩
        obtain ⟨n', hrest⟩ := hrest
        obtain ⟨hstats, hjobs | ⟨job, now, hwrites⟩⟩ := recoverJob_effect hkeyed hfirst
        · exact htrans _ mid _ (hsame _ _ hjobs hstats) (ih (keyed_of_jobs_eq hkeyed hjobs) hrest)
        · exact htrans _ mid _ (hstep _ _ job now hwrites hstats) (ih (hwrites.keyed hkeyed) hrest)
  rw [recoverStuckJobs, finishes_clock] at hrun
  obtain ⟨now, hrun⟩ := hrun
  rw [finishes_send_of fun _ => rfl] at hrun
  exact hloop hkeyed hrun

/-- What every requeueing of a dead job does to the records, {lit}`RequeueAllDead` does. -/
theorem requeueAllDead_touches
    (htrans : ∀ first second third, R first second → R second third → R first third)
    (hsame : ∀ db db', db'.jobs = db.jobs → db'.stats = db.stats → R db db')
    (hstep : ∀ db db' job now later, job.status = .dead →
      Overwrites db db' job (job.revived now later) → db'.stats = db.stats → R db db')
    (hkeyed : Keyed db) (hrun : Finishes (requeueAllDead jobType) db a db') : R db db' := by
  have hloop : ∀ {ids : List GoString} {db : Redis} {n : Nat}, Keyed db →
      Finishes (requeueLoop jobType n ids) db a db' → R db db' := by
    intro ids
    induction ids with
    | nil =>
        intro db n _ hrun
        obtain ⟨-, rfl⟩ := finishes_pure.mp hrun
        exact hsame _ _ rfl rfl
    | cons id ids ih =>
        intro db n hkeyed hrun
        rw [requeueLoop, finishes_bind] at hrun
        obtain ⟨result, mid, hfirst, hsecond⟩ := hrun
        have hrest : ∃ n, Finishes (requeueLoop jobType n ids) mid a db' := by
          cases result with
          | failed => exact ⟨_, hsecond⟩
          | _ => exact ⟨_, hsecond⟩
        obtain ⟨n', hrest⟩ := hrest
        obtain ⟨hstats, hjobs | ⟨job, now, later, hdead, hwrites⟩⟩ :=
          requeueDead_effect hkeyed hfirst
        · exact htrans _ mid _ (hsame _ _ hjobs hstats) (ih (keyed_of_jobs_eq hkeyed hjobs) hrest)
        · exact htrans _ mid _ (hstep _ _ job now later hdead hwrites hstats)
            (ih (hwrites.keyed hkeyed) hrest)
  rw [requeueAllDead, finishes_send_of fun _ => rfl] at hrun
  exact hloop hkeyed hrun

end Loops

end Queue
end Veilence
