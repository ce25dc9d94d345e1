import Veilence.Queue.Calls

/-!
# Calls that run alone

A call that nothing interrupts and in which no command fails, on a database in which every
job is filed where its status says: in the pending list, the processing set or the dead set
of its own type, once, and in no other container.

Main results:

- Theorem {lit}`Filed.refile`: a job that is written with a new status and moved to the
  container of this status is filed again.
- Theorems {lit}`filed_enqueue`, {lit}`filed_dequeue`, {lit}`filed_complete`, {lit}`filed_fail`,
  {lit}`filed_putBack`, {lit}`filed_recoverStuckJobs`, {lit}`filed_requeueDead` and
  {lit}`filed_requeueAllDead`: what each call does to the records, and that it files its jobs.
-/

namespace Veilence
namespace Queue

open Go Foundation

/-! ## Uninterrupted calls -/

/-- A call runs to its end with nothing in between and without errors.  The clock may say
anything. -/
inductive Finishes {α : Type} : Body α → Redis → α → Redis → Prop where
  | ret (a : α) (db : Redis) : Finishes (.ret a) db a db
  | cmd {c : Command} {k : Option (Reply c) → Body α} {db db' : Redis} {a : α} (now : Int)
      (hrest : Finishes (k (some (db.run now c).2)) (db.run now c).1 a db') :
      Finishes (.cmd c k) db a db'

section Finishing

variable {α β : Type} {a : α} {db db' : Redis}

@[simp]
theorem finishes_pure {b : α} : Finishes (pure b) db a db' ↔ a = b ∧ db' = db := by
  constructor
  · rintro ⟨⟩
    exact ⟨rfl, rfl⟩
  · rintro ⟨rfl, rfl⟩
    exact .ret _ _

theorem finishes_send {c : Command} {f : Option (Reply c) → Body α} :
    Finishes (send c >>= f) db a db' ↔
      ∃ now, Finishes (f (some (db.run now c).2)) (db.run now c).1 a db' := by
  constructor
  · rintro ⟨⟩
    exact ⟨_, ‹_›⟩
  · rintro ⟨now, hrest⟩
    exact .cmd now hrest

theorem finishes_bind {p : Body β} {f : β → Body α} :
    Finishes (p >>= f) db a db' ↔ ∃ b mid, Finishes p db b mid ∧ Finishes (f b) mid a db' := by
  constructor
  · intro hrun
    induction p generalizing db with
    | ret b => exact ⟨b, db, .ret b db, hrun⟩
    | cmd c k ih =>
        rw [Prog.cmd_bind] at hrun
        obtain ⟨now, hrest⟩ := finishes_send.mp hrun
        obtain ⟨b, mid, hfirst, hsecond⟩ := ih _ hrest
        exact ⟨b, mid, .cmd now hfirst, hsecond⟩
  · rintro ⟨b, mid, hfirst, hsecond⟩
    induction hfirst with
    | ret b db => exact hsecond
    | cmd now _ ih => exact .cmd now (ih hsecond)

theorem finishes_clock {f : Int → Body α} :
    Finishes (clock >>= f) db a db' ↔ ∃ now, Finishes (f now) db a db' :=
  finishes_send

/-- A command whose effect does not depend on the clock. -/
theorem finishes_send_of {c : Command} {mid : Redis} {r : Reply c}
    (hc : ∀ now, db.run now c = (mid, r)) {f : Option (Reply c) → Body α} :
    Finishes (send c >>= f) db a db' ↔ Finishes (f (some r)) mid a db' := by
  rw [finishes_send]
  constructor
  · rintro ⟨now, hrest⟩
    rwa [hc] at hrest
  · intro hrest
    refine ⟨0, ?_⟩
    rwa [hc]

theorem finishes_set {job : Job} {ttl : Nat} {f : Option Unit → Body α} :
    Finishes (send (.set job ttl) >>= f) db a db' ↔
      Finishes (f (some ())) { db with jobs := db.jobs.insert job.id job } a db' :=
  finishes_send_of fun _ => rfl

theorem finishes_lpush {key : LKey} {id : GoString} {f : Option Unit → Body α} :
    Finishes (send (.lpush key id) >>= f) db a db' ↔
      Finishes (f (some ())) (db.setList key (id :: db.lists key)) a db' :=
  finishes_send_of fun _ => rfl

theorem finishes_zadd {key : ZKey} {score : Int} {id : GoString} {f : Option Unit → Body α} :
    Finishes (send (.zadd key score id) >>= f) db a db' ↔
      Finishes (f (some ())) (db.setZset key ((db.zsets key).insert id score)) a db' :=
  finishes_send_of fun _ => rfl

theorem finishes_zrem {key : ZKey} {id : GoString} {f : Option Unit → Body α} :
    Finishes (send (.zrem key id) >>= f) db a db' ↔
      Finishes (f (some ())) (db.setZset key ((db.zsets key).erase id)) a db' :=
  finishes_send_of fun _ => rfl

theorem finishes_hincrby {field : GoString} {n : Int} {f : Option Unit → Body α} :
    Finishes (send (.hincrby field n) >>= f) db a db' ↔
      Finishes (f (some ()))
        { db with stats := Function.update db.stats field (db.stats field + n) } a db' :=
  finishes_send_of fun _ => rfl

theorem finishes_saveJob {job : Job} {f : Bool → Body α} :
    Finishes (saveJob job >>= f) db a db' ↔
      Finishes (f true) { db with jobs := db.jobs.insert job.id job } a db' := by
  constructor
  · rintro ⟨⟩
    assumption
  · exact fun hrest => .cmd 0 hrest

theorem finishes_loadJob {id : GoString} {f : Option Job → Body α} :
    Finishes (loadJob id >>= f) db a db' ↔ Finishes (f (db.jobs.get? id)) db a db' := by
  cases hget : db.jobs.get? id with
  | none =>
      constructor
      · intro hrun
        cases hrun with
        | cmd now hrest =>
            simp only [Redis.run, hget] at hrest
            exact hrest
      · intro hrest
        refine .cmd 0 ?_
        simp only [Redis.run, hget]
        exact hrest
  | some job =>
      constructor
      · intro hrun
        cases hrun with
        | cmd now hrest =>
            simp only [Redis.run, hget] at hrest
            exact hrest
      · intro hrest
        refine .cmd 0 ?_
        simp only [Redis.run, hget]
        exact hrest

end Finishing

/-! ## Filed jobs -/

/-- There is a record of the job with the type and the status. -/
def HasStatus (db : Redis) (type id : GoString) (status : JobStatus) : Prop :=
  ∃ job, db.jobs.get? id = some job ∧ job.type = type ∧ job.status = status

/-- Every job is where its status says and nowhere else. -/
structure Filed (db : Redis) : Prop where
  keyed : Keyed db
  numbered : ∀ id job, db.jobs.get? id = some job → ∃ n ≤ db.idCounter, itoa n = id
  nodup : ∀ type, (db.lists (.pending type)).Nodup
  pending : ∀ type id, id ∈ db.lists (.pending type) ↔ HasStatus db type id .pending
  processing : ∀ type id, id ∈ (db.zsets (.processing type)).keys ↔
    HasStatus db type id .processing
  dead : ∀ type id, id ∈ (db.zsets (.dead type)).keys ↔ HasStatus db type id .dead

/-- The empty database has no jobs. -/
theorem filed_empty : Filed Redis.empty where
  keyed := by
    intro id job hget
    simp [Redis.empty] at hget
  numbered := by simp [Redis.empty]
  nodup := by simp [Redis.empty]
  pending := by simp [Redis.empty, HasStatus]
  processing := by simp [Redis.empty, HasStatus, Table.keys, Table.empty, Table.get?]
  dead := by simp [Redis.empty, HasStatus, Table.keys, Table.empty, Table.get?]

/-- The record of one job is replaced. -/
structure Rewrites (db db' : Redis) (job job' : Job) : Prop where
  stored : db.jobs.get? job.id = some job
  id : job'.id = job.id
  type : job'.type = job.type
  get : ∀ id, db'.jobs.get? id = if id = job.id then some job' else db.jobs.get? id
  counter : db'.idCounter = db.idCounter

/-! ## Keys -/

section Keys

variable (db : Redis)

@[simp]
theorem lists_setList (key key' : LKey) (ids : List GoString) :
    (db.setList key ids).lists key' = if key' = key then ids else db.lists key' := by
  simp [Redis.setList, Function.update_apply]

@[simp]
theorem zsets_setList (key : LKey) (ids : List GoString) : (db.setList key ids).zsets = db.zsets :=
  rfl

@[simp]
theorem jobs_setList (key : LKey) (ids : List GoString) : (db.setList key ids).jobs = db.jobs :=
  rfl

@[simp]
theorem idCounter_setList (key : LKey) (ids : List GoString) :
    (db.setList key ids).idCounter = db.idCounter :=
  rfl

@[simp]
theorem zsets_setZset (key key' : ZKey) (members : Table GoString Int) :
    (db.setZset key members).zsets key' = if key' = key then members else db.zsets key' := by
  simp [Redis.setZset, Function.update_apply]

@[simp]
theorem lists_setZset (key : ZKey) (members : Table GoString Int) :
    (db.setZset key members).lists = db.lists :=
  rfl

@[simp]
theorem jobs_setZset (key : ZKey) (members : Table GoString Int) :
    (db.setZset key members).jobs = db.jobs :=
  rfl

@[simp]
theorem idCounter_setZset (key : ZKey) (members : Table GoString Int) :
    (db.setZset key members).idCounter = db.idCounter :=
  rfl

/-- Adding an ID to a sorted set. -/
theorem mem_keys_setZset_insert {key key' : ZKey} {id x : GoString} {score : Int} :
    id ∈ ((db.setZset key ((db.zsets key).insert x score)).zsets key').keys ↔
      (key' = key ∧ id = x) ∨ id ∈ (db.zsets key').keys := by
  rw [zsets_setZset]
  split_ifs with hkey
  · subst hkey
    simp
  · simp [hkey]

/-- Removing an ID from a sorted set. -/
theorem mem_keys_setZset_erase {key key' : ZKey} {id x : GoString} :
    id ∈ ((db.setZset key ((db.zsets key).erase x)).zsets key').keys ↔
      ¬(key' = key ∧ id = x) ∧ id ∈ (db.zsets key').keys := by
  rw [zsets_setZset]
  split_ifs with hkey
  · subst hkey
    simp
  · simp [hkey]

end Keys

section Filing

variable {db db' : Redis} {job job' : Job} {status : JobStatus} {type id : GoString}

/-- The status of a job with a record. -/
theorem hasStatus_iff (hstored : db.jobs.get? id = some job) :
    HasStatus db type id status ↔ job.type = type ∧ job.status = status := by
  constructor
  · rintro ⟨job', hget, htype, hstatus⟩
    rw [hstored] at hget
    obtain rfl := Option.some.inj hget
    exact ⟨htype, hstatus⟩
  · rintro ⟨htype, hstatus⟩
    exact ⟨job, hstored, htype, hstatus⟩

/-- A record that is written over the stored one. -/
theorem rewrites_of_insert (hstored : db.jobs.get? job.id = some job) (hid : job'.id = job.id)
    (htype : job'.type = job.type) (hjobs : db'.jobs = db.jobs.insert job.id job')
    (hcounter : db'.idCounter = db.idCounter) : Rewrites db db' job job' where
  stored := hstored
  id := hid
  type := htype
  get := fun id => by rw [hjobs, Table.get?_insert]
  counter := hcounter

/-- The status of a job after a record has been replaced. -/
theorem Rewrites.hasStatus (hrewrites : Rewrites db db' job job') :
    HasStatus db' type id status ↔
      if id = job.id then job.type = type ∧ job'.status = status
      else HasStatus db type id status := by
  split_ifs with hid
  · rw [hasStatus_iff (by rw [hrewrites.get, if_pos hid]), hrewrites.type]
  · simp only [HasStatus, hrewrites.get, if_neg hid]

/-- A job whose record is written with a new status is filed again when it is in the
container of the new status only and the others are where they were. -/
theorem Filed.refile (hdb : Filed db) (hrewrites : Rewrites db db' job job')
    (hnodup : ∀ type, (db'.lists (.pending type)).Nodup)
    (hpending : ∀ type id, id ∈ db'.lists (.pending type) ↔
      if id = job.id then job.type = type ∧ job'.status = .pending
      else id ∈ db.lists (.pending type))
    (hprocessing : ∀ type id, id ∈ (db'.zsets (.processing type)).keys ↔
      if id = job.id then job.type = type ∧ job'.status = .processing
      else id ∈ (db.zsets (.processing type)).keys)
    (hdead : ∀ type id, id ∈ (db'.zsets (.dead type)).keys ↔
      if id = job.id then job.type = type ∧ job'.status = .dead
      else id ∈ (db.zsets (.dead type)).keys) :
    Filed db' where
  keyed := by
    intro id stored hget
    rw [hrewrites.get] at hget
    split_ifs at hget with hid
    · rw [← Option.some.inj hget, hrewrites.id, hid]
    · exact hdb.keyed id stored hget
  numbered := by
    intro id stored hget
    rw [hrewrites.counter]
    rw [hrewrites.get] at hget
    split_ifs at hget with hid
    · exact hdb.numbered id job (by rw [hid]; exact hrewrites.stored)
    · exact hdb.numbered id stored hget
  nodup := hnodup
  pending := fun type id => by rw [hpending, hrewrites.hasStatus, hdb.pending]
  processing := fun type id => by rw [hprocessing, hrewrites.hasStatus, hdb.processing]
  dead := fun type id => by rw [hdead, hrewrites.hasStatus, hdb.dead]

/-- A job is pending exactly when its status says so. -/
theorem Filed.pending_iff (hdb : Filed db) (hstored : db.jobs.get? id = some job) :
    id ∈ db.lists (.pending type) ↔ job.type = type ∧ job.status = .pending := by
  rw [hdb.pending, hasStatus_iff hstored]

theorem Filed.processing_iff (hdb : Filed db) (hstored : db.jobs.get? id = some job) :
    id ∈ (db.zsets (.processing type)).keys ↔ job.type = type ∧ job.status = .processing := by
  rw [hdb.processing, hasStatus_iff hstored]

theorem Filed.dead_iff (hdb : Filed db) (hstored : db.jobs.get? id = some job) :
    id ∈ (db.zsets (.dead type)).keys ↔ job.type = type ∧ job.status = .dead := by
  rw [hdb.dead, hasStatus_iff hstored]

/-- A job is in the processing set of its own type only. -/
theorem Filed.erase_processing (hdb : Filed db) (hstored : db.jobs.get? job.id = some job) :
    (¬(type = job.type ∧ id = job.id) ∧ id ∈ (db.zsets (.processing type)).keys) ↔
      id ≠ job.id ∧ id ∈ (db.zsets (.processing type)).keys := by
  by_cases hid : id = job.id
  · refine iff_of_false (fun herased => ?_) fun hother => hother.1 hid
    have hfiled := herased.2
    rw [hid, hdb.processing_iff hstored] at hfiled
    exact herased.1 ⟨hfiled.1.symm, hid⟩
  · simp [hid]

theorem Filed.erase_dead (hdb : Filed db) (hstored : db.jobs.get? job.id = some job) :
    (¬(type = job.type ∧ id = job.id) ∧ id ∈ (db.zsets (.dead type)).keys) ↔
      id ≠ job.id ∧ id ∈ (db.zsets (.dead type)).keys := by
  by_cases hid : id = job.id
  · refine iff_of_false (fun herased => ?_) fun hother => hother.1 hid
    have hfiled := herased.2
    rw [hid, hdb.dead_iff hstored] at hfiled
    exact herased.1 ⟨hfiled.1.symm, hid⟩
  · simp [hid]

/-- A job with another status is not in a processing set. -/
theorem Filed.not_processing (hdb : Filed db) (hstored : db.jobs.get? job.id = some job)
    (hstatus : job.status ≠ .processing) :
    id ∈ (db.zsets (.processing type)).keys ↔
      id ≠ job.id ∧ id ∈ (db.zsets (.processing type)).keys := by
  by_cases hid : id = job.id
  · subst hid
    simp [hdb.processing_iff hstored, hstatus]
  · simp [hid]

theorem Filed.not_dead (hdb : Filed db) (hstored : db.jobs.get? job.id = some job)
    (hstatus : job.status ≠ .dead) :
    id ∈ (db.zsets (.dead type)).keys ↔ id ≠ job.id ∧ id ∈ (db.zsets (.dead type)).keys := by
  by_cases hid : id = job.id
  · subst hid
    simp [hdb.dead_iff hstored, hstatus]
  · simp [hid]

/-- A job that leaves the sorted sets and is pushed to the pending list of its type is filed
as pending. -/
theorem Filed.push (hdb : Filed db) (hrewrites : Rewrites db db' job job')
    (hold : job.status ≠ .pending) (hnew : job'.status = .pending)
    (hlists : ∀ type, db'.lists (.pending type) =
      if LKey.pending type = .pending job.type then job.id :: db.lists (.pending job.type)
      else db.lists (.pending type))
    (hprocessing : ∀ type id, id ∈ (db'.zsets (.processing type)).keys ↔
      id ≠ job.id ∧ id ∈ (db.zsets (.processing type)).keys)
    (hdead : ∀ type id, id ∈ (db'.zsets (.dead type)).keys ↔
      id ≠ job.id ∧ id ∈ (db.zsets (.dead type)).keys) : Filed db' := by
  have hstored := hrewrites.stored
  apply hdb.refile hrewrites
  · intro type
    rw [hlists]
    split_ifs with htype
    · refine List.nodup_cons.mpr ⟨?_, hdb.nodup job.type⟩
      simp [hdb.pending_iff hstored, hold]
    · exact hdb.nodup type
  · intro type id
    rw [hlists]
    by_cases htype : type = job.type
    · subst htype
      by_cases hid : id = job.id
      · simp [hid, hnew]
      · simp [hid]
    · have hne : LKey.pending type ≠ .pending job.type := by simp [htype]
      rw [if_neg hne]
      split_ifs with hid
      · subst hid
        simp [hdb.pending_iff hstored, hold, hnew, Ne.symm htype]
      · rfl
  · intro type id
    rw [hprocessing]
    split_ifs with hid
    · simp [hid, hnew]
    · simp [hid]
  · intro type id
    rw [hdead]
    split_ifs with hid
    · simp [hid, hnew]
    · simp [hid]

/-! ## The calls -/

/-- {lit}`Complete` takes a processing job out of the containers. -/
theorem filed_complete (hdb : Filed db) (hstored : db.jobs.get? job.id = some job)
    (hstatus : job.status = .processing) {a : Outcome} (hrun : Finishes (complete job) db a db') :
    ∃ job', Rewrites db db' job job' ∧ job'.status = .completed ∧
      job'.maxAttempts = job.maxAttempts ∧ Filed db' := by
  rw [complete, finishes_clock] at hrun
  obtain ⟨now, hrun⟩ := hrun
  rw [finishes_set, finishes_zrem, finishes_hincrby, finishes_hincrby, finishes_pure] at hrun
  obtain ⟨-, hdb'⟩ := hrun
  have hrewrites : Rewrites db db' job { job with status := .completed, updatedAt := now } :=
    rewrites_of_insert hstored rfl rfl (by rw [hdb']; rfl) (by rw [hdb']; rfl)
  subst hdb'
  refine ⟨_, hrewrites, rfl, rfl, hdb.refile hrewrites hdb.nodup ?_ ?_ ?_⟩
  · intro type id
    split_ifs with hid
    · subst hid
      simp [hdb.pending_iff hstored, hstatus]
    · rfl
  · intro type id
    simp only [mem_keys_setZset_erase]
    split_ifs with hid
    · subst hid
      simp [hdb.processing_iff hstored, hstatus, eq_comm]
    · simp [hid]
  · intro type id
    split_ifs with hid
    · subst hid
      simp [hdb.dead_iff hstored, hstatus]
    · simp

/-- {lit}`Fail` counts the attempt and files the job as dead when there are enough. -/
theorem filed_fail (hdb : Filed db) (hstored : db.jobs.get? job.id = some job)
    (hstatus : job.status = .processing) {jobErr : GoString} {a : Outcome}
    (hrun : Finishes (fail job jobErr) db a db') :
    ∃ job', Rewrites db db' job job' ∧ job'.attempts = job.attempts + 1 ∧
      job'.maxAttempts = job.maxAttempts ∧
      job'.status = (if job.attempts + 1 ≥ job.maxAttempts then .dead else .pending) ∧
      Filed db' := by
  rw [fail, finishes_clock] at hrun
  obtain ⟨now, hrun⟩ := hrun
  rw [finishes_zrem] at hrun
  dsimp only at hrun
  split_ifs at hrun with hdead
  · rw [finishes_saveJob, finishes_zadd, finishes_hincrby, finishes_pure] at hrun
    obtain ⟨-, hdb'⟩ := hrun
    refine ⟨{ job with
      attempts := job.attempts + 1
      lastError := sanitizeJobError jobErr
      updatedAt := now
      status := .dead }, ?_⟩
    have hrewrites : Rewrites db db' job { job with
        attempts := job.attempts + 1
        lastError := sanitizeJobError jobErr
        updatedAt := now
        status := .dead } :=
      rewrites_of_insert hstored rfl rfl (by rw [hdb']; rfl) (by rw [hdb']; rfl)
    subst hdb'
    refine ⟨hrewrites, rfl, rfl, (if_pos hdead).symm, hdb.refile hrewrites hdb.nodup ?_ ?_ ?_⟩
    · intro type id
      split_ifs with hid
      · subst hid
        simp [hdb.pending_iff hstored, hstatus]
      · rfl
    · intro type id
      simp only [mem_keys_setZset_insert, mem_keys_setZset_erase]
      split_ifs with hid
      · subst hid
        simp [hdb.processing_iff hstored, hstatus, eq_comm]
      · simp [hid]
    · intro type id
      simp only [mem_keys_setZset_insert, mem_keys_setZset_erase]
      split_ifs with hid
      · subst hid
        simp [hdb.dead_iff hstored, hstatus, eq_comm]
      · simp [hid]
  · rw [finishes_clock] at hrun
    obtain ⟨later, hrun⟩ := hrun
    rw [finishes_saveJob, finishes_lpush, finishes_pure] at hrun
    obtain ⟨-, hdb'⟩ := hrun
    refine ⟨{ job with
      attempts := job.attempts + 1
      lastError := sanitizeJobError jobErr
      updatedAt := now
      status := .pending
      nextRunAt := later + backoff (job.attempts + 1) }, ?_⟩
    have hrewrites : Rewrites db db' job { job with
        attempts := job.attempts + 1
        lastError := sanitizeJobError jobErr
        updatedAt := now
        status := .pending
        nextRunAt := later + backoff (job.attempts + 1) } :=
      rewrites_of_insert hstored rfl rfl (by rw [hdb']; rfl) (by rw [hdb']; rfl)
    subst hdb'
    refine ⟨hrewrites, rfl, rfl, (if_neg hdead).symm, hdb.push hrewrites ?_ rfl ?_ ?_ ?_⟩
    · simp [hstatus]
    · exact fun type => lists_setList _ _ _ _
    · intro type id
      simp only [zsets_setList, mem_keys_setZset_erase]
      rw [← hdb.erase_processing hstored]
      simp
    · intro type id
      simp only [zsets_setList, mem_keys_setZset_erase]
      rw [hdb.not_dead hstored (by simp [hstatus])]
      simp

/-- The put-back files the job as pending. -/
theorem filed_putBack (hdb : Filed db) (hstored : db.jobs.get? job.id = some job)
    (hstatus : job.status = .processing) {a : Outcome}
    (hrun : Finishes (putBack job.type job) db a db') :
    ∃ job', Rewrites db db' job job' ∧ job'.attempts = job.attempts ∧
      job'.maxAttempts = job.maxAttempts ∧ job'.status = .pending ∧ Filed db' := by
  rw [putBack, finishes_saveJob, finishes_lpush, finishes_zrem, finishes_pure] at hrun
  obtain ⟨-, hdb'⟩ := hrun
  have hrewrites : Rewrites db db' job { job with status := .pending } :=
    rewrites_of_insert hstored rfl rfl (by rw [hdb']; rfl) (by rw [hdb']; rfl)
  subst hdb'
  refine ⟨_, hrewrites, rfl, rfl, rfl, hdb.push hrewrites ?_ rfl ?_ ?_ ?_⟩
  · simp [hstatus]
  · exact fun type => lists_setList _ _ _ _
  · intro type id
    rw [mem_keys_setZset_erase]
    simp only [zsets_setList]
    rw [← hdb.erase_processing hstored]
    simp
  · intro type id
    rw [mem_keys_setZset_erase]
    simp only [zsets_setList]
    rw [hdb.not_dead hstored (by simp [hstatus])]
    simp

/-- The recovery of a job with attempts left files it as pending. -/
theorem filed_recoverJob (hdb : Filed db) (hstored : db.jobs.get? job.id = some job)
    (hstatus : job.status = .processing) (hattempts : job.attempts < job.maxAttempts) {b : Bool}
    (hrun : Finishes (recoverJob job.type job.id) db b db') :
    b = true ∧ ∃ job', Rewrites db db' job job' ∧ job'.attempts = job.attempts ∧
      job'.maxAttempts = job.maxAttempts ∧ job'.status = .pending ∧ Filed db' := by
  rw [recoverJob, finishes_loadJob, hstored] at hrun
  dsimp only at hrun
  rw [finishes_zrem, finishes_clock] at hrun
  obtain ⟨now, hrun⟩ := hrun
  rw [if_neg (Nat.not_le.mpr hattempts), finishes_saveJob, finishes_lpush, finishes_pure] at hrun
  obtain ⟨hb, hdb'⟩ := hrun
  have hrewrites : Rewrites db db' job { job with status := .pending, updatedAt := now } :=
    rewrites_of_insert hstored rfl rfl (by rw [hdb']; rfl) (by rw [hdb']; rfl)
  subst hdb'
  refine ⟨hb, _, hrewrites, rfl, rfl, rfl, hdb.push hrewrites ?_ rfl ?_ ?_ ?_⟩
  · simp [hstatus]
  · exact fun type => lists_setList _ _ _ _
  · intro type id
    simp only [zsets_setList, mem_keys_setZset_erase]
    rw [← hdb.erase_processing hstored]
    simp
  · intro type id
    simp only [zsets_setList, mem_keys_setZset_erase]
    rw [hdb.not_dead hstored (by simp [hstatus])]
    simp

/-- {lit}`RequeueDead` files a dead job as pending without attempts. -/
theorem filed_requeueDead (hdb : Filed db) (hstored : db.jobs.get? job.id = some job)
    (hstatus : job.status = .dead) {a : Outcome}
    (hrun : Finishes (requeueDead job.type job.id) db a db') :
    ∃ job', Rewrites db db' job job' ∧ job'.attempts = 0 ∧
      job'.maxAttempts = job.maxAttempts ∧ job'.status = .pending ∧ Filed db' := by
  rw [requeueDead, finishes_loadJob, hstored] at hrun
  dsimp only at hrun
  rw [if_neg (by simp [hstatus]), finishes_clock] at hrun
  obtain ⟨now, hrun⟩ := hrun
  rw [finishes_clock] at hrun
  obtain ⟨later, hrun⟩ := hrun
  rw [finishes_saveJob, finishes_zrem, finishes_lpush, finishes_pure] at hrun
  obtain ⟨-, hdb'⟩ := hrun
  have hrewrites : Rewrites db db' job { job with
      status := .pending
      attempts := 0
      lastError := []
      updatedAt := now
      nextRunAt := later } :=
    rewrites_of_insert hstored rfl rfl (by rw [hdb']; rfl) (by rw [hdb']; rfl)
  subst hdb'
  refine ⟨_, hrewrites, rfl, rfl, rfl, hdb.push hrewrites ?_ rfl ?_ ?_ ?_⟩
  · simp [hstatus]
  · exact fun type => lists_setList _ _ _ _
  · intro type id
    simp only [zsets_setList, mem_keys_setZset_erase]
    rw [hdb.not_processing hstored (by simp [hstatus])]
    simp
  · intro type id
    simp only [zsets_setList, mem_keys_setZset_erase]
    rw [← hdb.erase_dead hstored]
    simp

/-- {lit}`RequeueDead` leaves a job that is not dead as it is. -/
theorem requeueDead_of_not_dead {jobType : GoString}
    (halive : ∀ job, db.jobs.get? id = some job → job.status ≠ .dead) {a : Outcome}
    (hrun : Finishes (requeueDead jobType id) db a db') : a = .failed ∧ db' = db := by
  rw [requeueDead, finishes_loadJob] at hrun
  cases hget : db.jobs.get? id with
  | none =>
      rw [hget] at hrun
      exact finishes_pure.mp hrun
  | some job =>
      rw [hget] at hrun
      dsimp only at hrun
      rw [if_pos (halive job hget), finishes_pure] at hrun
      exact hrun

/-- A new job that is pushed to the pending list of its type is filed. -/
theorem Filed.add (hdb : Filed db) (hfresh : db.jobs.get? job.id = none)
    (hget : ∀ id, db'.jobs.get? id = if id = job.id then some job else db.jobs.get? id)
    (hstatus : job.status = .pending) (hnumber : ∃ n ≤ db'.idCounter, itoa n = job.id)
    (hcounter : db.idCounter ≤ db'.idCounter)
    (hlists : ∀ type, db'.lists (.pending type) =
      if LKey.pending type = .pending job.type then job.id :: db.lists (.pending job.type)
      else db.lists (.pending type))
    (hzsets : db'.zsets = db.zsets) : Filed db' := by
  have hno : ∀ type status, ¬HasStatus db type job.id status := by
    rintro type status ⟨job', hjob', _⟩
    simp [hfresh] at hjob'
  have hnew : ∀ type status, HasStatus db' type job.id status ↔
      job.type = type ∧ job.status = status :=
    fun type status => hasStatus_iff (by rw [hget, if_pos rfl])
  have hold : ∀ type id status, id ≠ job.id →
      (HasStatus db' type id status ↔ HasStatus db type id status) := by
    intro type id status hid
    simp only [HasStatus, hget, if_neg hid]
  constructor
  case keyed =>
    intro id stored hstored
    rw [hget] at hstored
    split_ifs at hstored with hid
    · rw [← Option.some.inj hstored, hid]
    · exact hdb.keyed id stored hstored
  case numbered =>
    intro id stored hstored
    rw [hget] at hstored
    split_ifs at hstored with hid
    · rw [hid]
      exact hnumber
    · obtain ⟨n, hn, heq⟩ := hdb.numbered id stored hstored
      exact ⟨n, hn.trans hcounter, heq⟩
  case nodup =>
    intro type
    rw [hlists]
    split_ifs with htype
    · refine List.nodup_cons.mpr ⟨fun hmem => ?_, hdb.nodup job.type⟩
      exact hno _ _ ((hdb.pending _ _).mp hmem)
    · exact hdb.nodup type
  case pending =>
    intro type id
    rw [hlists]
    by_cases hid : id = job.id
    · subst hid
      rw [hnew]
      split_ifs with htype
      · have htype' : job.type = type := by simpa [eq_comm] using htype
        simp [htype', hstatus]
      · have htype' : job.type ≠ type := by simpa [eq_comm] using htype
        simp [htype', hdb.pending, hno]
    · rw [hold _ _ _ hid, ← hdb.pending]
      split_ifs with htype
      · have htype' : job.type = type := by simpa [eq_comm] using htype
        simp [htype', hid]
      · rfl
  case processing =>
    intro type id
    rw [hzsets, hdb.processing]
    by_cases hid : id = job.id
    · subst hid
      simp [hnew, hno, hstatus]
    · rw [hold _ _ _ hid]
  case dead =>
    intro type id
    rw [hzsets, hdb.dead]
    by_cases hid : id = job.id
    · subst hid
      simp [hnew, hno, hstatus]
    · rw [hold _ _ _ hid]

/-- {lit}`Enqueue` files a job under an ID that no record has had. -/
theorem filed_enqueue (hdb : Filed db) {cfg : Config} {jobType workspaceID referenceID : GoString}
    {metadata : List (GoString × GoString)} {a : Outcome}
    (hrun : Finishes (enqueue cfg jobType workspaceID referenceID metadata) db a db') :
    ∃ job : Job, a = .id job.id ∧ db.jobs.get? job.id = none ∧
      (∀ id, db'.jobs.get? id = if id = job.id then some job else db.jobs.get? id) ∧
      job.type = jobType ∧ job.status = .pending ∧ job.attempts = 0 ∧
      job.maxAttempts = cfg.maxAttempts ∧ Filed db' := by
  have hincr : ∀ now, db.run now .incr =
      ({ db with idCounter := db.idCounter + 1 }, db.idCounter + 1) := fun _ => rfl
  rw [enqueue, finishes_send_of hincr] at hrun
  dsimp only at hrun
  rw [finishes_clock] at hrun
  obtain ⟨now, hrun⟩ := hrun
  rw [finishes_set, finishes_lpush, finishes_hincrby, finishes_pure] at hrun
  obtain ⟨ha, hdb'⟩ := hrun
  -- The counter has not given the ID before.
  have hfresh : db.jobs.get? (itoa (db.idCounter + 1)) = none := by
    cases hget : db.jobs.get? (itoa (db.idCounter + 1)) with
    | none => rfl
    | some job =>
        obtain ⟨n, hn, heq⟩ := hdb.numbered _ job hget
        have := itoa_injective heq
        omega
  obtain ⟨job, hjob⟩ : ∃ job : Job, job = {
      id := itoa (db.idCounter + 1)
      type := jobType
      workspaceID := workspaceID
      referenceID := referenceID
      status := .pending
      attempts := 0
      maxAttempts := cfg.maxAttempts
      lastError := []
      metadata := metadata
      createdAt := now
      updatedAt := now
      nextRunAt := now } := ⟨_, rfl⟩
  have hid : job.id = itoa (db.idCounter + 1) := by rw [hjob]
  have hget : ∀ id, db'.jobs.get? id = if id = job.id then some job else db.jobs.get? id := by
    intro id
    rw [hdb', hjob]
    exact Table.get?_insert _ _ _ _
  refine ⟨job, ?_, by rwa [hid], hget, by rw [hjob], by rw [hjob], by rw [hjob], by rw [hjob], ?_⟩
  · rw [ha, hid]
    rfl
  · refine hdb.add (by rwa [hid]) hget (by rw [hjob]) ⟨db.idCounter + 1, ?_, hid.symm⟩ ?_ ?_ ?_
    · rw [hdb']
      exact Nat.le_refl _
    · rw [hdb']
      exact Nat.le_succ _
    · intro type
      rw [hdb', hjob]
      exact lists_setList _ _ _ _
    · rw [hdb']
      rfl

/-- {lit}`Dequeue` files the oldest pending job of the type as processing. -/
theorem filed_dequeue (hdb : Filed db) {jobType : GoString} {a : Outcome}
    (hrun : Finishes (dequeue jobType) db a db') :
    (a = .job none ∧ db' = db) ∨
      ∃ job job', a = .job (some job') ∧ Rewrites db db' job job' ∧ job.type = jobType ∧
        job.status = .pending ∧ job'.attempts = job.attempts ∧
        job'.maxAttempts = job.maxAttempts ∧ job'.status = .processing ∧ Filed db' := by
  cases hlast : (db.lists (.pending jobType)).getLast? with
  | none =>
      have hmove : ∀ now, db.run now (.lmove (.pending jobType) (.temp jobType)) = (db, none) := by
        intro now
        simp only [Redis.run, hlast]
      rw [dequeue, finishes_send_of hmove] at hrun
      exact Or.inl (finishes_pure.mp hrun)
  | some id =>
      right
      obtain ⟨before, hlist⟩ := List.getLast?_eq_some_iff.mp hlast
      obtain ⟨job, hstored, htype, hstatus⟩ :=
        (hdb.pending jobType id).mp (List.mem_of_getLast? hlast)
      obtain rfl : job.id = id := hdb.keyed id job hstored
      have hmove : ∀ now, db.run now (.lmove (.pending jobType) (.temp jobType)) =
          ((db.setList (.pending jobType) before).setList (.temp jobType)
            (job.id :: db.lists (.temp jobType)), some job.id) := by
        intro now
        simp [Redis.run, hlist]
      have hremove : ∀ now, ((db.setList (.pending jobType) before).setList (.temp jobType)
          (job.id :: db.lists (.temp jobType))).run now (.lrem (.temp jobType) job.id) =
          (((db.setList (.pending jobType) before).setList (.temp jobType)
            (job.id :: db.lists (.temp jobType))).setList (.temp jobType)
              (db.lists (.temp jobType)), ()) := by
        intro now
        simp [Redis.run]
      rw [dequeue, finishes_send_of hmove] at hrun
      dsimp only at hrun
      rw [finishes_send_of hremove, finishes_loadJob] at hrun
      simp only [jobs_setList, hstored] at hrun
      rw [finishes_clock] at hrun
      obtain ⟨now, hrun⟩ := hrun
      rw [finishes_saveJob, finishes_zadd, finishes_pure] at hrun
      obtain ⟨ha, hdb'⟩ := hrun
      have hrewrites : Rewrites db db' job { job with status := .processing, updatedAt := now } :=
        rewrites_of_insert hstored rfl rfl (by rw [hdb']; rfl) (by rw [hdb']; rfl)
      have hpending : ∀ type, db'.lists (.pending type) =
          if LKey.pending type = .pending jobType then before else db.lists (.pending type) := by
        intro type
        rw [hdb']
        simp
      have hnodup := hdb.nodup jobType
      rw [hlist] at hnodup
      obtain ⟨hbefore, -, hdisjoint⟩ := List.nodup_append.mp hnodup
      have hnot : job.id ∉ before :=
        fun hmem => hdisjoint job.id hmem job.id (List.mem_singleton_self _) rfl
      refine ⟨job, _, ha, hrewrites, htype, hstatus, rfl, rfl, rfl, ?_⟩
      apply hdb.refile hrewrites
      · intro type
        rw [hpending]
        split_ifs with hkey
        · exact hbefore
        · exact hdb.nodup type
      · intro type id
        rw [hpending]
        by_cases hkey : type = jobType
        · rw [if_pos (by rw [hkey]), hkey, hlist]
          by_cases hid : id = job.id
          · simp [hid, hnot]
          · simp [hid]
        · rw [if_neg (by simpa using hkey)]
          split_ifs with hid
          · have hne : job.type ≠ type := by
              rw [htype]
              exact Ne.symm hkey
            simp [hid, hdb.pending_iff hstored, hne]
          · rfl
      · intro type id
        rw [hdb', mem_keys_setZset_insert]
        simp only [zsets_setList]
        split_ifs with hid
        · subst hid
          simp [hdb.processing_iff hstored, hstatus, htype, eq_comm]
        · simp [hid]
      · intro type id
        rw [hdb', mem_keys_setZset_insert]
        simp only [zsets_setList]
        split_ifs with hid
        · subst hid
          simp [hdb.dead_iff hstored, hstatus]
        · simp [hid]

end Filing

/-! ## Loops -/

/-- Some records are replaced. -/
def Changed (P : Job → Job → Prop) (db db' : Redis) : Prop :=
  ∀ id, db'.jobs.get? id = db.jobs.get? id ∨
    ∃ job job', db.jobs.get? id = some job ∧ db'.jobs.get? id = some job' ∧ P job job'

/-- The members of a sorted set are listed once. -/
theorem nodup_rangeOf (t : Table GoString Int) : (rangeOf t).Nodup := by
  have hperm := (List.perm_insertionSort
    (fun a b : GoString × Int => a.2 < b.2 ∨ (a.2 = b.2 ∧ a.1 ≤ b.1)) t.entries).map Prod.fst
  exact hperm.nodup_iff.mpr t.nodup

theorem mem_rangeOf {t : Table GoString Int} {id : GoString} : id ∈ rangeOf t ↔ id ∈ t.keys := by
  have hperm := (List.perm_insertionSort
    (fun a b : GoString × Int => a.2 < b.2 ∨ (a.2 = b.2 ∧ a.1 ≤ b.1)) t.entries).map Prod.fst
  exact hperm.mem_iff


/-- A stuck job is pending again. -/
structure Recovered (jobType : GoString) (job job' : Job) : Prop where
  type : job.type = jobType
  processing : job.status = .processing
  type' : job'.type = job.type
  pending : job'.status = .pending
  attempts : job'.attempts = job.attempts
  maxAttempts : job'.maxAttempts = job.maxAttempts

/-- A dead job is pending again, without attempts. -/
structure Requeued (jobType : GoString) (job job' : Job) : Prop where
  type : job.type = jobType
  dead : job.status = .dead
  type' : job'.type = job.type
  pending : job'.status = .pending
  attempts : job'.attempts = 0
  maxAttempts : job'.maxAttempts = job.maxAttempts

section Loops

variable {P : Job → Job → Prop} {db mid db' : Redis} {job job' : Job} {jobType : GoString}
  {a : Outcome}

theorem changed_refl (P : Job → Job → Prop) (db : Redis) : Changed P db db :=
  fun _ => Or.inl rfl

/-- A single record is replaced. -/
theorem Rewrites.changed (hrewrites : Rewrites db db' job job') (hP : P job job') :
    Changed P db db' := by
  intro id
  by_cases hid : id = job.id
  · refine Or.inr ⟨job, job', ?_, ?_, hP⟩
    · rw [hid]
      exact hrewrites.stored
    · rw [hrewrites.get, if_pos hid]
  · rw [hrewrites.get, if_neg hid]
    exact Or.inl rfl

/-- Records that are not replaced twice. -/
theorem Changed.trans (hfirst : Changed P db mid) (hsecond : Changed P mid db')
    (honce : ∀ job job' job'', P job job' → ¬P job' job'') : Changed P db db' := by
  intro id
  rcases hfirst id with hsame | ⟨job, job', hjob, hjob', hP⟩
  · rw [← hsame]
    exact hsecond id
  · rcases hsecond id with hsame | ⟨stored, job'', hstored, _, hP'⟩
    · exact Or.inr ⟨job, job', hjob, hsame.trans hjob', hP⟩
    · rw [hjob'] at hstored
      obtain rfl := Option.some.inj hstored
      exact absurd hP' (honce _ _ _ hP)

/-- The loop of {lit}`RecoverStuckJobs` files the listed jobs as pending. -/
theorem filed_recoverLoop {stuckIDs : List GoString} {n : Nat} (hdb : Filed db)
    (hnodup : stuckIDs.Nodup) (hstuck : ∀ id ∈ stuckIDs, HasStatus db jobType id .processing)
    (hattempts : ∀ id job, db.jobs.get? id = some job → job.status = .processing →
      job.attempts < job.maxAttempts)
    (hrun : Finishes (recoverLoop jobType n stuckIDs) db a db') :
    Changed (Recovered jobType) db db' ∧ Filed db' := by
  induction stuckIDs generalizing db n with
  | nil =>
      obtain ⟨-, rfl⟩ := finishes_pure.mp hrun
      exact ⟨changed_refl _ _, hdb⟩
  | cons id stuckIDs ih =>
      obtain ⟨hid, hrest⟩ := List.nodup_cons.mp hnodup
      obtain ⟨job, hstored, rfl, hstatus⟩ := hstuck id List.mem_cons_self
      obtain rfl : job.id = id := hdb.keyed id job hstored
      rw [recoverLoop, finishes_bind] at hrun
      obtain ⟨b, mid, hfirst, hsecond⟩ := hrun
      obtain ⟨rfl, job', hrewrites, hsame, hmax, hpending, hmid⟩ :=
        filed_recoverJob hdb hstored hstatus (hattempts _ _ hstored hstatus) hfirst
      have hchanged : Changed (Recovered job.type) db mid :=
        hrewrites.changed ⟨rfl, hstatus, hrewrites.type, hpending, hsame, hmax⟩
      have hstuck' : ∀ id ∈ stuckIDs, HasStatus mid job.type id .processing := by
        intro id hmem
        have hne : id ≠ job.id := by
          rintro rfl
          exact hid hmem
        rw [hrewrites.hasStatus, if_neg hne]
        exact hstuck id (List.mem_cons_of_mem _ hmem)
      have hattempts' : ∀ id job, mid.jobs.get? id = some job → job.status = .processing →
          job.attempts < job.maxAttempts := by
        intro id stored hget hprocessing
        rw [hrewrites.get] at hget
        split_ifs at hget
        · obtain rfl := Option.some.inj hget
          simp [hpending] at hprocessing
        · exact hattempts id stored hget hprocessing
      obtain ⟨hchanged', hdb'⟩ := ih hmid hrest hstuck' hattempts' hsecond
      refine ⟨hchanged.trans hchanged' ?_, hdb'⟩
      intro first second third hfirst' hsecond'
      simpa [hfirst'.pending] using hsecond'.processing

/-- {lit}`RecoverStuckJobs` files jobs with attempts left as pending. -/
theorem filed_recoverStuckJobs {cfg : Config} (hdb : Filed db)
    (hattempts : ∀ id job, db.jobs.get? id = some job → job.status = .processing →
      job.attempts < job.maxAttempts)
    (hrun : Finishes (recoverStuckJobs cfg jobType) db a db') :
    Changed (Recovered jobType) db db' ∧ Filed db' := by
  rw [recoverStuckJobs, finishes_clock] at hrun
  obtain ⟨now, hrun⟩ := hrun
  rw [finishes_send_of fun _ => rfl] at hrun
  refine filed_recoverLoop hdb ((nodup_rangeOf _).filter _) (fun id hid => ?_) hattempts hrun
  rw [← hdb.processing, ← mem_rangeOf]
  exact List.mem_of_mem_filter hid

/-- {lit}`RequeueDead` with the own type of the job. -/
theorem filed_requeueDead_of_type {id : GoString} (hdb : Filed db)
    (htype : ∀ job, db.jobs.get? id = some job → job.type = jobType)
    (hrun : Finishes (requeueDead jobType id) db a db') :
    Changed (Requeued jobType) db db' ∧ Filed db' := by
  by_cases hdead : ∃ job, db.jobs.get? id = some job ∧ job.status = .dead
  · obtain ⟨job, hstored, hstatus⟩ := hdead
    obtain rfl := htype job hstored
    obtain rfl : job.id = id := hdb.keyed id job hstored
    obtain ⟨job', hrewrites, hzero, hmax, hpending, hdb'⟩ :=
      filed_requeueDead hdb hstored hstatus hrun
    exact ⟨hrewrites.changed ⟨rfl, hstatus, hrewrites.type, hpending, hzero, hmax⟩, hdb'⟩
  · obtain ⟨-, rfl⟩ := requeueDead_of_not_dead
      (fun job hjob hstatus => hdead ⟨job, hjob, hstatus⟩) hrun
    exact ⟨changed_refl _ _, hdb⟩

/-- The loop of {lit}`RequeueAllDead` files the dead ones among the listed jobs as
pending. -/
theorem filed_requeueLoop {deadIDs : List GoString} {n : Nat} (hdb : Filed db)
    (htype : ∀ id ∈ deadIDs, ∀ job, db.jobs.get? id = some job → job.type = jobType)
    (hrun : Finishes (requeueLoop jobType n deadIDs) db a db') :
    Changed (Requeued jobType) db db' ∧ Filed db' := by
  induction deadIDs generalizing db n with
  | nil =>
      obtain ⟨-, rfl⟩ := finishes_pure.mp hrun
      exact ⟨changed_refl _ _, hdb⟩
  | cons id deadIDs ih =>
      rw [requeueLoop, finishes_bind] at hrun
      obtain ⟨result, mid, hfirst, hsecond⟩ := hrun
      obtain ⟨hchanged, hmid⟩ := filed_requeueDead_of_type hdb (htype id List.mem_cons_self) hfirst
      have hnext : ∃ n, Finishes (requeueLoop jobType n deadIDs) mid a db' := by
        cases result with
        | failed => exact ⟨_, hsecond⟩
        | _ => exact ⟨_, hsecond⟩
      obtain ⟨n', hnext⟩ := hnext
      have htype' : ∀ id ∈ deadIDs, ∀ job, mid.jobs.get? id = some job → job.type = jobType := by
        intro id hmem stored hget
        rcases hchanged id with hsame | ⟨job, job', hjob, hjob', hP⟩
        · exact htype id (List.mem_cons_of_mem _ hmem) stored (hsame ▸ hget)
        · rw [hjob'] at hget
          obtain rfl := Option.some.inj hget
          rw [hP.type', hP.type]
      obtain ⟨hchanged', hdb'⟩ := ih hmid htype' hnext
      refine ⟨hchanged.trans hchanged' ?_, hdb'⟩
      intro first second third hfirst' hsecond'
      simpa [hfirst'.pending] using hsecond'.dead

/-- {lit}`RequeueAllDead` files the dead jobs as pending. -/
theorem filed_requeueAllDead (hdb : Filed db)
    (hrun : Finishes (requeueAllDead jobType) db a db') :
    Changed (Requeued jobType) db db' ∧ Filed db' := by
  rw [requeueAllDead, finishes_send_of fun _ => rfl] at hrun
  refine filed_requeueLoop hdb (fun id hid job hget => ?_) hrun
  have hmem : id ∈ (db.zsets (.dead jobType)).keys := mem_rangeOf.mp hid
  exact ((hdb.dead_iff hget).mp hmem).1

end Loops

end Queue
end Veilence
