import Veilence.Foundation.Transition
import Veilence.Queue.Effects
import Veilence.Queue.Representation

/-!
# The backoff of failed jobs

Runs of calls that do not overlap and meet no error, with a clock that never goes back.  The
worker that has dequeued a job last is its latest holder until it begins to complete it, fail it
or put it back, also when the job is recovered in the meantime.

Main results:

- Theorem {lit}`Backed.step`: the stored record waits for every failed attempt that leaves
  attempts.
- Theorem {lit}`backoff_of_run`: then no job is handed to the processing function too early, if
  no holder of a job that has been requeued since touches it.
- Theorem {lit}`handed_early`: a holder whose job has been recovered as dead and requeued fails
  it, and it is handed out at once.
-/

namespace Veilence
namespace Queue

open Go Foundation

/-! ## Calls that take time -/

/-- A call runs to its end with nothing in between and without errors, from one time to another
one, and reads a clock that never goes back. -/
inductive Elapses {α : Type} : Body α → Redis → Int → α → Redis → Int → Prop where
  | ret (a : α) (db : Redis) (now : Int) : Elapses (.ret a) db now a db now
  | cmd {c : Command} {k : Option (Reply c) → Body α} {db db' : Redis} {now later : Int} {a : α}
      (time : Int) (htime : now ≤ time)
      (hrest : Elapses (k (some (db.run time c).2)) (db.run time c).1 time a db' later) :
      Elapses (.cmd c k) db now a db' later

section Elapsing

variable {α : Type} {a : α} {db db' : Redis} {now later : Int}

/-- Without its times it is a call that finishes. -/
theorem Elapses.finishes {p : Body α} (hrun : Elapses p db now a db' later) :
    Finishes p db a db' := by
  induction hrun with
  | ret a db now => exact .ret a db
  | cmd time _ _ ih => exact .cmd time ih

theorem Elapses.le {p : Body α} (hrun : Elapses p db now a db' later) : now ≤ later := by
  induction hrun with
  | ret a db now => exact Int.le_refl now
  | cmd time htime _ ih => exact Int.le_trans htime ih

theorem elapses_send {c : Command} {f : Option (Reply c) → Body α}
    (hrun : Elapses (send c >>= f) db now a db' later) :
    ∃ time, now ≤ time ∧ Elapses (f (some (db.run time c).2)) (db.run time c).1 time a db' later := by
  cases hrun with
  | cmd time htime hrest => exact ⟨time, htime, hrest⟩

theorem elapses_clock {f : Int → Body α} (hrun : Elapses (clock >>= f) db now a db' later) :
    ∃ time, now ≤ time ∧ Elapses (f time) db time a db' later :=
  elapses_send hrun

/-- The ID counter does not fall. -/
theorem idCounter_le_of_finishes {p : Body α} (hrun : Finishes p db a db') :
    db.idCounter ≤ db'.idCounter := by
  induction hrun with
  | ret a db => exact Nat.le_refl _
  | cmd time _ ih => exact (idCounter_le_run time _ _).trans ih

end Elapsing

/-- {lit}`Fail` reads the clock for the next attempt after it has begun. -/
theorem fail_elapses {job : Job} {jobErr : GoString} {db db' : Redis} {now later : Int}
    {a : Outcome} (hrun : Elapses (fail job jobErr) db now a db' later) :
    ∃ first second, now ≤ second ∧
      db'.jobs = db.jobs.insert job.id (job.missed jobErr first second) := by
  rw [fail] at hrun
  obtain ⟨first, hfirst, hrun⟩ := elapses_clock hrun
  obtain ⟨removed, hremoved, hrun⟩ := elapses_send hrun
  dsimp only at hrun
  split_ifs at hrun with hdead
  · have hrest := hrun.finishes
    rw [finishes_saveJob, finishes_zadd, finishes_hincrby, finishes_pure] at hrest
    obtain ⟨-, rfl⟩ := hrest
    refine ⟨first, removed, Int.le_trans hfirst hremoved, ?_⟩
    rw [Job.missed, if_pos hdead]
    rfl
  · obtain ⟨second, hsecond, hrun⟩ := elapses_clock hrun
    have hrest := hrun.finishes
    rw [finishes_saveJob, finishes_lpush, finishes_pure] at hrest
    obtain ⟨-, rfl⟩ := hrest
    refine ⟨first, second, by omega, ?_⟩
    rw [Job.missed, if_neg hdead]
    rfl

/-! ## The system -/

/-- The database and the clock; the value of the latest holder of each job, and whether the job
has been requeued since; and the times of the failed attempts since the job was enqueued or
requeued, the first one first. -/
structure Clocked where
  db : Redis
  now : Int
  latest : GoString → Option Job
  requeued : GoString → Bool
  failures : GoString → List Int

/-- A call of the queue, or a worker that hands what it has dequeued to the processing
function. -/
inductive Action where
  | call (op : Op)
  | hand (job : Job)

/-- The job has been taken out of the dead set by a requeueing call. -/
def requeuedBy (db db' : Redis) (id : GoString) : Bool :=
  (db.jobs.get? id).any (fun job => job.status = .dead) &&
    (db'.jobs.get? id).any (fun job => job.status = .pending)

namespace Clocked

/-- Before the first call. -/
def initial : Clocked :=
  ⟨.empty, 0, fun _ => none, fun _ => false, fun _ => []⟩

/-- The state after a call that begins and ends at given times. -/
def after (s : Clocked) (op : Op) (a : Outcome) (db' : Redis) (start later : Int) : Clocked :=
  let s' : Clocked := { s with db := db', now := later }
  match op, a with
  | .enqueue .., .id id => { s' with failures := Function.update s.failures id [] }
  | .dequeue _, .job (some job) =>
      { s' with
        latest := Function.update s.latest job.id (some job)
        requeued := Function.update s.requeued job.id false }
  | .complete _ job, _ => { s' with latest := Function.update s.latest job.id none }
  | .putBack _ job, _ => { s' with latest := Function.update s.latest job.id none }
  | .fail _ job _, _ =>
      { s' with
        latest := Function.update s.latest job.id none
        failures := Function.update s.failures job.id (s.failures job.id ++ [start]) }
  | .requeueDead .., _ | .requeueAllDead .., _ =>
      { s' with
        requeued := fun id => s.requeued id || requeuedBy s.db db' id
        failures := fun id => if requeuedBy s.db db' id then [] else s.failures id }
  | _, _ => s'

/-- A step.  A worker hands over a job that is due. -/
def Step (cfg : Config) (s : Clocked) : Action → Clocked → Prop
  | .call op, s' => ∃ start a db' later, s.now ≤ start ∧
      Elapses (bodyOf cfg op) s.db start a db' later ∧ s' = s.after op a db' start later
  | .hand job, s' => ∃ time, s.now ≤ time ∧ job.nextRunAt ≤ time ∧ s' = { s with now := time }

/-- Only the latest holder of a job completes it, fails it, puts it back or hands it over. -/
def Latest (s : Clocked) : Action → Prop
  | .call op => ∀ entry ∈ op.heldJob, s.latest entry.2.id = some entry.2
  | .hand job => s.latest job.id = some job

/-- Besides, the holder does not complete, fail or put back a job that has been requeued since it
dequeued it. -/
def Undisputed (s : Clocked) (action : Action) : Prop :=
  s.Latest action ∧
    ∀ op, action = .call op → ∀ entry ∈ op.heldJob, s.requeued entry.2.id = false

/-- The job has waited for every failed attempt that left attempts. -/
def Waited (cfg : Config) (s : Clocked) (id : GoString) (time : Int) : Prop :=
  ∀ k failure, 1 ≤ k → k < cfg.maxAttempts → (s.failures id)[k - 1]? = some failure →
    failure + 30 * 2 ^ (k - 1) ≤ time

end Clocked

/-! ## The invariant -/

/-- What a worker holds and what is stored agree on the attempts. -/
structure Job.Agrees (job job' : Job) : Prop where
  attempts : job'.attempts = job.attempts
  maxAttempts : job'.maxAttempts = job.maxAttempts
  nextRunAt : job'.nextRunAt = job.nextRunAt

theorem Job.Agrees.refl (job : Job) : job.Agrees job :=
  ⟨rfl, rfl, rfl⟩

theorem Job.Agrees.symm {job job' : Job} (hagrees : job.Agrees job') : job'.Agrees job :=
  ⟨hagrees.attempts.symm, hagrees.maxAttempts.symm, hagrees.nextRunAt.symm⟩

theorem Job.Agrees.trans {job job' job'' : Job} (hfirst : job.Agrees job')
    (hsecond : job'.Agrees job'') : job.Agrees job'' :=
  ⟨hsecond.attempts.trans hfirst.attempts, hsecond.maxAttempts.trans hfirst.maxAttempts,
    hsecond.nextRunAt.trans hfirst.nextRunAt⟩

/-- The record counts the failed attempts and waits for them. -/
structure Owed (cfg : Config) (s : Clocked) (id : GoString) (job : Job) : Prop where
  attempts : job.attempts = (s.failures id).length
  maxAttempts : job.maxAttempts = cfg.maxAttempts
  waited : s.Waited cfg id job.nextRunAt

/-- Every record waits, and the latest holder of a job that has not been requeued since agrees
with its record. -/
structure Backed (cfg : Config) (s : Clocked) : Prop where
  keyed : Keyed s.db
  numbered : ∀ id job, s.db.jobs.get? id = some job → ∃ n ≤ s.db.idCounter, itoa n = id
  owed : ∀ id job, s.db.jobs.get? id = some job → Owed cfg s id job
  past : ∀ id, ∀ failure ∈ s.failures id, failure ≤ s.now
  latest : ∀ id job, s.latest id = some job → job.id = id ∧
    (s.requeued id = true → s.failures id = []) ∧
    (s.requeued id = false → ∃ stored, s.db.jobs.get? id = some stored ∧ stored.Agrees job)

/-- Before the first call. -/
theorem backed_initial (cfg : Config) : Backed cfg Clocked.initial where
  keyed := filed_empty.keyed
  numbered := filed_empty.numbered
  owed := by simp [Clocked.initial, Redis.empty]
  past := by simp [Clocked.initial]
  latest := by simp [Clocked.initial]

/-- Every record is kept or replaced by one that agrees with it. -/
structure Quiet (db db' : Redis) : Prop where
  kept : ∀ id job, db.jobs.get? id = some job →
    ∃ job', db'.jobs.get? id = some job' ∧ job.Agrees job' ∧ job'.id = job.id
  none : ∀ id, db.jobs.get? id = none → db'.jobs.get? id = none

/-- Dead records are replaced by revived ones. -/
def Reviving (db db' : Redis) : Prop :=
  ∀ id, db'.jobs.get? id = db.jobs.get? id ∨ ∃ job now later, db.jobs.get? id = some job ∧
    job.status = .dead ∧ db'.jobs.get? id = some (job.revived now later)

section Records

variable {db mid db' : Redis} {job job' : Job}

theorem quiet_of_eq (hjobs : db'.jobs = db.jobs) : Quiet db db' where
  kept := fun id job hjob => ⟨job, by rw [hjobs, hjob], .refl job, rfl⟩
  none := fun id hid => by rw [hjobs, hid]

theorem Quiet.trans (hfirst : Quiet db mid) (hsecond : Quiet mid db') : Quiet db db' where
  kept := by
    intro id job hjob
    obtain ⟨job', hjob', hagrees, hid⟩ := hfirst.kept id job hjob
    obtain ⟨job'', hjob'', hagrees', hid'⟩ := hsecond.kept id job' hjob'
    exact ⟨job'', hjob'', hagrees.trans hagrees', hid'.trans hid⟩
  none := fun id hid => hsecond.none id (hfirst.none id hid)

/-- A record that is written over one that it agrees with. -/
theorem quiet_of_insert (hid : job'.id = job.id) (hstored : db.jobs.get? job'.id = some job)
    (hagrees : job.Agrees job') (hjobs : db'.jobs = db.jobs.insert job'.id job') :
    Quiet db db' where
  kept := by
    intro id stored hget
    rw [hjobs, Table.get?_insert]
    split_ifs with heq
    · rw [heq, hstored, Option.some.injEq] at hget
      exact ⟨job', rfl, hget ▸ hagrees, hget ▸ hid⟩
    · exact ⟨stored, hget, .refl stored, rfl⟩
  none := by
    intro id hnone
    rw [hjobs, Table.get?_insert_of_ne, hnone]
    rintro rfl
    rw [hstored] at hnone
    cases hnone

/-- Recovering a job keeps its attempts. -/
theorem Overwrites.quiet {now : Int} (hwrites : Overwrites db db' job (job.recovered now)) :
    Quiet db db' := by
  have hagrees : job.Agrees (job.recovered now) := by
    unfold Job.recovered
    split_ifs
    · exact ⟨rfl, rfl, rfl⟩
    · exact ⟨rfl, rfl, rfl⟩
  apply quiet_of_insert hwrites.id _ hagrees
  · rw [hwrites.id, hwrites.jobs]
  · rw [hwrites.id, hwrites.stored]

theorem Quiet.keyed (hquiet : Quiet db db') (hkeyed : Keyed db) : Keyed db' := by
  intro id job' hjob'
  cases hjob : db.jobs.get? id with
  | none =>
      rw [hquiet.none id hjob] at hjob'
      cases hjob'
  | some job =>
      obtain ⟨stored, hstored, -, hid⟩ := hquiet.kept id job hjob
      rw [hjob', Option.some.injEq] at hstored
      rw [hstored, hid, hkeyed id job hjob]

theorem reviving_of_eq (hjobs : db'.jobs = db.jobs) : Reviving db db' :=
  fun id => Or.inl (by rw [hjobs])

/-- A revived record is not revived again. -/
theorem Reviving.trans (hfirst : Reviving db mid) (hsecond : Reviving mid db') :
    Reviving db db' := by
  intro id
  rcases hsecond id with hsame | ⟨job, now, later, hjob, hdead, hjob'⟩
  · rw [hsame]
    exact hfirst id
  · rcases hfirst id with hsame | ⟨old, now', later', _, _, hrevived⟩
    · exact Or.inr ⟨job, now, later, hsame.symm.trans hjob, hdead, hjob'⟩
    · rw [hrevived, Option.some.injEq] at hjob
      rw [← hjob] at hdead
      cases hdead

/-- Requeueing a dead job revives its record. -/
theorem Overwrites.reviving {now later : Int} (hwrites : Overwrites db db' job (job.revived now later))
    (hdead : job.status = .dead) : Reviving db db' := by
  intro id
  rw [hwrites.get]
  split_ifs with hid
  · exact Or.inr ⟨job, now, later, by rw [hid, hwrites.stored], hdead, rfl⟩
  · exact Or.inl rfl

/-- A record is revived exactly when its job is requeued. -/
theorem Reviving.cases (hreviving : Reviving db db') (id : GoString) :
    (db'.jobs.get? id = db.jobs.get? id ∧ requeuedBy db db' id = false) ∨
      ∃ job now later, db.jobs.get? id = some job ∧
        db'.jobs.get? id = some (job.revived now later) ∧ requeuedBy db db' id = true := by
  rcases hreviving id with hsame | ⟨job, now, later, hjob, hdead, hjob'⟩
  · refine Or.inl ⟨hsame, ?_⟩
    rw [requeuedBy, hsame]
    cases db.jobs.get? id with
    | none => rfl
    | some job => cases hstatus : job.status <;> simp [hstatus]
  · refine Or.inr ⟨job, now, later, hjob, hjob', ?_⟩
    simp [requeuedBy, hjob, hjob', hdead, Job.revived]

end Records

/-! ## Steps -/

section Steps

variable {cfg : Config} {s s' : Clocked} {db' : Redis} {job : Job} {id : GoString}

/-- Longer waits are waits for the same failed attempts. -/
theorem Clocked.Waited.mono {time later : Int} (hwaited : s.Waited cfg id time)
    (hle : time ≤ later) : s.Waited cfg id later :=
  fun k failure hk hlast hfailure => Int.le_trans (hwaited k failure hk hlast hfailure) hle

/-- What is owed depends on the failed attempts of the job only. -/
theorem Owed.congr {job' : Job} (howed : Owed cfg s id job) (hagrees : job.Agrees job')
    (hfailures : s'.failures id = s.failures id) : Owed cfg s' id job' where
  attempts := by rw [hagrees.attempts, howed.attempts, hfailures]
  maxAttempts := hagrees.maxAttempts.trans howed.maxAttempts
  waited := by
    rw [hagrees.nextRunAt, Clocked.Waited, hfailures]
    exact howed.waited

/-- The value of the latest holder agrees with the record. -/
theorem Backed.stored (hinv : Backed cfg s) (hlatest : s.latest job.id = some job)
    (hrequeued : s.requeued job.id = false) :
    ∃ stored, s.db.jobs.get? job.id = some stored ∧ stored.Agrees job :=
  (hinv.latest _ _ hlatest).2.2 hrequeued

/-- A call that counts no failed attempt. -/
theorem Backed.quiet (hinv : Backed cfg s) (hquiet : Quiet s.db s'.db)
    (hcounter : s.db.idCounter ≤ s'.db.idCounter) (hnow : s.now ≤ s'.now)
    (hfailures : s'.failures = s.failures)
    (hlatest : ∀ id job, s'.latest id = some job →
      (s.latest id = some job ∧ s'.requeued id = s.requeued id) ∨
        job.id = id ∧ s'.requeued id = false ∧ s'.db.jobs.get? id = some job) :
    Backed cfg s' where
  keyed := hquiet.keyed hinv.keyed
  numbered := by
    intro id job' hjob'
    cases hjob : s.db.jobs.get? id with
    | none =>
        rw [hquiet.none id hjob] at hjob'
        cases hjob'
    | some job =>
        obtain ⟨n, hn, heq⟩ := hinv.numbered id job hjob
        exact ⟨n, hn.trans hcounter, heq⟩
  owed := by
    intro id job' hjob'
    cases hjob : s.db.jobs.get? id with
    | none =>
        rw [hquiet.none id hjob] at hjob'
        cases hjob'
    | some job =>
        obtain ⟨stored, hstored, hagrees, -⟩ := hquiet.kept id job hjob
        rw [hjob', Option.some.injEq] at hstored
        subst hstored
        exact (hinv.owed id job hjob).congr hagrees (by rw [hfailures])
  past := by
    intro id failure hfailure
    rw [hfailures] at hfailure
    exact Int.le_trans (hinv.past id failure hfailure) hnow
  latest := by
    intro id job hjob
    rcases hlatest id job hjob with ⟨hold, hsame⟩ | ⟨hid, hrequeued, hstored⟩
    · obtain ⟨hid, hnone, hagrees⟩ := hinv.latest id job hold
      rw [hsame, hfailures]
      refine ⟨hid, hnone, fun hrequeued => ?_⟩
      obtain ⟨stored, hstored, hagrees⟩ := hagrees hrequeued
      obtain ⟨stored', hstored', hagrees', -⟩ := hquiet.kept id stored hstored
      exact ⟨stored', hstored', hagrees'.symm.trans hagrees⟩
    · refine ⟨hid, ?_, fun _ => ⟨job, hstored, .refl job⟩⟩
      rw [hrequeued]
      simp

/-- A worker that releases its job writes what it holds. -/
theorem Backed.release (hinv : Backed cfg s) (hlatest : s.latest job.id = some job)
    (hrequeued : s.requeued job.id = false) {job' : Job} (hid : job'.id = job.id)
    (hagrees : job.Agrees job') (hjobs : s'.db.jobs = s.db.jobs.insert job.id job')
    (hcounter : s.db.idCounter ≤ s'.db.idCounter) (hnow : s.now ≤ s'.now)
    (hfailures : s'.failures = s.failures) (hkept : s'.requeued = s.requeued)
    (hreleased : s'.latest = Function.update s.latest job.id none) : Backed cfg s' := by
  obtain ⟨stored, hstored, hstored'⟩ := hinv.stored hlatest hrequeued
  have hquiet : Quiet s.db s'.db := by
    apply quiet_of_insert _ _ (hstored'.trans hagrees)
    · rw [hid, hjobs]
    · rw [hid, hinv.keyed _ _ hstored]
    · rw [hid, hstored]
  apply hinv.quiet hquiet hcounter hnow hfailures
  intro id other hother
  rw [hreleased] at hother
  by_cases heq : id = job.id
  · rw [heq, Function.update_self] at hother
    cases hother
  · rw [Function.update_of_ne heq] at hother
    exact Or.inl ⟨hother, by rw [hkept]⟩

/-- The wait doubles with every failed attempt. -/
theorem backoff_mono {m n : Nat} (hle : m ≤ n) : (30 * 2 ^ m : Int) ≤ 30 * 2 ^ n := by
  have hpow : (2 : Int) ^ m ≤ 2 ^ n := pow_le_pow_right₀ (by decide) hle
  omega

/-- The failed attempt is counted, and the record waits for it if there are attempts left. -/
theorem Owed.fail (howed : Owed cfg s job.id job) {jobErr : GoString} {first second start : Int}
    (hpast : ∀ failure ∈ s.failures job.id, failure ≤ start) (hsecond : start ≤ second)
    (hfailures : s'.failures job.id = s.failures job.id ++ [start]) :
    Owed cfg s' job.id (job.missed jobErr first second) := by
  have hattempts := howed.attempts
  have hmax := howed.maxAttempts
  constructor
  case attempts =>
    rw [hfailures, List.length_append, List.length_singleton, ← hattempts]
    unfold Job.missed
    split_ifs <;> rfl
  case maxAttempts =>
    rw [← hmax]
    unfold Job.missed
    split_ifs <;> rfl
  case waited =>
    intro k failure hk hlast hfailure
    rw [hfailures] at hfailure
    by_cases hdead : job.attempts + 1 ≥ job.maxAttempts
    · -- No attempts are left: the record goes on waiting for the earlier failures.
      rw [List.getElem?_append_left (by omega)] at hfailure
      rw [Job.missed, if_pos hdead]
      exact howed.waited k failure hk hlast hfailure
    · rw [Job.missed, if_neg hdead]
      have hwait : backoff (job.attempts + 1) = 30 * 2 ^ job.attempts := rfl
      simp only [hwait]
      by_cases hold : k - 1 < (s.failures job.id).length
      · rw [List.getElem?_append_left hold] at hfailure
        have hearlier := hpast failure (List.mem_of_getElem? hfailure)
        have hless := @backoff_mono (k - 1) job.attempts (by omega)
        omega
      · rw [List.getElem?_append_right (by omega)] at hfailure
        obtain ⟨hindex, hnew⟩ := List.getElem?_eq_some_iff.mp hfailure
        have hnow : failure = start := by simpa using hnew.symm
        have hless := @backoff_mono (k - 1) job.attempts (by simp at hindex; omega)
        omega

/-- {lit}`Fail` counts one more failed attempt, for which the record waits. -/
theorem Backed.fail (hinv : Backed cfg s) (hlatest : s.latest job.id = some job)
    (hrequeued : s.requeued job.id = false) {jobErr : GoString} {first second start : Int}
    (hstart : s.now ≤ start) (hsecond : start ≤ second)
    (hjobs : s'.db.jobs = s.db.jobs.insert job.id (job.missed jobErr first second))
    (hcounter : s.db.idCounter ≤ s'.db.idCounter) (hnow : start ≤ s'.now)
    (hfailures : s'.failures =
      Function.update s.failures job.id (s.failures job.id ++ [start]))
    (hkept : s'.requeued = s.requeued)
    (hreleased : s'.latest = Function.update s.latest job.id none) : Backed cfg s' := by
  obtain ⟨stored, hstored, hagrees⟩ := hinv.stored hlatest hrequeued
  have howed := (hinv.owed _ _ hstored).congr hagrees rfl
  have hget : ∀ id, s'.db.jobs.get? id =
      if id = job.id then some (job.missed jobErr first second) else s.db.jobs.get? id := by
    intro id
    rw [hjobs, Table.get?_insert]
  constructor
  case keyed =>
    intro id job' hjob'
    rw [hget] at hjob'
    split_ifs at hjob' with hid
    · rw [← Option.some.inj hjob', job.missed_id, hid]
    · exact hinv.keyed id job' hjob'
  case numbered =>
    intro id job' hjob'
    rw [hget] at hjob'
    split_ifs at hjob' with hid
    · obtain ⟨n, hn, heq⟩ := hinv.numbered _ _ hstored
      exact ⟨n, hn.trans hcounter, heq.trans hid.symm⟩
    · obtain ⟨n, hn, heq⟩ := hinv.numbered id job' hjob'
      exact ⟨n, hn.trans hcounter, heq⟩
  case owed =>
    intro id job' hjob'
    rw [hget] at hjob'
    split_ifs at hjob' with hid
    · rw [hid, ← Option.some.inj hjob']
      refine howed.fail (fun failure hfailure => ?_) hsecond ?_
      · exact Int.le_trans (hinv.past _ failure hfailure) hstart
      · rw [hfailures, Function.update_self]
    · refine (hinv.owed id job' hjob').congr (.refl _) ?_
      rw [hfailures, Function.update_of_ne hid]
  case past =>
    intro id failure hfailure
    rw [hfailures] at hfailure
    by_cases hid : id = job.id
    · rw [hid, Function.update_self, List.mem_append, List.mem_singleton] at hfailure
      rcases hfailure with hold | rfl
      · exact Int.le_trans (hinv.past _ failure hold) (Int.le_trans hstart hnow)
      · exact hnow
    · rw [Function.update_of_ne hid] at hfailure
      exact Int.le_trans (hinv.past id failure hfailure) (Int.le_trans hstart hnow)
  case latest =>
    intro id other hother
    rw [hreleased] at hother
    by_cases hid : id = job.id
    · rw [hid, Function.update_self] at hother
      cases hother
    · rw [Function.update_of_ne hid] at hother
      rw [hkept, hfailures, Function.update_of_ne hid, hget, if_neg hid]
      exact hinv.latest id other hother

/-- {lit}`Enqueue` begins a job without failed attempts. -/
theorem Backed.enqueue (hinv : Backed cfg s) (hid : job.id = itoa (s.db.idCounter + 1))
    (hcounter : s'.db.idCounter = s.db.idCounter + 1)
    (hjobs : s'.db.jobs = s.db.jobs.insert job.id job) (hattempts : job.attempts = 0)
    (hmax : job.maxAttempts = cfg.maxAttempts) (hnow : s.now ≤ s'.now)
    (hfailures : s'.failures = Function.update s.failures job.id [])
    (hkept : s'.requeued = s.requeued) (hlatest : s'.latest = s.latest) : Backed cfg s' := by
  have hfresh : s.db.jobs.get? job.id = none := by
    rw [hid]
    exact fresh_of_numbered hinv.numbered
  have hget : ∀ id, s'.db.jobs.get? id =
      if id = job.id then some job else s.db.jobs.get? id := by
    intro id
    rw [hjobs, Table.get?_insert]
  constructor
  case keyed =>
    intro id job' hjob'
    rw [hget] at hjob'
    split_ifs at hjob' with heq
    · rw [← Option.some.inj hjob', heq]
    · exact hinv.keyed id job' hjob'
  case numbered =>
    intro id job' hjob'
    rw [hget] at hjob'
    split_ifs at hjob' with heq
    · exact ⟨s.db.idCounter + 1, by omega, hid.symm.trans heq.symm⟩
    · obtain ⟨n, hn, heq'⟩ := hinv.numbered id job' hjob'
      exact ⟨n, by omega, heq'⟩
  case owed =>
    intro id job' hjob'
    rw [hget] at hjob'
    split_ifs at hjob' with heq
    · obtain rfl := Option.some.inj hjob'
      have hnone : s'.failures id = [] := by rw [hfailures, heq, Function.update_self]
      refine ⟨by rw [hnone, hattempts, List.length_nil], hmax, fun k failure _ _ hfailure => ?_⟩
      rw [hnone] at hfailure
      cases hfailure
    · refine (hinv.owed id job' hjob').congr (.refl _) ?_
      rw [hfailures, Function.update_of_ne heq]
  case past =>
    intro id failure hfailure
    rw [hfailures] at hfailure
    by_cases heq : id = job.id
    · rw [heq, Function.update_self] at hfailure
      cases hfailure
    · rw [Function.update_of_ne heq] at hfailure
      exact Int.le_trans (hinv.past id failure hfailure) hnow
  case latest =>
    intro id other hother
    rw [hlatest] at hother
    obtain ⟨hother', hnone, hagrees⟩ := hinv.latest id other hother
    rw [hkept]
    refine ⟨hother', fun hrequeued => ?_, fun hrequeued => ?_⟩
    · rw [hfailures]
      by_cases heq : id = job.id
      · rw [heq, Function.update_self]
      · rw [Function.update_of_ne heq, hnone hrequeued]
    · obtain ⟨stored, hstored, hagrees⟩ := hagrees hrequeued
      refine ⟨stored, ?_, hagrees⟩
      rw [hget, if_neg, hstored]
      rintro rfl
      rw [hfresh] at hstored
      cases hstored

/-- The requeueing calls forget the failed attempts of the jobs that they revive. -/
theorem Backed.requeue (hinv : Backed cfg s) (hreviving : Reviving s.db s'.db)
    (hcounter : s.db.idCounter ≤ s'.db.idCounter) (hnow : s.now ≤ s'.now)
    (hfailures : s'.failures = fun id =>
      if requeuedBy s.db s'.db id then [] else s.failures id)
    (hrequeued : s'.requeued = fun id => s.requeued id || requeuedBy s.db s'.db id)
    (hlatest : s'.latest = s.latest) : Backed cfg s' := by
  have hfails : ∀ id, s'.failures id =
      if requeuedBy s.db s'.db id then [] else s.failures id := fun id => by rw [hfailures]
  constructor
  case keyed =>
    intro id job' hjob'
    rcases hreviving.cases id with ⟨hsame, -⟩ | ⟨job, now, later, hjob, hnew, -⟩
    · rw [hsame] at hjob'
      exact hinv.keyed id job' hjob'
    · rw [hnew, Option.some.injEq] at hjob'
      rw [← hjob']
      exact hinv.keyed id job hjob
  case numbered =>
    intro id job' hjob'
    have hold : ∃ job, s.db.jobs.get? id = some job := by
      rcases hreviving.cases id with ⟨hsame, -⟩ | ⟨job, now, later, hjob, -⟩
      · exact ⟨job', hsame.symm.trans hjob'⟩
      · exact ⟨job, hjob⟩
    obtain ⟨job, hjob⟩ := hold
    obtain ⟨n, hn, heq⟩ := hinv.numbered id job hjob
    exact ⟨n, hn.trans hcounter, heq⟩
  case owed =>
    intro id job' hjob'
    rcases hreviving.cases id with ⟨hsame, hnot⟩ | ⟨job, now, later, hjob, hnew, hrevived⟩
    · rw [hsame] at hjob'
      refine (hinv.owed id job' hjob').congr (.refl _) ?_
      rw [hfails, hnot]
      rfl
    · have hnone : s'.failures id = [] := by rw [hfails, if_pos hrevived]
      rw [hnew, Option.some.injEq] at hjob'
      subst hjob'
      refine ⟨by rw [hnone]; rfl, (hinv.owed id job hjob).maxAttempts, ?_⟩
      intro k failure _ _ hfailure
      rw [hnone] at hfailure
      cases hfailure
  case past =>
    intro id failure hfailure
    rw [hfails] at hfailure
    split_ifs at hfailure
    · cases hfailure
    · exact Int.le_trans (hinv.past id failure hfailure) hnow
  case latest =>
    intro id other hother
    rw [hlatest] at hother
    obtain ⟨hid, hnone, hagrees⟩ := hinv.latest id other hother
    rw [hrequeued]
    rcases hreviving.cases id with ⟨hsame, hnot⟩ | ⟨job, now, later, hjob, hnew, hrevived⟩
    · have hsameFails : s'.failures id = s.failures id := by
        rw [hfails, hnot]
        rfl
      simp only [hnot, Bool.or_false, hsameFails, hsame]
      exact ⟨hid, hnone, hagrees⟩
    · simp only [hrevived, Bool.or_true]
      refine ⟨hid, fun _ => by rw [hfails, if_pos hrevived], by simp⟩

/-- Handing a job over changes nothing. -/
theorem Backed.tick (hinv : Backed cfg s) {time : Int} (htime : s.now ≤ time) :
    Backed cfg { s with now := time } :=
  hinv.quiet (quiet_of_eq rfl) (Nat.le_refl _) htime rfl fun _ _ hlatest => Or.inl ⟨hlatest, rfl⟩

/-- {lit}`Dequeue` makes the worker the latest holder of the job that it returns. -/
theorem Backed.dequeue (hinv : Backed cfg s) {jobType : GoString} {a : Outcome}
    {start later : Int} (hnow : s.now ≤ later)
    (hrun : Finishes (dequeue jobType) s.db a db') :
    Backed cfg (s.after (.dequeue jobType) a db' start later) := by
  have hcounter := idCounter_le_of_finishes hrun
  obtain ⟨-, ⟨hjobs, hnone⟩ | ⟨job, now, rfl, hwrites⟩⟩ := dequeue_effect hinv.keyed hrun
  · have hafter : s.after (.dequeue jobType) a db' start later = { s with db := db', now := later } := by
      cases a with
      | job job =>
          cases job with
          | none => rfl
          | some job => exact absurd rfl (hnone job)
      | _ => rfl
    rw [hafter]
    exact hinv.quiet (quiet_of_eq hjobs) hcounter hnow rfl
      fun _ _ hlatest => Or.inl ⟨hlatest, rfl⟩
  · have hquiet : Quiet s.db db' :=
      @quiet_of_insert _ _ job (job.taken now) rfl hwrites.stored ⟨rfl, rfl, rfl⟩ hwrites.jobs
    refine hinv.quiet hquiet hcounter hnow rfl ?_
    intro id other hother
    simp only [Clocked.after] at hother ⊢
    by_cases hid : id = (job.taken now).id
    · rw [hid, Function.update_self, Option.some.injEq] at hother
      subst hother
      refine Or.inr ⟨hid.symm, by rw [hid, Function.update_self], ?_⟩
      rw [hwrites.get, if_pos]
      exact hid
    · rw [Function.update_of_ne hid] at hother
      exact Or.inl ⟨hother, by rw [Function.update_of_ne hid]⟩

/-- Every step in which no holder touches a job that has been requeued keeps the invariant. -/
theorem Backed.step (hinv : Backed cfg s) {action : Action} (hok : s.Undisputed action)
    (hstep : s.Step cfg action s') : Backed cfg s' := by
  cases action with
  | hand job =>
      obtain ⟨time, htime, -, rfl⟩ := hstep
      exact hinv.tick htime
  | call op =>
      obtain ⟨start, a, db', later, hstart, helapses, rfl⟩ := hstep
      obtain ⟨hlatest, hdisputed⟩ := hok
      have hrun := helapses.finishes
      have hcounter := idCounter_le_of_finishes hrun
      have hnow : s.now ≤ later := Int.le_trans hstart helapses.le
      cases op with
      | enqueue jobType workspaceID referenceID metadata =>
          obtain ⟨job, rfl, hid, hnext, hjobs, -, -, -, hattempts, hmax, -⟩ := enqueue_effect hrun
          exact hinv.enqueue hid hnext hjobs hattempts hmax hnow rfl rfl rfl
      | dequeue jobType => exact hinv.dequeue hnow hrun
      | complete jobType job =>
          obtain ⟨now, hjobs, -⟩ := complete_effect hrun
          exact @Backed.release _ _ _ job hinv (hlatest _ rfl) (hdisputed _ rfl _ rfl)
            (job.finished now) rfl ⟨rfl, rfl, rfl⟩ hjobs hcounter hnow rfl rfl rfl
      | fail jobType job jobErr =>
          obtain ⟨first, second, hsecond, hjobs⟩ := fail_elapses helapses
          exact @Backed.fail _ _ _ job hinv (hlatest _ rfl) (hdisputed _ rfl _ rfl) jobErr first
            second start hstart hsecond hjobs hcounter helapses.le rfl rfl rfl
      | putBack jobType job =>
          obtain ⟨hjobs, -⟩ := putBack_effect hrun
          exact @Backed.release _ _ _ job hinv (hlatest _ rfl) (hdisputed _ rfl _ rfl)
            { job with status := .pending } rfl ⟨rfl, rfl, rfl⟩ hjobs hcounter hnow rfl rfl rfl
      | recoverStuckJobs jobType =>
          have hquiet : Quiet s.db db' :=
            recoverStuckJobs_touches (R := Quiet) (fun _ _ _ => Quiet.trans)
              (fun _ _ hjobs _ => quiet_of_eq hjobs) (fun _ _ _ _ hwrites _ => hwrites.quiet)
              hinv.keyed hrun
          exact hinv.quiet hquiet hcounter hnow rfl fun _ _ hlatest => Or.inl ⟨hlatest, rfl⟩
      | requeueDead jobType jobID =>
          have hreviving : Reviving s.db db' := by
            obtain ⟨-, hjobs | ⟨job, now, later, hdead, hwrites⟩⟩ :=
              requeueDead_effect hinv.keyed hrun
            · exact reviving_of_eq hjobs
            · exact hwrites.reviving hdead
          exact hinv.requeue hreviving hcounter hnow rfl rfl rfl
      | requeueAllDead jobType =>
          have hreviving : Reviving s.db db' :=
            requeueAllDead_touches (R := Reviving) (fun _ _ _ => Reviving.trans)
              (fun _ _ hjobs _ => reviving_of_eq hjobs)
              (fun _ _ _ _ _ hdead hwrites _ => hwrites.reviving hdead) hinv.keyed hrun
          exact hinv.requeue hreviving hcounter hnow rfl rfl rfl

/-- In every run of calls that do not overlap and meet no error, in which only the latest holder
of a job completes it, fails it, puts it back or hands it over, and in which a holder does not
complete, fail or put back a job that has been requeued since it dequeued it: when a job is
handed to the processing function, the clock has advanced by the backoff of each failed attempt
since the job was enqueued or requeued that left attempts. -/
theorem backoff_of_run {s s' : Clocked} {job : Job}
    (hrun : Run (Clocked.Step cfg) Clocked.Undisputed Clocked.initial s)
    (hstep : s.Step cfg (.hand job) s') (hlatest : s.Latest (.hand job)) :
    s.Waited cfg job.id s'.now := by
  have hinv : Backed cfg s := hrun.invariant (backed_initial cfg)
    fun _ _ _ hinv hok hstep => hinv.step hok hstep
  obtain ⟨time, -, hdue, rfl⟩ := hstep
  obtain ⟨-, hnone, hagrees⟩ := hinv.latest job.id job hlatest
  cases hrequeued : s.requeued job.id with
  | true =>
      intro k failure _ _ hfailure
      rw [hnone hrequeued] at hfailure
      cases hfailure
  | false =>
      obtain ⟨stored, hstored, hsame⟩ := hagrees hrequeued
      have hwaited := (hinv.owed _ _ hstored).waited
      rw [← hsame.nextRunAt] at hwaited
      exact hwaited.mono hdue

end Steps
-- The longest wait of twenty attempts fits into a 64-bit number of nanoseconds.
example : int64 (backoff 20 * 10 ^ 9) = backoff 20 * 10 ^ 9 := by decide

/-! ## Executed runs -/

theorem elapses_runAlone {α : Type} (now : Int) (p : Body α) (db : Redis) :
    Elapses p db now (runAlone now p db).1 (runAlone now p db).2 now := by
  induction p generalizing db with
  | ret a => exact .ret a db now
  | cmd c k ih => exact .cmd now (Int.le_refl now) (ih _ _)

namespace Clocked

instance (s : Clocked) (action : Action) : Decidable (s.Latest action) :=
  match action with
  | .call op => inferInstanceAs (Decidable (∀ entry ∈ op.heldJob, s.latest entry.2.id = some entry.2))
  | .hand job => inferInstanceAs (Decidable (s.latest job.id = some job))

/-- The state after an action at a time. -/
def act (cfg : Config) (s : Clocked) (now : Int) : Action → Clocked
  | .call op =>
      s.after op (runAlone now (bodyOf cfg op) s.db).1 (runAlone now (bodyOf cfg op) s.db).2 now now
  | .hand _ => { s with now := now }

/-- Nothing is handed over too early. -/
def due (now : Int) : Action → Bool
  | .call _ => true
  | .hand job => job.nextRunAt ≤ now

/-- Take actions at given times as long as they pass a check. -/
def play (cfg : Config) (check : Clocked → Action → Bool) (s : Clocked) :
    List (Int × (Clocked → Action)) → Option Clocked
  | [] => some s
  | (now, choose) :: actions =>
      if s.now ≤ now ∧ due now (choose s) = true ∧ check s (choose s) = true then
        play cfg check (s.act cfg now (choose s)) actions
      else none

/-- An action at a time is a step. -/
theorem step_act {cfg : Config} {s : Clocked} {now : Int} {action : Action} (hnow : s.now ≤ now)
    (hdue : due now action = true) : s.Step cfg action (s.act cfg now action) := by
  cases action with
  | call op => exact ⟨now, _, _, now, hnow, elapses_runAlone now _ _, rfl⟩
  | hand job => exact ⟨now, hnow, of_decide_eq_true hdue, rfl⟩

/-- Played actions are a run. -/
theorem run_of_play (cfg : Config) {check : Clocked → Action → Bool}
    {ok : Clocked → Action → Prop} (hok : ∀ s action, check s action = true → ok s action)
    {s s' : Clocked} {actions : List (Int × (Clocked → Action))}
    (hplay : s.play cfg check actions = some s') : Run (Step cfg) ok s s' := by
  induction actions generalizing s with
  | nil =>
      obtain rfl := Option.some.inj hplay
      exact Run.refl _
  | cons first actions ih =>
      rw [play] at hplay
      split_ifs at hplay with hpass
      obtain ⟨hnow, hdue, hcheck⟩ := hpass
      exact ((Run.refl s).snoc (step_act hnow hdue) (hok _ _ hcheck)).trans (ih hplay)

/-- The checks of the two kinds of runs. -/
def isLatest (s : Clocked) (action : Action) : Bool :=
  s.Latest action

def isUndisputed (s : Clocked) : Action → Bool
  | .call op => s.Latest (.call op) ∧ ∀ entry ∈ op.heldJob, s.requeued entry.2.id = false
  | .hand job => s.Latest (.hand job)

theorem undisputed_of_isUndisputed (s : Clocked) (action : Action)
    (hcheck : s.isUndisputed action = true) : s.Undisputed action := by
  cases action with
  | call op =>
      obtain ⟨hlatest, hdisputed⟩ := of_decide_eq_true hcheck
      refine ⟨hlatest, ?_⟩
      rintro _ ⟨⟩
      exact hdisputed
  | hand job => exact ⟨of_decide_eq_true hcheck, by simp⟩

end Clocked

/-- Two attempts for every job. -/
def twoAttempts : Config :=
  ⟨2, 600⟩

/-- The value of the latest holder of the first job. -/
def firstHeld (s : Clocked) : Job :=
  (s.latest "1".toList).getD
    ⟨[], [], [], [], .pending, 0, 0, [], [], 0, 0, 0⟩

/-- A job is enqueued, taken, and fails at once; half a minute later it is taken again. -/
def retried : List (Int × (Clocked → Action)) :=
  [(0, fun _ => .call (.enqueue "diff".toList "w".toList "r".toList [])),
   (0, fun _ => .call (.dequeue "diff".toList)),
   (0, fun s => .hand (firstHeld s)),
   (0, fun s => .call (.fail "diff".toList (firstHeld s) [])),
   (30, fun _ => .call (.dequeue "diff".toList))]

/-- Then its worker is slow and fails after the job has been recovered; the copy in the pending
list is taken from the dead job, the worker is slow again, and the job is recovered as dead and
requeued before the worker fails and the job is taken once more. -/
def disputed : List (Int × (Clocked → Action)) :=
  retried ++
    [(30, fun s => .hand (firstHeld s)),
     (630, fun _ => .call (.recoverStuckJobs "diff".toList)),
     (631, fun s => .call (.fail "diff".toList (firstHeld s) [])),
     (631, fun _ => .call (.dequeue "diff".toList)),
     (631, fun s => .hand (firstHeld s)),
     (1231, fun _ => .call (.recoverStuckJobs "diff".toList)),
     (1232, fun _ => .call (.requeueDead "diff".toList "1".toList)),
     (1233, fun s => .call (.fail "diff".toList (firstHeld s) [])),
     (1233, fun _ => .call (.dequeue "diff".toList))]

/-- The state after played actions, if it passes a test. -/
theorem exists_of_play (cfg : Config) (check : Clocked → Action → Bool)
    (actions : List (Int × (Clocked → Action))) (test : Clocked → Bool)
    (htest : (Clocked.initial.play cfg check actions).any test = true) :
    ∃ s, Clocked.initial.play cfg check actions = some s ∧ test s = true := by
  cases hplay : Clocked.initial.play cfg check actions with
  | none => simp [hplay] at htest
  | some s => exact ⟨s, rfl, by simpa [hplay] using htest⟩

/-- A job that has failed once can be handed over after half a minute. -/
theorem backoff_of_run_retried :
    ∃ s, Run (Clocked.Step twoAttempts) Clocked.Undisputed Clocked.initial s ∧
      s.failures (firstHeld s).id = [0] ∧
      s.Waited twoAttempts (firstHeld s).id 30 := by
  obtain ⟨s, hplay, htest⟩ := exists_of_play twoAttempts Clocked.isUndisputed retried
    (fun s => s.now ≤ 30 ∧ Clocked.due 30 (.hand (firstHeld s)) = true ∧
      s.isLatest (.hand (firstHeld s)) = true ∧ s.failures (firstHeld s).id = [0])
    (by decide +kernel)
  obtain ⟨hnow, hdue, hlatest, hfailures⟩ := of_decide_eq_true htest
  have hrun := Clocked.run_of_play twoAttempts Clocked.undisputed_of_isUndisputed hplay
  exact ⟨s, hrun, hfailures,
    backoff_of_run hrun (Clocked.step_act hnow hdue) (of_decide_eq_true hlatest)⟩

/-- With only the latest holders at work, a job that has failed once since it was requeued is
handed over in the same second. -/
theorem handed_early :
    ∃ s s', Run (Clocked.Step twoAttempts) Clocked.Latest Clocked.initial s ∧
      s.Step twoAttempts (.hand (firstHeld s)) s' ∧ s.Latest (.hand (firstHeld s)) ∧
      s.failures (firstHeld s).id = [1233] ∧ s'.now = 1233 ∧
      ¬s.Waited twoAttempts (firstHeld s).id s'.now := by
  obtain ⟨s, hplay, htest⟩ := exists_of_play twoAttempts Clocked.isLatest disputed
    (fun s => s.now ≤ 1233 ∧ Clocked.due 1233 (.hand (firstHeld s)) = true ∧
      s.isLatest (.hand (firstHeld s)) = true ∧ s.failures (firstHeld s).id = [1233])
    (by decide +kernel)
  obtain ⟨hnow, hdue, hlatest, hfailures⟩ := of_decide_eq_true htest
  have hrun : Run (Clocked.Step twoAttempts) Clocked.Latest Clocked.initial s :=
    Clocked.run_of_play twoAttempts (fun _ _ => of_decide_eq_true) hplay
  refine ⟨s, _, hrun, Clocked.step_act hnow hdue, of_decide_eq_true hlatest, hfailures, rfl, ?_⟩
  intro hwaited
  have hfirst : (1233 : Int) + 30 * 2 ^ (1 - 1) ≤ 1233 :=
    hwaited 1 1233 (by decide) (by decide) (by rw [hfailures]; rfl)
  exact absurd hfirst (by decide)

end Queue
end Veilence
