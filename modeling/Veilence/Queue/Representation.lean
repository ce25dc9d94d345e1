import Veilence.Foundation.Transition
import Veilence.Queue.Filing

/-!
# The representation of the queue

Runs of calls that do not overlap and meet no error.  A history records, besides the
database, what has been asked of the queue: which jobs were enqueued and completed, which
values workers hold, and how often each job has failed since it was enqueued or requeued.

Main results:

- Theorem {lit}`Recorded.step`: every call keeps the records in step with the history.
- Theorem {lit}`represented_of_run`: every job that is not completed is in one container,
  once, the one that its status names; jobs that are pending or processing have attempts
  left; and a job enters the dead set exactly when it fails for the last time allowed.
-/

namespace Veilence
namespace Queue

open Go Foundation

/-! ## Histories -/

/-- The database and what has been asked of the queue. -/
structure History where
  db : Redis
  enqueued : List Item
  completed : List GoString
  held : List (GoString × Job)
  fails : GoString → Nat

namespace History

/-- Before the first call. -/
def initial : History :=
  ⟨.empty, [], [], [], fun _ => 0⟩

/-- The values that are still held when the job is no longer. -/
def release (h : History) (id : GoString) : List (GoString × Job) :=
  h.held.filter fun e => e.2.id ≠ id

/-- The fails of the jobs that are still counted when the dead set of a type has changed. -/
def forgive (h : History) (jobType : GoString) (db' : Redis) (id : GoString) : Nat :=
  if id ∈ (h.db.zsets (.dead jobType)).keys ∧ id ∉ (db'.zsets (.dead jobType)).keys then 0
  else h.fails id

/-- The history after a call. -/
def after (h : History) (op : Op) (a : Outcome) (db' : Redis) : History :=
  match op, a with
  | .enqueue jobType _ _ _, .id id =>
      { h with
        db := db'
        enqueued := (jobType, id) :: h.enqueued
        fails := Function.update h.fails id 0 }
  | .dequeue jobType, .job (some job) =>
      { h with db := db', held := (jobType, job) :: h.release job.id }
  | .complete _ job, _ =>
      { h with db := db', completed := job.id :: h.completed, held := h.release job.id }
  | .fail _ job _, _ =>
      { h with
        db := db'
        held := h.release job.id
        fails := Function.update h.fails job.id (h.fails job.id + 1) }
  | .putBack _ job, _ => { h with db := db', held := h.release job.id }
  | .recoverStuckJobs _, _ =>
      { h with
        db := db'
        held := h.held.filter fun e => e.2.id ∈ (db'.zsets (.processing e.1)).keys }
  | .requeueDead jobType _, _ => { h with db := db', fails := h.forgive jobType db' }
  | .requeueAllDead jobType, _ => { h with db := db', fails := h.forgive jobType db' }
  | _, _ => { h with db := db' }

/-- A call of the queue that runs alone and meets no error. -/
def Call (cfg : Config) (h : History) (op : Op) (h' : History) : Prop :=
  ∃ a db', Finishes (bodyOf cfg op) h.db a db' ∧ h' = h.after op a db'

/-- A worker completes, fails and puts back what it holds, and a job is requeued with its
own type. -/
def Allowed (h : History) (op : Op) : Prop :=
  (∀ entry, op.heldJob = some entry → entry ∈ h.held) ∧
    ∀ jobType jobID, op = .requeueDead jobType jobID →
      ∀ x ∈ h.enqueued, x.2 = jobID → x.1 = jobType

@[simp]
theorem after_db (h : History) (op : Op) (a : Outcome) (db' : Redis) : (h.after op a db').db = db' := by
  unfold after
  split <;> rfl

end History

/-! ## What holds of a history -/

/-- How often a job ID occurs in the containers of a type. -/
def occurrences (db : Redis) (x : Item) : Nat :=
  (db.lists (.pending x.1)).count x.2 + (db.zsets (.processing x.1)).keys.count x.2 +
    (db.zsets (.dead x.1)).keys.count x.2

/-- Every job that is enqueued and not completed is in one container of its type, once,
which is the one that its stored status names, and in no container of another type; and it
has attempts left while it is pending or processing. -/
structure Represented (cfg : Config) (h : History) : Prop where
  once : ∀ x ∈ h.enqueued, x.2 ∉ h.completed → occurrences h.db x = 1
  foreign : ∀ x ∈ h.enqueued, x.2 ∉ h.completed → ∀ type, type ≠ x.1 →
    occurrences h.db (type, x.2) = 0
  named : ∀ x ∈ h.enqueued, x.2 ∉ h.completed → ∃ job, h.db.jobs.get? x.2 = some job ∧
    (x.2 ∈ h.db.lists (.pending x.1) ↔ job.status = .pending) ∧
    (x.2 ∈ (h.db.zsets (.processing x.1)).keys ↔ job.status = .processing) ∧
    (x.2 ∈ (h.db.zsets (.dead x.1)).keys ↔ job.status = .dead)
  attempts : ∀ x ∈ h.enqueued, ∀ job, h.db.jobs.get? x.2 = some job →
    x.2 ∈ h.db.lists (.pending x.1) ∨ x.2 ∈ (h.db.zsets (.processing x.1)).keys →
    job.attempts < cfg.maxAttempts

/-- A job is not in the dead set of its type and comes into it. -/
def EntersDeadSet (h h' : History) (x : Item) : Prop :=
  x.2 ∉ (h.db.zsets (.dead x.1)).keys ∧ x.2 ∈ (h'.db.zsets (.dead x.1)).keys

/-- The call is the fail of the job that uses up its attempts. -/
def IsLastFail (cfg : Config) (h : History) (op : Op) (x : Item) : Prop :=
  ∃ jobType job jobErr, op = .fail jobType job jobErr ∧ job.id = x.2 ∧
    h.fails x.2 + 1 = cfg.maxAttempts

/-! ## The invariant -/

/-- The attempts of a job are its fails, with some left unless it is dead. -/
def Attempted (cfg : Config) (fails : Nat) (job : Job) : Prop :=
  job.maxAttempts = cfg.maxAttempts ∧
    match job.status with
    | .pending | .processing => job.attempts = fails ∧ job.attempts < cfg.maxAttempts
    | .completed | .dead => True
    | .failed => False

/-- The records are filed and in step with the history. -/
structure InStep (cfg : Config) (h : History) : Prop where
  filed : Filed h.db
  enqueued : ∀ x : Item, x ∈ h.enqueued ↔ ∃ job, h.db.jobs.get? x.2 = some job ∧ job.type = x.1
  completed : ∀ id, id ∈ h.completed ↔
    ∃ job, h.db.jobs.get? id = some job ∧ job.status = .completed
  attempted : ∀ id job, h.db.jobs.get? id = some job → Attempted cfg (h.fails id) job
  held : ∀ e ∈ h.held, h.db.jobs.get? e.2.id = some e.2 ∧ e.2.type = e.1 ∧
    e.2.status = .processing

/-- The invariant holds before the first call. -/
theorem inStep_initial (cfg : Config) : InStep cfg History.initial where
  filed := filed_empty
  enqueued := by simp [History.initial, Redis.empty]
  completed := by simp [History.initial, Redis.empty]
  attempted := by simp [History.initial, Redis.empty]
  held := by simp [History.initial]

section Steps

variable {cfg : Config} {h h' : History} {db' : Redis} {job job' : Job} {a : Outcome}

/-- The invariant after records have been replaced. -/
theorem InStep.replace (hinv : InStep cfg h) (hfiled : Filed h'.db)
    (henqueued : h'.enqueued = h.enqueued)
    (hrecords : ∀ id,
      (h'.db.jobs.get? id = h.db.jobs.get? id ∧ (id ∈ h'.completed ↔ id ∈ h.completed) ∧
        h'.fails id = h.fails id) ∨
      ∃ job job', h.db.jobs.get? id = some job ∧ h'.db.jobs.get? id = some job' ∧
        job'.type = job.type ∧ (id ∈ h'.completed ↔ job'.status = .completed) ∧
        Attempted cfg (h'.fails id) job')
    (hheld : ∀ e ∈ h'.held, e ∈ h.held ∧ h'.db.jobs.get? e.2.id = h.db.jobs.get? e.2.id ∨
      h'.db.jobs.get? e.2.id = some e.2 ∧ e.2.type = e.1 ∧ e.2.status = .processing) :
    InStep cfg h' where
  filed := hfiled
  enqueued := by
    intro x
    rw [henqueued, hinv.enqueued]
    rcases hrecords x.2 with ⟨hsame, _, _⟩ | ⟨job, job', hjob, hjob', htype, _, _⟩
    · rw [hsame]
    · simp [hjob, hjob', htype]
  completed := by
    intro id
    rcases hrecords id with ⟨hsame, hcompleted, _⟩ | ⟨job, job', _, hjob', _, hcompleted, _⟩
    · rw [hcompleted, hinv.completed, hsame]
    · simp [hcompleted, hjob']
  attempted := by
    intro id stored hstored
    rcases hrecords id with ⟨hsame, _, hfails⟩ | ⟨job, job', _, hjob', _, _, hattempted⟩
    · rw [hfails]
      exact hinv.attempted id stored (hsame ▸ hstored)
    · rw [hjob'] at hstored
      rw [← Option.some.inj hstored]
      exact hattempted
  held := by
    intro e he
    rcases hheld e he with ⟨hmem, hsame⟩ | hnew
    · rw [hsame]
      exact hinv.held e hmem
    · exact hnew

/-- The invariant after one record has been replaced and its value is released. -/
theorem InStep.rewrite (hinv : InStep cfg h) (hfiled : Filed h'.db)
    (hrewrites : Rewrites h.db h'.db job job') (henqueued : h'.enqueued = h.enqueued)
    (hcompleted : ∀ id, id ≠ job.id → (id ∈ h'.completed ↔ id ∈ h.completed))
    (hfails : ∀ id, id ≠ job.id → h'.fails id = h.fails id)
    (hcompleted' : job.id ∈ h'.completed ↔ job'.status = .completed)
    (hattempted : Attempted cfg (h'.fails job.id) job')
    (hheld : ∀ e ∈ h'.held, e ∈ h.release job.id ∨
      h'.db.jobs.get? e.2.id = some e.2 ∧ e.2.type = e.1 ∧ e.2.status = .processing) :
    InStep cfg h' := by
  apply hinv.replace hfiled henqueued
  · intro id
    by_cases hid : id = job.id
    · subst hid
      exact Or.inr ⟨job, job', hrewrites.stored, by rw [hrewrites.get, if_pos rfl],
        hrewrites.type, hcompleted', hattempted⟩
    · refine Or.inl ⟨?_, hcompleted id hid, hfails id hid⟩
      rw [hrewrites.get, if_neg hid]
  · intro e he
    rcases hheld e he with hmem | hnew
    · left
      obtain ⟨hmem, hid⟩ := List.mem_filter.mp hmem
      refine ⟨hmem, ?_⟩
      rw [hrewrites.get, if_neg (by simpa using hid)]
    · exact Or.inr hnew

/-- A held value is the stored one. -/
theorem InStep.stored (hinv : InStep cfg h) {jobType : GoString}
    (hheld : (jobType, job) ∈ h.held) :
    h.db.jobs.get? job.id = some job ∧ job.type = jobType ∧ job.status = .processing :=
  hinv.held _ hheld

/-- A job that is pending or processing has as many attempts as fails, and some left. -/
theorem InStep.attempts (hinv : InStep cfg h) (hstored : h.db.jobs.get? job.id = some job)
    (hstatus : job.status = .pending ∨ job.status = .processing) :
    job.maxAttempts = cfg.maxAttempts ∧ job.attempts = h.fails job.id ∧
      job.attempts < cfg.maxAttempts := by
  obtain ⟨hmax, hattempts⟩ := hinv.attempted _ _ hstored
  rcases hstatus with hstatus | hstatus
  · rw [hstatus] at hattempts
    exact ⟨hmax, hattempts⟩
  · rw [hstatus] at hattempts
    exact ⟨hmax, hattempts⟩

/-- A job that is not completed has not been completed. -/
theorem InStep.not_completed (hinv : InStep cfg h) (hstored : h.db.jobs.get? job.id = some job)
    (hstatus : job.status ≠ .completed) : job.id ∉ h.completed := by
  simp [hinv.completed, hstored, hstatus]

/-- A waiting or working job with its attempts. -/
theorem attempted_of_live {fails : Nat} (hstatus : job.status = .pending ∨ job.status = .processing)
    (hmax : job.maxAttempts = cfg.maxAttempts) (hattempts : job.attempts = fails)
    (hlt : job.attempts < cfg.maxAttempts) : Attempted cfg fails job := by
  refine ⟨hmax, ?_⟩
  rcases hstatus with hstatus | hstatus
  · rw [hstatus]
    exact ⟨hattempts, hlt⟩
  · rw [hstatus]
    exact ⟨hattempts, hlt⟩

/-- No job enters the dead set when every dead record was there before. -/
theorem not_enters (hfiled : Filed h.db) (hfiled' : Filed h'.db)
    (hold : ∀ id job, h'.db.jobs.get? id = some job → job.status = .dead →
      h.db.jobs.get? id = some job) (x : Item) : ¬EntersDeadSet h h' x := by
  rintro ⟨hnot, hdead⟩
  obtain ⟨job, hjob, htype, hstatus⟩ := (hfiled'.dead _ _).mp hdead
  exact hnot ((hfiled.dead _ _).mpr ⟨job, hold _ _ hjob hstatus, htype, hstatus⟩)

/-- {lit}`Enqueue` keeps the invariant. -/
theorem InStep.enqueue (hmax : 1 ≤ cfg.maxAttempts) (hinv : InStep cfg h)
    {jobType workspaceID referenceID : GoString} {metadata : List (GoString × GoString)}
    (hrun : Finishes (enqueue cfg jobType workspaceID referenceID metadata) h.db a db') :
    InStep cfg (h.after (.enqueue jobType workspaceID referenceID metadata) a db') ∧
      ∀ x, ¬EntersDeadSet h (h.after (.enqueue jobType workspaceID referenceID metadata) a db') x := by
  obtain ⟨job, rfl, hfresh, hget, htype, hstatus, hzero, hjobMax, hfiled⟩ :=
    filed_enqueue hinv.filed hrun
  have hother : ∀ id stored, h.db.jobs.get? id = some stored → id ≠ job.id := by
    rintro id stored hstored rfl
    simp [hfresh] at hstored
  refine ⟨?_, ?_⟩
  · constructor
    case filed => exact hfiled
    case enqueued =>
      rintro ⟨type, id⟩
      simp only [History.after, List.mem_cons, hget]
      by_cases hid : id = job.id
      · subst hid
        have hnot : (type, job.id) ∉ h.enqueued := by
          rw [hinv.enqueued]
          simp [hfresh]
        simp [hnot, htype, eq_comm]
      · simp [hid, hinv.enqueued]
    case completed =>
      intro id
      simp only [History.after, hget, hinv.completed]
      by_cases hid : id = job.id
      · simp [hid, hfresh, hstatus]
      · simp [hid]
    case attempted =>
      intro id stored hstored
      simp only [History.after, hget] at hstored ⊢
      split_ifs at hstored with hid
      · obtain rfl := Option.some.inj hstored
        rw [hid, Function.update_self]
        exact attempted_of_live (Or.inl hstatus) hjobMax hzero (by omega)
      · rw [Function.update_of_ne hid]
        exact hinv.attempted id stored hstored
    case held =>
      intro e he
      obtain ⟨hstored, hrest⟩ := hinv.held e he
      refine ⟨?_, hrest⟩
      simp only [History.after, hget]
      rw [if_neg (hother _ _ hstored), hstored]
  · apply not_enters hinv.filed hfiled
    intro id stored hstored hdead
    rw [History.after_db, hget] at hstored
    split_ifs at hstored with hid
    · obtain rfl := Option.some.inj hstored
      simp [hstatus] at hdead
    · exact hstored

/-- No job enters the dead set when a record is replaced by one that is not dead. -/
theorem not_enters_of_rewrites (hfiled : Filed h.db) (hfiled' : Filed h'.db)
    (hrewrites : Rewrites h.db h'.db job job') (hstatus : job'.status ≠ .dead) (x : Item) :
    ¬EntersDeadSet h h' x := by
  refine not_enters hfiled hfiled' (fun id stored hstored hdead => ?_) x
  rw [hrewrites.get] at hstored
  split_ifs at hstored
  · obtain rfl := Option.some.inj hstored
    exact absurd hdead hstatus
  · exact hstored

/-- {lit}`Dequeue` keeps the invariant. -/
theorem InStep.dequeue (hinv : InStep cfg h) {jobType : GoString}
    (hrun : Finishes (dequeue jobType) h.db a db') :
    InStep cfg (h.after (.dequeue jobType) a db') ∧
      ∀ x, ¬EntersDeadSet h (h.after (.dequeue jobType) a db') x := by
  rcases filed_dequeue hinv.filed hrun with ⟨rfl, rfl⟩ |
    ⟨job, job', rfl, hrewrites, htype, hstatus, hattempts, hmax, hstatus', hfiled⟩
  · exact ⟨hinv, fun x henters => henters.1 henters.2⟩
  · have hstored := hrewrites.stored
    obtain ⟨hjobMax, hfails, hlt⟩ := hinv.attempts hstored (Or.inl hstatus)
    refine ⟨?_, not_enters_of_rewrites hinv.filed hfiled hrewrites (by simp [hstatus'])⟩
    refine hinv.rewrite hfiled hrewrites rfl (fun _ _ => Iff.rfl) (fun _ _ => rfl) ?_ ?_ ?_
    · have hnot := hinv.not_completed hstored (by simp [hstatus])
      exact iff_of_false hnot (by simp [hstatus'])
    · exact attempted_of_live (Or.inr hstatus') (hmax.trans hjobMax) (hattempts.trans hfails)
        (by omega)
    · intro e he
      simp only [History.after, List.mem_cons] at he
      rcases he with rfl | he
      · right
        refine ⟨?_, hrewrites.type.trans htype, hstatus'⟩
        simp only [hrewrites.id]
        exact (hrewrites.get _).trans (if_pos rfl)
      · left
        rwa [hrewrites.id] at he

/-- {lit}`Complete` keeps the invariant. -/
theorem InStep.complete (hinv : InStep cfg h) {jobType : GoString}
    (hheld : (jobType, job) ∈ h.held) (hrun : Finishes (complete job) h.db a db') :
    InStep cfg (h.after (.complete jobType job) a db') ∧
      ∀ x, ¬EntersDeadSet h (h.after (.complete jobType job) a db') x := by
  obtain ⟨hstored, _, hstatus⟩ := hinv.stored hheld
  obtain ⟨hjobMax, _, _⟩ := hinv.attempts hstored (Or.inr hstatus)
  obtain ⟨job', hrewrites, hstatus', hmax, hfiled⟩ :=
    filed_complete hinv.filed hstored hstatus hrun
  refine ⟨?_, not_enters_of_rewrites hinv.filed hfiled hrewrites (by simp [hstatus'])⟩
  refine hinv.rewrite hfiled hrewrites rfl (fun id hid => ?_) (fun _ _ => rfl) ?_ ?_ ?_
  · simp [History.after, hid]
  · simp [History.after, hstatus']
  · exact ⟨hmax.trans hjobMax, by rw [hstatus']; trivial⟩
  · exact fun e he => Or.inl he

/-- {lit}`Fail` keeps the invariant, and the job enters the dead set on its last fail. -/
theorem InStep.fail (hinv : InStep cfg h) {jobType jobErr : GoString}
    (hheld : (jobType, job) ∈ h.held) (hrun : Finishes (fail job jobErr) h.db a db') :
    InStep cfg (h.after (.fail jobType job jobErr) a db') ∧
      ∀ x ∈ h.enqueued, (EntersDeadSet h (h.after (.fail jobType job jobErr) a db') x ↔
        job.id = x.2 ∧ h.fails x.2 + 1 = cfg.maxAttempts) := by
  obtain ⟨hstored, _, hstatus⟩ := hinv.stored hheld
  obtain ⟨hjobMax, hfails, hlt⟩ := hinv.attempts hstored (Or.inr hstatus)
  obtain ⟨job', hrewrites, hattempts, hmax, hstatus', hfiled⟩ :=
    filed_fail hinv.filed hstored hstatus hrun
  have hnot := hinv.not_completed hstored (by simp [hstatus])
  refine ⟨?_, ?_⟩
  · refine hinv.rewrite hfiled hrewrites rfl (fun _ _ => Iff.rfl)
      (fun id hid => Function.update_of_ne hid _ _) ?_ ?_ ?_
    · refine iff_of_false hnot ?_
      rw [hstatus']
      split_ifs <;> simp
    · simp only [History.after, Function.update_self]
      split_ifs at hstatus' with hdead
      · exact ⟨hmax.trans hjobMax, by rw [hstatus']; trivial⟩
      · exact attempted_of_live (Or.inl hstatus') (hmax.trans hjobMax) (by omega) (by omega)
    · exact fun e he => Or.inl he
  · rintro ⟨type, id⟩ henqueued
    obtain ⟨stored, hget, htype⟩ := (hinv.enqueued _).mp henqueued
    simp only at hget htype
    simp only [EntersDeadSet, hinv.filed.dead, hfiled.dead, History.after, hrewrites.hasStatus,
      hasStatus_iff hget]
    by_cases hid : id = job.id
    · subst hid
      rw [hstored] at hget
      obtain rfl := Option.some.inj hget
      have hlast : job'.status = .dead ↔ h.fails job.id + 1 = cfg.maxAttempts := by
        rw [hstatus']
        split_ifs with hdead
        · exact iff_of_true rfl (by omega)
        · exact iff_of_false (by simp) (by omega)
      simp [hstatus, htype, hlast]
    · simp [hid, Ne.symm hid]

/-- The put-back keeps the invariant. -/
theorem InStep.putBack (hinv : InStep cfg h) {jobType : GoString}
    (hheld : (jobType, job) ∈ h.held) (hrun : Finishes (putBack jobType job) h.db a db') :
    InStep cfg (h.after (.putBack jobType job) a db') ∧
      ∀ x, ¬EntersDeadSet h (h.after (.putBack jobType job) a db') x := by
  obtain ⟨hstored, rfl, hstatus⟩ := hinv.stored hheld
  obtain ⟨hjobMax, hfails, hlt⟩ := hinv.attempts hstored (Or.inr hstatus)
  obtain ⟨job', hrewrites, hattempts, hmax, hstatus', hfiled⟩ :=
    filed_putBack hinv.filed hstored hstatus hrun
  have hnot := hinv.not_completed hstored (by simp [hstatus])
  refine ⟨?_, not_enters_of_rewrites hinv.filed hfiled hrewrites (by simp [hstatus'])⟩
  refine hinv.rewrite hfiled hrewrites rfl (fun _ _ => Iff.rfl) (fun _ _ => rfl) ?_ ?_ ?_
  · exact iff_of_false hnot (by simp [hstatus'])
  · exact attempted_of_live (Or.inl hstatus') (hmax.trans hjobMax) (hattempts.trans hfails)
      (by omega)
  · exact fun e he => Or.inl he

/-- No job enters the dead set when records are replaced by pending ones. -/
theorem not_enters_of_changed {P : Job → Job → Prop} (hfiled : Filed h.db) (hfiled' : Filed h'.db)
    (hchanged : Changed P h.db h'.db) (hpending : ∀ job job', P job job' → job'.status = .pending)
    (x : Item) : ¬EntersDeadSet h h' x := by
  refine not_enters hfiled hfiled' (fun id stored hstored hdead => ?_) x
  rcases hchanged id with hsame | ⟨job, job', _, hjob', hP⟩
  · rw [← hsame, hstored]
  · rw [hjob'] at hstored
    obtain rfl := Option.some.inj hstored
    simp [hpending _ _ hP] at hdead

/-- {lit}`RecoverStuckJobs` keeps the invariant. -/
theorem InStep.recoverStuckJobs (hinv : InStep cfg h) {jobType : GoString}
    (hrun : Finishes (recoverStuckJobs cfg jobType) h.db a db') :
    InStep cfg (h.after (.recoverStuckJobs jobType) a db') ∧
      ∀ x, ¬EntersDeadSet h (h.after (.recoverStuckJobs jobType) a db') x := by
  have hleft : ∀ id job, h.db.jobs.get? id = some job → job.status = .processing →
      job.attempts < job.maxAttempts := by
    intro id job hstored hstatus
    obtain rfl := hinv.filed.keyed id job hstored
    obtain ⟨hmax, _, hlt⟩ := hinv.attempts hstored (Or.inr hstatus)
    omega
  obtain ⟨hchanged, hfiled⟩ := filed_recoverStuckJobs hinv.filed hleft hrun
  refine ⟨?_, not_enters_of_changed hinv.filed hfiled hchanged fun _ _ hP => hP.pending⟩
  refine hinv.replace hfiled rfl (fun id => ?_) fun e he => ?_
  · rcases hchanged id with hsame | ⟨job, job', hjob, hjob', hP⟩
    · exact Or.inl ⟨hsame, Iff.rfl, rfl⟩
    · right
      obtain rfl := hinv.filed.keyed id job hjob
      obtain ⟨hjobMax, hfails, hlt⟩ := hinv.attempts hjob (Or.inr hP.processing)
      refine ⟨job, job', hjob, hjob', hP.type', ?_, ?_⟩
      · have hnot := hinv.not_completed hjob (by simp [hP.processing])
        exact iff_of_false hnot (by simp [hP.pending])
      · exact attempted_of_live (Or.inl hP.pending) (hP.maxAttempts.trans hjobMax)
          (hP.attempts.trans hfails) (by rw [hP.attempts]; exact hlt)
  · left
    obtain ⟨hmem, hstill⟩ := List.mem_filter.mp he
    refine ⟨hmem, ?_⟩
    rcases hchanged e.2.id with hsame | ⟨job, job', _, hjob', hP⟩
    · exact hsame
    · have hprocessing := ((hfiled.processing_iff hjob').mp (of_decide_eq_true hstill)).2
      simp [hP.pending] at hprocessing

/-- The requeueing calls keep the invariant. -/
theorem InStep.requeue (hmax : 1 ≤ cfg.maxAttempts) (hinv : InStep cfg h) {jobType : GoString}
    (hchanged : Changed (Requeued jobType) h.db db') (hfiled : Filed db') :
    InStep cfg { h with db := db', fails := h.forgive jobType db' } ∧
      ∀ x, ¬EntersDeadSet h { h with db := db', fails := h.forgive jobType db' } x := by
  refine ⟨?_, not_enters_of_changed hinv.filed hfiled hchanged fun _ _ hP => hP.pending⟩
  refine hinv.replace hfiled rfl (fun id => ?_) fun e he => ?_
  · rcases hchanged id with hsame | ⟨job, job', hjob, hjob', hP⟩
    · refine Or.inl ⟨hsame, Iff.rfl, if_neg ?_⟩
      rintro ⟨hdead, hnot⟩
      rw [hfiled.dead, HasStatus, hsame] at hnot
      exact hnot ((hinv.filed.dead _ _).mp hdead)
    · right
      obtain rfl := hinv.filed.keyed id job hjob
      have hforgiven : h.forgive jobType db' job.id = 0 := by
        apply if_pos
        rw [hinv.filed.dead_iff hjob, hfiled.dead_iff hjob']
        simp [hP.type, hP.dead, hP.pending]
      refine ⟨job, job', hjob, hjob', hP.type', ?_, ?_⟩
      · have hnot := hinv.not_completed hjob (by simp [hP.dead])
        exact iff_of_false hnot (by simp [hP.pending])
      · have hjobMax := (hinv.attempted _ _ hjob).1
        exact attempted_of_live (Or.inl hP.pending) (hP.maxAttempts.trans hjobMax)
          (hP.attempts.trans hforgiven.symm) (by rw [hP.attempts]; exact hmax)
  · left
    refine ⟨he, ?_⟩
    rcases hchanged e.2.id with hsame | ⟨job, job', hjob, _, hP⟩
    · exact hsame
    · obtain ⟨hstored, _, hstatus⟩ := hinv.held e he
      rw [hjob] at hstored
      obtain rfl := Option.some.inj hstored
      simp [hP.dead] at hstatus

/-- Every call keeps the invariant, and a job enters the dead set exactly on its last
fail. -/
theorem InStep.step (hmax : 1 ≤ cfg.maxAttempts) (hinv : InStep cfg h) {op : Op}
    (hallowed : h.Allowed op) (hcall : h.Call cfg op h') :
    InStep cfg h' ∧ ∀ x ∈ h'.enqueued, (EntersDeadSet h h' x ↔ IsLastFail cfg h op x) := by
  obtain ⟨a, db', hrun, rfl⟩ := hcall
  have hnever : (∀ jobType job jobErr, op ≠ .fail jobType job jobErr) →
      (InStep cfg (h.after op a db') ∧ ∀ x, ¬EntersDeadSet h (h.after op a db') x) →
      InStep cfg (h.after op a db') ∧
        ∀ x ∈ (h.after op a db').enqueued,
          (EntersDeadSet h (h.after op a db') x ↔ IsLastFail cfg h op x) := by
    rintro hop ⟨hinv', hnot⟩
    refine ⟨hinv', fun x _ => iff_of_false (hnot x) ?_⟩
    rintro ⟨jobType, job, jobErr, heq, _⟩
    exact hop jobType job jobErr heq
  cases op with
  | enqueue jobType workspaceID referenceID metadata =>
      exact hnever (by simp) (hinv.enqueue hmax hrun)
  | dequeue jobType => exact hnever (by simp) (hinv.dequeue hrun)
  | complete jobType job => exact hnever (by simp) (hinv.complete (hallowed.1 _ rfl) hrun)
  | fail jobType job jobErr =>
      obtain ⟨hinv', hlast⟩ := hinv.fail (hallowed.1 _ rfl) hrun
      refine ⟨hinv', fun x hx => (hlast x hx).trans ?_⟩
      constructor
      · rintro ⟨hid, hfails⟩
        exact ⟨jobType, job, jobErr, rfl, hid, hfails⟩
      · rintro ⟨_, _, _, ⟨⟩, hid, hfails⟩
        exact ⟨hid, hfails⟩
  | putBack jobType job => exact hnever (by simp) (hinv.putBack (hallowed.1 _ rfl) hrun)
  | recoverStuckJobs jobType => exact hnever (by simp) (hinv.recoverStuckJobs hrun)
  | requeueDead jobType jobID =>
      have htype : ∀ job, h.db.jobs.get? jobID = some job → job.type = jobType :=
        fun job hjob => hallowed.2 _ _ rfl (job.type, jobID)
          ((hinv.enqueued _).mpr ⟨job, hjob, rfl⟩) rfl
      obtain ⟨hchanged, hfiled⟩ := filed_requeueDead_of_type hinv.filed htype hrun
      exact hnever (by simp) (hinv.requeue hmax hchanged hfiled)
  | requeueAllDead jobType =>
      obtain ⟨hchanged, hfiled⟩ := filed_requeueAllDead hinv.filed hrun
      exact hnever (by simp) (hinv.requeue hmax hchanged hfiled)

/-- How often a job occurs in the containers of a type. -/
theorem Filed.occurrences_eq (hfiled : Filed h.db) {type id : GoString}
    (hstored : h.db.jobs.get? id = some job) :
    occurrences h.db (type, id) =
      (if job.type = type ∧ job.status = .pending then 1 else 0) +
        (if job.type = type ∧ job.status = .processing then 1 else 0) +
        (if job.type = type ∧ job.status = .dead then 1 else 0) := by
  have hnodup : ∀ key, (h.db.zsets key).keys.Nodup := fun key => (h.db.zsets key).nodup
  simp only [occurrences, (hfiled.nodup type).count, (hnodup _).count, hfiled.pending_iff hstored,
    hfiled.processing_iff hstored, hfiled.dead_iff hstored]

/-- The record of a job that is enqueued and not completed says where it is. -/
theorem InStep.status (hinv : InStep cfg h) {x : Item} (hx : x ∈ h.enqueued)
    (hcompleted : x.2 ∉ h.completed) : ∃ job, h.db.jobs.get? x.2 = some job ∧ job.type = x.1 ∧
      (job.status = .pending ∨ job.status = .processing ∨ job.status = .dead) := by
  obtain ⟨job, hstored, htype⟩ := (hinv.enqueued x).mp hx
  refine ⟨job, hstored, htype, ?_⟩
  have hattempted := (hinv.attempted _ _ hstored).2
  cases hstatus : job.status with
  | pending => simp
  | processing => simp
  | dead => simp
  | completed => exact absurd ((hinv.completed _).mpr ⟨job, hstored, hstatus⟩) hcompleted
  | failed =>
      rw [hstatus] at hattempted
      exact hattempted.elim

/-- The invariant is what the queue promises. -/
theorem InStep.represented (hinv : InStep cfg h) : Represented cfg h where
  once := by
    intro x hx hcompleted
    obtain ⟨job, hstored, htype, hstatus⟩ := hinv.status hx hcompleted
    rw [hinv.filed.occurrences_eq hstored]
    rcases hstatus with hstatus | hstatus | hstatus <;> simp [htype, hstatus]
  foreign := by
    intro x hx hcompleted type hne
    obtain ⟨job, hstored, htype, _⟩ := hinv.status hx hcompleted
    rw [hinv.filed.occurrences_eq hstored]
    simp [htype, Ne.symm hne]
  named := by
    intro x hx hcompleted
    obtain ⟨job, hstored, htype, _⟩ := hinv.status hx hcompleted
    refine ⟨job, hstored, ?_⟩
    rw [hinv.filed.pending_iff hstored, hinv.filed.processing_iff hstored,
      hinv.filed.dead_iff hstored]
    simp [htype]
  attempts := by
    intro x hx job hstored hwhere
    have hid : job.id = x.2 := hinv.filed.keyed _ _ hstored
    rw [hinv.filed.pending_iff hstored, hinv.filed.processing_iff hstored] at hwhere
    have hstatus := hwhere.imp And.right And.right
    exact (hinv.attempts (by rwa [hid]) hstatus).2.2

end Steps

/-- In every run of calls that do not overlap and meet no error, the queue is represented
as it should be, and a job enters the dead set exactly on its last fail. -/
theorem represented_of_run {cfg : Config} (hmax : 1 ≤ cfg.maxAttempts) {h : History}
    (hrun : Run (History.Call cfg) History.Allowed History.initial h) :
    Represented cfg h ∧ ∀ op h', h.Allowed op → h.Call cfg op h' →
      ∀ x ∈ h'.enqueued, (EntersDeadSet h h' x ↔ IsLastFail cfg h op x) := by
  have hinv : InStep cfg h := hrun.invariant (inStep_initial cfg)
    fun _ _ _ hinv hallowed hcall => (hinv.step hmax hallowed hcall).1
  exact ⟨hinv.represented, fun _ _ hallowed hcall => (hinv.step hmax hallowed hcall).2⟩

/-! ## A job that fails once -/

/-- Run a call alone while the clock stands still. -/
def runAlone {α : Type} (now : Int) : Body α → Redis → α × Redis
  | .ret a, db => (a, db)
  | .cmd c k, db => runAlone now (k (some (db.run now c).2)) (db.run now c).1

theorem finishes_runAlone {α : Type} (now : Int) (p : Body α) (db : Redis) :
    Finishes p db (runAlone now p db).1 (runAlone now p db).2 := by
  induction p generalizing db with
  | ret a => exact .ret a db
  | cmd c k ih => exact .cmd now (ih _ _)

/-- The history after a call at a time. -/
def History.call (h : History) (cfg : Config) (now : Int) (op : Op) : History :=
  h.after op (runAlone now (bodyOf cfg op) h.db).1 (runAlone now (bodyOf cfg op) h.db).2

theorem History.call_spec (h : History) (cfg : Config) (now : Int) (op : Op) :
    h.Call cfg op (h.call cfg now op) :=
  ⟨_, _, finishes_runAlone now _ _, rfl⟩

/-- A single attempt for every job. -/
def singleAttempt : Config :=
  ⟨1, 600⟩

/-- A job is enqueued and dequeued. -/
def heldHistory : History :=
  (History.initial.call singleAttempt 0 (.enqueue "diff".toList "w".toList "r".toList [])).call
    singleAttempt 0 (.dequeue "diff".toList)

/-- With a single attempt, a job that fails once enters the dead set. -/
theorem represented_of_run_fail :
    Represented singleAttempt heldHistory ∧ ∀ e ∈ heldHistory.held,
      EntersDeadSet heldHistory (heldHistory.call singleAttempt 0 (.fail e.1 e.2 []))
        firstDiffJob := by
  have hrun : Run (History.Call singleAttempt) History.Allowed History.initial heldHistory := by
    refine ((Run.refl _).snoc (History.call_spec _ _ _ _) ⟨?_, ?_⟩).snoc
      (History.call_spec _ _ _ _) ⟨?_, ?_⟩ <;> simp [Op.heldJob]
  obtain ⟨hrepresented, hlast⟩ := represented_of_run (by decide) hrun
  refine ⟨hrepresented, fun e he => ?_⟩
  have hid : ∀ e ∈ heldHistory.held, e.2.id = firstDiffJob.2 := by decide +kernel
  refine (hlast (.fail e.1 e.2 []) _ ⟨?_, by simp⟩ (History.call_spec _ _ _ _) firstDiffJob ?_).mpr
    ⟨e.1, e.2, [], rfl, hid e he, by decide +kernel⟩
  · rintro _ ⟨⟩
    exact he
  · have henqueued : firstDiffJob ∈ heldHistory.enqueued := by decide +kernel
    exact henqueued

end Queue
end Veilence
