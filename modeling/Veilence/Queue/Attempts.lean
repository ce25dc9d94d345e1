import Veilence.Foundation.Discipline
import Veilence.Foundation.Observed
import Veilence.Queue.Holder

/-!
# Attempts

How often a job is handed to the processing function.  {lit}`Fail` advances the stored
number of attempts and moves the job to the dead set when there are enough; recovery by
age returns the job to the pending list and advances nothing.

Main results:

- Theorem {lit}`follows_bodyOf`: every call counts the hand-overs of the job that it has,
  if recovery does not list the job.
- Theorem {lit}`handed_le_of_run`: then a job is handed over at most as often as the
  configuration says.
- Theorem {lit}`handed_again_after_crash`: a job whose worker has died is handed over once
  more than that.
-/

namespace Veilence
namespace Queue
namespace Attempts

open Go Foundation

/-! ## Hand-overs -/

/-- The operation puts a job into the queue from the dead set. -/
def requeues : Op → Bool
  | .requeueDead .. | .requeueAllDead .. => true
  | _ => false

/-- The operation puts a job into the queue with a fresh count. -/
def begins : Op → Bool
  | .enqueue .. => true
  | op => requeues op

/-- How often the job has been handed to the processing function since it was enqueued or
requeued.  {lit}`Dequeue` hands it to a worker, and a worker that puts it back has not
processed it. -/
def handed (x : GoString) (w : QueueWorld) (n : Nat) : Label Op → Nat
  | .start _ (.putBack _ job) => if job.id = x then n - 1 else n
  | .exec i =>
      match w.threads i with
      | some ⟨op, .cmd (.lpush _ id) _, _⟩ => if id = x ∧ begins op = true then 0 else n
      | _ => n
  | .finish i =>
      match w.threads i with
      | some ⟨.dequeue _, .ret (.job (some job)), _⟩ => if job.id = x then n + 1 else n
      | _ => n
  | _ => n

/-- The job is in a dead set. -/
def IsDead (db : Redis) (x : GoString) : Prop :=
  ∃ type, x ∈ (db.zsets (.dead type)).keys

/-- The commands that keep the count: recovery does not find the job in a processing set,
and a requeueing call writes the record of the job and removes it from the dead set only
while it is there. -/
def Counting (x : GoString) (w : QueueWorld) (op : Op) : Command → Prop
  | .zrangeByScore key stop =>
      x ∉ (w.store.db.run w.store.now (.zrangeByScore key stop)).2
  | .set job _ => requeues op = true → job.id = x → IsDead w.store.db x
  | .zrem (.dead type) id => id = x → x ∈ (w.store.db.zsets (.dead type)).keys
  | _ => True

/-- The steps of the runs in which every hand-over is counted. -/
def Counted (x : GoString) (s : QueueWorld × Nat) (l : Label Op) : Prop :=
  ∀ i op c k failed, l = .exec i → s.1.threads i = some ⟨op, .cmd c k, failed⟩ →
    Counting x s.1 op c

/-! ## What a call knows of the count -/

/-- Nothing; the job while its record counts the hand-overs, its value does, or both do;
the job handed over with so many attempts; or the job taken out of the dead set. -/
inductive Mode where
  | free
  | carrying
  | loaded (attempts : Nat)
  | saved (attempts : Nat)
  | working (attempts : Nat)
  | revived
deriving DecidableEq

/-- What a call has when it starts. -/
def Mode.first (x : GoString) : Op → Mode
  | .complete _ job | .fail _ job _ => if job.id = x then .working job.attempts else .free
  | .putBack _ job => if job.id = x then .loaded job.attempts else .free
  | _ => .free

/-- What a call has after it has read the record of the job. -/
def Mode.read : Mode → Option Job → Mode
  | .carrying, some job => .loaded job.attempts
  | m, _ => m

/-- What a call has after it has written a record of the job. -/
def Mode.write (max : Nat) : Mode → Job → Mode
  | .loaded attempts, _ => .saved attempts
  | .working attempts, job =>
      if job.attempts = attempts + 1 ∧ job.attempts < max then .saved job.attempts
      else .working attempts
  | m, _ => m

/-- A job that has enough attempts is not counted on. -/
theorem Mode.write_working_of_le {max attempts : Nat} {job : Job} (hdead : max ≤ job.attempts) :
    (Mode.working attempts).write max job = .working attempts :=
  if_neg fun hwrite => absurd hwrite.2 (Nat.not_lt.mpr hdead)

theorem Mode.write_working_of_lt {max attempts : Nat} {job : Job}
    (hattempts : job.attempts = attempts + 1) (hlt : job.attempts < max) :
    (Mode.working attempts).write max job = .saved job.attempts :=
  if_pos ⟨hattempts, hlt⟩

/-- What a call has after a command. -/
def Mode.next (x : GoString) (max : Nat) (m : Mode) : (c : Command) → Reply c → Mode
  | .incr, n => if itoa n = x then .loaded 0 else m
  | .lmove _ _, r => if r = some x then .carrying else m
  | .get id, r => if id = x then m.read r else m
  | .set job _, _ => if job.id = x then m.write max job else m
  | .lpush _ id, _ => if id = x then .free else m
  | .zadd (.dead _) _ id, _ => if id = x then .free else m
  | .zrem (.dead _) id, _ => if id = x then .revived else m
  | _, _ => m

/-- The records of the job that a call may write with what it has. -/
def Mode.Writes (op : Op) : Mode → Job → Prop
  | .free, _ => requeues op = true
  | .loaded attempts, job => job.attempts = attempts
  | .working _, _ => True
  | _, _ => False

/-- The commands that a call may send with what it has. -/
def Permitted (x : GoString) (max : Nat) (op : Op) (m : Mode) : Command → Prop
  | .set job _ => job.id = x → job.maxAttempts = max ∧ m.Writes op job
  | .lpush key id => (∃ type, key = .pending type) ∧
      (id = x → (∃ attempts, m = .saved attempts) ∨ (m = .revived ∧ begins op = true))
  | .lmove source destination =>
      (∃ type, source = .pending type) ∧ ∃ type, destination = .temp type
  | .lrem key _ => ∃ type, key = .temp type
  | .zadd (.dead _) _ id => id = x → ∃ attempts, m = .working attempts
  | .zrem (.dead _) id => id = x → m = .free
  | _ => True

/-- The answers that a call may rely on. -/
def Answer (x : GoString) (max : Nat) : (c : Command) → Reply c → Prop
  | .get id, r => ∀ job, r = some job → job.id = id ∧ (id = x → job.maxAttempts = max)
  | .zrangeByScore _ _, ids => x ∉ ids
  | _, _ => True

/-- A {lit}`Dequeue` returns the value that it has saved. -/
def Result (x : GoString) (max : Nat) (op : Op) (m : Mode) (a : Outcome) : Prop :=
  ∀ jobType job, op = .dequeue jobType → a = .job (some job) → job.id = x →
    m = .saved job.attempts ∧ job.maxAttempts = max

/-- How calls count the hand-overs of a job. -/
def counting (x : GoString) (max : Nat) : Discipline Op Command Reply Outcome Mode where
  idle := .free
  first := Mode.first x
  next := Mode.next x max
  permitted := Permitted x max
  answer := Answer x max
  result := Result x max

/-! ## Every body counts -/

section Bodies

variable {cfg : Config} {x : GoString} {op : Op} {failed : Bool} {m : Mode} {α β : Type}
  {final : Bool → Mode → α → Prop}

attribute [local simp] Mode.next Mode.read Mode.write counting

/-- The body counts what it does with the job. -/
abbrev FollowsBody (cfg : Config) (x : GoString) (op : Op) (final : Bool → Mode → α → Prop)
    (failed : Bool) (m : Mode) (p : Body α) : Prop :=
  (counting x cfg.maxAttempts).Follows (queueSystem cfg true) op final failed m p

/-- A call that has failed changes nothing any more. -/
theorem follows_lost {p : Body α} (hfinal : ∀ a, final true m a) :
    FollowsBody cfg x op final true m p := by
  apply Discipline.follows_of_failed rfl
  · intro c hc
    cases c with
    | time => exact ⟨trivial, fun _ => rfl⟩
    | _ => simp [queueSystem, Command.fallible] at hc
  · exact hfinal

theorem follows_send {c : Command} {f : Option (Reply c) → Body α}
    (hpermitted : Permitted x cfg.maxAttempts op m c)
    (hok : ∀ r, Answer x cfg.maxAttempts c r →
      FollowsBody cfg x op final failed (m.next x cfg.maxAttempts c r) (f (some r)))
    (hfail : FollowsBody cfg x op final true m (f none)) :
    FollowsBody cfg x op final failed m (send c >>= f) :=
  Discipline.follows_call hpermitted hok fun _ => hfail

theorem follows_clock {f : Int → Body α}
    (hf : ∀ now, FollowsBody cfg x op final failed m (f now)) :
    FollowsBody cfg x op final failed m (clock >>= f) :=
  ⟨fun _ => ⟨trivial, fun r _ => hf r⟩, by simp [queueSystem, Command.fallible]⟩

theorem follows_loadJob {id : GoString} {f : Option Job → Body α}
    (hnone : ∀ failed', FollowsBody cfg x op final failed' m (f none))
    (hsome : ∀ job, job.id = id → (id = x → job.maxAttempts = cfg.maxAttempts) →
      FollowsBody cfg x op final failed (if id = x then m.read (some job) else m)
        (f (some job))) :
    FollowsBody cfg x op final failed m (loadJob id >>= f) := by
  apply Discipline.follows_call trivial
  · rintro (_ | job) hanswer
    · have hnext : (counting x cfg.maxAttempts).next m (.get id) none = m := by
        simp [counting, Mode.next]
      rw [hnext]
      exact hnone failed
    · obtain ⟨hid, hmax⟩ := hanswer job rfl
      exact hsome job hid hmax
  · exact fun _ => hnone true

/-- Loading fails in a call that has failed. -/
theorem follows_lost_loadJob {id : GoString} {f : Option Job → Body α}
    (hnone : FollowsBody cfg x op final true m (f none)) :
    FollowsBody cfg x op final true m (loadJob id >>= f) :=
  ⟨fun heffective => absurd (heffective rfl rfl) (by simp), fun _ => hnone⟩

theorem follows_saveJob {job : Job} {f : Bool → Body α}
    (hpermitted : job.id = x → job.maxAttempts = cfg.maxAttempts ∧ m.Writes op job)
    (hok : FollowsBody cfg x op final failed
      (if job.id = x then m.write cfg.maxAttempts job else m) (f true))
    (hfail : FollowsBody cfg x op final true m (f false)) :
    FollowsBody cfg x op final failed m (saveJob job >>= f) :=
  ⟨fun _ => ⟨hpermitted, fun _ _ => hok⟩, fun _ => hfail⟩

/-- The results of the other calls do not matter. -/
theorem result_of_ne (hop : ∀ jobType, op ≠ .dequeue jobType) (m : Mode) (a : Outcome) :
    Result x cfg.maxAttempts op m a :=
  fun jobType _ heq _ _ => absurd heq (hop jobType)

theorem follows_enqueue (jobType workspaceID referenceID : GoString)
    (metadata : List (GoString × GoString)) :
    FollowsBody cfg x (.enqueue jobType workspaceID referenceID metadata)
      (fun _ => Result x cfg.maxAttempts (.enqueue jobType workspaceID referenceID metadata))
      false .free (enqueue cfg jobType workspaceID referenceID metadata) := by
  have hresult : ∀ m a, Result x cfg.maxAttempts
      (.enqueue jobType workspaceID referenceID metadata) m a := result_of_ne (by simp)
  unfold enqueue
  refine follows_send trivial ?_ (hresult _ _)
  intro n _
  by_cases hn : itoa n = x
  · simp only [Mode.next, hn, if_true]
    apply follows_clock
    intro now
    refine follows_send (fun _ => ⟨rfl, rfl⟩) ?_ (follows_lost (hresult _))
    intro _ _
    simp only [Mode.next, Mode.write, hn, if_true]
    refine follows_send ⟨⟨_, rfl⟩, fun _ => Or.inl ⟨_, rfl⟩⟩ ?_ (follows_lost (hresult _))
    intro _ _
    refine follows_send trivial ?_ (hresult _ _)
    exact fun _ _ => hresult _ _
  · simp only [Mode.next, hn, if_false]
    apply follows_clock
    intro now
    refine follows_send (fun heq => absurd heq hn) ?_ (follows_lost (hresult _))
    intro _ _
    refine follows_send ⟨⟨_, rfl⟩, fun heq => absurd heq hn⟩ ?_ (follows_lost (hresult _))
    intro _ _
    refine follows_send trivial ?_ (hresult _ _)
    exact fun _ _ => hresult _ _

/-- {lit}`Dequeue` saves the number of attempts that it has loaded. -/
theorem follows_dequeue (jobType : GoString) :
    FollowsBody cfg x (.dequeue jobType) (fun _ => Result x cfg.maxAttempts (.dequeue jobType))
      false .free (dequeue jobType) := by
  have hnothing : ∀ m a, (∀ job, a ≠ .job (some job)) →
      Result x cfg.maxAttempts (.dequeue jobType) m a := fun m a ha _ job _ heq _ =>
    absurd heq (ha job)
  unfold dequeue
  refine follows_send ⟨⟨_, rfl⟩, _, rfl⟩ ?_ (hnothing _ _ (by simp))
  rintro (_ | jobID) _
  · exact hnothing _ _ (by simp)
  · refine follows_send ⟨_, rfl⟩ ?_ ?_
    · intro _ _
      apply follows_loadJob
      · exact fun _ => hnothing _ _ (by simp)
      · intro job hid hmax
        apply follows_clock
        intro now
        by_cases hx : jobID = x
        · have hjob : job.id = x := hid.trans hx
          simp only [Mode.next, Mode.read, hx, if_true]
          refine follows_saveJob (fun _ => ⟨hmax hx, rfl⟩) ?_ (hnothing _ _ (by simp))
          simp only [hjob, if_true, Mode.write]
          refine follows_send trivial ?_ ?_
          · rintro _ _ _ _ _ ⟨⟩ _
            exact ⟨rfl, hmax hx⟩
          · rintro _ _ _ ⟨⟩ _
            exact ⟨rfl, hmax hx⟩
        · have hjob : job.id ≠ x := fun heq => hx (hid.symm.trans heq)
          refine follows_saveJob (fun heq => absurd heq hjob) ?_ (hnothing _ _ (by simp))
          refine follows_send trivial ?_ ?_
          · rintro _ _ _ _ _ ⟨⟩ heq
            exact absurd heq hjob
          · rintro _ _ _ ⟨⟩ heq
            exact absurd heq hjob
    · exact follows_lost_loadJob (hnothing _ _ (by simp))

/-- {lit}`Complete` writes the job that it has. -/
theorem follows_complete (jobType : GoString) {job : Job}
    (hmax : job.id = x → job.maxAttempts = cfg.maxAttempts) :
    FollowsBody cfg x (.complete jobType job)
      (fun _ => Result x cfg.maxAttempts (.complete jobType job)) false
      (Mode.first x (.complete jobType job)) (complete job) := by
  have hresult : ∀ m a, Result x cfg.maxAttempts (.complete jobType job) m a :=
    result_of_ne (by simp)
  unfold complete
  apply follows_clock
  intro now
  refine follows_send (fun hid => ⟨hmax hid, ?_⟩) ?_ (follows_lost (hresult _))
  · rw [Mode.first, if_pos hid]
    trivial
  · intro _ _
    refine follows_send trivial ?_ (follows_lost (hresult _))
    intro _ _
    refine follows_send trivial ?_ (follows_lost (hresult _))
    intro _ _
    refine follows_send trivial ?_ (follows_lost (hresult _))
    exact fun _ _ => hresult _ _

/-- {lit}`Fail` counts the attempt before it pushes the job. -/
theorem follows_fail (jobType : GoString) {job : Job} (jobErr : GoString)
    (hmax : job.id = x → job.maxAttempts = cfg.maxAttempts) :
    FollowsBody cfg x (.fail jobType job jobErr)
      (fun _ => Result x cfg.maxAttempts (.fail jobType job jobErr)) false
      (Mode.first x (.fail jobType job jobErr)) (fail job jobErr) := by
  have hresult : ∀ m a, Result x cfg.maxAttempts (.fail jobType job jobErr) m a :=
    result_of_ne (by simp)
  unfold fail
  apply follows_clock
  intro now
  refine follows_send trivial ?_ (follows_lost (hresult _))
  intro _ _
  dsimp only
  by_cases hid : job.id = x
  · simp only [Mode.next, Mode.first, hid, if_true]
    split_ifs with hdead
    · refine follows_saveJob (fun _ => ⟨hmax hid, trivial⟩) ?_ (hresult _ _)
      rw [if_pos rfl, Mode.write_working_of_le (by rw [← hmax hid]; exact hdead)]
      refine follows_send (fun _ => ⟨_, rfl⟩) ?_ (follows_lost (hresult _))
      intro _ _
      refine follows_send trivial ?_ (hresult _ _)
      exact fun _ _ => hresult _ _
    · apply follows_clock
      intro later
      refine follows_saveJob (fun _ => ⟨hmax hid, trivial⟩) ?_ (hresult _ _)
      rw [if_pos rfl, Mode.write_working_of_lt rfl (by rw [← hmax hid]; exact not_le.mp hdead)]
      refine follows_send ⟨⟨_, rfl⟩, fun _ => Or.inl ⟨_, rfl⟩⟩ ?_ (hresult _ _)
      exact fun _ _ => hresult _ _
  · split_ifs with hdead
    · refine follows_saveJob (fun heq => absurd heq hid) ?_ (hresult _ _)
      refine follows_send (fun heq => absurd heq hid) ?_ (follows_lost (hresult _))
      intro _ _
      refine follows_send trivial ?_ (hresult _ _)
      exact fun _ _ => hresult _ _
    · apply follows_clock
      intro later
      refine follows_saveJob (fun heq => absurd heq hid) ?_ (hresult _ _)
      refine follows_send ⟨⟨_, rfl⟩, fun heq => absurd heq hid⟩ ?_ (hresult _ _)
      exact fun _ _ => hresult _ _

/-- The put-back saves the number of attempts as it is. -/
theorem follows_putBack (jobType : GoString) {job : Job}
    (hmax : job.id = x → job.maxAttempts = cfg.maxAttempts) :
    FollowsBody cfg x (.putBack jobType job)
      (fun _ => Result x cfg.maxAttempts (.putBack jobType job)) false
      (Mode.first x (.putBack jobType job)) (putBack jobType job) := by
  have hresult : ∀ m a, Result x cfg.maxAttempts (.putBack jobType job) m a :=
    result_of_ne (by simp)
  unfold putBack
  by_cases hid : job.id = x
  · simp only [Mode.first, hid, if_true]
    refine follows_saveJob (fun _ => ⟨hmax hid, rfl⟩) ?_ (follows_lost (hresult _))
    simp only [if_true, Mode.write]
    refine follows_send ⟨⟨_, rfl⟩, fun _ => Or.inl ⟨_, rfl⟩⟩ ?_ (follows_lost (hresult _))
    intro _ _
    refine follows_send trivial ?_ (hresult _ _)
    exact fun _ _ => hresult _ _
  · refine follows_saveJob (fun heq => absurd heq hid) ?_ (follows_lost (hresult _))
    refine follows_send ⟨⟨_, rfl⟩, fun heq => absurd heq hid⟩ ?_ (follows_lost (hresult _))
    intro _ _
    refine follows_send trivial ?_ (hresult _ _)
    exact fun _ _ => hresult _ _

/-- The call has nothing of the job, or it has failed. -/
def Unburdened (failed : Bool) (m : Mode) : Prop :=
  failed = true ∨ m = .free

/-- The recovery of another job. -/
theorem follows_recoverJob {jobType jobID : GoString} (hid : jobID ≠ x)
    (hstart : Unburdened failed m) :
    FollowsBody cfg x op (fun failed' m' _ => Unburdened failed' m') failed m
      (recoverJob jobType jobID) := by
  unfold recoverJob
  rcases hstart with rfl | rfl
  · exact follows_lost fun _ => Or.inl rfl
  · apply follows_loadJob
    · exact fun _ => Or.inr rfl
    · intro job hjob _
      have hne : job.id ≠ x := fun heq => hid (hjob.symm.trans heq)
      refine follows_send trivial ?_ (follows_lost fun _ => Or.inl rfl)
      intro _ _
      apply follows_clock
      intro now
      simp only [Mode.next, hid, if_false]
      split_ifs
      · refine follows_saveJob (fun heq => absurd heq hne) ?_ (follows_lost fun _ => Or.inl rfl)
        refine follows_send (fun heq => absurd heq hne) ?_ (Or.inl rfl)
        exact fun _ _ => Or.inr (by simp [Mode.next, hne])
      · refine follows_saveJob (fun heq => absurd heq hne) ?_ (follows_lost fun _ => Or.inl rfl)
        refine follows_send ⟨⟨_, rfl⟩, fun heq => absurd heq hid⟩ ?_ (Or.inl rfl)
        exact fun _ _ => Or.inr (by simp [Mode.next, hne, hid])

theorem follows_recoverLoop {jobType : GoString} {recovered : Nat} {stuckIDs : List GoString}
    (hx : x ∉ stuckIDs) (hstart : Unburdened failed m) :
    FollowsBody cfg x op (fun failed' m' _ => Unburdened failed' m') failed m
      (recoverLoop jobType recovered stuckIDs) := by
  induction stuckIDs generalizing failed m recovered with
  | nil => exact hstart
  | cons jobID stuckIDs ih =>
      obtain ⟨hid, hrest⟩ := not_or.mp (mt List.mem_cons.mpr hx)
      apply (follows_recoverJob (Ne.symm hid) hstart).bind
      rintro failed' m' (_ | _) hnext
      · exact ih hrest hnext
      · exact ih hrest hnext

/-- Recovery that does not list the job does not touch it. -/
theorem follows_recoverStuckJobs (jobType : GoString) :
    FollowsBody cfg x (.recoverStuckJobs jobType)
      (fun _ => Result x cfg.maxAttempts (.recoverStuckJobs jobType)) false .free
      (recoverStuckJobs cfg jobType) := by
  unfold recoverStuckJobs
  apply follows_clock
  intro now
  refine follows_send trivial ?_ (result_of_ne (by simp) _ _)
  intro stuckIDs hx
  apply (follows_recoverLoop hx (Or.inr rfl)).mono
  exact fun _ m a _ => result_of_ne (by simp) m a

/-- A requeueing call pushes the job only after it has taken it out of the dead set. -/
theorem follows_requeueDead (hop : requeues op = true) {jobType jobID : GoString}
    (hstart : Unburdened failed m) :
    FollowsBody cfg x op (fun failed' m' _ => Unburdened failed' m') failed m
      (requeueDead jobType jobID) := by
  have hbegins : begins op = true := by
    cases op with
    | requeueDead _ _ => rfl
    | requeueAllDead _ => rfl
    | _ => simp [requeues] at hop
  unfold requeueDead
  rcases hstart with rfl | rfl
  · exact follows_lost fun _ => Or.inl rfl
  · apply follows_loadJob
    · exact fun _ => Or.inr rfl
    · intro job hjob hmax
      simp only [Mode.read, ite_self]
      split_ifs
      · exact Or.inr rfl
      · apply follows_clock
        intro now
        apply follows_clock
        intro later
        refine follows_saveJob (fun heq => ⟨hmax (hjob.symm.trans heq), hop⟩) ?_ (Or.inl rfl)
        simp only [Mode.write, ite_self]
        refine follows_send (fun _ => rfl) ?_ (follows_lost fun _ => Or.inl rfl)
        intro _ _
        by_cases hid : jobID = x
        · simp only [Mode.next, hid, if_true]
          refine follows_send ⟨⟨_, rfl⟩, fun _ => Or.inr ⟨rfl, hbegins⟩⟩ ?_ (Or.inl rfl)
          exact fun _ _ => Or.inr (by simp [Mode.next, hid])
        · simp only [Mode.next, hid, if_false]
          refine follows_send ⟨⟨_, rfl⟩, fun heq => absurd heq hid⟩ ?_ (Or.inl rfl)
          exact fun _ _ => Or.inr (by simp [Mode.next, hid])

theorem follows_requeueLoop (hop : requeues op = true) {jobType : GoString} {count : Nat}
    {deadIDs : List GoString} (hstart : Unburdened failed m) :
    FollowsBody cfg x op (fun failed' m' _ => Unburdened failed' m') failed m
      (requeueLoop jobType count deadIDs) := by
  induction deadIDs generalizing failed m count with
  | nil => exact hstart
  | cons jobID deadIDs ih =>
      apply (follows_requeueDead hop hstart).bind
      intro failed' m' result hnext
      cases result with
      | failed => exact ih hnext
      | _ => exact ih hnext

/-- Every call counts the hand-overs of a job that it has. -/
theorem follows_bodyOf
    (hmax : ∀ jobType job, op.heldJob = some (jobType, job) → job.id = x →
      job.maxAttempts = cfg.maxAttempts) :
    FollowsBody cfg x op (fun _ => Result x cfg.maxAttempts op) false (Mode.first x op)
      (bodyOf cfg op) := by
  cases op with
  | enqueue jobType workspaceID referenceID metadata => exact follows_enqueue _ _ _ _
  | dequeue jobType => exact follows_dequeue jobType
  | complete jobType job => exact follows_complete jobType (hmax _ _ rfl)
  | fail jobType job jobErr => exact follows_fail jobType jobErr (hmax _ _ rfl)
  | putBack jobType job => exact follows_putBack jobType (hmax _ _ rfl)
  | recoverStuckJobs jobType => exact follows_recoverStuckJobs jobType
  | requeueDead jobType jobID =>
      apply (follows_requeueDead rfl (Or.inr rfl)).mono
      exact fun _ m a _ => result_of_ne (by simp) m a
  | requeueAllDead jobType =>
      unfold bodyOf requeueAllDead
      refine follows_send trivial ?_ (result_of_ne (by simp) _ _)
      intro deadIDs _
      apply (follows_requeueLoop rfl (Or.inr rfl)).mono
      exact fun _ m a _ => result_of_ne (by simp) m a

end Bodies

/-! ## The invariant -/

/-- Where the token of a job is. -/
inductive Place where
  | unborn
  | call (i : Nat)
  | pending (type : GoString)
  | held
  | dead (type : GoString)
  | gone
deriving DecidableEq

/-- The call has the token. -/
def Mode.Carries : Mode → Prop
  | .free => False
  | _ => True

/-- The record of the job counts its hand-overs, and one more is possible. -/
def Covers (x : GoString) (max n : Nat) (db : Redis) : Prop :=
  n < max ∧ ∀ job, db.jobs.get? x = some job → n ≤ job.attempts

/-- What a call knows of the count is true. -/
def Mode.Holds (x : GoString) (max n : Nat) (db : Redis) : Mode → Prop
  | .free | .revived => True
  | .carrying => Covers x max n db
  | .loaded attempts => n < max ∧ n ≤ attempts
  | .saved attempts => n ≤ attempts ∧ Covers x max n db
  | .working attempts => n ≤ attempts + 1

/-- The job has one token, and who has it knows how often the job was handed over. -/
structure OneCount (cfg : Config) (x : GoString) (place : Place) (modes : Nat → Mode)
    (w : QueueWorld) (n : Nat) : Prop where
  kept : (counting x cfg.maxAttempts).Kept (queueSystem cfg true) modes w
  token : ∀ i, (modes i).Carries ↔ place = .call i
  holds : ∀ i, (modes i).Holds x cfg.maxAttempts n w.store.db
  keyed : Keyed w.store.db
  record : ∀ job, w.store.db.jobs.get? x = some job → job.maxAttempts = cfg.maxAttempts
  pending : ∀ type, (w.store.db.lists (.pending type)).count x =
    if place = .pending type then 1 else 0
  covers : (∃ type, place = .pending type) → Covers x cfg.maxAttempts n w.store.db
  dead : ∀ type, x ∈ (w.store.db.zsets (.dead type)).keys ↔ place = .dead type
  held : (w.store.held.map fun e => e.2.id).count x = if place = .held then 1 else 0
  heldJobs : ∀ e ∈ w.store.held, e.2.id = x →
    e.2.maxAttempts = cfg.maxAttempts ∧ n ≤ e.2.attempts + 1
  born : place ≠ .unborn → ∃ k ≤ w.store.db.idCounter, itoa k = x
  fresh : place = .unborn → n = 0
  limit : n ≤ cfg.maxAttempts

/-- The invariant holds before the first call. -/
theorem oneCount_start (cfg : Config) (x : GoString) :
    OneCount cfg x .unborn (fun _ => .free) start 0 where
  kept := ⟨by simp [start, World.initial], fun _ _ => rfl⟩
  token := by simp [Mode.Carries]
  holds := fun _ => trivial
  keyed := by
    intro id job hget
    simp [start, World.initial, State.initial, Redis.empty] at hget
  record := by simp [start, World.initial, State.initial, Redis.empty]
  pending := by simp [start, World.initial, State.initial, Redis.empty]
  covers := by simp
  dead := by simp [start, World.initial, State.initial, Redis.empty, Table.keys, Table.empty]
  held := by simp [start, World.initial, State.initial]
  heldJobs := by simp [start, World.initial, State.initial]
  born := by simp
  fresh := fun _ => rfl
  limit := Nat.zero_le _

section Preservation

variable {cfg : Config} {x : GoString} {place place' : Place} {modes : Nat → Mode}
  {w : QueueWorld} {n n' : Nat} {i : Nat} {m' : Mode} {op : Op} {c : Command}
  {k : Option (Reply c) → Body Outcome} {failed : Bool}

/-- What a command of the call at `i` does to the token and to the count. -/
structure Shift (cfg : Config) (x : GoString) (i : Nat) (place place' : Place) (m' : Mode)
    (db db' : Redis) (n n' : Nat) : Prop where
  token : m'.Carries ↔ place' = .call i
  others : ∀ j ≠ i, place' = .call j ↔ place = .call j
  frame : ∀ j ≠ i, place = .call j → n' = n ∧ db'.jobs.get? x = db.jobs.get? x
  holds : m'.Holds x cfg.maxAttempts n' db'
  record : ∀ job, db'.jobs.get? x = some job → job.maxAttempts = cfg.maxAttempts
  pending : ∀ type, (db'.lists (.pending type)).count x = if place' = .pending type then 1 else 0
  covers : (∃ type, place' = .pending type) → Covers x cfg.maxAttempts n' db'
  dead : ∀ type, x ∈ (db'.zsets (.dead type)).keys ↔ place' = .dead type
  held : place' = .held ↔ place = .held
  heldCount : place = .held → n' = n
  born : place' ≠ .unborn → ∃ k ≤ db'.idCounter, itoa k = x
  fresh : place' = .unborn → n' = 0
  limit : n' ≤ cfg.maxAttempts

/-- What is known stays true while the record and the count stay. -/
theorem Mode.Holds.frame {max : Nat} {m : Mode} {db db' : Redis} (hm : m.Holds x max n db)
    (hget : db'.jobs.get? x = db.jobs.get? x) : m.Holds x max n db' := by
  have hcovers : Covers x max n db → Covers x max n db' := by
    intro hdb
    refine ⟨hdb.1, fun job hjob => hdb.2 job ?_⟩
    rw [← hget, hjob]
  cases m with
  | carrying => exact hcovers hm
  | saved attempts => exact ⟨hm.1, hcovers hm.2⟩
  | _ => exact hm

/-- A job that is held has its token there. -/
theorem OneCount.place_of_held (hinv : OneCount cfg x place modes w n) {e : GoString × Job}
    (he : e ∈ w.store.held) (hid : e.2.id = x) : place = .held := by
  by_contra hplace
  have hcount := hinv.held
  rw [if_neg hplace] at hcount
  exact List.count_eq_zero.mp hcount (List.mem_map.mpr ⟨e, he, hid⟩)

/-- A job that is pending has its token there. -/
theorem OneCount.place_of_mem (hinv : OneCount cfg x place modes w n) {type : GoString}
    (hx : x ∈ w.store.db.lists (.pending type)) : place = .pending type := by
  by_contra hplace
  have hcount := hinv.pending type
  rw [if_neg hplace] at hcount
  exact List.count_eq_zero.mp hcount hx

/-- A command keeps the invariant. -/
theorem OneCount.exec (hinv : OneCount cfg x place modes w n)
    (hthread : w.threads i = some ⟨op, .cmd c k, failed⟩)
    (heffective : Discipline.Effective (queueSystem cfg true) failed c)
    (hanswer : Answer x cfg.maxAttempts c (w.store.db.run w.store.now c).2)
    (hshift : Shift cfg x i place place'
      ((modes i).next x cfg.maxAttempts c (w.store.db.run w.store.now c).2) w.store.db
      (w.store.db.run w.store.now c).1 n n') :
    ∃ modes', OneCount cfg x place' modes'
      ⟨{ w.store with db := (w.store.db.run w.store.now c).1 },
        w.setThread i (some ⟨op, k (some (w.store.db.run w.store.now c).2), failed⟩),
        .ran op c :: w.log⟩ n' := by
  set m' := (modes i).next x cfg.maxAttempts c (w.store.db.run w.store.now c).2 with hm'
  have hother : ∀ j, j ≠ i → Function.update modes i m' j = modes j :=
    fun j hj => Function.update_of_ne hj m' modes
  refine ⟨Function.update modes i m', ?_⟩
  constructor
  case kept => exact hinv.kept.exec hthread heffective hanswer
  case token =>
    intro j
    by_cases hj : j = i
    · subst hj
      rw [Function.update_self]
      exact hshift.token
    · rw [hother j hj, hinv.token j]
      exact (hshift.others j hj).symm
  case holds =>
    intro j
    by_cases hj : j = i
    · subst hj
      rw [Function.update_self]
      exact hshift.holds
    · rw [hother j hj]
      by_cases hcarries : (modes j).Carries
      · obtain ⟨rfl, hget⟩ := hshift.frame j hj ((hinv.token j).mp hcarries)
        exact (hinv.holds j).frame hget
      · cases hmode : modes j with
        | free => trivial
        | _ => exact absurd (by rw [hmode]; trivial) hcarries
  case keyed => exact keyed_run hinv.keyed c
  case record => exact hshift.record
  case pending => exact hshift.pending
  case covers => exact hshift.covers
  case dead => exact hshift.dead
  case held =>
    simp only [hshift.held]
    exact hinv.held
  case heldJobs =>
    intro e he hid
    rw [hshift.heldCount (hinv.place_of_held he hid)]
    exact hinv.heldJobs e he hid
  case born => exact hshift.born
  case fresh => exact hshift.fresh
  case limit => exact hshift.limit

/-- A command that leaves the job where it is. -/
theorem OneCount.stay (hinv : OneCount cfg x place modes w n) {db' : Redis}
    (hget : db'.jobs.get? x = w.store.db.jobs.get? x)
    (hlists : ∀ type, (db'.lists (.pending type)).count x =
      (w.store.db.lists (.pending type)).count x)
    (hdead : ∀ type, x ∈ (db'.zsets (.dead type)).keys ↔
      x ∈ (w.store.db.zsets (.dead type)).keys)
    (hcounter : w.store.db.idCounter ≤ db'.idCounter)
    (hcarries : m'.Carries ↔ (modes i).Carries) (hholds : m'.Holds x cfg.maxAttempts n db') :
    Shift cfg x i place place m' w.store.db db' n n where
  token := hcarries.trans (hinv.token i)
  others := fun _ _ => Iff.rfl
  frame := fun _ _ _ => ⟨rfl, hget⟩
  holds := hholds
  record := fun job hjob => hinv.record job (hget.symm.trans hjob)
  pending := fun type => (hlists type).trans (hinv.pending type)
  covers := by
    intro hpending
    obtain ⟨hlt, hrecord⟩ := hinv.covers hpending
    exact ⟨hlt, fun job hjob => hrecord job (hget.symm.trans hjob)⟩
  dead := fun type => (hdead type).trans (hinv.dead type)
  held := Iff.rfl
  heldCount := fun _ => rfl
  born := by
    intro hplace
    obtain ⟨number, hle, hx⟩ := hinv.born hplace
    exact ⟨number, hle.trans hcounter, hx⟩
  fresh := hinv.fresh
  limit := hinv.limit

/-- A command that is not about the job. -/
theorem OneCount.stay_free (hinv : OneCount cfg x place modes w n) {db' : Redis}
    (hget : db'.jobs.get? x = w.store.db.jobs.get? x)
    (hlists : ∀ type, (db'.lists (.pending type)).count x =
      (w.store.db.lists (.pending type)).count x)
    (hdead : ∀ type, x ∈ (db'.zsets (.dead type)).keys ↔
      x ∈ (w.store.db.zsets (.dead type)).keys)
    (hcounter : w.store.db.idCounter ≤ db'.idCounter) :
    Shift cfg x i place place (modes i) w.store.db db' n n :=
  hinv.stay hget hlists hdead hcounter Iff.rfl ((hinv.holds i).frame hget)

/-- A command by which the call gets the token. -/
theorem OneCount.take (hinv : OneCount cfg x place modes w n) {db' : Redis}
    (hplace : ∀ j, place ≠ .call j) (hheld : place ≠ .held) (hcarries : m'.Carries)
    (hholds : m'.Holds x cfg.maxAttempts n db')
    (hget : db'.jobs.get? x = w.store.db.jobs.get? x)
    (hlists : ∀ type, (db'.lists (.pending type)).count x = 0)
    (hdead : ∀ type, x ∉ (db'.zsets (.dead type)).keys)
    (hborn : ∃ number ≤ db'.idCounter, itoa number = x) :
    Shift cfg x i place (.call i) m' w.store.db db' n n where
  token := iff_of_true hcarries rfl
  others := fun j hj => iff_of_false (by simp [Ne.symm hj]) (hplace j)
  frame := fun j _ hcall => absurd hcall (hplace j)
  holds := hholds
  record := fun job hjob => hinv.record job (hget.symm.trans hjob)
  pending := fun type => by rw [hlists, if_neg (by simp)]
  covers := by simp
  dead := fun type => iff_of_false (hdead type) (by simp)
  held := iff_of_false (by simp) hheld
  heldCount := fun _ => rfl
  born := fun _ => hborn
  fresh := by simp
  limit := hinv.limit

/-- The counter never gives the same ID again. -/
theorem OneCount.unborn_of_incr (hinv : OneCount cfg x place modes w n)
    (hx : itoa (w.store.db.idCounter + 1) = x) : place = .unborn := by
  by_contra hplace
  obtain ⟨number, hle, hnumber⟩ := hinv.born hplace
  have heq := itoa_injective (hnumber.trans hx.symm)
  omega

theorem OneCount.shift_incr (hinv : OneCount cfg x place modes w n)
    (hmax : 0 < cfg.maxAttempts) :
    ∃ place', Shift cfg x i place place'
      ((modes i).next x cfg.maxAttempts .incr (w.store.db.run w.store.now .incr).2) w.store.db
      (w.store.db.run w.store.now .incr).1 n n := by
  by_cases hx : itoa (w.store.db.idCounter + 1) = x
  · obtain rfl := hinv.unborn_of_incr hx
    simp only [Mode.next, Redis.run, hx, if_true]
    refine ⟨_, hinv.take (by simp) (by simp) trivial ?_ rfl ?_ ?_ ⟨_, Nat.le_refl _, hx⟩⟩
    · rw [hinv.fresh rfl]
      exact ⟨hmax, Nat.le_refl _⟩
    · intro type
      rw [hinv.pending type, if_neg (by simp)]
    · intro type hdead
      simpa using (hinv.dead type).mp hdead
  · simp only [Mode.next, Redis.run, hx, if_false]
    exact ⟨_, hinv.stay_free rfl (fun _ => rfl) (fun _ => Iff.rfl) (Nat.le_succ _)⟩

theorem OneCount.shift_lmove (hinv : OneCount cfg x place modes w n) {type temp : GoString} :
    ∃ place', Shift cfg x i place place'
      ((modes i).next x cfg.maxAttempts (.lmove (.pending type) (.temp temp))
        (w.store.db.run w.store.now (.lmove (.pending type) (.temp temp))).2) w.store.db
      (w.store.db.run w.store.now (.lmove (.pending type) (.temp temp))).1 n n := by
  have hjobs : (w.store.db.run w.store.now (.lmove (.pending type) (.temp temp))).1.jobs =
      w.store.db.jobs := by
    simp only [Redis.run]
    split <;> rfl
  have hzsets : (w.store.db.run w.store.now (.lmove (.pending type) (.temp temp))).1.zsets =
      w.store.db.zsets := by
    simp only [Redis.run]
    split <;> rfl
  have hcounter := idCounter_le_run w.store.now w.store.db (.lmove (.pending type) (.temp temp))
  have hlists : ∀ type',
      (w.store.db.run w.store.now (.lmove (.pending type) (.temp temp))).1.lists (.pending type') =
        if LKey.pending type' = .pending type then (w.store.db.lists (.pending type)).dropLast
        else w.store.db.lists (.pending type') := fun type' => lists_lmove (by simp)
  simp only [Mode.next, reply_lmove]
  by_cases hx : (w.store.db.lists (.pending type)).getLast? = some x
  · obtain rfl := hinv.place_of_mem (List.mem_of_getLast? hx)
    simp only [hx, if_true]
    obtain ⟨number, hle, hnumber⟩ := hinv.born (by simp)
    refine ⟨_, hinv.take (by simp) (by simp) trivial ?_ (by rw [hjobs]) ?_ ?_
      ⟨number, hle.trans hcounter, hnumber⟩⟩
    · obtain ⟨hlt, hrecord⟩ := hinv.covers ⟨_, rfl⟩
      exact ⟨hlt, fun job hjob => hrecord job (by rwa [hjobs] at hjob)⟩
    · intro type'
      obtain ⟨before, hlist⟩ := List.getLast?_eq_some_iff.mp hx
      have hcount := hinv.pending type'
      rw [hlists]
      split_ifs with htype
      · rw [htype, if_pos (by simpa using htype.symm), hlist] at hcount
        simp_all
      · rw [hcount, if_neg (by simpa [eq_comm] using htype)]
    · intro type' hdead
      rw [hzsets] at hdead
      simpa using (hinv.dead type').mp hdead
  · simp only [hx, if_false]
    refine ⟨_, hinv.stay_free (by rw [hjobs]) (fun type' => ?_) (by simp [hzsets]) hcounter⟩
    rw [hlists]
    split_ifs with htype
    · rw [htype]
      exact count_dropLast hx
    · rfl

/-- The token is at the call or in a dead set when the record is written. -/
theorem OneCount.place_of_write (hinv : OneCount cfg x place modes w n) {job : Job} {ttl : Nat}
    (hid : job.id = x) (hwrites : (modes i).Writes op job)
    (hcounting : Counting x w op (.set job ttl)) :
    (place = .call i ∧ (modes i).Carries) ∨ ((∃ type, place = .dead type) ∧ modes i = .free) := by
  cases hmode : modes i with
  | free =>
      rw [hmode] at hwrites
      obtain ⟨type, hdead⟩ := hcounting hwrites hid
      exact Or.inr ⟨⟨type, (hinv.dead type).mp hdead⟩, rfl⟩
  | loaded attempts => exact Or.inl ⟨(hinv.token i).mp (by rw [hmode]; trivial), trivial⟩
  | working attempts => exact Or.inl ⟨(hinv.token i).mp (by rw [hmode]; trivial), trivial⟩
  | _ =>
      rw [hmode] at hwrites
      exact hwrites.elim

/-- What the call knows after it has written the record. -/
theorem OneCount.holds_write (hinv : OneCount cfg x place modes w n) {job : Job} {db' : Redis}
    (hwrites : (modes i).Writes op job) (hget : db'.jobs.get? x = some job) :
    ((modes i).write cfg.maxAttempts job).Holds x cfg.maxAttempts n db' := by
  have hcovers : n < cfg.maxAttempts → n ≤ job.attempts → Covers x cfg.maxAttempts n db' := by
    intro hlt hle
    refine ⟨hlt, fun job' hjob' => ?_⟩
    rw [hget] at hjob'
    rwa [← Option.some.inj hjob']
  have hholds := hinv.holds i
  cases hmode : modes i with
  | free => trivial
  | loaded attempts =>
      rw [hmode] at hwrites hholds
      have hattempts : job.attempts = attempts := hwrites
      exact ⟨hholds.2, hcovers hholds.1 (by rw [hattempts]; exact hholds.2)⟩
  | working attempts =>
      rw [hmode] at hholds
      have hle : n ≤ attempts + 1 := hholds
      simp only [Mode.write]
      split_ifs with hwrite
      · exact ⟨by omega, hcovers (by omega) (by omega)⟩
      · exact hle
  | _ =>
      rw [hmode] at hwrites
      exact hwrites.elim

theorem OneCount.shift_set (hinv : OneCount cfg x place modes w n) {job : Job} {ttl : Nat}
    (hpermitted : job.id = x → job.maxAttempts = cfg.maxAttempts ∧ (modes i).Writes op job)
    (hcounting : Counting x w op (.set job ttl)) :
    Shift cfg x i place place
      ((modes i).next x cfg.maxAttempts (.set job ttl)
        (w.store.db.run w.store.now (.set job ttl)).2) w.store.db
      (w.store.db.run w.store.now (.set job ttl)).1 n n := by
  by_cases hid : job.id = x
  · obtain ⟨hmax, hwrites⟩ := hpermitted hid
    have hplace := hinv.place_of_write hid hwrites hcounting
    have hget : (w.store.db.run w.store.now (.set job ttl)).1.jobs.get? x = some job := by
      rw [← hid]
      exact Table.get?_insert_self _ _ _
    simp only [Mode.next, hid, if_true]
    constructor
    case token =>
      rcases hplace with ⟨hcall, hcarries⟩ | ⟨⟨type, hdead⟩, hfree⟩
      · refine iff_of_true ?_ hcall
        cases hmode : modes i with
        | free => simp [hmode, Mode.Carries] at hcarries
        | working attempts =>
            simp only [Mode.write]
            split_ifs <;> trivial
        | _ => trivial
      · refine iff_of_false ?_ (by simp [hdead])
        rw [hfree]
        exact id
    case others => exact fun _ _ => Iff.rfl
    case frame =>
      intro j hj hcall
      rcases hplace with ⟨hcall', _⟩ | ⟨⟨type, hdead⟩, _⟩
      · simp [hcall, hj] at hcall'
      · simp [hcall] at hdead
    case holds => exact hinv.holds_write hwrites hget
    case record =>
      intro job' hjob'
      rw [hget] at hjob'
      rwa [← Option.some.inj hjob']
    case pending => exact hinv.pending
    case covers =>
      rintro ⟨type, hpending⟩
      rcases hplace with ⟨hcall, _⟩ | ⟨⟨type', hdead⟩, _⟩
      · simp [hpending] at hcall
      · simp [hpending] at hdead
    case dead => exact hinv.dead
    case held => exact Iff.rfl
    case heldCount => exact fun _ => rfl
    case born => exact hinv.born
    case fresh => exact hinv.fresh
    case limit => exact hinv.limit
  · simp only [Mode.next, hid, if_false]
    refine hinv.stay_free ?_ (fun _ => rfl) (fun _ => Iff.rfl) (Nat.le_refl _)
    simp [Redis.run, Table.get?_insert_of_ne (Ne.symm hid)]

theorem OneCount.shift_lpush (hinv : OneCount cfg x place modes w n) {type id : GoString}
    (hmax : 0 < cfg.maxAttempts)
    (hpermitted : id = x → (∃ attempts, modes i = .saved attempts) ∨
      (modes i = .revived ∧ begins op = true)) :
    ∃ place', Shift cfg x i place place'
      ((modes i).next x cfg.maxAttempts (.lpush (.pending type) id)
        (w.store.db.run w.store.now (.lpush (.pending type) id)).2) w.store.db
      (w.store.db.run w.store.now (.lpush (.pending type) id)).1 n
      (if id = x ∧ begins op = true then 0 else n) := by
  by_cases hid : id = x
  · have hcarries : (modes i).Carries := by
      rcases hpermitted hid with ⟨attempts, hmode⟩ | ⟨hmode, _⟩
      · rw [hmode]
        trivial
      · rw [hmode]
        trivial
    obtain rfl := (hinv.token i).mp hcarries
    simp only [Mode.next, hid, true_and, if_true]
    refine ⟨.pending type, ?_⟩
    constructor
    case token => exact iff_of_false (fun hfree => hfree) (by simp)
    case others => exact fun j hj => iff_of_false (by simp) (by simp [Ne.symm hj])
    case frame =>
      intro j hj hcall
      simp [Ne.symm hj] at hcall
    case holds => trivial
    case record => exact hinv.record
    case pending =>
      intro type'
      have hcount := hinv.pending type'
      by_cases htype : type = type'
      · subst htype
        simp_all [Redis.run, Redis.setList]
      · have hkey : LKey.pending type' ≠ .pending type := by simp [Ne.symm htype]
        simp_all [Redis.run, Redis.setList]
    case covers =>
      intro _
      split_ifs with hbegins
      · exact ⟨hmax, fun _ _ => Nat.zero_le _⟩
      · rcases hpermitted hid with ⟨attempts, hmode⟩ | ⟨_, hbegins'⟩
        · have hholds := hinv.holds i
          rw [hmode] at hholds
          exact hholds.2
        · exact absurd hbegins' hbegins
    case dead =>
      intro type'
      refine iff_of_false ?_ (by simp)
      intro hdead
      simpa using (hinv.dead type').mp hdead
    case held => exact iff_of_false (by simp) (by simp)
    case heldCount => simp
    case born => exact fun _ => hinv.born (by simp)
    case fresh => simp
    case limit =>
      split_ifs
      · exact Nat.zero_le _
      · exact hinv.limit
  · simp only [Mode.next, hid, false_and, if_false]
    refine ⟨_, hinv.stay_free rfl (fun type' => ?_) (fun _ => Iff.rfl) (Nat.le_refl _)⟩
    by_cases htype : type = type'
    · subst htype
      simp [Redis.run, Redis.setList, hid]
    · have hkey : LKey.pending type' ≠ .pending type := by simp [Ne.symm htype]
      simp [Redis.run, Redis.setList, hkey]

theorem OneCount.shift_zadd (hinv : OneCount cfg x place modes w n) {type id : GoString}
    {score : Int} (hpermitted : id = x → ∃ attempts, modes i = .working attempts) :
    ∃ place', Shift cfg x i place place'
      ((modes i).next x cfg.maxAttempts (.zadd (.dead type) score id)
        (w.store.db.run w.store.now (.zadd (.dead type) score id)).2) w.store.db
      (w.store.db.run w.store.now (.zadd (.dead type) score id)).1 n n := by
  by_cases hid : id = x
  · obtain ⟨attempts, hmode⟩ := hpermitted hid
    obtain rfl := (hinv.token i).mp (by rw [hmode]; trivial)
    simp only [Mode.next, hid, if_true]
    refine ⟨.dead type, ?_⟩
    constructor
    case token => exact iff_of_false (fun hfree => hfree) (by simp)
    case others => exact fun j hj => iff_of_false (by simp) (by simp [Ne.symm hj])
    case frame =>
      intro j hj hcall
      simp [Ne.symm hj] at hcall
    case holds => trivial
    case record => exact hinv.record
    case pending =>
      intro type'
      exact (hinv.pending type').trans (by simp)
    case covers => simp
    case dead =>
      intro type'
      have hdead := hinv.dead type'
      by_cases htype : type = type'
      · subst htype
        simp [Redis.run, Redis.setZset, hid]
      · have hkey : ZKey.dead type' ≠ .dead type := by simp [Ne.symm htype]
        simp_all [Redis.run, Redis.setZset]
    case held => exact iff_of_false (by simp) (by simp)
    case heldCount => simp
    case born => exact fun _ => hinv.born (by simp)
    case fresh => simp
    case limit => exact hinv.limit
  · simp only [Mode.next, hid, if_false]
    refine ⟨_, hinv.stay_free rfl (fun _ => rfl) (fun type' => ?_) (Nat.le_refl _)⟩
    by_cases htype : type = type'
    · subst htype
      simp [Redis.run, Redis.setZset, Ne.symm hid]
    · have hkey : ZKey.dead type' ≠ .dead type := by simp [Ne.symm htype]
      simp [Redis.run, Redis.setZset, hkey]

theorem OneCount.shift_zrem (hinv : OneCount cfg x place modes w n) {type id : GoString}
    (hcounting : Counting x w op (.zrem (.dead type) id)) :
    ∃ place', Shift cfg x i place place'
      ((modes i).next x cfg.maxAttempts (.zrem (.dead type) id)
        (w.store.db.run w.store.now (.zrem (.dead type) id)).2) w.store.db
      (w.store.db.run w.store.now (.zrem (.dead type) id)).1 n n := by
  by_cases hid : id = x
  · obtain rfl := (hinv.dead type).mp (hcounting hid)
    simp only [Mode.next, hid, if_true]
    obtain ⟨number, hle, hnumber⟩ := hinv.born (by simp)
    refine ⟨_, hinv.take (by simp) (by simp) trivial trivial rfl ?_ ?_ ⟨number, hle, hnumber⟩⟩
    · intro type'
      exact (hinv.pending type').trans (if_neg (by simp))
    · intro type' hdead
      by_cases htype : type = type'
      · subst htype
        simp [Redis.run, Redis.setZset, hid] at hdead
      · have hkey : ZKey.dead type' ≠ .dead type := by simp [Ne.symm htype]
        have hold : x ∈ (w.store.db.zsets (.dead type')).keys := by
          simpa [Redis.run, Redis.setZset, hkey] using hdead
        exact htype (by simpa using (hinv.dead type').mp hold)
  · simp only [Mode.next, hid, if_false]
    refine ⟨_, hinv.stay_free rfl (fun _ => rfl) (fun type' => ?_) (Nat.le_refl _)⟩
    by_cases htype : type = type'
    · subst htype
      simp [Redis.run, Redis.setZset, Ne.symm hid]
    · have hkey : ZKey.dead type' ≠ .dead type := by simp [Ne.symm htype]
      simp [Redis.run, Redis.setZset, hkey]

/-- What reading the record tells the call. -/
theorem OneCount.shift_get (hinv : OneCount cfg x place modes w n) (id : GoString) :
    Shift cfg x i place place
      ((modes i).next x cfg.maxAttempts (.get id) (w.store.db.run w.store.now (.get id)).2)
      w.store.db w.store.db n n := by
  simp only [Mode.next, Redis.run]
  split_ifs with hid
  · subst hid
    have hholds := hinv.holds i
    cases hmode : modes i with
    | carrying =>
        rw [hmode] at hholds
        cases hget : w.store.db.jobs.get? id with
        | none =>
            exact hinv.stay rfl (fun _ => rfl) (fun _ => Iff.rfl) (Nat.le_refl _)
              (by rw [hmode]; rfl) hholds
        | some job =>
            exact hinv.stay rfl (fun _ => rfl) (fun _ => Iff.rfl) (Nat.le_refl _)
              (by rw [hmode]; exact Iff.rfl) ⟨hholds.1, hholds.2 job hget⟩
    | _ =>
        exact hinv.stay rfl (fun _ => rfl) (fun _ => Iff.rfl) (Nat.le_refl _)
          (by rw [hmode]; rfl) (by rw [hmode] at hholds; exact hholds)
  · exact hinv.stay_free rfl (fun _ => rfl) (fun _ => Iff.rfl) (Nat.le_refl _)

/-- What a command does to the token and to the count. -/
theorem OneCount.shift (hinv : OneCount cfg x place modes w n) (hmax : 0 < cfg.maxAttempts)
    (hthread : w.threads i = some ⟨op, .cmd c k, failed⟩)
    (hpermitted : Permitted x cfg.maxAttempts op (modes i) c) (hcounting : Counting x w op c) :
    ∃ place', Shift cfg x i place place'
      ((modes i).next x cfg.maxAttempts c (w.store.db.run w.store.now c).2) w.store.db
      (w.store.db.run w.store.now c).1 n (handed x w n (.exec i)) := by
  cases c with
  | incr =>
      simp only [handed, hthread]
      exact hinv.shift_incr hmax
  | set job ttl =>
      simp only [handed, hthread]
      exact ⟨_, hinv.shift_set hpermitted hcounting⟩
  | get id =>
      simp only [handed, hthread]
      exact ⟨_, hinv.shift_get id⟩
  | lpush key id =>
      obtain ⟨⟨type, rfl⟩, hpushes⟩ := hpermitted
      simp only [handed, hthread]
      exact hinv.shift_lpush hmax hpushes
  | lmove source destination =>
      obtain ⟨⟨type, rfl⟩, temp, rfl⟩ := hpermitted
      simp only [handed, hthread]
      exact hinv.shift_lmove
  | lrem key id =>
      obtain ⟨type, rfl⟩ := hpermitted
      simp only [handed, hthread]
      refine ⟨_, hinv.stay_free rfl (fun type' => ?_) (fun _ => Iff.rfl) (Nat.le_refl _)⟩
      simp [Redis.run, Redis.setList]
  | zadd key score id =>
      simp only [handed, hthread]
      cases key with
      | processing type =>
          refine ⟨_, hinv.stay_free rfl (fun _ => rfl) (fun type' => ?_) (Nat.le_refl _)⟩
          simp [Redis.run, Redis.setZset]
      | dead type => exact hinv.shift_zadd hpermitted
  | zrem key id =>
      simp only [handed, hthread]
      cases key with
      | processing type =>
          refine ⟨_, hinv.stay_free rfl (fun _ => rfl) (fun type' => ?_) (Nat.le_refl _)⟩
          simp [Redis.run, Redis.setZset]
      | dead type => exact hinv.shift_zrem hcounting
  | _ =>
      simp only [handed, hthread]
      exact ⟨_, hinv.stay_free rfl (fun _ => rfl) (fun _ => Iff.rfl) (Nat.le_refl _)⟩

/-- The answers of the database are as the calls expect. -/
theorem OneCount.answer (hinv : OneCount cfg x place modes w n) (hcounting : Counting x w op c) :
    Answer x cfg.maxAttempts c (w.store.db.run w.store.now c).2 := by
  cases c with
  | get id =>
      intro job hget
      refine ⟨hinv.keyed id job hget, ?_⟩
      rintro rfl
      exact hinv.record job hget
  | zrangeByScore key stop => exact hcounting
  | _ => trivial

/-- A call starts with the token exactly when it is about the job. -/
theorem first_cases (x : GoString) (op : Op) :
    (∃ jobType job, op.heldJob = some (jobType, job) ∧ job.id = x ∧
      startMode x op = .carrying ∧ (Mode.first x op).Carries) ∨
    (startMode x op = .free ∧ Mode.first x op = .free) := by
  rcases startMode_cases x op with ⟨jobType, job, hop, hid, hmode⟩ | ⟨hother, hmode⟩
  · refine Or.inl ⟨jobType, job, hop, hid, hmode, ?_⟩
    cases op with
    | complete _ _ =>
        obtain ⟨rfl, rfl⟩ := Prod.mk.inj (Option.some.inj hop)
        simp [Mode.first, hid, Mode.Carries]
    | fail _ _ _ =>
        obtain ⟨rfl, rfl⟩ := Prod.mk.inj (Option.some.inj hop)
        simp [Mode.first, hid, Mode.Carries]
    | putBack _ _ =>
        obtain ⟨rfl, rfl⟩ := Prod.mk.inj (Option.some.inj hop)
        simp [Mode.first, hid, Mode.Carries]
    | _ => simp [Op.heldJob] at hop
  · refine Or.inr ⟨hmode, ?_⟩
    cases op with
    | complete jobType job => exact if_neg (hother jobType job rfl)
    | fail jobType job jobErr => exact if_neg (hother jobType job rfl)
    | putBack jobType job => exact if_neg (hother jobType job rfl)
    | _ => rfl

/-- A call that is not about the job leaves the count. -/
theorem handed_start_of_free (hmode : startMode x op = .free) :
    handed x w n (.start i op) = n := by
  cases op with
  | putBack jobType job =>
      by_cases hid : job.id = x
      · simp [startMode, Op.heldJob, hid] at hmode
      · simp [handed, hid]
  | _ => rfl

/-- The count does not rise when a call starts. -/
theorem handed_start_le (x : GoString) (w : QueueWorld) (n : Nat) (i : Nat) (op : Op) :
    handed x w n (.start i op) ≤ n := by
  cases op with
  | putBack jobType job =>
      simp only [handed]
      split_ifs
      · exact Nat.sub_le n 1
      · exact Nat.le_refl n
  | _ => exact Nat.le_refl n

/-- What a call knows when it starts with a job. -/
theorem holds_first {jobType : GoString} {job : Job} {db : Redis} (hmax : 0 < cfg.maxAttempts)
    (hlimit : n ≤ cfg.maxAttempts) (hop : op.heldJob = some (jobType, job)) (hid : job.id = x)
    (hjob : n ≤ job.attempts + 1) :
    (Mode.first x op).Holds x cfg.maxAttempts (handed x w n (.start i op)) db := by
  cases op with
  | complete _ _ =>
      obtain ⟨rfl, rfl⟩ := Prod.mk.inj (Option.some.inj hop)
      simp only [Mode.first, hid, if_true]
      exact hjob
  | fail _ _ _ =>
      obtain ⟨rfl, rfl⟩ := Prod.mk.inj (Option.some.inj hop)
      simp only [Mode.first, hid, if_true]
      exact hjob
  | putBack _ _ =>
      obtain ⟨rfl, rfl⟩ := Prod.mk.inj (Option.some.inj hop)
      simp only [Mode.first, handed, hid, if_true]
      exact ⟨by omega, by omega⟩
  | _ => simp [Op.heldJob] at hop

/-- A started call keeps the invariant. -/
theorem OneCount.start (hinv : OneCount cfg x place modes w n) (hmax : 0 < cfg.maxAttempts)
    (hfree : w.threads i = none) (henabled : w.store.enabled op) :
    ∃ place' modes', OneCount cfg x place' modes'
      ⟨w.store.begin op, w.setThread i (some ⟨op, bodyOf cfg op, false⟩), w.log⟩
      (handed x w n (.start i op)) := by
  have hidle : modes i = .free := hinv.kept.idle i hfree
  have hcall : place ≠ .call i := by
    intro hplace
    have hcarries := (hinv.token i).mpr hplace
    rw [hidle] at hcarries
    exact hcarries
  have hother : ∀ j, j ≠ i → Function.update modes i (Mode.first x op) j = modes j :=
    fun j hj => Function.update_of_ne hj _ modes
  have hheldJobs : ∀ e ∈ (w.store.begin op).held, e.2.id = x →
      e.2.maxAttempts = cfg.maxAttempts ∧ handed x w n (.start i op) ≤ e.2.attempts + 1 := by
    intro e he hid
    obtain ⟨hjob, hle⟩ := hinv.heldJobs e (mem_held_of_begin he) hid
    exact ⟨hjob, (handed_start_le x w n i op).trans hle⟩
  have hkept : (counting x cfg.maxAttempts).Kept (queueSystem cfg true)
      (Function.update modes i (Mode.first x op))
      ⟨w.store.begin op, w.setThread i (some ⟨op, bodyOf cfg op, false⟩), w.log⟩ := by
    apply hinv.kept.start
    apply follows_bodyOf
    intro jobType job hop hid
    exact (hinv.heldJobs _ (mem_held_of_enabled henabled hop) hid).1
  rcases first_cases x op with ⟨jobType, job, hop, hid, hmode, hcarries⟩ | ⟨hmode, hfirst⟩
  · have hmem := mem_held_of_enabled henabled hop
    obtain rfl := hinv.place_of_held hmem hid
    refine ⟨.call i, Function.update modes i (Mode.first x op), ?_⟩
    constructor
    case kept => exact hkept
    case token =>
      intro j
      by_cases hj : j = i
      · subst hj
        rw [Function.update_self]
        exact iff_of_true hcarries rfl
      · rw [hother j hj, hinv.token j]
        exact iff_of_false (by simp) (by simp [Ne.symm hj])
    case holds =>
      intro j
      by_cases hj : j = i
      · subst hj
        rw [Function.update_self]
        exact holds_first hmax hinv.limit hop hid (hinv.heldJobs _ hmem hid).2
      · rw [hother j hj]
        cases hmodej : modes j with
        | free => trivial
        | _ =>
            have hplace := (hinv.token j).mp (by rw [hmodej]; trivial)
            simp at hplace
    case keyed => simpa using hinv.keyed
    case record => simpa using hinv.record
    case pending => simpa using hinv.pending
    case covers => simp
    case dead => simpa using hinv.dead
    case held =>
      rw [count_held_begin henabled, hinv.held, hmode]
      simp
    case heldJobs => exact hheldJobs
    case born =>
      intro _
      rw [begin_db]
      exact hinv.born (by simp)
    case fresh => simp
    case limit => exact (handed_start_le x w n i op).trans hinv.limit
  · rw [handed_start_of_free hmode] at hheldJobs ⊢
    refine ⟨place, Function.update modes i (Mode.first x op), ?_⟩
    have hmodes : Function.update modes i (Mode.first x op) = modes := by
      rw [hfirst, ← hidle]
      exact Function.update_eq_self i modes
    rw [hmodes] at hkept ⊢
    constructor
    case kept => exact hkept
    case token => exact hinv.token
    case holds => simpa using hinv.holds
    case keyed => simpa using hinv.keyed
    case record => simpa using hinv.record
    case pending => simpa using hinv.pending
    case covers => simpa using hinv.covers
    case dead => simpa using hinv.dead
    case held =>
      rw [count_held_begin henabled, hinv.held, hmode]
      simp
    case heldJobs => exact hheldJobs
    case born => simpa using hinv.born
    case fresh => exact hinv.fresh
    case limit => exact hinv.limit

/-- A call that is over gives its token away; the other tokens stay. -/
theorem OneCount.leave (hinv : OneCount cfg x place modes w n) {store : State}
    {log : List (Event Op Command Outcome)} (hdb : store.db = w.store.db)
    (hmoves : (place ≠ .call i ∧ place' = place ∧ n' = n) ∨
      (place = .call i ∧ (place' = .held ∨ place' = .gone)))
    (hheld : (store.held.map fun e => e.2.id).count x = if place' = .held then 1 else 0)
    (hheldJobs : ∀ e ∈ store.held, e.2.id = x →
      e.2.maxAttempts = cfg.maxAttempts ∧ n' ≤ e.2.attempts + 1)
    (hlimit : n' ≤ cfg.maxAttempts) :
    ∃ modes', OneCount cfg x place' modes' ⟨store, w.setThread i none, log⟩ n' := by
  have hother : ∀ j, j ≠ i → Function.update modes i .free j = modes j :=
    fun j hj => Function.update_of_ne hj _ modes
  refine ⟨Function.update modes i .free, ?_⟩
  constructor
  case kept => exact hinv.kept.leave store log
  case token =>
    intro j
    by_cases hj : j = i
    · subst hj
      rw [Function.update_self]
      refine iff_of_false (fun hfree => hfree) ?_
      rcases hmoves with ⟨hcall, rfl, _⟩ | ⟨_, rfl | rfl⟩
      · exact hcall
      · simp
      · simp
    · rw [hother j hj, hinv.token j]
      rcases hmoves with ⟨_, rfl, _⟩ | ⟨rfl, rfl | rfl⟩
      · exact Iff.rfl
      · simp [Ne.symm hj]
      · simp [Ne.symm hj]
  case holds =>
    intro j
    by_cases hj : j = i
    · subst hj
      rw [Function.update_self]
      trivial
    · rw [hother j hj, hdb]
      rcases hmoves with ⟨_, _, rfl⟩ | ⟨rfl, _⟩
      · exact hinv.holds j
      · cases hmode : modes j with
        | free => trivial
        | _ =>
            have hcall := (hinv.token j).mp (by rw [hmode]; trivial)
            simp [Ne.symm hj] at hcall
  case keyed => rw [hdb]; exact hinv.keyed
  case record => rw [hdb]; exact hinv.record
  case pending =>
    intro type
    rw [hdb, hinv.pending type]
    rcases hmoves with ⟨_, rfl, _⟩ | ⟨rfl, rfl | rfl⟩
    · rfl
    · simp
    · simp
  case covers =>
    rw [hdb]
    rcases hmoves with ⟨_, rfl, rfl⟩ | ⟨_, rfl | rfl⟩
    · exact hinv.covers
    · simp
    · simp
  case dead =>
    intro type
    rw [hdb, hinv.dead type]
    rcases hmoves with ⟨_, rfl, _⟩ | ⟨rfl, rfl | rfl⟩
    · exact Iff.rfl
    · simp
    · simp
  case held => exact hheld
  case heldJobs => exact hheldJobs
  case born =>
    intro hplace
    rw [hdb]
    rcases hmoves with ⟨_, rfl, _⟩ | ⟨rfl, _⟩
    · exact hinv.born hplace
    · exact hinv.born (by simp)
  case fresh =>
    intro hplace
    rcases hmoves with ⟨_, rfl, rfl⟩ | ⟨_, rfl | rfl⟩
    · exact hinv.fresh hplace
    · simp at hplace
    · simp at hplace
  case limit => exact hlimit

/-- The count rises exactly when a {lit}`Dequeue` hands the job out. -/
theorem handed_finish {a : Outcome} (hthread : w.threads i = some ⟨op, .ret a, failed⟩) :
    (Hands x (.returned op a) → handed x w n (.finish i) = n + 1) ∧
      (¬Hands x (.returned op a) → handed x w n (.finish i) = n) := by
  constructor
  · rintro ⟨jobType, job, heq, hid⟩
    obtain ⟨rfl, rfl⟩ := Event.returned.inj heq
    simp only [handed, hthread, hid, if_true]
  · intro hhands
    simp only [handed, hthread]
    split
    · rename_i jobType job failed' heq
      obtain ⟨rfl, hret, rfl⟩ := Thread.mk.inj (Option.some.inj heq)
      obtain rfl := Prog.ret.inj hret
      exact if_neg fun hid => hhands ⟨jobType, job, rfl, hid⟩
    · rfl

/-- A finished call keeps the invariant: the job that it returns is handed over. -/
theorem OneCount.finish (hinv : OneCount cfg x place modes w n) {a : Outcome}
    (hthread : w.threads i = some ⟨op, .ret a, failed⟩) :
    ∃ place' modes', OneCount cfg x place' modes'
      ⟨w.store.done op a, w.setThread i none, .returned op a :: w.log⟩
      (handed x w n (.finish i)) := by
  obtain ⟨hrises, hstays⟩ := @handed_finish x w n i op failed a hthread
  rcases count_held_done x w.store op a with ⟨hhands, hdone⟩ | ⟨hhands, hdone⟩
  · rw [hrises hhands]
    obtain ⟨jobType, job, heq, hid⟩ := hhands
    obtain ⟨rfl, rfl⟩ := Event.returned.inj heq
    obtain ⟨hmode, hjob⟩ := hinv.kept.result hthread jobType job rfl rfl hid
    have hcall := (hinv.token i).mp (by rw [hmode]; trivial)
    have hholds := hinv.holds i
    rw [hmode] at hholds
    obtain ⟨hle, hlt, _⟩ := hholds
    refine ⟨.held, hinv.leave (done_db _ _ _) (Or.inr ⟨hcall, Or.inl rfl⟩) ?_ ?_ hlt⟩
    · rw [hdone, hinv.held, hcall]
      simp
    · intro e he hid'
      rcases mem_held_done he with he | ⟨_, hresult⟩
      · have hplace := hinv.place_of_held he hid'
        simp [hcall] at hplace
      · obtain rfl := Option.some.inj (Outcome.job.inj hresult)
        exact ⟨hjob, Nat.succ_le_succ hle⟩
  · rw [hstays hhands]
    have hheldJobs : ∀ e ∈ (w.store.done op a).held, e.2.id = x →
        e.2.maxAttempts = cfg.maxAttempts ∧ n ≤ e.2.attempts + 1 := by
      intro e he hid
      rcases mem_held_done he with he | ⟨rfl, rfl⟩
      · exact hinv.heldJobs e he hid
      · exact absurd ⟨e.1, e.2, rfl, hid⟩ hhands
    by_cases hcall : place = .call i
    · refine ⟨.gone, hinv.leave (done_db _ _ _) (Or.inr ⟨hcall, Or.inr rfl⟩) ?_ hheldJobs
        hinv.limit⟩
      rw [hdone, hinv.held, hcall]
      simp
    · refine ⟨place, hinv.leave (done_db _ _ _) (Or.inl ⟨hcall, rfl, rfl⟩) ?_ hheldJobs
        hinv.limit⟩
      rw [hdone, hinv.held]

/-- A stopped call keeps the invariant: what it has is lost. -/
theorem OneCount.stop (hinv : OneCount cfg x place modes w n) (i : Nat) :
    ∃ place' modes', OneCount cfg x place' modes' ⟨w.store, w.setThread i none, w.log⟩ n := by
  by_cases hcall : place = .call i
  · refine ⟨.gone, hinv.leave rfl (Or.inr ⟨hcall, Or.inr rfl⟩) ?_ hinv.heldJobs hinv.limit⟩
    rw [hinv.held, hcall]
    simp
  · exact ⟨place, hinv.leave rfl (Or.inl ⟨hcall, rfl, rfl⟩) hinv.held hinv.heldJobs hinv.limit⟩

/-- Time that passes and workers that die keep the invariant. -/
theorem OneCount.env (hinv : OneCount cfg x place modes w n) {s : State}
    (henv : Env true w.store s) : ∃ place', OneCount cfg x place' modes ⟨s, w.threads, w.log⟩ n := by
  cases henv with
  | tick hlater => exact ⟨place, { hinv with kept := ⟨hinv.kept.follows, hinv.kept.idle⟩ }⟩
  | die _ entry =>
      have hheldJobs : ∀ e ∈ w.store.held.erase entry, e.2.id = x →
          e.2.maxAttempts = cfg.maxAttempts ∧ n ≤ e.2.attempts + 1 :=
        fun e he hid => hinv.heldJobs e (List.mem_of_mem_erase he) hid
      by_cases hentry : entry ∈ w.store.held ∧ entry.2.id = x
      · obtain ⟨hmem, hid⟩ := hentry
        obtain rfl := hinv.place_of_held hmem hid
        have hcount := ((List.perm_cons_erase hmem).map fun e => e.2.id).count_eq x
        rw [hinv.held, List.map_cons, hid, List.count_cons_self, if_pos rfl] at hcount
        refine ⟨.gone, ?_⟩
        constructor
        case kept => exact ⟨hinv.kept.follows, hinv.kept.idle⟩
        case token =>
          intro j
          rw [hinv.token j]
          simp
        case holds => exact hinv.holds
        case keyed => exact hinv.keyed
        case record => exact hinv.record
        case pending => simpa using hinv.pending
        case covers => simp
        case dead => simpa using hinv.dead
        case held =>
          rw [if_neg (by simp)]
          exact (Nat.succ.inj hcount).symm
        case heldJobs => exact hheldJobs
        case born => exact fun _ => hinv.born (by simp)
        case fresh => simp
        case limit => exact hinv.limit
      · refine ⟨place, { hinv with
          kept := ⟨hinv.kept.follows, hinv.kept.idle⟩
          held := ?_
          heldJobs := hheldJobs }⟩
        rw [← hinv.held]
        by_cases hmem : entry ∈ w.store.held
        · have hid : entry.2.id ≠ x := fun hid => hentry ⟨hmem, hid⟩
          have hcount := ((List.perm_cons_erase hmem).map fun e => e.2.id).count_eq x
          rw [List.map_cons, List.count_cons_of_ne hid] at hcount
          exact hcount.symm
        · rw [List.erase_of_not_mem hmem]

/-- The steps keep the invariant. -/
theorem OneCount.step (hinv : OneCount cfg x place modes w n) (hmax : 0 < cfg.maxAttempts)
    {l : Label Op} {w' : QueueWorld} (hcounted : Counted x (w, n) l)
    (hstep : (queueSystem cfg true).Step w l w') :
    ∃ place' modes', OneCount cfg x place' modes' w' (handed x w n l) := by
  cases hstep with
  | start hfree henabled => exact hinv.start hmax hfree henabled
  | exec hthread hlive =>
      have hcounting := hcounted _ _ _ _ _ rfl hthread
      have hpermitted := hinv.kept.permitted hthread hlive
      obtain ⟨place', hshift⟩ := hinv.shift hmax hthread hpermitted hcounting
      exact ⟨place', hinv.exec hthread hlive (hinv.answer hcounting) hshift⟩
  | fail hthread hfallible =>
      exact ⟨place, modes, { hinv with kept := hinv.kept.fail hthread hfallible }⟩
  | stop hthread => exact hinv.stop _
  | finish hthread => exact hinv.finish hthread
  | env henv =>
      obtain ⟨place', hinv'⟩ := hinv.env henv
      exact ⟨place', modes, hinv'⟩

end Preservation

/-! ## Hand-overs in a run -/

/-- In every run in which recovery does not list the job and requeueing calls write and
remove it only while it is dead, the job is handed over at most as often as the
configuration says, and less often as long as it is pending. -/
theorem handed_le_of_run {cfg : Config} (hmax : 0 < cfg.maxAttempts) {x : GoString}
    {w : QueueWorld} {n : Nat}
    (hrun : Run ((queueSystem cfg true).Tracked (handed x)) (Counted x) (start, 0) (w, n)) :
    n ≤ cfg.maxAttempts ∧
      ∀ type, x ∈ w.store.db.lists (.pending type) → n < cfg.maxAttempts := by
  obtain ⟨place, modes, hinv⟩ :=
    hrun.invariant (I := fun s => ∃ place modes, OneCount cfg x place modes s.1 s.2)
      ⟨_, _, oneCount_start cfg x⟩ (by
        rintro ⟨w, n⟩ l ⟨w', n'⟩ ⟨place, modes, hinv⟩ hcounted ⟨hstep, rfl⟩
        exact hinv.step hmax hcounted hstep)
  refine ⟨hinv.limit, fun type hpending => ?_⟩
  exact (hinv.covers ⟨type, hinv.place_of_mem hpending⟩).1

/-- The commands that certainly keep the count. -/
def isSafe (op : Op) : Command → Bool
  | .zrangeByScore .. | .zrem (.dead _) _ => false
  | .set .. => !requeues op
  | _ => true

/-- The steps that certainly keep the count. -/
def isCounted (s : QueueWorld × Nat) : Label Op → Bool
  | .exec i =>
      match s.1.threads i with
      | some ⟨op, .cmd c _, _⟩ => isSafe op c
      | _ => true
  | _ => true

theorem counted_of_isCounted {x : GoString} (s : QueueWorld × Nat) (l : Label Op)
    (hcounted : isCounted s l = true) : Counted x s l := by
  rintro i op c k failed rfl hthread
  simp only [isCounted, hthread] at hcounted
  cases c with
  | set job ttl =>
      intro hop
      simp [isSafe, hop] at hcounted
  | zrangeByScore key stop => simp [isSafe] at hcounted
  | zrem key id =>
      cases key with
      | processing type => trivial
      | dead type => simp [isSafe] at hcounted
  | _ => trivial

/-- A job that is enqueued and dequeued has been handed over once. -/
theorem handed_le_of_run_dequeue :
    ∃ w, Run ((queueSystem defaultConfig true).Tracked (handed firstDiffJob.2))
        (Counted firstDiffJob.2) (start, 0) (w, 1) ∧
      1 ≤ defaultConfig.maxAttempts ∧
        ∀ type, firstDiffJob.2 ∈ w.store.db.lists (.pending type) →
          1 < defaultConfig.maxAttempts := by
  obtain ⟨w, n, hsteps, htest⟩ := System.exists_of_trackedSteps? (queueSystem defaultConfig true)
    (handed firstDiffJob.2) isCounted (start, 0) holdLabels (fun s => s.2 = 1) (by decide +kernel)
  obtain rfl : n = 1 := of_decide_eq_true htest
  have hrun : Run ((queueSystem defaultConfig true).Tracked (handed firstDiffJob.2))
      (Counted firstDiffJob.2) (start, 0) (w, 1) :=
    System.tracked_of_trackedSteps? counted_of_isCounted hsteps
  exact ⟨w, hrun, handed_le_of_run (by decide) hrun⟩

/-- A configuration with a single attempt. -/
def onceConfig : Config :=
  ⟨1, 600⟩

/-- The state when the worker has died and the lock timeout has passed. -/
def afterCrash (w : QueueWorld) : QueueWorld :=
  ⟨{ w.store with now := 601, held := w.store.held.tail }, w.threads, w.log⟩

/-- With a single attempt, a job whose worker has died is handed over twice. -/
theorem handed_again_after_crash :
    ∃ w n, Run ((queueSystem onceConfig true).Tracked (handed firstDiffJob.2))
        (fun _ => Undisturbed) (start, 0) (w, n) ∧ onceConfig.maxAttempts < n := by
  obtain ⟨w, n, hsteps, htest⟩ := System.exists_of_trackedSteps? (queueSystem onceConfig true)
    (handed firstDiffJob.2) (fun s => isPlain s.1) (start, 0) holdLabels
    (fun s => !s.1.store.held.isEmpty && decide (s.1.store.now ≤ 601) &&
      ((queueSystem onceConfig true).trackedSteps? (handed firstDiffJob.2) (fun s => isPlain s.1)
        (afterCrash s.1, s.2) recoverLabels).any fun s => onceConfig.maxAttempts < s.2)
    (by decide +kernel)
  obtain ⟨hcrash, hsecond⟩ := Bool.and_eq_true_iff.mp htest
  obtain ⟨hheld, hlater⟩ := Bool.and_eq_true_iff.mp hcrash
  obtain ⟨w', n', hrest, hcount⟩ := System.exists_of_trackedSteps? _ _ _ _ _ _ hsecond
  obtain ⟨entry, others, hentry⟩ : ∃ entry others, w.store.held = entry :: others := by
    cases hlist : w.store.held with
    | nil => simp [hlist] at hheld
    | cons entry others => exact ⟨entry, others, rfl⟩
  have hdie : (queueSystem onceConfig true).Tracked (handed firstDiffJob.2) (w, n) .env
      (⟨{ w.store with held := w.store.held.erase entry }, w.threads, w.log⟩, n) :=
    ⟨.env (.die rfl entry), rfl⟩
  have htail : w.store.held.erase entry = w.store.held.tail := by simp [hentry]
  rw [htail] at hdie
  have htick : (queueSystem onceConfig true).Tracked (handed firstDiffJob.2)
      (⟨{ w.store with held := w.store.held.tail }, w.threads, w.log⟩, n) .env
      (afterCrash w, n) :=
    ⟨.env (.tick (of_decide_eq_true hlater)), rfl⟩
  have hplain : ∀ (s : QueueWorld × Nat) l, isPlain s.1 l = true → Undisturbed l :=
    fun s => undisturbed_of_isPlain s.1
  have hfirst : Run ((queueSystem onceConfig true).Tracked (handed firstDiffJob.2))
      (fun _ => Undisturbed) (start, 0) (w, n) := System.tracked_of_trackedSteps? hplain hsteps
  have hlast : Run ((queueSystem onceConfig true).Tracked (handed firstDiffJob.2))
      (fun _ => Undisturbed) (afterCrash w, n) (w', n') :=
    System.tracked_of_trackedSteps? hplain hrest
  refine ⟨w', n', ?_, of_decide_eq_true hcount⟩
  exact ((hfirst.snoc hdie trivial).snoc htick trivial).trans hlast

end Attempts
end Queue
end Veilence
