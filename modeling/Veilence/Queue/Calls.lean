import Veilence.Foundation.Program
import Veilence.Queue.Redis

/-!
# The calls of the queue

{lit}`Enqueue`, {lit}`Dequeue`, {lit}`Complete`, {lit}`Fail`, the put-back of a job that
is not due, {lit}`RecoverStuckJobs`, {lit}`RequeueDead` and {lit}`RequeueAllDead`, each
as a program of single Redis commands.  The commands of a pipeline follow each other
whatever the earlier ones answer.

The system adds the workers around the calls: a job that {lit}`Dequeue` has returned is
held by its worker until the worker begins to complete it, fail it or put it back.
-/

namespace Veilence
namespace Queue

open Go Foundation

/-- The configuration of a queue, the lock timeout in seconds. -/
structure Config where
  maxAttempts : Nat
  lockTimeout : Int

/-- What a call returns. -/
inductive Outcome where
  | failed
  | done
  | id (id : GoString)
  | job (job : Option Job)
  | count (n : Nat)
deriving DecidableEq

/-- The body of a call or of a part of it. -/
abbrev Body (α : Type) := Prog Command Reply α

/-- A single command. -/
abbrev send (c : Command) : Body (Option (Reply c)) :=
  Prog.call c

/-! ## Job errors -/

/-- The messages for known prefixes of job errors, the first match counts. -/
def errorMapping : List (GoString × GoString) :=
  [("downloading new tarball", "Failed to download package version"),
   ("downloading previous tarball", "Failed to download previous package version"),
   ("extracting new tarball", "Failed to extract package archive"),
   ("extracting previous tarball", "Failed to extract previous package archive"),
   ("generating diff", "Failed to generate diff between versions"),
   ("saving diff", "Failed to save diff results"),
   ("enqueuing analyze job", "Failed to queue analysis job"),
   ("loading release", "Failed to load release data"),
   ("unknown ecosystem", "Unsupported package ecosystem"),
   ("loading diff", "Failed to load diff for analysis"),
   ("loading previous release", "Failed to load previous release for analysis"),
   ("all providers failed", "Failed to analyze release - all providers unavailable"),
   ("downloading", "Failed to download package"),
   ("extracting", "Failed to extract package archive"),
   ("saving", "Failed to save results"),
   ("loading", "Failed to load data"),
   ("analyzing", "Failed to analyze release")].map fun m => (m.1.toList, m.2.toList)

/-- The message that is stored for a job error. -/
def sanitizeJobError (msg : GoString) : GoString :=
  match errorMapping.find? fun m => m.1.isPrefixOf (toLower msg) with
  | some m => m.2
  | none => "Internal processing error".toList

/-! ## Parts of calls -/

/-- The current time in seconds. -/
def clock : Body Int := do
  return (← send .time).getD 0

/-- {lit}`loadJob`: a missing record is an error like a failing command. -/
def loadJob (id : GoString) : Body (Option Job) := do
  match ← send (.get id) with
  | some (some job) => return some job
  | _ => return none

/-- The expiry of a job record in seconds. -/
def ttlOf : JobStatus → Nat
  | .completed => 3600
  | .dead => 7 * 24 * 3600
  | _ => 24 * 3600

/-- {lit}`saveJob`, with whether it succeeded. -/
def saveJob (job : Job) : Body Bool := do
  return (← send (.set job (ttlOf job.status))).isSome

/-- The result of a pipeline whose commands have succeeded or not. -/
def pipelineResult (ok : Bool) (result : Outcome) : Outcome :=
  if ok then result else .failed

/-! ## The calls -/

/-- {lit}`Enqueue`. -/
def enqueue (cfg : Config) (jobType workspaceID referenceID : GoString)
    (metadata : List (GoString × GoString)) : Body Outcome := do
  match ← send .incr with
  | none => return .failed
  | some n =>
      let now ← clock
      let job : Job :=
        { id := itoa n
          type := jobType
          workspaceID := workspaceID
          referenceID := referenceID
          status := .pending
          attempts := 0
          maxAttempts := cfg.maxAttempts
          lastError := []
          metadata := metadata
          createdAt := now
          updatedAt := now
          nextRunAt := now }
      let saved ← send (.set job (24 * 3600))
      let pushed ← send (.lpush (.pending jobType) job.id)
      let counted ← send (.hincrby "total_enqueued".toList 1)
      return pipelineResult (saved.isSome && pushed.isSome && counted.isSome) (.id job.id)

/-- {lit}`Dequeue`. -/
def dequeue (jobType : GoString) : Body Outcome := do
  match ← send (.lmove (.pending jobType) (.temp jobType)) with
  | none => return .failed
  | some none => return .job none
  | some (some jobID) =>
      let _ ← send (.lrem (.temp jobType) jobID)
      match ← loadJob jobID with
      | none => return .failed
      | some job =>
          let now ← clock
          let job := { job with status := .processing, updatedAt := now }
          match ← saveJob job with
          | false => return .failed
          | true =>
              let _ ← send (.zadd (.processing jobType) now job.id)
              return .job (some job)

/-- {lit}`Complete`. -/
def complete (job : Job) : Body Outcome := do
  let now ← clock
  let job := { job with status := .completed, updatedAt := now }
  let saved ← send (.set job 3600)
  let removed ← send (.zrem (.processing job.type) job.id)
  let total ← send (.hincrby "total_completed".toList 1)
  let own ← send (.hincrby ("completed:".toList ++ job.workspaceID) 1)
  return pipelineResult (saved.isSome && removed.isSome && total.isSome && own.isSome) .done

/-- The wait in seconds before the next attempt. -/
def backoff (attempts : Nat) : Int :=
  30 * 2 ^ (attempts - 1)

/-- {lit}`Fail`. -/
def fail (job : Job) (jobErr : GoString) : Body Outcome := do
  let now ← clock
  let job := { job with
    attempts := job.attempts + 1
    lastError := sanitizeJobError jobErr
    updatedAt := now }
  let _ ← send (.zrem (.processing job.type) job.id)
  if job.attempts ≥ job.maxAttempts then
    let job := { job with status := .dead }
    match ← saveJob job with
    | false => return .failed
    | true =>
        let added ← send (.zadd (.dead job.type) job.updatedAt job.id)
        let counted ← send (.hincrby "total_dead".toList 1)
        return pipelineResult (added.isSome && counted.isSome) .done
  else
    let now ← clock
    let job := { job with status := .pending, nextRunAt := now + backoff job.attempts }
    match ← saveJob job with
    | false => return .failed
    | true =>
        let _ ← send (.lpush (.pending job.type) job.id)
        return .done

/-- The put-back of a job that is not due, in the loop of {lit}`Worker.Start`. -/
def putBack (jobType : GoString) (job : Job) : Body Outcome := do
  let job := { job with status := .pending }
  let _ ← saveJob job
  let _ ← send (.lpush (.pending jobType) job.id)
  let _ ← send (.zrem (.processing jobType) job.id)
  return .done

/-- One turn of the loop of {lit}`RecoverStuckJobs`: whether the job was recovered. -/
def recoverJob (jobType jobID : GoString) : Body Bool := do
  match ← loadJob jobID with
  | none => return false
  | some job =>
      let _ ← send (.zrem (.processing jobType) jobID)
      let now ← clock
      if job.attempts ≥ job.maxAttempts then
        let job := { job with
          status := .dead
          lastError := "recovered from stuck state, max attempts exceeded".toList
          updatedAt := now }
        let _ ← saveJob job
        let _ ← send (.zadd (.dead jobType) job.updatedAt job.id)
        return false
      else
        let job := { job with status := .pending, updatedAt := now }
        let _ ← saveJob job
        let _ ← send (.lpush (.pending jobType) jobID)
        return true

/-- The loop of {lit}`RecoverStuckJobs`, with the number recovered so far. -/
def recoverLoop (jobType : GoString) (recovered : Nat) : List GoString → Body Outcome
  | [] => return .count recovered
  | jobID :: stuckIDs => do
      match ← recoverJob jobType jobID with
      | true => recoverLoop jobType (recovered + 1) stuckIDs
      | false => recoverLoop jobType recovered stuckIDs

/-- {lit}`RecoverStuckJobs`. -/
def recoverStuckJobs (cfg : Config) (jobType : GoString) : Body Outcome := do
  let now ← clock
  match ← send (.zrangeByScore (.processing jobType) (now - cfg.lockTimeout)) with
  | none => return .failed
  | some stuckIDs => recoverLoop jobType 0 stuckIDs

/-- {lit}`RequeueDead`. -/
def requeueDead (jobType jobID : GoString) : Body Outcome := do
  match ← loadJob jobID with
  | none => return .failed
  | some job =>
      if job.status ≠ .dead then return .failed
      else
        let now ← clock
        let later ← clock
        let job := { job with
          status := .pending
          attempts := 0
          lastError := []
          updatedAt := now
          nextRunAt := later }
        match ← saveJob job with
        | false => return .failed
        | true =>
            let removed ← send (.zrem (.dead jobType) jobID)
            let pushed ← send (.lpush (.pending jobType) jobID)
            return pipelineResult (removed.isSome && pushed.isSome) .done

/-- The loop of {lit}`RequeueAllDead`, with the number requeued so far. -/
def requeueLoop (jobType : GoString) (count : Nat) : List GoString → Body Outcome
  | [] => return .count count
  | jobID :: deadIDs => do
      match ← requeueDead jobType jobID with
      | .failed => requeueLoop jobType count deadIDs
      | _ => requeueLoop jobType (count + 1) deadIDs

/-- {lit}`RequeueAllDead`. -/
def requeueAllDead (jobType : GoString) : Body Outcome := do
  match ← send (.zrange (.dead jobType)) with
  | none => return .failed
  | some deadIDs => requeueLoop jobType 0 deadIDs

/-! ## The system -/

/-- The calls with their arguments.  The worker's job type comes with the jobs that it
works on. -/
inductive Op where
  | enqueue (jobType workspaceID referenceID : GoString) (metadata : List (GoString × GoString))
  | dequeue (jobType : GoString)
  | complete (jobType : GoString) (job : Job)
  | fail (jobType : GoString) (job : Job) (jobErr : GoString)
  | putBack (jobType : GoString) (job : Job)
  | recoverStuckJobs (jobType : GoString)
  | requeueDead (jobType jobID : GoString)
  | requeueAllDead (jobType : GoString)
deriving DecidableEq

/-- The body of a call. -/
def bodyOf (cfg : Config) : Op → Body Outcome
  | .enqueue jobType workspaceID referenceID metadata =>
      enqueue cfg jobType workspaceID referenceID metadata
  | .dequeue jobType => dequeue jobType
  | .complete _ job => complete job
  | .fail _ job jobErr => fail job jobErr
  | .putBack jobType job => putBack jobType job
  | .recoverStuckJobs jobType => recoverStuckJobs cfg jobType
  | .requeueDead jobType jobID => requeueDead jobType jobID
  | .requeueAllDead jobType => requeueAllDead jobType

/-- The database, the time and the jobs that workers hold, with the worker's job type. -/
structure State where
  db : Redis
  now : Int
  held : List (GoString × Job)

/-- The state before the first call. -/
def State.initial : State :=
  ⟨.empty, 0, []⟩

/-- The held job that a call is about. -/
def Op.heldJob : Op → Option (GoString × Job)
  | .complete jobType job => some (jobType, job)
  | .fail jobType job _ => some (jobType, job)
  | .putBack jobType job => some (jobType, job)
  | _ => none

/-- A worker completes, fails or puts back a job that it holds; it puts a job back
exactly when the job is not due. -/
def State.enabled (s : State) (op : Op) : Prop :=
  match op with
  | .complete jobType job => (jobType, job) ∈ s.held ∧ job.nextRunAt ≤ s.now
  | .fail jobType job _ => (jobType, job) ∈ s.held ∧ job.nextRunAt ≤ s.now
  | .putBack jobType job => (jobType, job) ∈ s.held ∧ s.now < job.nextRunAt
  | _ => True

instance (s : State) (op : Op) : Decidable (s.enabled op) :=
  match op with
  | .complete .. | .fail .. | .putBack .. => inferInstanceAs (Decidable (_ ∧ _))
  | .enqueue .. | .dequeue .. | .recoverStuckJobs .. | .requeueDead .. | .requeueAllDead .. =>
      inferInstanceAs (Decidable True)

/-- The start of a call: the job that it is about is no longer held. -/
def State.begin (s : State) (op : Op) : State :=
  match op.heldJob with
  | none => s
  | some entry => { s with held := s.held.erase entry }

/-- The end of a call: a dequeued job is held by its worker. -/
def State.done (s : State) (op : Op) (result : Outcome) : State :=
  match op, result with
  | .dequeue jobType, .job (some job) => { s with held := (jobType, job) :: s.held }
  | _, _ => s

/-- Time passes, or a worker dies with the job it holds if workers are mortal. -/
inductive Env (mortal : Bool) : State → State → Prop where
  | tick {s : State} {later : Int} (hlater : s.now ≤ later) :
      Env mortal s { s with now := later }
  | die {s : State} (hmortal : mortal = true) (entry : GoString × Job) :
      Env mortal s { s with held := s.held.erase entry }

/-- Everything but the local clock can fail. -/
def Command.fallible : Command → Bool
  | .time => false
  | _ => true

/-- The queue with its workers.  A call whose command has failed gets nothing more
through. -/
def queueSystem (cfg : Config) (mortal : Bool) : System State Op Command Reply Outcome where
  body := bodyOf cfg
  exec s c := ({ s with db := (s.db.run s.now c).1 }, (s.db.run s.now c).2)
  fallible := Command.fallible
  sticky := true
  enabled := State.enabled
  begin := State.begin
  done := State.done
  stop s _ := s
  env := Env mortal

instance (cfg : Config) (mortal : Bool) (s : State) (op : Op) :
    Decidable ((queueSystem cfg mortal).enabled s op) :=
  inferInstanceAs (Decidable (s.enabled op))

/-- The queue before the first call. -/
def start : World State Op Command Reply Outcome :=
  .initial .initial

/-- A state of the queue with its calls. -/
abbrev QueueWorld := World State Op Command Reply Outcome

/-! ## The database outside commands -/

@[simp]
theorem begin_db (s : State) (op : Op) : (s.begin op).db = s.db := by
  simp only [State.begin]
  split <;> rfl

@[simp]
theorem done_db (s : State) (op : Op) (result : Outcome) : (s.done op result).db = s.db := by
  simp only [State.done]
  split <;> rfl

theorem env_db {mortal : Bool} {s s' : State} (henv : Env mortal s s') : s'.db = s.db := by
  cases henv <;> rfl

/-! ## The first job -/

/-- The configuration with the default values. -/
def defaultConfig : Config :=
  ⟨5, 600⟩

/-- The first diff job. -/
def firstDiffJob : Item :=
  ("diff".toList, "1".toList)

/-- One undisturbed {lit}`Enqueue`. -/
def enqueueLabels : List (Label Op) :=
  [.start 0 (.enqueue "diff".toList "w".toList "r".toList []), .exec 0, .exec 0, .exec 0,
    .exec 0, .exec 0, .finish 0]

end Queue
end Veilence
