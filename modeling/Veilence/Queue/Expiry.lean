import Veilence.Foundation.Discipline
import Veilence.Queue.Calls

/-!
# Job records expire

Redis removes a job record when the time-to-live with which it was last written has
passed, while the lists and sorted sets that name the job stay.  The queue with expiring
records is the queue of {lit}`Calls` over a store that keeps the last write of every record.

Main results:

- Theorem {lit}`follows_bodyOf`: a call adds an ID to a list or a sorted set only after it
  has read or written the record, and writes with the time-to-live of the status.
- Theorem {lit}`recorded_iff_of_run`: a job that is pending or processing has its record
  exactly until the time-to-live of its last write has passed.
-/

namespace Veilence
namespace Queue

open Go Foundation

/-! ## The queue with expiring records -/

/-- A write of a job record: the status in it, when it was written, and for how long. -/
structure Write where
  status : JobStatus
  time : Int
  ttl : Nat
deriving DecidableEq

/-- The state of the queue with the last write of every record. -/
structure Expiring where
  state : State
  writes : GoString → Option Write

/-- The state before the first call. -/
def Expiring.initial : Expiring :=
  ⟨.initial, fun _ => none⟩

/-- The last writes after a command. -/
def Expiring.note (s : Expiring) : Command → GoString → Option Write
  | .set job ttl => Function.update s.writes job.id (some ⟨job.status, s.state.now, ttl⟩)
  | _ => s.writes

/-- Carry out a command. -/
def Expiring.exec (s : Expiring) (c : Command) : Expiring × Reply c :=
  let result := s.state.db.run s.state.now c
  ({ state := { s.state with db := result.1 }, writes := s.note c }, result.2)

/-- The record of the ID is kept at a time. -/
def Expiring.keeps (s : Expiring) (time : Int) (id : GoString) : Bool :=
  (s.writes id).any fun write => time < write.time + write.ttl

theorem keeps_iff {s : Expiring} {time : Int} {id : GoString} :
    s.keeps time id = true ↔ ∃ write, s.writes id = some write ∧ time < write.time + write.ttl := by
  unfold Expiring.keeps
  cases s.writes id <;> simp

/-- The state at a later time, without the records that have expired. -/
def Expiring.tick (s : Expiring) (later : Int) : Expiring :=
  { s with
    state :=
      { s.state with
        db := { s.state.db with jobs := s.state.db.jobs.filterKeys (s.keeps later) }
        now := later } }

/-- Time passes, or a worker dies with the job it holds. -/
inductive ExpiringEnv : Expiring → Expiring → Prop where
  | tick {s : Expiring} {later : Int} (hlater : s.state.now ≤ later) :
      ExpiringEnv s (s.tick later)
  | die {s : Expiring} (entry : GoString × Job) :
      ExpiringEnv s { s with state := { s.state with held := s.state.held.erase entry } }

/-- The queue whose records expire, with its workers. -/
def expiringSystem (cfg : Config) : System Expiring Op Command Reply Outcome where
  body := bodyOf cfg
  exec := Expiring.exec
  fallible := Command.fallible
  sticky := true
  enabled s op := s.state.enabled op
  begin s op := { s with state := s.state.begin op }
  done s op result := { s with state := s.state.done op result }
  stop s _ := s
  env := ExpiringEnv

instance (cfg : Config) (s : Expiring) (op : Op) : Decidable ((expiringSystem cfg).enabled s op) :=
  inferInstanceAs (Decidable (s.state.enabled op))

/-- A state of the queue with its calls. -/
abbrev ExpiringWorld := World Expiring Op Command Reply Outcome

/-- The queue before the first call. -/
def startExpiring : ExpiringWorld :=
  .initial .initial

/-! ## What calls know of the records -/

/-- The IDs whose records a call has read or written after a command. -/
def learn (m : List GoString) : (c : Command) → Reply c → List GoString
  | .set job _, _ => job.id :: m
  | .get id, some _ => id :: m
  | _, _ => m

/-- The commands that a call may send: it adds only IDs whose records it has read or
written, and writes with the time-to-live of the status. -/
def Careful (m : List GoString) : Command → Prop
  | .set job ttl => ttl = ttlOf job.status
  | .lpush _ id => id ∈ m
  | .lmove _ destination => ∃ type, destination = .temp type
  | .zadd _ _ member => member ∈ m
  | _ => True

/-- The discipline of the calls. -/
def knowing : Discipline Op Command Reply Outcome (List GoString) where
  idle := []
  first _ := []
  next := learn
  permitted _ := Careful
  answer := Sound
  result _ _ _ := True

section Bodies

variable {cfg : Config} {op : Op} {failed : Bool} {m : List GoString} {α β : Type}

/-- The body keeps the discipline. -/
abbrev FollowsCarefully (cfg : Config) (op : Op) (failed : Bool) (m : List GoString) (p : Body α) :
    Prop :=
  knowing.Follows (expiringSystem cfg) op (fun _ _ _ => True) failed m p

/-- A call that has failed changes nothing any more. -/
theorem careful_lost (p : Body α) : FollowsCarefully cfg op true m p := by
  apply Discipline.follows_of_failed rfl
  · intro c hc
    cases c with
    | time => exact ⟨trivial, fun _ => rfl⟩
    | _ => simp [expiringSystem, Command.fallible] at hc
  · exact fun _ => trivial

theorem careful_send {c : Command} {f : Option (Reply c) → Body α} (hc : Careful m c)
    (hok : ∀ r, Sound c r → FollowsCarefully cfg op failed (learn m c r) (f (some r))) :
    FollowsCarefully cfg op failed m (send c >>= f) :=
  Discipline.follows_call hc hok fun _ => careful_lost _

theorem careful_clock {f : Int → Body α}
    (hf : ∀ now, FollowsCarefully cfg op failed m (f now)) :
    FollowsCarefully cfg op failed m (clock >>= f) :=
  ⟨fun _ => ⟨trivial, fun r _ => hf r⟩, by simp [expiringSystem, Command.fallible]⟩

theorem careful_loadJob {id : GoString} {f : Option Job → Body α}
    (hnone : FollowsCarefully cfg op failed m (f none))
    (hsome : ∀ job, job.id = id → FollowsCarefully cfg op failed (id :: m) (f (some job))) :
    FollowsCarefully cfg op failed m (loadJob id >>= f) := by
  apply Discipline.follows_call trivial
  · rintro (_ | job) hanswer
    · exact hnone
    · exact hsome job (hanswer job rfl)
  · exact fun _ => careful_lost _

theorem careful_saveJob {job : Job} {f : Bool → Body α}
    (hok : FollowsCarefully cfg op failed (job.id :: m) (f true)) :
    FollowsCarefully cfg op failed m (saveJob job >>= f) :=
  ⟨fun _ => ⟨rfl, fun _ _ => hok⟩, fun _ => careful_lost _⟩

theorem careful_enqueue (jobType workspaceID referenceID : GoString)
    (metadata : List (GoString × GoString)) :
    FollowsCarefully cfg op failed m (enqueue cfg jobType workspaceID referenceID metadata) := by
  unfold enqueue
  refine careful_send trivial ?_
  intro n _
  apply careful_clock
  intro now
  refine careful_send rfl ?_
  intro _ _
  refine careful_send List.mem_cons_self ?_
  intro _ _
  exact careful_send trivial fun _ _ => trivial

theorem careful_dequeue (jobType : GoString) :
    FollowsCarefully cfg op failed m (dequeue jobType) := by
  unfold dequeue
  refine careful_send ⟨jobType, rfl⟩ ?_
  rintro (_ | jobID) _
  · trivial
  · refine careful_send trivial ?_
    intro _ _
    refine careful_loadJob trivial ?_
    intro job hid
    apply careful_clock
    intro now
    apply careful_saveJob
    exact careful_send List.mem_cons_self fun _ _ => trivial

theorem careful_complete (job : Job) : FollowsCarefully cfg op failed m (complete job) := by
  unfold complete
  apply careful_clock
  intro now
  refine careful_send rfl ?_
  intro _ _
  refine careful_send trivial ?_
  intro _ _
  refine careful_send trivial ?_
  intro _ _
  exact careful_send trivial fun _ _ => trivial

theorem careful_fail (job : Job) (jobErr : GoString) :
    FollowsCarefully cfg op failed m (fail job jobErr) := by
  unfold fail
  apply careful_clock
  intro now
  refine careful_send trivial ?_
  intro _ _
  split_ifs
  · apply careful_saveJob
    refine careful_send List.mem_cons_self ?_
    intro _ _
    exact careful_send trivial fun _ _ => trivial
  · apply careful_clock
    intro later
    apply careful_saveJob
    exact careful_send List.mem_cons_self fun _ _ => trivial

theorem careful_putBack (jobType : GoString) (job : Job) :
    FollowsCarefully cfg op failed m (putBack jobType job) := by
  unfold putBack
  apply careful_saveJob
  refine careful_send List.mem_cons_self ?_
  intro _ _
  exact careful_send trivial fun _ _ => trivial

theorem careful_recoverJob (jobType jobID : GoString) :
    FollowsCarefully cfg op failed m (recoverJob jobType jobID) := by
  unfold recoverJob
  refine careful_loadJob trivial ?_
  intro job hid
  refine careful_send trivial ?_
  intro _ _
  apply careful_clock
  intro now
  split_ifs
  · apply careful_saveJob
    exact careful_send List.mem_cons_self fun _ _ => trivial
  · apply careful_saveJob
    refine careful_send ?_ fun _ _ => trivial
    exact List.mem_cons_of_mem _ List.mem_cons_self

theorem careful_recoverLoop (jobType : GoString) (stuckIDs : List GoString) :
    ∀ (recovered : Nat) (failed : Bool) (m : List GoString),
      FollowsCarefully cfg op failed m (recoverLoop jobType recovered stuckIDs) := by
  induction stuckIDs with
  | nil => exact fun _ _ _ => trivial
  | cons jobID stuckIDs ih =>
      intro recovered failed m
      rw [recoverLoop]
      apply (careful_recoverJob jobType jobID).bind
      rintro failed' m' (_ | _) _
      · exact ih recovered failed' m'
      · exact ih (recovered + 1) failed' m'

theorem careful_requeueDead (jobType jobID : GoString) :
    FollowsCarefully cfg op failed m (requeueDead jobType jobID) := by
  unfold requeueDead
  refine careful_loadJob trivial ?_
  intro job hid
  dsimp only
  split_ifs
  · trivial
  · apply careful_clock
    intro now
    apply careful_clock
    intro later
    apply careful_saveJob
    refine careful_send trivial ?_
    intro _ _
    refine careful_send ?_ fun _ _ => trivial
    exact List.mem_cons_of_mem _ List.mem_cons_self

theorem careful_requeueLoop (jobType : GoString) (deadIDs : List GoString) :
    ∀ (count : Nat) (failed : Bool) (m : List GoString),
      FollowsCarefully cfg op failed m (requeueLoop jobType count deadIDs) := by
  induction deadIDs with
  | nil => exact fun _ _ _ => trivial
  | cons jobID deadIDs ih =>
      intro count failed m
      rw [requeueLoop]
      apply (careful_requeueDead jobType jobID).bind
      intro failed' m' outcome _
      split
      · exact ih count failed' m'
      · exact ih (count + 1) failed' m'

/-- Every call keeps the discipline. -/
theorem follows_bodyOf (cfg : Config) (op : Op) :
    FollowsCarefully cfg op false [] (bodyOf cfg op) := by
  cases op with
  | enqueue jobType workspaceID referenceID metadata => exact careful_enqueue _ _ _ _
  | dequeue jobType => exact careful_dequeue _
  | complete jobType job => exact careful_complete _
  | fail jobType job jobErr => exact careful_fail _ _
  | putBack jobType job => exact careful_putBack _ _
  | recoverStuckJobs jobType =>
      unfold bodyOf recoverStuckJobs
      apply careful_clock
      intro now
      refine careful_send trivial ?_
      intro stuckIDs _
      exact careful_recoverLoop _ _ _ _ _
  | requeueDead jobType jobID => exact careful_requeueDead _ _
  | requeueAllDead jobType =>
      unfold bodyOf requeueAllDead
      refine careful_send trivial ?_
      intro deadIDs _
      exact careful_requeueLoop _ _ _ _ _

end Bodies

/-! ## Stored records -/

/-- The ID is in a pending list or a processing set. -/
def Referenced (db : Redis) (id : GoString) : Prop :=
  ∃ type, id ∈ db.lists (.pending type) ∨ id ∈ (db.zsets (.processing type)).keys

/-- An ID that a careful command brings into a list or a sorted set is known. -/
theorem referenced_run {now : Int} {db : Redis} {c : Command} {m : List GoString} {id : GoString}
    (hc : Careful m c) (hid : Referenced (db.run now c).1 id) : Referenced db id ∨ id ∈ m := by
  obtain ⟨type, hid⟩ := hid
  cases c with
  | lpush key id' =>
      rcases hid with hid | hid
      · by_cases hkey : LKey.pending type = key
        · subst hkey
          simp only [Redis.run, Redis.setList, Function.update_self, List.mem_cons] at hid
          rcases hid with rfl | hid
          · exact Or.inr hc
          · exact Or.inl ⟨type, Or.inl hid⟩
        · simp only [Redis.run, Redis.setList, Function.update_of_ne hkey] at hid
          exact Or.inl ⟨type, Or.inl hid⟩
      · exact Or.inl ⟨type, Or.inr hid⟩
  | lmove source destination =>
      left
      refine ⟨type, ?_⟩
      obtain ⟨type', rfl⟩ := hc
      rcases hid with hid | hid
      · rw [lists_lmove (by simp)] at hid
        split_ifs at hid with hsource
        · rw [hsource]
          exact Or.inl (List.mem_of_mem_dropLast hid)
        · exact Or.inl hid
      · right
        simp only [Redis.run] at hid
        split at hid <;> exact hid
  | lrem key id' =>
      left
      refine ⟨type, hid.imp_left fun hid => ?_⟩
      by_cases hkey : LKey.pending type = key
      · subst hkey
        simp only [Redis.run, Redis.setList, Function.update_self] at hid
        exact List.mem_of_mem_erase hid
      · simpa only [Redis.run, Redis.setList, Function.update_of_ne hkey] using hid
  | zadd key score member =>
      rcases hid with hid | hid
      · exact Or.inl ⟨type, Or.inl hid⟩
      · by_cases hkey : ZKey.processing type = key
        · subst hkey
          simp only [Redis.run, Redis.setZset, Function.update_self, Table.mem_keys_insert] at hid
          rcases hid with rfl | hid
          · exact Or.inr hc
          · exact Or.inl ⟨type, Or.inr hid⟩
        · simp only [Redis.run, Redis.setZset, Function.update_of_ne hkey] at hid
          exact Or.inl ⟨type, Or.inr hid⟩
  | zrem key member =>
      left
      refine ⟨type, hid.imp_right fun hid => ?_⟩
      by_cases hkey : ZKey.processing type = key
      · subst hkey
        simp only [Redis.run, Redis.setZset, Function.update_self, Table.mem_keys_erase] at hid
        exact hid.2
      · simpa only [Redis.run, Redis.setZset, Function.update_of_ne hkey] using hid
  | _ => exact Or.inl ⟨type, hid⟩

/-- Records and their last writes agree: a record is there until its time-to-live has
passed, which is that of the status in it, and every referenced record was written. -/
structure Dated (s : Expiring) : Prop where
  keyed : Keyed s.state.db
  ttl : ∀ id write, s.writes id = some write → write.ttl = ttlOf write.status
  recorded : ∀ id, Recorded s.state.db id ↔ s.keeps s.state.now id = true
  referenced : ∀ id, Referenced s.state.db id → (s.writes id).isSome = true

theorem dated_initial : Dated .initial where
  keyed := by
    intro id job hget
    simp [Expiring.initial, State.initial, Redis.empty] at hget
  ttl := by simp [Expiring.initial]
  recorded := by
    intro id
    simp [Expiring.initial, State.initial, Redis.empty, Recorded, Table.keys, Table.empty,
      Expiring.keeps]
  referenced := by
    rintro id ⟨type, hid | hid⟩
    · simp [Expiring.initial, State.initial, Redis.empty] at hid
    · simp [Expiring.initial, State.initial, Redis.empty, Table.keys, Table.empty] at hid

/-- A record stays written. -/
theorem isSome_note {s : Expiring} {id : GoString} (hid : (s.writes id).isSome = true)
    (c : Command) : (s.note c id).isSome = true := by
  cases c with
  | set job ttl =>
      unfold Expiring.note
      dsimp only
      by_cases heq : id = job.id
      · simp [heq]
      · rwa [Function.update_of_ne heq]
  | _ => exact hid

/-- A careful command keeps records and last writes in agreement. -/
theorem Dated.exec {s : Expiring} (hs : Dated s) {m : List GoString} {c : Command}
    (hc : Careful m c) (hm : ∀ id ∈ m, (s.writes id).isSome = true) : Dated (s.exec c).1 := by
  have hreferenced : ∀ id, Referenced (s.exec c).1.state.db id →
      ((s.exec c).1.writes id).isSome = true := by
    intro id hid
    apply isSome_note _ c
    rcases referenced_run hc hid with hbefore | hknown
    · exact hs.referenced id hbefore
    · exact hm id hknown
  cases c with
  | set job ttl =>
      refine ⟨keyed_run hs.keyed _, ?_, ?_, hreferenced⟩
      · intro id write hwrite
        simp only [Expiring.exec, Expiring.note] at hwrite
        by_cases heq : id = job.id
        · subst heq
          rw [Function.update_self] at hwrite
          rw [← Option.some.inj hwrite]
          exact hc
        · rw [Function.update_of_ne heq] at hwrite
          exact hs.ttl id write hwrite
      · intro id
        by_cases heq : id = job.id
        · subst heq
          have hpos : 0 < ttl := by
            rw [show ttl = ttlOf job.status from hc]
            cases job.status <;> decide
          have hkeeps : (s.exec (.set job ttl)).1.keeps s.state.now job.id = true := by
            simp only [Expiring.keeps, Expiring.exec, Expiring.note, Function.update_self,
              Option.any_some, decide_eq_true_eq]
            omega
          exact iff_of_true (recorded_run_set s.state.now s.state.db job ttl) hkeeps
        · have hsame : (s.exec (.set job ttl)).1.keeps s.state.now id =
              s.keeps s.state.now id := by
            simp only [Expiring.keeps, Expiring.exec, Expiring.note, Function.update_of_ne heq]
          change Recorded (s.state.db.run s.state.now (.set job ttl)).1 id ↔
            (s.exec (.set job ttl)).1.keeps s.state.now id = true
          rw [hsame, ← hs.recorded id]
          simp [Recorded, Redis.run, heq]
  | lmove source destination =>
      refine ⟨keyed_run hs.keyed _, hs.ttl, ?_, hreferenced⟩
      intro id
      have hjobs : (s.state.db.run s.state.now (.lmove source destination)).1.jobs =
          s.state.db.jobs := by
        simp only [Redis.run]
        split <;> rfl
      change id ∈ (s.state.db.run s.state.now (.lmove source destination)).1.jobs.keys ↔ _
      rw [hjobs]
      exact hs.recorded id
  | _ => exact ⟨keyed_run hs.keyed _, hs.ttl, hs.recorded, hreferenced⟩

/-- The database and the time are all that matters. -/
theorem Dated.of_state {s : Expiring} (hs : Dated s) {state : State}
    (hdb : state.db = s.state.db) (hnow : state.now = s.state.now) :
    Dated { s with state := state } where
  keyed := by
    rw [hdb]
    exact hs.keyed
  ttl := hs.ttl
  recorded := by
    intro id
    rw [hdb, hnow]
    exact hs.recorded id
  referenced := by
    rw [hdb]
    exact hs.referenced

/-- Records expire as their last writes say. -/
theorem Dated.tick {s : Expiring} (hs : Dated s) {later : Int} (hlater : s.state.now ≤ later) :
    Dated (s.tick later) where
  keyed := fun id job hget => hs.keyed id job (Table.get?_of_filterKeys hget)
  ttl := hs.ttl
  recorded := by
    intro id
    change id ∈ (s.state.db.jobs.filterKeys (s.keeps later)).keys ↔ s.keeps later id = true
    rw [Table.mem_keys_filterKeys]
    constructor
    · exact fun h => h.2
    · intro hkeeps
      refine ⟨(hs.recorded id).mpr ?_, hkeeps⟩
      obtain ⟨write, hwrite, hlive⟩ := keeps_iff.mp hkeeps
      exact keeps_iff.mpr ⟨write, hwrite, hlater.trans_lt hlive⟩
  referenced := hs.referenced

/-! ## Runs -/

/-- What holds in every state of a run, with the IDs that the calls know. -/
structure Traced (cfg : Config) (modes : Nat → List GoString) (w : ExpiringWorld) : Prop where
  kept : knowing.Kept (expiringSystem cfg) modes w
  dated : Dated w.store
  known : ∀ i, ∀ id ∈ modes i, (w.store.writes id).isSome = true

theorem traced_start (cfg : Config) : Traced cfg (fun _ => []) startExpiring where
  kept :=
    { follows := by simp [startExpiring, World.initial]
      idle := fun _ _ => rfl }
  dated := dated_initial
  known := by simp

/-- The IDs that a call knows after a step are known. -/
theorem known_update {writes : GoString → Option Write} {modes : Nat → List GoString}
    {i : Nat} {m : List GoString} (hmodes : ∀ j, ∀ id ∈ modes j, (writes id).isSome = true)
    (hm : ∀ id ∈ m, (writes id).isSome = true) (j : Nat) :
    ∀ id ∈ Function.update modes i m j, (writes id).isSome = true := by
  by_cases hj : j = i
  · subst hj
    rw [Function.update_self]
    exact hm
  · rw [Function.update_of_ne hj]
    exact hmodes j

/-- What a command shows is known. -/
theorem known_learn {s : Expiring} (hs : Dated s) {m : List GoString} {c : Command}
    (hm : ∀ id ∈ m, (s.writes id).isSome = true) :
    ∀ id ∈ learn m c (s.exec c).2, ((s.exec c).1.writes id).isSome = true := by
  have hbefore : ∀ id ∈ m, ((s.exec c).1.writes id).isSome = true :=
    fun id hid => isSome_note (hm id hid) c
  cases c with
  | set job ttl =>
      intro id hid
      rcases List.mem_cons.mp hid with rfl | hid
      · simp [Expiring.exec, Expiring.note]
      · exact hbefore id hid
  | get id' =>
      intro id hid
      change id ∈ learn m (.get id') (s.state.db.jobs.get? id') at hid
      cases hget : s.state.db.jobs.get? id' with
      | none =>
          rw [hget] at hid
          exact hbefore id hid
      | some job =>
          rw [hget] at hid
          rcases List.mem_cons.mp hid with rfl | hid
          · have hrecorded : Recorded s.state.db id :=
              Table.mem_keys_iff.mpr (by rw [hget]; rfl)
            obtain ⟨write, hwrite, -⟩ := keeps_iff.mp ((hs.recorded id).mp hrecorded)
            change (s.writes id).isSome = true
            rw [hwrite]
            rfl
          · exact hbefore id hid
  | _ => exact hbefore

theorem begin_now (s : State) (op : Op) : (s.begin op).now = s.now := by
  unfold State.begin
  split <;> rfl

theorem done_now (s : State) (op : Op) (result : Outcome) : (s.done op result).now = s.now := by
  unfold State.done
  split <;> rfl

/-- A step of the queue. -/
theorem Traced.step {cfg : Config} {modes : Nat → List GoString} {w w' : ExpiringWorld}
    {l : Label Op} (htraced : Traced cfg modes w) (hstep : (expiringSystem cfg).Step w l w') :
    ∃ modes', Traced cfg modes' w' := by
  obtain ⟨hkept, hdated, hknown⟩ := htraced
  cases hstep with
  | @start i op hfree henabled =>
      have hdb : Dated { w.store with state := w.store.state.begin op } :=
        hdated.of_state (begin_db _ op) (begin_now _ op)
      exact ⟨_, hkept.start (follows_bodyOf cfg op), hdb, known_update hknown (by simp [knowing])⟩
  | @exec i op c k failed hthread hlive =>
      have hcareful : Careful (modes i) c := hkept.permitted hthread hlive
      refine ⟨_, hkept.exec hthread hlive (sound_run hdated.keyed _ c),
        hdated.exec hcareful (hknown i), known_update ?_ (known_learn hdated (hknown i))⟩
      exact fun j id hid => isSome_note (hknown j id hid) c
  | @fail i op c k failed hthread hfallible =>
      exact ⟨modes, hkept.fail hthread hfallible, hdated, hknown⟩
  | @stop i t hthread =>
      exact ⟨_, hkept.leave _ _, hdated, known_update hknown (by simp [knowing])⟩
  | @finish i op a failed hthread =>
      have hdb : Dated { w.store with state := w.store.state.done op a } :=
        hdated.of_state (done_db _ op a) (done_now _ op a)
      exact ⟨_, hkept.leave _ _, hdb, known_update hknown (by simp [knowing])⟩
  | @env store henv =>
      have hsame : (∀ id, (w.store.writes id).isSome = true → (store.writes id).isSome = true) ∧
          Dated store := by
        cases henv with
        | tick hlater => exact ⟨fun _ h => h, hdated.tick hlater⟩
        | die entry => exact ⟨fun _ h => h, hdated.keyed, hdated.ttl, hdated.recorded,
            hdated.referenced⟩
      refine ⟨modes, ⟨hkept.follows, hkept.idle⟩, hsame.2, ?_⟩
      exact fun i id hid => hsame.1 id (hknown i id hid)

/-- In every run, whenever commands fail, calls stop, workers die and time passes, a job ID
in a pending list or a processing set has a last write of its record, and the record is
there exactly until the time-to-live of that write has passed: that of the status in it. -/
theorem recorded_iff_of_run {cfg : Config} {w : ExpiringWorld}
    (hrun : Run (expiringSystem cfg).Step (fun _ _ => True) startExpiring w) :
    ∀ id, Referenced w.store.state.db id → ∃ write, w.store.writes id = some write ∧
      (Recorded w.store.state.db id ↔ w.store.state.now < write.time + ttlOf write.status) := by
  have hinv : ∃ modes, Traced cfg modes w := by
    refine hrun.invariant (I := fun w => ∃ modes, Traced cfg modes w) ?_ ?_
    · exact ⟨_, traced_start cfg⟩
    · rintro w l w' ⟨modes, htraced⟩ _ hstep
      exact htraced.step hstep
  obtain ⟨modes, -, hdated, -⟩ := hinv
  intro id hid
  obtain ⟨write, hwrite⟩ := Option.isSome_iff_exists.mp (hdated.referenced id hid)
  refine ⟨write, hwrite, ?_⟩
  rw [hdated.recorded id, keeps_iff, ← hdated.ttl id write hwrite]
  constructor
  · rintro ⟨write', hwrite', hlive⟩
    rw [hwrite] at hwrite'
    rwa [Option.some.inj hwrite']
  · exact fun hlive => ⟨write, hwrite, hlive⟩

/-- After the first job has been queued its ID is in the pending list, with a record that
was written just now. -/
theorem exists_enqueued :
    ∃ w, Run (expiringSystem defaultConfig).Step (fun _ _ => True) startExpiring w ∧
      Referenced w.store.state.db "1".toList ∧
      w.store.writes "1".toList = some ⟨.pending, 0, 24 * 3600⟩ ∧ w.store.state.now = 0 := by
  obtain ⟨w, hsteps, htest⟩ := System.exists_of_steps? (expiringSystem defaultConfig)
    (fun _ _ => true) startExpiring enqueueLabels
    (fun w => "1".toList ∈ w.store.state.db.lists (.pending "diff".toList) ∧
      w.store.writes "1".toList = some ⟨.pending, 0, 24 * 3600⟩ ∧ w.store.state.now = 0)
    (by decide +kernel)
  obtain ⟨hpending, hwrites⟩ := of_decide_eq_true htest
  exact ⟨w, System.run_of_steps? (fun _ _ _ => trivial) hsteps, ⟨_, Or.inl hpending⟩, hwrites⟩

/-- The record of the first job is there until a day has passed. -/
theorem recorded_iff_of_run_enqueued :
    ∃ w, Run (expiringSystem defaultConfig).Step (fun _ _ => True) startExpiring w ∧
      ∃ write, w.store.writes "1".toList = some write ∧
        (Recorded w.store.state.db "1".toList ↔
          w.store.state.now < write.time + ttlOf write.status) := by
  obtain ⟨w, hrun, hreferenced, -⟩ := exists_enqueued
  exact ⟨w, hrun, recorded_iff_of_run hrun _ hreferenced⟩

/-- A job that waits for a day is named by the pending list and has no record. -/
theorem not_recorded_of_run :
    ¬∀ (cfg : Config) (w : ExpiringWorld),
      Run (expiringSystem cfg).Step (fun _ _ => True) startExpiring w →
        ∀ id, Referenced w.store.state.db id → Recorded w.store.state.db id := by
  intro hall
  obtain ⟨w, hrun, hreferenced, hwrite, hnow⟩ := exists_enqueued
  have hday : w.store.state.now ≤ 24 * 3600 := by omega
  have hlater := hrun.snoc (l := .env)
    (System.Step.env (S := expiringSystem defaultConfig) (ExpiringEnv.tick hday)) trivial
  have hrecorded : "1".toList ∈
      (w.store.state.db.jobs.filterKeys (w.store.keeps (24 * 3600))).keys :=
    hall defaultConfig _ hlater _ hreferenced
  obtain ⟨write, hsame, hlive⟩ := keeps_iff.mp (Table.mem_keys_filterKeys.mp hrecorded).2
  rw [hwrite] at hsame
  rw [← Option.some.inj hsame] at hlive
  exact absurd hlive (by decide)

end Queue
end Veilence
