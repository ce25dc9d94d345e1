import Veilence.Foundation.Table
import Veilence.Go.Text

/-!
# The queue's Redis keys and commands

The part of a Redis database that the queue works on, and the commands it sends.  A job
record is stored as the job itself: {lit}`json.Marshal` and {lit}`json.Unmarshal` are
inverse on jobs.  Keys do not expire here; the expiry that a command asks for is kept
in the command.

Main results:

- Theorem {lit}`inContainer_run_of_adds`: a command that adds an ID puts it into a
  container.
- Theorem {lit}`inContainer_run_or_takes`: an ID leaves the containers of a job type
  only by a command that takes it.
- Theorems {lit}`keyed_run` and {lit}`recorded_run`: records stay under their own ID and
  are never removed.
-/

namespace Veilence
namespace Queue

open Go Foundation

/-! ## Jobs -/

/-- The status of a job. -/
inductive JobStatus where
  | pending
  | processing
  | completed
  | failed
  | dead
deriving DecidableEq

/-- A queued job. -/
structure Job where
  id : GoString
  type : GoString
  workspaceID : GoString
  referenceID : GoString
  status : JobStatus
  attempts : Nat
  maxAttempts : Nat
  lastError : GoString
  metadata : List (GoString × GoString)
  createdAt : Int
  updatedAt : Int
  nextRunAt : Int
deriving DecidableEq

/-! ## The database -/

/-- The keys of sorted sets, by job type. -/
inductive ZKey where
  | processing (type : GoString)
  | dead (type : GoString)
deriving DecidableEq

/-- The keys of lists, by job type. -/
inductive LKey where
  | pending (type : GoString)
  | temp (type : GoString)
deriving DecidableEq

/-- The database of the queue.  The head of a list is its left end. -/
structure Redis where
  idCounter : Nat
  jobs : Table GoString Job
  lists : LKey → List GoString
  zsets : ZKey → Table GoString Int
  stats : GoString → Int

/-- The empty database. -/
def Redis.empty : Redis :=
  ⟨0, .empty, fun _ => [], fun _ => .empty, fun _ => 0⟩

/-- The members of a sorted set in the order of score and member. -/
def rangeOf (t : Table GoString Int) : List GoString :=
  (t.entries.insertionSort fun a b => a.2 < b.2 ∨ (a.2 = b.2 ∧ a.1 ≤ b.1)).map Prod.fst

/-! ## Commands -/

/-- The commands that the queue sends.  {lit}`time` is the local clock. -/
inductive Command where
  | time
  | incr
  | set (job : Job) (ttl : Nat)
  | get (id : GoString)
  | lpush (key : LKey) (id : GoString)
  | lmove (source destination : LKey)
  | lrem (key : LKey) (id : GoString)
  | zadd (key : ZKey) (score : Int) (member : GoString)
  | zrem (key : ZKey) (member : GoString)
  | zrange (key : ZKey)
  | zrangeByScore (key : ZKey) (stop : Int)
  | hincrby (field : GoString) (by_ : Int)
deriving DecidableEq

/-- What a command answers. -/
abbrev Reply : Command → Type
  | .time => Int
  | .incr => Nat
  | .get _ => Option Job
  | .lmove _ _ => Option GoString
  | .zrange _ => List GoString
  | .zrangeByScore _ _ => List GoString
  | _ => Unit

namespace Redis

/-- Replace a list. -/
def setList (db : Redis) (key : LKey) (ids : List GoString) : Redis :=
  { db with lists := Function.update db.lists key ids }

/-- Replace a sorted set. -/
def setZset (db : Redis) (key : ZKey) (members : Table GoString Int) : Redis :=
  { db with zsets := Function.update db.zsets key members }

/-- Carry out a command at a clock time. -/
def run (now : Int) (db : Redis) : (c : Command) → Redis × Reply c
  | .time => (db, now)
  | .incr => ({ db with idCounter := db.idCounter + 1 }, db.idCounter + 1)
  | .set job _ => ({ db with jobs := db.jobs.insert job.id job }, ())
  | .get id => (db, db.jobs.get? id)
  | .lpush key id => (db.setList key (id :: db.lists key), ())
  | .lmove source destination =>
      match (db.lists source).getLast? with
      | none => (db, none)
      | some id =>
          let taken := db.setList source (db.lists source).dropLast
          (taken.setList destination (id :: taken.lists destination), some id)
  | .lrem key id => (db.setList key ((db.lists key).erase id), ())
  | .zadd key score member => (db.setZset key ((db.zsets key).insert member score), ())
  | .zrem key member => (db.setZset key ((db.zsets key).erase member), ())
  | .zrange key => (db, rangeOf (db.zsets key))
  | .zrangeByScore key stop =>
      (db, (rangeOf (db.zsets key)).filter fun id =>
        ((db.zsets key).get? id).any fun score => score ≤ stop)
  | .hincrby field n => ({ db with stats := Function.update db.stats field (db.stats field + n) }, ())

end Redis

attribute [local simp] Redis.run

/-! ## Where a job ID is -/

/-- A job ID of a job type. -/
abbrev Item := GoString × GoString

/-- The ID is in the pending list, the processing set or the dead set of its type. -/
def InContainer (db : Redis) (x : Item) : Prop :=
  x.2 ∈ db.lists (.pending x.1) ∨ x.2 ∈ (db.zsets (.processing x.1)).keys ∨
    x.2 ∈ (db.zsets (.dead x.1)).keys

instance (db : Redis) (x : Item) : Decidable (InContainer db x) :=
  inferInstanceAs (Decidable (_ ∨ _ ∨ _))

/-- The command puts the ID into one of the containers. -/
def Adds : Command → Item → Prop
  | .lpush key id, x => key = .pending x.1 ∧ id = x.2
  | .zadd key _ member, x => (key = .processing x.1 ∨ key = .dead x.1) ∧ member = x.2
  | _, _ => False

/-- The command takes the ID out of one of the containers. -/
def Takes : (c : Command) → Reply c → Item → Prop
  | .lmove source _, r, x => source = .pending x.1 ∧ r = some x.2
  | .lrem key id, _, x => key = .pending x.1 ∧ id = x.2
  | .zrem key member, _, x => (key = .processing x.1 ∨ key = .dead x.1) ∧ member = x.2
  | _, _, _ => False

/-- A command that adds an ID puts it into a container. -/
theorem inContainer_run_of_adds {now : Int} {db : Redis} {c : Command} {x : Item}
    (hadds : Adds c x) : InContainer (db.run now c).1 x := by
  cases c with
  | lpush key id =>
      obtain ⟨rfl, rfl⟩ := hadds
      exact Or.inl (by simp [Redis.run, Redis.setList])
  | zadd key score member =>
      obtain ⟨rfl | rfl, rfl⟩ := hadds
      · exact Or.inr (Or.inl (by simp [Redis.run, Redis.setZset]))
      · exact Or.inr (Or.inr (by simp [Redis.run, Redis.setZset]))
  | _ => exact absurd hadds id

/-- Moving the last ID of a list takes that ID only. -/
theorem mem_lists_lmove {db : Redis} {key : LKey} {id : GoString}
    (hid : id ∈ db.lists key) (now : Int) (source destination : LKey) :
    id ∈ (db.run now (.lmove source destination)).1.lists key ∨
      (source = key ∧ (db.run now (.lmove source destination)).2 = some id) := by
  simp only [Redis.run]
  cases hlast : (db.lists source).getLast? with
  | none => exact Or.inl hid
  | some last =>
      obtain ⟨before, hlist⟩ := List.getLast?_eq_some_iff.mp hlast
      by_cases hsource : source = key
      · subst hsource
        rw [hlist] at hid
        rcases List.mem_append.mp hid with hbefore | hid
        · left
          by_cases hdest : source = destination
          · subst hdest
            simp [Redis.setList, hlist, hbefore]
          · simp [Redis.setList, hlist, hdest, hbefore]
        · right
          simp [List.mem_singleton.mp hid]
      · left
        by_cases hdest : key = destination
        · subst hdest
          simp [Redis.setList, Function.update_of_ne (Ne.symm hsource), hid]
        · simp [Redis.setList, hdest, Function.update_of_ne (Ne.symm hsource), hid]

/-- Moving the last ID of a list shortens that list. -/
theorem lists_lmove {now : Int} {db : Redis} {source destination key : LKey}
    (hkey : key ≠ destination) :
    (db.run now (.lmove source destination)).1.lists key =
      if key = source then (db.lists source).dropLast else db.lists key := by
  simp only [Redis.run]
  cases hlast : (db.lists source).getLast? with
  | none =>
      have hnil := List.getLast?_eq_none_iff.mp hlast
      split_ifs with hsource
      · simp [hsource, hnil]
      · rfl
  | some id =>
      split_ifs with hsource
      · subst hsource
        simp [Redis.setList, hkey]
      · simp [Redis.setList, hkey, hsource]

/-- What moving the last ID of a list answers. -/
theorem reply_lmove {now : Int} {db : Redis} {source destination : LKey} :
    (db.run now (.lmove source destination)).2 = (db.lists source).getLast? := by
  simp only [Redis.run]
  split <;> simp_all

/-- An ID leaves the containers of its type only by a command that takes it. -/
theorem inContainer_run_or_takes {now : Int} {db : Redis} {c : Command} {x : Item}
    (hx : InContainer db x) :
    InContainer (db.run now c).1 x ∨ Takes c (db.run now c).2 x := by
  cases c with
  | lpush key id =>
      refine Or.inl (hx.imp_left fun hid => ?_)
      by_cases hkey : LKey.pending x.1 = key
      · subst hkey
        simp [Redis.run, Redis.setList, hid]
      · simp [Redis.run, Redis.setList, hkey, hid]
  | lmove source destination =>
      rcases hx with hid | hid
      · rcases mem_lists_lmove hid now source destination with
          hstill | ⟨hsource, hlast⟩
        · exact Or.inl (Or.inl hstill)
        · exact Or.inr ⟨hsource, hlast⟩
      · refine Or.inl (Or.inr ?_)
        simp only [Redis.run]
        split <;> exact hid
  | lrem key id =>
      rcases hx with hid | hid
      · by_cases hkey : LKey.pending x.1 = key
        · subst hkey
          by_cases heq : id = x.2
          · exact Or.inr ⟨rfl, heq⟩
          · left
            left
            simp [Redis.run, Redis.setList, List.mem_erase_of_ne (Ne.symm heq), hid]
        · exact Or.inl (Or.inl (by simp [Redis.run, Redis.setList, hkey, hid]))
      · exact Or.inl (Or.inr hid)
  | zadd key score member =>
      refine Or.inl (hx.imp_right (Or.imp (fun hid => ?_) fun hid => ?_))
      · by_cases hkey : ZKey.processing x.1 = key
        · subst hkey
          simp [Redis.run, Redis.setZset, hid]
        · simp [Redis.run, Redis.setZset, hkey, hid]
      · by_cases hkey : ZKey.dead x.1 = key
        · subst hkey
          simp [Redis.run, Redis.setZset, hid]
        · simp [Redis.run, Redis.setZset, hkey, hid]
  | zrem key member =>
      by_cases htakes : (key = .processing x.1 ∨ key = .dead x.1) ∧ member = x.2
      · exact Or.inr htakes
      · refine Or.inl (hx.imp_right (Or.imp (fun hid => ?_) fun hid => ?_))
        · by_cases hkey : ZKey.processing x.1 = key
          · subst hkey
            have hne : x.2 ≠ member := fun heq => htakes ⟨Or.inl rfl, heq.symm⟩
            simp [Redis.run, Redis.setZset, hne, hid]
          · simp [Redis.run, Redis.setZset, hkey, hid]
        · by_cases hkey : ZKey.dead x.1 = key
          · subst hkey
            have hne : x.2 ≠ member := fun heq => htakes ⟨Or.inr rfl, heq.symm⟩
            simp [Redis.run, Redis.setZset, hne, hid]
          · simp [Redis.run, Redis.setZset, hkey, hid]
  | _ => exact Or.inl hx

/-- An ID leaves a sorted set only by its removal. -/
theorem mem_zsets_run {now : Int} {db : Redis} {c : Command} {key : ZKey} {id : GoString}
    (hid : id ∈ (db.zsets key).keys) (hc : c ≠ .zrem key id) :
    id ∈ ((db.run now c).1.zsets key).keys := by
  cases c with
  | lmove source destination =>
      simp only [Redis.run]
      split <;> exact hid
  | zadd key' score member =>
      by_cases hkey : key = key'
      · subst hkey
        simp [Redis.run, Redis.setZset, hid]
      · simp [Redis.run, Redis.setZset, hkey, hid]
  | zrem key' member =>
      by_cases hkey : key = key'
      · subst hkey
        have hne : id ≠ member := fun heq => hc (heq ▸ rfl)
        simp [Redis.run, Redis.setZset, hne, hid]
      · simp [Redis.run, Redis.setZset, hkey, hid]
  | _ => exact hid

/-- The ID counter does not fall. -/
theorem idCounter_le_run (now : Int) (db : Redis) (c : Command) :
    db.idCounter ≤ (db.run now c).1.idCounter := by
  cases c with
  | incr => exact Nat.le_succ _
  | lmove source destination =>
      simp only [Redis.run]
      split <;> exact Nat.le_refl _
  | _ => exact Nat.le_refl _

/-! ## Job records -/

/-- Every record is stored under its own ID. -/
def Keyed (db : Redis) : Prop :=
  ∀ id job, db.jobs.get? id = some job → job.id = id

/-- What reading a record can give: a job with the ID it was read under. -/
def Sound : (c : Command) → Reply c → Prop
  | .get id, r => ∀ job, r = some job → job.id = id
  | _, _ => True

/-- What a command answers in a state with keyed records. -/
theorem sound_run {db : Redis} (hkeyed : Keyed db) (now : Int) (c : Command) :
    Sound c (db.run now c).2 := by
  cases c with
  | get id => exact fun job hget => hkeyed id job hget
  | _ => trivial

/-- There is a record under the ID. -/
def Recorded (db : Redis) (id : GoString) : Prop :=
  id ∈ db.jobs.keys

/-- Commands keep records under their own IDs. -/
theorem keyed_run {now : Int} {db : Redis} (hdb : Keyed db) (c : Command) :
    Keyed (db.run now c).1 := by
  cases c with
  | set job ttl =>
      intro id stored hget
      simp only [Redis.run, Table.get?_insert] at hget
      split_ifs at hget with hid
      · rw [← Option.some.inj hget, hid]
      · exact hdb id stored hget
  | lmove source destination =>
      simp only [Redis.run]
      split <;> exact hdb
  | _ => exact hdb

/-- Commands remove no record. -/
theorem recorded_run {now : Int} {db : Redis} {id : GoString} (hid : Recorded db id)
    (c : Command) : Recorded (db.run now c).1 id := by
  cases c with
  | set job ttl =>
      have hjobs : id ∈ db.jobs.keys := hid
      simp [Recorded, Redis.run, hjobs]
  | lmove source destination =>
      simp only [Redis.run]
      split <;> exact hid
  | _ => exact hid

/-- A saved record is there. -/
theorem recorded_run_set (now : Int) (db : Redis) (job : Job) (ttl : Nat) :
    Recorded (db.run now (.set job ttl)).1 job.id := by
  simp [Recorded, Redis.run]

/-- Reading a record that is there gives a job with the ID it was read under. -/
theorem exists_get?_of_recorded {db : Redis} {id : GoString} (hdb : Keyed db)
    (hid : Recorded db id) : ∃ job, db.jobs.get? id = some job ∧ job.id = id := by
  obtain ⟨job, hjob⟩ := Option.isSome_iff_exists.mp (Table.mem_keys_iff.mp hid)
  exact ⟨job, hjob, hdb id job hjob⟩

end Queue
end Veilence
