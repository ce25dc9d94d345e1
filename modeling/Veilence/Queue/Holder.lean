import Veilence.Queue.Calls

/-!
# One holder for every job

A job ID is a token: it is in one pending list, with one call, or with one worker.
`INCR` creates it, `LMOVE` moves it to a call, `LPUSH` moves it back, and the end of a
{lit}`Dequeue` hands it to a worker.  Recovery by age and the removal at the end of a
put-back act without the token.

Main results:

- Theorem {lit}`disc_bodyOf`: every call moves a token only while it has it, if recovery
  does not list the ID.
- Theorem {lit}`oneHolder_of_run`: without these two disturbances a held job has one
  holder, is in the processing set and in no pending list, and a completed job is never
  handed out again.
- Theorem {lit}`two_holders_after_timeout`: a job that is held for longer than the lock
  timeout is handed to a second worker.
-/

namespace Veilence
namespace Queue

open Go Foundation

/-! ## The token of an ID -/

/-- Where the token of an ID is. -/
inductive Place where
  | unborn
  | call (i : Nat)
  | pending (type : GoString)
  | held
  | gone
deriving DecidableEq

/-- What a call has of the ID: nothing, the token, the token after it has added the ID to
the processing set of a type, or nothing since its last command pushed the ID. -/
inductive Mode where
  | free
  | carrying
  | listed (type : GoString)
  | window
deriving DecidableEq

/-- The call has the token. -/
def Mode.Carries : Mode → Prop
  | .carrying | .listed _ => True
  | .free | .window => False

instance : DecidablePred Mode.Carries
  | .carrying | .listed _ => inferInstanceAs (Decidable True)
  | .free | .window => inferInstanceAs (Decidable False)

/-- One command later the push is no longer the last command. -/
def Mode.settle : Mode → Mode
  | .window => .free
  | m => m

/-- What the call has after a command. -/
def Mode.next (x : GoString) (m : Mode) : (c : Command) → Reply c → Mode
  | .incr, n => if itoa n = x then .carrying else m.settle
  | .lmove _ _, r => if r = some x then .carrying else m.settle
  | .lpush _ id, _ => if id = x then .window else m.settle
  | .zadd (.processing type) _ id, _ => if id = x ∧ m.Carries then .listed type else m.settle
  | .zrem (.processing _) id, _ => if id = x ∧ m.Carries then .carrying else m.settle
  | _, _ => m.settle

/-- The commands that a call may send with what it has.  Without the token only the
put-back removes the ID from a processing set, right after its push. -/
def Permitted (x : GoString) (op : Op) (m : Mode) : Command → Prop
  | .lpush key id => (∃ type, key = .pending type) ∧ (id = x → m.Carries)
  | .lmove source destination =>
      (∃ type, source = .pending type) ∧ ∃ type, destination = .temp type
  | .lrem key _ => ∃ type, key = .temp type
  | .zrem (.processing _) id =>
      id = x → m.Carries ∨ (m = .window ∧ ∃ jobType job, op = .putBack jobType job)
  | _ => True

/-- The responses that a call may rely on. -/
def Answer (x : GoString) : (c : Command) → Reply c → Prop
  | .get id, r => ∀ job, r = some job → job.id = id
  | .zrangeByScore _ _, ids => x ∉ ids
  | _, _ => True

/-- Every command of a body is permitted, and the result is right for what the call then
has. -/
def Disc {α : Type} (x : GoString) (op : Op) (result : Mode → α → Prop) :
    Mode → Body α → Prop
  | m, .ret a => result m a
  | m, .cmd c k =>
      Permitted x op m c ∧ ∀ r, Answer x c r → Disc x op result (m.next x c r) (k (some r))

/-- A {lit}`Dequeue` returns the job only with the token and the processing entry, a
{lit}`Complete` keeps the token to its end. -/
def Result (x : GoString) (op : Op) (m : Mode) (a : Outcome) : Prop :=
  (∀ jobType job, op = .dequeue jobType → a = .job (some job) → job.id = x →
    m = .listed jobType) ∧
  (∀ jobType job, op = .complete jobType job → job.id = x → m.Carries)

/-- What a call has when it starts. -/
def startMode (x : GoString) (op : Op) : Mode :=
  if op.heldJob.any fun e => e.2.id = x then .carrying else .free

section Bodies

variable {cfg : Config} {x : GoString} {op : Op} {m : Mode} {α β : Type}
  {result : Mode → α → Prop}

attribute [local simp] Mode.next Mode.settle Mode.Carries

/-- A body in two parts. -/
theorem Disc.bind {first : Mode → β → Prop} {p : Body β} (hp : Disc x op first m p)
    {f : β → Body α} (hf : ∀ m' b, first m' b → Disc x op result m' (f b)) :
    Disc x op result m (p >>= f) := by
  induction p generalizing m with
  | ret b => exact hf m b hp
  | cmd c k ih =>
      rw [Prog.cmd_bind]
      exact ⟨hp.1, fun r hr => ih (some r) (hp.2 r hr)⟩

/-- What a body guarantees at its end may be weakened. -/
theorem Disc.mono {result' : Mode → α → Prop} {p : Body α} (hp : Disc x op result m p)
    (hresult : ∀ m a, result m a → result' m a) : Disc x op result' m p := by
  induction p generalizing m with
  | ret a => exact hresult m a hp
  | cmd c k ih => exact ⟨hp.1, fun r hr => ih (some r) (hp.2 r hr)⟩

theorem disc_send {c : Command} {f : Option (Reply c) → Body α} (hc : Permitted x op m c)
    (hf : ∀ r, Answer x c r → Disc x op result (m.next x c r) (f (some r))) :
    Disc x op result m (send c >>= f) :=
  ⟨hc, hf⟩

theorem disc_clock {f : Int → Body α} (hf : ∀ now, Disc x op result m.settle (f now)) :
    Disc x op result m (clock >>= f) :=
  ⟨trivial, fun r _ => hf r⟩

theorem disc_saveJob {job : Job} {f : Bool → Body α}
    (hf : Disc x op result m.settle (f true)) : Disc x op result m (saveJob job >>= f) :=
  ⟨trivial, fun _ _ => hf⟩

theorem disc_loadJob {id : GoString} {f : Option Job → Body α}
    (hnone : Disc x op result m.settle (f none))
    (hsome : ∀ job, job.id = id → Disc x op result m.settle (f (some job))) :
    Disc x op result m (loadJob id >>= f) := by
  refine ⟨trivial, ?_⟩
  rintro (_ | job) hanswer
  · exact hnone
  · exact hsome job (hanswer job rfl)

/-! ## Every body keeps the discipline -/

theorem disc_enqueue (jobType workspaceID referenceID : GoString)
    (metadata : List (GoString × GoString)) :
    Disc x (.enqueue jobType workspaceID referenceID metadata)
      (Result x (.enqueue jobType workspaceID referenceID metadata)) .free
      (enqueue cfg jobType workspaceID referenceID metadata) := by
  refine disc_send trivial fun n _ => ?_
  by_cases hn : itoa n = x
  · simp only [Mode.next, hn, if_true]
    refine disc_clock fun now => ?_
    refine disc_send trivial fun _ _ => ?_
    refine disc_send ⟨⟨_, rfl⟩, fun _ => trivial⟩ fun _ _ => ?_
    exact disc_send trivial fun _ _ => ⟨by simp, by simp⟩
  · simp only [Mode.next, hn, if_false]
    refine disc_clock fun now => ?_
    refine disc_send trivial fun _ _ => ?_
    refine disc_send ⟨⟨_, rfl⟩, fun heq => absurd heq hn⟩ fun _ _ => ?_
    exact disc_send trivial fun _ _ => ⟨by simp, by simp⟩

/-- {lit}`Dequeue` adds the ID that it has moved to the processing set. -/
theorem disc_dequeue (jobType : GoString) :
    Disc x (.dequeue jobType) (Result x (.dequeue jobType)) .free (dequeue jobType) := by
  refine disc_send ⟨⟨_, rfl⟩, _, rfl⟩ ?_
  rintro (_ | jobID) _
  · exact ⟨by simp, by simp⟩
  · by_cases hid : jobID = x
    · simp only [Mode.next, hid, if_true]
      refine disc_send ⟨_, rfl⟩ fun _ _ => ?_
      refine disc_loadJob ⟨by simp, by simp⟩ fun job hjob => ?_
      refine disc_clock fun now => disc_saveJob ?_
      refine disc_send trivial fun _ _ => ⟨?_, by simp⟩
      rintro _ _ ⟨⟩ _ _
      exact if_pos ⟨hjob, trivial⟩
    · simp only [Mode.next, Option.some.injEq, hid, if_false]
      refine disc_send ⟨_, rfl⟩ fun _ _ => ?_
      refine disc_loadJob ⟨by simp, by simp⟩ fun job hjob => ?_
      refine disc_clock fun now => disc_saveJob ?_
      refine disc_send trivial fun _ _ => ⟨?_, by simp⟩
      rintro _ _ ⟨⟩ ⟨⟩ hx
      exact absurd (hjob.symm.trans hx) hid

/-- What a call about a held job may rely on. -/
theorem carries_startMode {jobType : GoString} {job : Job}
    (hop : op.heldJob = some (jobType, job)) (hid : job.id = x) :
    startMode x op = .carrying := by
  simp [startMode, hop, hid]

theorem startMode_of_ne {jobType : GoString} {job : Job}
    (hop : op.heldJob = some (jobType, job)) (hid : job.id ≠ x) :
    startMode x op = .free := by
  simp [startMode, hop, hid]

theorem disc_complete (jobType : GoString) (job : Job) :
    Disc x (.complete jobType job) (Result x (.complete jobType job))
      (startMode x (.complete jobType job)) (complete job) := by
  by_cases hid : job.id = x
  · rw [carries_startMode rfl hid]
    refine disc_clock fun now => disc_send trivial fun _ _ => ?_
    refine disc_send (fun _ => Or.inl trivial) fun _ _ => ?_
    simp only [Mode.next, Mode.settle, hid, Mode.Carries, and_self, if_true]
    refine disc_send trivial fun _ _ => disc_send trivial fun _ _ => ⟨by simp, ?_⟩
    exact fun _ _ _ _ => trivial
  · rw [startMode_of_ne rfl hid]
    refine disc_clock fun now => disc_send trivial fun _ _ => ?_
    refine disc_send (fun heq => absurd heq hid) fun _ _ => ?_
    refine disc_send trivial fun _ _ => disc_send trivial fun _ _ => ⟨by simp, ?_⟩
    rintro _ _ ⟨⟩ heq
    exact absurd heq hid

/-- {lit}`Fail` pushes its job only while it has the token. -/
theorem disc_fail (jobType : GoString) (job : Job) (jobErr : GoString) :
    Disc x (.fail jobType job jobErr) (Result x (.fail jobType job jobErr))
      (startMode x (.fail jobType job jobErr)) (fail job jobErr) := by
  have hresult : ∀ m a, Result x (.fail jobType job jobErr) m a :=
    fun m a => ⟨by simp, by simp⟩
  by_cases hid : job.id = x
  · rw [carries_startMode rfl hid]
    refine disc_clock fun now => disc_send (fun _ => Or.inl trivial) fun _ _ => ?_
    simp only [Mode.next, Mode.settle, hid, Mode.Carries, and_self, if_true]
    split_ifs
    · refine disc_saveJob ?_
      refine disc_send trivial fun _ _ => disc_send trivial fun _ _ => hresult _ _
    · refine disc_clock fun now => disc_saveJob ?_
      exact disc_send ⟨⟨_, rfl⟩, fun _ => trivial⟩ fun _ _ => hresult _ _
  · rw [startMode_of_ne rfl hid]
    refine disc_clock fun now => disc_send (fun heq => absurd heq hid) fun _ _ => ?_
    dsimp only
    split_ifs
    · refine disc_saveJob ?_
      refine disc_send trivial fun _ _ => disc_send trivial fun _ _ => hresult _ _
    · refine disc_clock fun now => disc_saveJob ?_
      exact disc_send ⟨⟨_, rfl⟩, fun heq => absurd heq hid⟩ fun _ _ => hresult _ _

/-- The put-back gives the token away and then removes the processing entry. -/
theorem disc_putBack (jobType : GoString) (job : Job) :
    Disc x (.putBack jobType job) (Result x (.putBack jobType job))
      (startMode x (.putBack jobType job)) (putBack jobType job) := by
  by_cases hid : job.id = x
  · rw [carries_startMode rfl hid]
    refine disc_saveJob (disc_send ⟨⟨_, rfl⟩, fun _ => trivial⟩ fun _ _ => ?_)
    simp only [Mode.next, hid, if_true]
    exact disc_send (fun _ => Or.inr ⟨rfl, _, _, rfl⟩) fun _ _ => ⟨by simp, by simp⟩
  · rw [startMode_of_ne rfl hid]
    refine disc_saveJob (disc_send ⟨⟨_, rfl⟩, fun heq => absurd heq hid⟩ fun _ _ => ?_)
    exact disc_send (fun heq => absurd heq hid) fun _ _ => ⟨by simp, by simp⟩

/-- The recovery of another job. -/
theorem disc_recoverJob {jobType jobID : GoString} (hid : jobID ≠ x) :
    Disc x op (fun m _ => m = .free) .free (recoverJob jobType jobID) := by
  refine disc_loadJob rfl fun job hjob => ?_
  refine disc_send (fun heq => absurd heq hid) fun _ _ => disc_clock fun now => ?_
  simp only [Mode.next, Mode.settle, hid, false_and, if_false]
  split_ifs
  · exact disc_saveJob (disc_send trivial fun _ _ => rfl)
  · refine disc_saveJob (disc_send ⟨⟨_, rfl⟩, fun heq => absurd heq hid⟩ fun _ _ => ?_)
    exact if_neg hid

theorem disc_recoverLoop {jobType : GoString} {recovered : Nat} {stuckIDs : List GoString}
    (hx : x ∉ stuckIDs) :
    Disc x op (fun m _ => m = .free) .free (recoverLoop jobType recovered stuckIDs) := by
  induction stuckIDs generalizing recovered with
  | nil => rfl
  | cons jobID stuckIDs ih =>
      obtain ⟨hid, hrest⟩ := not_or.mp (mt List.mem_cons.mpr hx)
      refine (disc_recoverJob (Ne.symm hid)).bind ?_
      rintro m (_ | _) rfl
      · exact ih hrest
      · exact ih hrest

/-- Recovery that does not list the ID does not touch it. -/
theorem disc_recoverStuckJobs (jobType : GoString) :
    Disc x (.recoverStuckJobs jobType) (Result x (.recoverStuckJobs jobType)) .free
      (recoverStuckJobs cfg jobType) := by
  refine disc_clock fun now => disc_send trivial fun stuckIDs hx => ?_
  exact (disc_recoverLoop hx).mono fun m a _ => ⟨by simp, by simp⟩

/-- The calls of the workers and of the recovery. -/
def Op.OfWorkers : Op → Prop
  | .requeueDead .. | .requeueAllDead .. => False
  | _ => True

/-- Every call moves the token only while it has it. -/
theorem disc_bodyOf (hop : op.OfWorkers) :
    Disc x op (Result x op) (startMode x op) (bodyOf cfg op) := by
  cases op with
  | enqueue jobType workspaceID referenceID metadata => exact disc_enqueue _ _ _ _
  | dequeue jobType => exact disc_dequeue jobType
  | complete jobType job => exact disc_complete jobType job
  | fail jobType job jobErr => exact disc_fail jobType job jobErr
  | putBack jobType job => exact disc_putBack jobType job
  | recoverStuckJobs jobType => exact disc_recoverStuckJobs jobType
  | requeueDead jobType jobID => exact hop.elim
  | requeueAllDead jobType => exact hop.elim

end Bodies

/-! ## The runs -/

/-- No call stops or has a command fail, and only the calls of the workers and of the
recovery are made. -/
def Undisturbed : Label Op → Prop
  | .stop _ | .fail _ => False
  | .start _ op => op.OfWorkers
  | _ => True

/-- The commands that leave a job to its holder: recovery does not find the job in a
processing set with an entry as old as the lock timeout, and {lit}`LMOVE` does not take
the job while a put-back that has pushed it has still to remove it. -/
def Orderly (x : GoString) (w : QueueWorld) : Command → Prop
  | .zrangeByScore key stop =>
      x ∉ (w.store.db.run w.store.now (.zrangeByScore key stop)).2
  | .lmove source _ =>
      (w.store.db.lists source).getLast? = some x → ∀ j jobType job type k failed,
        w.threads j ≠ some ⟨.putBack jobType job, .cmd (.zrem (.processing type) x) k, failed⟩
  | _ => True

/-- The steps of the runs in which a job has one holder. -/
def Holding (x : GoString) (w : QueueWorld) (l : Label Op) : Prop :=
  Undisturbed l ∧ ∀ i op c k failed, l = .exec i → w.threads i = some ⟨op, .cmd c k, failed⟩ →
    Orderly x w c

/-- A {lit}`Complete` of the job has returned. -/
def Completes (x : GoString) (e : Event Op Command Outcome) : Prop :=
  ∃ jobType job a, e = .returned (.complete jobType job) a ∧ job.id = x

/-- A {lit}`Dequeue` has returned the job. -/
def Hands (x : GoString) (e : Event Op Command Outcome) : Prop :=
  ∃ jobType job, e = .returned (.dequeue jobType) (.job (some job)) ∧ job.id = x

/-! ## The invariant -/

/-- The call is about to remove the ID that it has just pushed from a processing set. -/
def Windowed (x : GoString) (modes : Nat → Mode) (w : QueueWorld) (i : Nat) : Prop :=
  modes i = .window ∧ ∃ op type k failed,
    w.threads i = some ⟨op, .cmd (.zrem (.processing type) x) k, failed⟩

/-- The ID has one token, which is at a place, and every call has what its mode says. -/
structure OneToken (x : GoString) (place : Place) (modes : Nat → Mode) (w : QueueWorld) :
    Prop where
  keyed : Keyed w.store.db
  disc : ∀ i t, w.threads i = some t → Disc x t.op (Result x t.op) (modes i) t.prog
  idle : ∀ i, w.threads i = none → modes i = .free
  token : ∀ i, (modes i).Carries ↔ place = .call i
  listed : ∀ i type, modes i = .listed type →
    x ∈ (w.store.db.zsets (.processing type)).keys
  heldListed : ∀ e ∈ w.store.held, e.2.id = x →
    x ∈ (w.store.db.zsets (.processing e.1)).keys
  window : ∀ i, Windowed x modes w i → ∃ type, place = .pending type
  pending : ∀ type, (w.store.db.lists (.pending type)).count x =
    if place = .pending type then 1 else 0
  held : (w.store.held.map fun e => e.2.id).count x = if place = .held then 1 else 0
  born : place ≠ .unborn → ∃ n ≤ w.store.db.idCounter, itoa n = x
  completed : (∃ e ∈ w.log, Completes x e) → place = .gone
  order : w.log.Pairwise fun later earlier => Completes x earlier → ¬Hands x later

/-- The invariant holds before the first call. -/
theorem oneToken_start (x : GoString) : OneToken x .unborn (fun _ => .free) start where
  keyed := by
    intro id job hget
    simp [start, World.initial, State.initial, Redis.empty] at hget
  disc := by simp [start, World.initial]
  idle := by simp
  token := by simp [Mode.Carries]
  listed := by simp
  heldListed := by simp [start, World.initial, State.initial]
  window := by simp [Windowed]
  pending := by simp [start, World.initial, State.initial, Redis.empty]
  held := by simp [start, World.initial, State.initial]
  born := by simp
  completed := by simp [start, World.initial]
  order := List.Pairwise.nil

/-! ## What a command does to the token -/

@[simp]
theorem carries_settle (m : Mode) : m.settle.Carries ↔ m.Carries := by
  cases m <;> exact Iff.rfl

@[simp]
theorem settle_ne_window (m : Mode) : m.settle ≠ .window := by
  cases m <;> simp [Mode.settle]

theorem settle_eq_listed {m : Mode} {type : GoString} (hm : m.settle = .listed type) :
    m = .listed type := by
  cases m <;> simp_all [Mode.settle]

/-- The pending list of a type after a command. -/
def pendingAfter (w : QueueWorld) (c : Command) (type : GoString) : List GoString :=
  (w.store.db.run w.store.now c).1.lists (.pending type)

/-- What a command of the call at `i` does: the token stays where it is, the call gets
it, or the call pushes it. -/
inductive Effect (x : GoString) (i : Nat) (c : Command) (place : Place) (modes : Nat → Mode)
    (w : QueueWorld) : Place → Mode → Prop where
  | keep {m : Mode} (hcarries : m.Carries ↔ (modes i).Carries) (hwindow : m ≠ .window)
      (hlists : ∀ type, (pendingAfter w c type).count x =
        (w.store.db.lists (.pending type)).count x) :
      Effect x i c place modes w place m
  | take (hplace : place = .unborn ∨ ∃ type, place = .pending type)
      (hborn : ∃ n ≤ (w.store.db.run w.store.now c).1.idCounter, itoa n = x)
      (hwindow : ∀ j, ¬Windowed x modes w j)
      (hlists : ∀ type, (pendingAfter w c type).count x = 0) :
      Effect x i c place modes w (.call i) .carrying
  | give {type : GoString} (hplace : place = .call i)
      (hlists : ∀ type', (pendingAfter w c type').count x = if type = type' then 1 else 0) :
      Effect x i c place modes w (.pending type) .window

section Preservation

variable {x : GoString} {place : Place} {modes : Nat → Mode} {w : QueueWorld} {i : Nat}
  {op : Op} {c : Command} {k : Option (Reply c) → Body Outcome} {failed : Bool}

/-- Only a put-back removes the ID from a processing set without the token. -/
theorem OneToken.putBack_of_windowed (hinv : OneToken x place modes w) {j : Nat}
    (hj : Windowed x modes w j) :
    ∃ jobType job type k failed, w.threads j =
      some ⟨.putBack jobType job, .cmd (.zrem (.processing type) x) k, failed⟩ := by
  obtain ⟨hmode, op, type, k, failed, hthread⟩ := hj
  have hdisc := (hinv.disc j _ hthread).1 rfl
  rcases hdisc with hcarries | ⟨_, jobType, job, hop⟩
  · rw [hmode] at hcarries
    exact hcarries.elim
  · obtain rfl : op = .putBack jobType job := hop
    exact ⟨jobType, job, type, k, failed, hthread⟩

/-- The counter never gives the same ID again. -/
theorem OneToken.unborn_of_incr (hinv : OneToken x place modes w)
    (hx : itoa (w.store.db.idCounter + 1) = x) : place = .unborn := by
  by_contra hplace
  obtain ⟨n, hn, hnx⟩ := hinv.born hplace
  have heq := itoa_injective (hnx.trans hx.symm)
  omega

/-- An ID that is in a pending list has its token there. -/
theorem OneToken.place_of_mem (hinv : OneToken x place modes w) {type : GoString}
    (hx : x ∈ w.store.db.lists (.pending type)) : place = .pending type := by
  by_contra hplace
  have hcount := hinv.pending type
  rw [if_neg hplace] at hcount
  exact List.count_eq_zero.mp hcount hx

/-- An ID that was given out stays given out. -/
theorem OneToken.born_run (hinv : OneToken x place modes w) (hplace : place ≠ .unborn)
    (c : Command) : ∃ n ≤ (w.store.db.run w.store.now c).1.idCounter, itoa n = x := by
  obtain ⟨n, hn, hx⟩ := hinv.born hplace
  exact ⟨n, hn.trans (idCounter_le_run _ _ c), hx⟩

/-- Dropping another last element keeps the count. -/
theorem count_dropLast {xs : List GoString} (hx : xs.getLast? ≠ some x) :
    xs.dropLast.count x = xs.count x := by
  cases hlast : xs.getLast? with
  | none => simp [List.getLast?_eq_none_iff.mp hlast]
  | some y =>
      obtain ⟨before, rfl⟩ := List.getLast?_eq_some_iff.mp hlast
      have hne : y ≠ x := by simpa using hx
      simp [hne]

/-- An ID that is held has its token there. -/
theorem OneToken.place_of_held (hinv : OneToken x place modes w) {e : GoString × Job}
    (he : e ∈ w.store.held) (hid : e.2.id = x) : place = .held := by
  by_contra hplace
  have hcount := hinv.held
  rw [if_neg hplace] at hcount
  exact List.count_eq_zero.mp hcount (List.mem_map.mpr ⟨e, he, hid⟩)

/-- What a command does to the token. -/
theorem OneToken.effect (hinv : OneToken x place modes w)
    (hthread : w.threads i = some ⟨op, .cmd c k, failed⟩) (horderly : Orderly x w c) :
    ∃ place', Effect x i c place modes w place'
      ((modes i).next x c (w.store.db.run w.store.now c).2) := by
  have hpermitted : Permitted x op (modes i) c := (hinv.disc i _ hthread).1
  cases c with
  | incr =>
      by_cases hx : itoa (w.store.db.idCounter + 1) = x
      · have hplace := hinv.unborn_of_incr hx
        simp only [Mode.next, Redis.run, hx, if_true]
        refine ⟨_, .take (Or.inl hplace) ⟨_, Nat.le_refl _, hx⟩ (fun j hj => ?_) fun type => ?_⟩
        · obtain ⟨type, hpending⟩ := hinv.window j hj
          simp [hplace] at hpending
        · have hcount := hinv.pending type
          rwa [hplace, if_neg (by simp)] at hcount
      · simp only [Mode.next, Redis.run, hx, if_false]
        exact ⟨_, .keep (by simp) (by simp) fun _ => rfl⟩
  | lpush key id =>
      obtain ⟨⟨type, rfl⟩, hcarries⟩ := hpermitted
      by_cases hx : id = x
      · have hplace := (hinv.token i).mp (hcarries hx)
        simp only [Mode.next, hx, if_true]
        refine ⟨.pending type, .give hplace fun type' => ?_⟩
        have hcount := hinv.pending type'
        by_cases htype : type = type'
        · subst htype
          simp_all [pendingAfter, Redis.run, Redis.setList]
        · have hkey : LKey.pending type' ≠ .pending type := by simp [Ne.symm htype]
          simp_all [pendingAfter, Redis.run, Redis.setList]
      · simp only [Mode.next, hx, if_false]
        refine ⟨_, .keep (by simp) (by simp) fun type' => ?_⟩
        by_cases htype : type = type'
        · subst htype
          simp [pendingAfter, Redis.run, Redis.setList, hx]
        · have hkey : LKey.pending type' ≠ .pending type := by simp [Ne.symm htype]
          simp [pendingAfter, Redis.run, Redis.setList, hkey]
  | lmove source destination =>
      obtain ⟨⟨type, rfl⟩, temp, rfl⟩ := hpermitted
      have hafter : ∀ type', pendingAfter w (.lmove (.pending type) (.temp temp)) type' =
          if LKey.pending type' = .pending type
          then (w.store.db.lists (.pending type)).dropLast
          else w.store.db.lists (.pending type') := fun type' => lists_lmove (by simp)
      simp only [Mode.next, reply_lmove]
      by_cases hx : (w.store.db.lists (.pending type)).getLast? = some x
      · have hplace := hinv.place_of_mem (List.mem_of_getLast? hx)
        simp only [hx, if_true]
        have hborn := hinv.born_run (by simp [hplace]) (.lmove (.pending type) (.temp temp))
        refine ⟨_, .take (Or.inr ⟨type, hplace⟩) hborn (fun j hj => ?_) fun type' => ?_⟩
        · obtain ⟨jobType, job, type', k', failed', hj⟩ := hinv.putBack_of_windowed hj
          exact horderly hx j jobType job type' k' failed' hj
        · obtain ⟨before, hlist⟩ := List.getLast?_eq_some_iff.mp hx
          have hcount := hinv.pending type'
          rw [hafter]
          split_ifs with htype
          · rw [htype, hplace, if_pos (by simpa using htype.symm), hlist] at hcount
            simp_all
          · rw [hcount, hplace, if_neg (by simpa [eq_comm] using htype)]
      · simp only [hx, if_false]
        refine ⟨_, .keep (by simp) (by simp) fun type' => ?_⟩
        rw [hafter]
        split_ifs with htype
        · rw [htype]
          exact count_dropLast hx
        · rfl
  | lrem key id =>
      obtain ⟨type, rfl⟩ := hpermitted
      exact ⟨_, .keep (by simp [Mode.next]) (by simp [Mode.next]) fun type' => by
        simp [pendingAfter, Redis.run, Redis.setList]⟩
  | zadd key score member =>
      refine ⟨_, .keep ?_ ?_ fun _ => rfl⟩
      · cases key with
        | processing type =>
            simp only [Mode.next]
            split_ifs with hx
            · exact iff_of_true trivial hx.2
            · simp
        | dead type => simp [Mode.next]
      · cases key with
        | processing type =>
            simp only [Mode.next]
            split_ifs <;> simp
        | dead type => simp [Mode.next]
  | zrem key member =>
      refine ⟨_, .keep ?_ ?_ fun _ => rfl⟩
      · cases key with
        | processing type =>
            simp only [Mode.next]
            split_ifs with hx
            · exact iff_of_true trivial hx.2
            · simp
        | dead type => simp [Mode.next]
      · cases key with
        | processing type =>
            simp only [Mode.next]
            split_ifs <;> simp
        | dead type => simp [Mode.next]
  | _ => exact ⟨_, .keep (by simp [Mode.next]) (by simp [Mode.next]) fun _ => rfl⟩

/-! ## The consequences of an effect -/

section Effects

variable {place' : Place} {m' : Mode}

theorem Effect.token (heffect : Effect x i c place modes w place' m')
    (hinv : OneToken x place modes w) (j : Nat) :
    (Function.update modes i m' j).Carries ↔ place' = .call j := by
  by_cases hj : j = i
  · subst hj
    rw [Function.update_self]
    cases heffect with
    | keep hcarries _ _ => exact hcarries.trans (hinv.token j)
    | take _ _ _ _ => exact iff_of_true trivial rfl
    | give _ _ => exact iff_of_false id (by simp)
  · rw [Function.update_of_ne hj, hinv.token j]
    cases heffect with
    | keep _ _ _ => exact Iff.rfl
    | take hplace _ _ _ =>
        rcases hplace with rfl | ⟨type, rfl⟩ <;> simp [Ne.symm hj]
    | give hplace _ => simp [hplace, Ne.symm hj]

theorem Effect.held_iff (heffect : Effect x i c place modes w place' m') :
    place' = .held ↔ place = .held := by
  cases heffect with
  | keep _ _ _ => exact Iff.rfl
  | take hplace _ _ _ => rcases hplace with rfl | ⟨type, rfl⟩ <;> simp
  | give hplace _ => simp [hplace]

theorem Effect.gone (heffect : Effect x i c place modes w place' m') (hplace : place = .gone) :
    place' = .gone := by
  subst hplace
  cases heffect with
  | keep _ _ _ => rfl
  | take hplace _ _ _ => simp at hplace
  | give hplace _ => simp at hplace

theorem Effect.pending (heffect : Effect x i c place modes w place' m')
    (hinv : OneToken x place modes w) (type : GoString) :
    (pendingAfter w c type).count x = if place' = .pending type then 1 else 0 := by
  cases heffect with
  | keep _ _ hlists => rw [hlists, hinv.pending]
  | take _ _ _ hlists => rw [hlists, if_neg (by simp)]
  | give _ hlists => simp only [hlists, Place.pending.injEq]

theorem Effect.born (heffect : Effect x i c place modes w place' m')
    (hinv : OneToken x place modes w) (hplace : place' ≠ .unborn) :
    ∃ n ≤ (w.store.db.run w.store.now c).1.idCounter, itoa n = x := by
  cases heffect with
  | keep _ _ _ => exact hinv.born_run hplace c
  | take _ hborn _ _ => exact hborn
  | give hcall _ => exact hinv.born_run (by simp [hcall]) c

theorem Effect.window (heffect : Effect x i c place modes w place' m')
    (hinv : OneToken x place modes w) :
    (m' = .window → ∃ type, place' = .pending type) ∧
      ∀ j, Windowed x modes w j → ∃ type, place' = .pending type := by
  cases heffect with
  | keep _ hwindow _ => exact ⟨fun h => absurd h hwindow, hinv.window⟩
  | take _ _ hwindow _ => exact ⟨by simp, fun j hj => absurd hj (hwindow j)⟩
  | give _ _ => exact ⟨fun _ => ⟨_, rfl⟩, fun _ _ => ⟨_, rfl⟩⟩

end Effects

/-- A call without the token does not remove the ID from a processing set, unless the ID
is pending. -/
theorem OneToken.ne_zrem (hinv : OneToken x place modes w)
    (hthread : w.threads i = some ⟨op, .cmd c k, failed⟩) (hcall : place ≠ .call i)
    (hpending : ∀ type, place ≠ .pending type) (type : GoString) :
    c ≠ .zrem (.processing type) x := by
  rintro rfl
  rcases (hinv.disc i _ hthread).1 rfl with hcarries | ⟨hmode, _⟩
  · exact hcall ((hinv.token i).mp hcarries)
  · obtain ⟨type', hplace⟩ := hinv.window i ⟨hmode, op, type, k, failed, hthread⟩
    exact hpending type' hplace

/-- A call that has listed the ID has it in the processing set. -/
theorem OneToken.listed_run (hinv : OneToken x place modes w) {type : GoString}
    (hmode : (modes i).next x c (w.store.db.run w.store.now c).2 = .listed type) :
    x ∈ ((w.store.db.run w.store.now c).1.zsets (.processing type)).keys := by
  have hkeep (hsettle : (modes i).settle = .listed type)
      (hc : c ≠ .zrem (.processing type) x) :
      x ∈ ((w.store.db.run w.store.now c).1.zsets (.processing type)).keys :=
    mem_zsets_run (hinv.listed i type (settle_eq_listed hsettle)) hc
  cases c with
  | incr =>
      simp only [Mode.next] at hmode
      split_ifs at hmode
      exact hkeep hmode (by simp)
  | lpush key id =>
      simp only [Mode.next] at hmode
      split_ifs at hmode
      exact hkeep hmode (by simp)
  | lmove source destination =>
      simp only [Mode.next] at hmode
      split_ifs at hmode
      exact hkeep hmode (by simp)
  | zadd key score member =>
      cases key with
      | processing type' =>
          simp only [Mode.next] at hmode
          split_ifs at hmode with hx
          · obtain rfl : type' = type := by simpa using hmode
            simp [Redis.run, Redis.setZset, hx.1]
          · exact hkeep hmode (by simp)
      | dead type' => exact hkeep hmode (by simp)
  | zrem key member =>
      cases key with
      | processing type' =>
          simp only [Mode.next] at hmode
          split_ifs at hmode with hx
          refine hkeep hmode ?_
          rintro ⟨⟩
          have hlisted := settle_eq_listed hmode
          exact hx ⟨rfl, by simp [hlisted, Mode.Carries]⟩
      | dead type' => exact hkeep hmode (by simp)
  | _ => exact hkeep hmode (by simp)

/-- The answers of the database are as the calls expect. -/
theorem OneToken.answer (hinv : OneToken x place modes w) (horderly : Orderly x w c) :
    Answer x c (w.store.db.run w.store.now c).2 := by
  cases c with
  | get id => exact fun job hget => hinv.keyed id job hget
  | zrangeByScore key stop => exact horderly
  | _ => trivial

/-- A command keeps the invariant. -/
theorem OneToken.exec (hinv : OneToken x place modes w)
    (hthread : w.threads i = some ⟨op, .cmd c k, failed⟩) (horderly : Orderly x w c) :
    ∃ place' modes', OneToken x place' modes'
      ⟨{ w.store with db := (w.store.db.run w.store.now c).1 },
        w.setThread i (some ⟨op, k (some (w.store.db.run w.store.now c).2), failed⟩),
        .ran op c :: w.log⟩ := by
  obtain ⟨place', heffect⟩ := hinv.effect hthread horderly
  set m' := (modes i).next x c (w.store.db.run w.store.now c).2 with hm'
  have hother : ∀ j, j ≠ i → Function.update modes i m' j = modes j :=
    fun j hj => Function.update_of_ne hj m' modes
  refine ⟨place', Function.update modes i m', ?_⟩
  constructor
  case keyed => exact keyed_run hinv.keyed c
  case disc =>
    refine World.forall_setThread (P := fun j t =>
      Disc x t.op (Result x t.op) (Function.update modes i m' j) t.prog) ?_ ?_
    · intro j hj u hu
      rw [hother j hj]
      exact hinv.disc j u hu
    · rintro u ⟨⟩
      rw [Function.update_self]
      exact (hinv.disc i _ hthread).2 _ (hinv.answer horderly)
  case idle =>
    intro j hj
    by_cases hji : j = i
    · subst hji
      simp at hj
    · rw [hother j hji]
      exact hinv.idle j (by rw [← hj]; exact (w.setThread_of_ne _ hji).symm)
  case token => exact heffect.token hinv
  case listed =>
    intro j type hj
    by_cases hji : j = i
    · subst hji
      rw [Function.update_self] at hj
      exact hinv.listed_run hj
    · rw [hother j hji] at hj
      have hplace : place = .call j := (hinv.token j).mp (by simp [hj, Mode.Carries])
      refine mem_zsets_run (hinv.listed j type hj) (hinv.ne_zrem hthread ?_ ?_ type)
      · simp [hplace, hji]
      · simp [hplace]
  case heldListed =>
    intro e he hid
    have hplace := hinv.place_of_held he hid
    refine mem_zsets_run (hinv.heldListed e he hid) (hinv.ne_zrem hthread ?_ ?_ e.1)
    · simp [hplace]
    · simp [hplace]
  case window =>
    rintro j ⟨hmode, op', type, k', failed', hj⟩
    by_cases hji : j = i
    · subst hji
      rw [Function.update_self] at hmode
      exact (heffect.window hinv).1 hmode
    · rw [hother j hji] at hmode
      refine (heffect.window hinv).2 j ⟨hmode, op', type, k', failed', ?_⟩
      rw [← hj]
      exact (w.setThread_of_ne _ hji).symm
  case pending => exact heffect.pending hinv
  case held =>
    simp only [heffect.held_iff]
    exact hinv.held
  case born => exact heffect.born hinv
  case completed =>
    rintro ⟨e, he, hcompletes⟩
    rcases List.mem_cons.mp he with rfl | he
    · obtain ⟨_, _, _, heq, _⟩ := hcompletes
      simp at heq
    · exact heffect.gone (hinv.completed ⟨e, he, hcompletes⟩)
  case order =>
    refine List.pairwise_cons.mpr ⟨?_, hinv.order⟩
    rintro e _ _ ⟨_, _, heq, _⟩
    simp at heq

/-- A call starts with the token exactly when it is about the job. -/
theorem startMode_cases (x : GoString) (op : Op) :
    (∃ jobType job, op.heldJob = some (jobType, job) ∧ job.id = x ∧
      startMode x op = .carrying) ∨
    ((∀ jobType job, op.heldJob = some (jobType, job) → job.id ≠ x) ∧
      startMode x op = .free) := by
  cases hheld : op.heldJob with
  | none => exact Or.inr ⟨by simp, by simp [startMode, hheld]⟩
  | some entry =>
      obtain ⟨jobType, job⟩ := entry
      by_cases hid : job.id = x
      · exact Or.inl ⟨jobType, job, rfl, hid, carries_startMode hheld hid⟩
      · refine Or.inr ⟨?_, startMode_of_ne hheld hid⟩
        rintro _ _ ⟨⟩
        exact hid

/-- The job that a call is about is held before. -/
theorem mem_held_of_enabled {s : State} {jobType : GoString} {job : Job}
    (henabled : s.enabled op) (hop : op.heldJob = some (jobType, job)) :
    (jobType, job) ∈ s.held := by
  cases op with
  | complete _ _ =>
      obtain ⟨rfl, rfl⟩ := Prod.mk.inj (Option.some.inj hop)
      exact henabled.1
  | fail _ _ _ =>
      obtain ⟨rfl, rfl⟩ := Prod.mk.inj (Option.some.inj hop)
      exact henabled.1
  | putBack _ _ =>
      obtain ⟨rfl, rfl⟩ := Prod.mk.inj (Option.some.inj hop)
      exact henabled.1
  | _ => simp [Op.heldJob] at hop

/-- The start of a call takes its job from the held ones. -/
theorem count_held_begin {s : State} (henabled : s.enabled op) :
    ((s.begin op).held.map fun e => e.2.id).count x =
      (s.held.map fun e => e.2.id).count x - if startMode x op = .carrying then 1 else 0 := by
  rcases startMode_cases x op with ⟨jobType, job, hop, hid, hmode⟩ | ⟨hother, hmode⟩
  · have hmem := mem_held_of_enabled henabled hop
    have hperm := (List.perm_cons_erase hmem).map fun e => e.2.id
    have hcount := hperm.count_eq x
    simp only [List.map_cons, hid, List.count_cons_self] at hcount
    simp only [State.begin, hop, hmode, if_true]
    omega
  · cases hop : op.heldJob with
    | none => simp [State.begin, hop, hmode]
    | some entry =>
        have hmem := mem_held_of_enabled henabled hop
        have hperm := (List.perm_cons_erase hmem).map fun e => e.2.id
        have hcount := hperm.count_eq x
        have hid := hother entry.1 entry.2 hop
        simp only [List.map_cons, List.count_cons_of_ne hid] at hcount
        simp only [State.begin, hop, hmode, reduceCtorEq, if_false, Nat.sub_zero]
        exact hcount.symm

/-- What is held after the start of a call was held before. -/
theorem mem_held_of_begin {s : State} {e : GoString × Job} (he : e ∈ (s.begin op).held) :
    e ∈ s.held := by
  simp only [State.begin] at he
  split at he
  · exact he
  · exact List.mem_of_mem_erase he

/-- A started call keeps the invariant. -/
theorem OneToken.start (hinv : OneToken x place modes w) {cfg : Config}
    (hfree : w.threads i = none) (henabled : w.store.enabled op) (hop : op.OfWorkers) :
    ∃ place' modes', OneToken x place' modes'
      ⟨w.store.begin op, w.setThread i (some ⟨op, bodyOf cfg op, false⟩), w.log⟩ := by
  have hfreei : modes i = .free := hinv.idle i hfree
  have hcall : place ≠ .call i := by
    intro hplace
    have hcarries := (hinv.token i).mpr hplace
    simp [hfreei, Mode.Carries] at hcarries
  have hwas : startMode x op = .carrying → place = .held := by
    intro hmode
    rcases startMode_cases x op with ⟨jobType, job, hheld, hid, _⟩ | ⟨_, hfree'⟩
    · exact hinv.place_of_held (mem_held_of_enabled henabled hheld) hid
    · simp [hmode] at hfree'
  have hmodes : startMode x op = .carrying ∨ startMode x op = .free := by
    rcases startMode_cases x op with ⟨_, _, _, _, hmode⟩ | ⟨_, hmode⟩
    · exact Or.inl hmode
    · exact Or.inr hmode
  have hother : ∀ j, j ≠ i → Function.update modes i (startMode x op) j = modes j :=
    fun j hj => Function.update_of_ne hj _ modes
  refine ⟨if startMode x op = .carrying then .call i else place,
    Function.update modes i (startMode x op), ?_⟩
  constructor
  case keyed => simpa using hinv.keyed
  case disc =>
    refine World.forall_setThread (P := fun j t =>
      Disc x t.op (Result x t.op) (Function.update modes i (startMode x op) j) t.prog) ?_ ?_
    · intro j hj u hu
      rw [hother j hj]
      exact hinv.disc j u hu
    · rintro u ⟨⟩
      rw [Function.update_self]
      exact disc_bodyOf hop
  case idle =>
    intro j hj
    by_cases hji : j = i
    · subst hji
      simp at hj
    · rw [hother j hji]
      exact hinv.idle j (by rw [← hj]; exact (w.setThread_of_ne _ hji).symm)
  case token =>
    intro j
    by_cases hji : j = i
    · subst hji
      rw [Function.update_self]
      rcases hmodes with hmode | hmode
      · simp [hmode, Mode.Carries]
      · simp [hmode, Mode.Carries, hcall]
    · rw [hother j hji, hinv.token j]
      rcases hmodes with hmode | hmode
      · simp [hmode, hwas hmode, Ne.symm hji]
      · simp [hmode]
  case listed =>
    intro j type hj
    by_cases hji : j = i
    · subst hji
      rw [Function.update_self] at hj
      rcases hmodes with hmode | hmode <;> simp [hmode] at hj
    · rw [hother j hji] at hj
      simpa using hinv.listed j type hj
  case heldListed =>
    intro e he hid
    simpa using hinv.heldListed e (mem_held_of_begin he) hid
  case window =>
    rintro j ⟨hmode, op', type, k', failed', hj⟩
    by_cases hji : j = i
    · subst hji
      rw [Function.update_self] at hmode
      rcases hmodes with hstart | hstart <;> simp [hstart] at hmode
    · rw [hother j hji] at hmode
      have hplace := hinv.window j ⟨hmode, op', type, k', failed', by
        rw [← hj]
        exact (w.setThread_of_ne _ hji).symm⟩
      rcases hmodes with hstart | hstart
      · obtain ⟨type', hpending⟩ := hplace
        simp [hwas hstart] at hpending
      · simpa [hstart] using hplace
  case pending =>
    intro type
    have hcount := hinv.pending type
    rcases hmodes with hmode | hmode
    · simpa [hmode, hwas hmode] using hcount
    · simpa [hmode] using hcount
  case held =>
    rw [count_held_begin henabled, hinv.held]
    rcases hmodes with hmode | hmode
    · simp [hmode, hwas hmode]
    · simp [hmode]
  case born =>
    intro hplace
    rw [begin_db]
    rcases hmodes with hmode | hmode
    · exact hinv.born (by simp [hwas hmode])
    · exact hinv.born (by simpa [hmode] using hplace)
  case completed =>
    intro hcompletes
    have hgone := hinv.completed hcompletes
    rcases hmodes with hmode | hmode
    · simp [hwas hmode] at hgone
    · simpa [hmode] using hgone
  case order => exact hinv.order

/-- What is held when a call is over: a dequeued job is held besides the others. -/
theorem count_held_done (x : GoString) (s : State) (op : Op) (a : Outcome) :
    (Hands x (.returned op a) ∧ ((s.done op a).held.map fun e => e.2.id).count x =
      (s.held.map fun e => e.2.id).count x + 1) ∨
    (¬Hands x (.returned op a) ∧ ((s.done op a).held.map fun e => e.2.id).count x =
      (s.held.map fun e => e.2.id).count x) := by
  by_cases hhands : Hands x (.returned op a)
  · refine Or.inl ⟨hhands, ?_⟩
    obtain ⟨jobType, job, heq, hid⟩ := hhands
    obtain ⟨rfl, rfl⟩ := Event.returned.inj heq
    simp [State.done, hid]
  · refine Or.inr ⟨hhands, ?_⟩
    simp only [State.done]
    split
    · rename_i jobType job
      have hid : job.id ≠ x := fun hid => hhands ⟨jobType, job, rfl, hid⟩
      simp [hid]
    · rfl

/-- What is held when a call is over was held before, or the call hands it out. -/
theorem mem_held_done {s : State} {a : Outcome} {e : GoString × Job}
    (he : e ∈ (s.done op a).held) :
    e ∈ s.held ∨ (op = .dequeue e.1 ∧ a = .job (some e.2)) := by
  simp only [State.done] at he
  split at he
  · rcases List.mem_cons.mp he with rfl | he
    · exact Or.inr ⟨rfl, rfl⟩
    · exact Or.inl he
  · exact Or.inl he

/-- Where the token is when the call at `i` is over. -/
theorem OneToken.place_of_result (hinv : OneToken x place modes w) {a : Outcome}
    (hthread : w.threads i = some ⟨op, .ret a, failed⟩) :
    (Hands x (.returned op a) → place = .call i) ∧
      (Completes x (.returned op a) → place = .call i) := by
  have hresult : Result x op (modes i) a := hinv.disc i _ hthread
  constructor
  · rintro ⟨jobType, job, heq, hid⟩
    obtain ⟨rfl, rfl⟩ := Event.returned.inj heq
    have hmode := hresult.1 jobType job rfl rfl hid
    exact (hinv.token i).mp (by simp [hmode, Mode.Carries])
  · rintro ⟨jobType, job, a', heq, hid⟩
    obtain ⟨rfl, rfl⟩ := Event.returned.inj heq
    exact (hinv.token i).mp (hresult.2 jobType job rfl hid)

/-- A finished call keeps the invariant: it hands its token to a worker or drops it. -/
theorem OneToken.finish (hinv : OneToken x place modes w) {a : Outcome}
    (hthread : w.threads i = some ⟨op, .ret a, failed⟩) :
    ∃ place' modes', OneToken x place' modes'
      ⟨w.store.done op a, w.setThread i none, .returned op a :: w.log⟩ := by
  classical
  have hplaces := hinv.place_of_result hthread
  have hother : ∀ j, j ≠ i → Function.update modes i .free j = modes j :=
    fun j hj => Function.update_of_ne hj _ modes
  -- The token at the call goes to the worker or is dropped, elsewhere it stays.
  obtain ⟨place', hplace', hheld⟩ : ∃ place' : Place,
      (if place = .call i then place' = .held ∨ place' = .gone else place' = place) ∧
        (place' = .held ↔ Hands x (.returned op a) ∨ place = .held) := by
    by_cases hcall : place = .call i
    · by_cases hhands : Hands x (.returned op a)
      · exact ⟨.held, by simp [hcall], by simp [hhands]⟩
      · exact ⟨.gone, by simp [hcall], by simp [hhands, hcall]⟩
    · refine ⟨place, by simp [hcall], ?_⟩
      have hhands : ¬Hands x (.returned op a) := fun hhands => hcall (hplaces.1 hhands)
      simp [hhands]
  have hcases : (place = .call i ∧ (place' = .held ∨ place' = .gone)) ∨
      (place ≠ .call i ∧ place' = place) := by
    split_ifs at hplace' with hcall
    · exact Or.inl ⟨hcall, hplace'⟩
    · exact Or.inr ⟨hcall, hplace'⟩
  refine ⟨place', Function.update modes i .free, ?_⟩
  constructor
  case keyed => simpa using hinv.keyed
  case disc =>
    refine World.forall_setThread (P := fun j t =>
      Disc x t.op (Result x t.op) (Function.update modes i .free j) t.prog) ?_ (by simp)
    intro j hj u hu
    rw [hother j hj]
    exact hinv.disc j u hu
  case idle =>
    intro j hj
    by_cases hji : j = i
    · subst hji
      simp
    · rw [hother j hji]
      exact hinv.idle j (by rw [← hj]; exact (w.setThread_of_ne _ hji).symm)
  case token =>
    intro j
    by_cases hji : j = i
    · subst hji
      rw [Function.update_self]
      rcases hcases with ⟨_, rfl | rfl⟩ | ⟨hcall, rfl⟩
      · simp [Mode.Carries]
      · simp [Mode.Carries]
      · simp [Mode.Carries, hcall]
    · rw [hother j hji, hinv.token j]
      rcases hcases with ⟨rfl, rfl | rfl⟩ | ⟨_, rfl⟩
      · simp [Ne.symm hji]
      · simp [Ne.symm hji]
      · exact Iff.rfl
  case listed =>
    intro j type hj
    by_cases hji : j = i
    · subst hji
      simp at hj
    · rw [hother j hji] at hj
      simpa using hinv.listed j type hj
  case heldListed =>
    intro e he hid
    rw [done_db]
    rcases mem_held_done he with he | ⟨rfl, rfl⟩
    · exact hinv.heldListed e he hid
    · have hresult : Result x (.dequeue e.1) (modes i) (.job (some e.2)) :=
        hinv.disc i _ hthread
      exact hinv.listed i e.1 (hresult.1 e.1 e.2 rfl rfl hid)
  case window =>
    rintro j ⟨hmode, op', type, k', failed', hj⟩
    by_cases hji : j = i
    · subst hji
      simp at hmode
    · rw [hother j hji] at hmode
      obtain ⟨type', hpending⟩ := hinv.window j ⟨hmode, op', type, k', failed', by
        rw [← hj]
        exact (w.setThread_of_ne _ hji).symm⟩
      rcases hcases with ⟨hcall, _⟩ | ⟨_, rfl⟩
      · simp [hcall] at hpending
      · exact ⟨type', hpending⟩
  case pending =>
    intro type
    have hcount := hinv.pending type
    rw [done_db]
    rcases hcases with ⟨rfl, rfl | rfl⟩ | ⟨_, rfl⟩
    · simpa using hcount
    · simpa using hcount
    · exact hcount
  case held =>
    have hcount := hinv.held
    rcases count_held_done x w.store op a with
      ⟨hhands, hdone⟩ | ⟨hhands, hdone⟩
    · have hcall := hplaces.1 hhands
      rw [if_pos (hheld.mpr (Or.inl hhands)), hdone, hcount, if_neg (by simp [hcall])]
    · rw [hdone, hcount]
      simp only [hheld, hhands, false_or]
  case born =>
    intro hplace
    rw [done_db]
    rcases hcases with ⟨hcall, _⟩ | ⟨_, rfl⟩
    · exact hinv.born (by simp [hcall])
    · exact hinv.born hplace
  case completed =>
    rintro ⟨e, he, hcompletes⟩
    rcases List.mem_cons.mp he with rfl | he
    · have hcall := hplaces.2 hcompletes
      obtain ⟨_, _, _, heq, _⟩ := hcompletes
      obtain ⟨rfl, rfl⟩ := Event.returned.inj heq
      rcases hcases with ⟨_, rfl | rfl⟩ | ⟨hne, _⟩
      · rcases hheld.mp rfl with ⟨_, _, heq, _⟩ | hplace
        · simp at heq
        · simp [hcall] at hplace
      · rfl
      · exact absurd hcall hne
    · have hgone := hinv.completed ⟨e, he, hcompletes⟩
      rcases hcases with ⟨hcall, _⟩ | ⟨_, rfl⟩
      · simp [hcall] at hgone
      · exact hgone
  case order =>
    refine List.pairwise_cons.mpr ⟨?_, hinv.order⟩
    intro e he hcompletes hhands
    have hgone := hinv.completed ⟨e, he, hcompletes⟩
    simp [hplaces.1 hhands] at hgone

/-- Passing time keeps the invariant. -/
theorem OneToken.env (hinv : OneToken x place modes w) {s : State}
    (henv : Env false w.store s) : OneToken x place modes ⟨s, w.threads, w.log⟩ := by
  cases henv with
  | tick hlater => exact { hinv with }
  | die hmortal entry => simp at hmortal

/-- The steps keep the invariant. -/
theorem OneToken.step (hinv : OneToken x place modes w) {cfg : Config} {l : Label Op}
    {w' : QueueWorld} (hholding : Holding x w l)
    (hstep : (queueSystem cfg false).Step w l w') :
    ∃ place' modes', OneToken x place' modes' w' := by
  obtain ⟨hundisturbed, horderly⟩ := hholding
  cases hstep with
  | start hfree henabled => exact hinv.start hfree henabled hundisturbed
  | exec hthread _ => exact hinv.exec hthread (horderly _ _ _ _ _ rfl hthread)
  | fail _ _ => exact hundisturbed.elim
  | stop _ => exact hundisturbed.elim
  | finish hthread => exact hinv.finish hthread
  | env henv => exact ⟨place, modes, hinv.env henv⟩

/-- The invariant holds in every run of such steps. -/
theorem oneToken_of_run {cfg : Config}
    (hrun : Run (queueSystem cfg false).Step (Holding x) start w) :
    ∃ place modes, OneToken x place modes w :=
  hrun.invariant (I := fun w => ∃ place modes, OneToken x place modes w)
    ⟨_, _, oneToken_start x⟩ fun _ _ _ ⟨_, _, hinv⟩ hholding hstep => hinv.step hholding hstep

/-- In every run in which recovery does not list the job and no {lit}`Dequeue` takes it
between the push and the removal of a put-back, a held job has one holder, is in the
processing set and in no pending list, and no {lit}`Dequeue` returns the job after a
{lit}`Complete` of it has returned. -/
theorem oneHolder_of_run {cfg : Config}
    (hrun : Run (queueSystem cfg false).Step (Holding x) start w) :
    (∀ e ∈ w.store.held, e.2.id = x →
      (w.store.held.map fun e => e.2.id).count x = 1 ∧
        x ∈ (w.store.db.zsets (.processing e.1)).keys ∧
        ∀ type, x ∉ w.store.db.lists (.pending type)) ∧
      w.log.Pairwise fun later earlier => Completes x earlier → ¬Hands x later := by
  obtain ⟨place, modes, hinv⟩ := oneToken_of_run hrun
  refine ⟨fun e he hid => ?_, hinv.order⟩
  have hplace := hinv.place_of_held he hid
  refine ⟨?_, hinv.heldListed e he hid, fun type hpending => ?_⟩
  · rw [hinv.held, if_pos hplace]
  · simp [hinv.place_of_mem hpending] at hplace

end Preservation

/-! ## One job, held once and twice -/

/-- The first job is enqueued and dequeued. -/
def holdLabels : List (Label Op) :=
  enqueueLabels ++ [.start 0 (.dequeue "diff".toList), .exec 0, .exec 0, .exec 0, .exec 0,
    .exec 0, .exec 0, .finish 0]

/-- The recovery of the first job and one more {lit}`Dequeue`. -/
def recoverLabels : List (Label Op) :=
  [.start 0 (.recoverStuckJobs "diff".toList), .exec 0, .exec 0, .exec 0, .exec 0, .exec 0,
    .exec 0, .exec 0, .finish 0, .start 0 (.dequeue "diff".toList), .exec 0, .exec 0, .exec 0,
    .exec 0, .exec 0, .exec 0, .finish 0]

/-- The steps of workers that nothing disturbs. -/
def isPlain (_ : QueueWorld) : Label Op → Bool
  | .stop _ | .fail _ => false
  | .start _ (.requeueDead ..) | .start _ (.requeueAllDead ..) => false
  | _ => true

/-- The steps of workers that nothing disturbs, without listing old jobs. -/
def isQuick (w : QueueWorld) (l : Label Op) : Bool :=
  isPlain w l &&
    match l with
    | .exec i =>
        match w.threads i with
        | some ⟨_, .cmd (.zrangeByScore ..) _, _⟩ => false
        | _ => true
    | _ => true

theorem undisturbed_of_isPlain (w : QueueWorld) (l : Label Op) (hplain : isPlain w l = true) :
    Undisturbed l := by
  cases l with
  | start i op => cases op <;> simp_all [isPlain, Undisturbed, Op.OfWorkers]
  | stop i => simp [isPlain] at hplain
  | fail i => simp [isPlain] at hplain
  | _ => trivial

/-- While only one call is in progress such steps leave every job to its holder. -/
theorem holding_of_isQuick {x : GoString} (w : QueueWorld) (l : Label Op)
    (halone : ∀ j ≠ 0, w.threads j = none) (hquick : isQuick w l = true) : Holding x w l := by
  obtain ⟨hplain, hcommand⟩ := Bool.and_eq_true_iff.mp hquick
  refine ⟨undisturbed_of_isPlain w l hplain, ?_⟩
  rintro i op c k failed rfl hthread
  cases c with
  | lmove source destination =>
      intro _ j jobType job type k' failed' hj
      obtain rfl : j = 0 := by
        by_contra hne
        simp [halone j hne] at hj
      obtain rfl : i = 0 := by
        by_contra hne
        simp [halone i hne] at hthread
      simp [hthread] at hj
  | zrangeByScore key stop => simp [hthread] at hcommand
  | _ => trivial

/-- An undisturbed {lit}`Dequeue` leaves its job with one holder. -/
theorem oneHolder_of_run_dequeue :
    ∃ w, Run (queueSystem defaultConfig false).Step (Holding firstDiffJob.2) start w ∧
      ∃ e ∈ w.store.held, e.2.id = firstDiffJob.2 ∧
        (w.store.held.map fun e => e.2.id).count firstDiffJob.2 = 1 ∧
        firstDiffJob.2 ∈ (w.store.db.zsets (.processing e.1)).keys ∧
        ∀ type, firstDiffJob.2 ∉ w.store.db.lists (.pending type) := by
  obtain ⟨w, hsteps, htest⟩ := System.exists_of_steps? (queueSystem defaultConfig false) isQuick
    start holdLabels (fun w => w.store.held.any fun e => e.2.id = firstDiffJob.2)
    (by decide +kernel)
  have hrun : Run (queueSystem defaultConfig false).Step (Holding firstDiffJob.2) start w :=
    System.run_of_steps?_alone holding_of_isQuick (by decide) (fun _ _ => rfl) hsteps
  obtain ⟨e, he, hid⟩ := List.any_eq_true.mp htest
  have hid := of_decide_eq_true hid
  exact ⟨w, hrun, e, he, hid, (oneHolder_of_run hrun).1 e he hid⟩

/-- The state when the lock timeout has passed. -/
def afterTimeout (w : QueueWorld) : QueueWorld :=
  ⟨{ w.store with now := 601 }, w.threads, w.log⟩

/-- A job that its worker holds for longer than the lock timeout is handed to a second
worker. -/
theorem two_holders_after_timeout :
    ∃ w, Run (queueSystem defaultConfig false).Step (fun _ => Undisturbed) start w ∧
      (w.store.held.map fun e => e.2.id).count firstDiffJob.2 = 2 := by
  obtain ⟨w, hsteps, htest⟩ := System.exists_of_steps? (queueSystem defaultConfig false) isPlain
    start holdLabels
    (fun w => decide (w.store.now ≤ 601) &&
      ((queueSystem defaultConfig false).steps? isPlain (afterTimeout w) recoverLabels).any
        fun w => (w.store.held.map fun e => e.2.id).count firstDiffJob.2 = 2)
    (by decide +kernel)
  obtain ⟨hlater, hsecond⟩ := Bool.and_eq_true_iff.mp htest
  obtain ⟨w', hrest, hcount⟩ := System.exists_of_steps? _ _ _ _ _ hsecond
  have htick : (queueSystem defaultConfig false).Step w .env (afterTimeout w) :=
    .env (.tick (of_decide_eq_true hlater))
  exact ⟨w', ((System.run_of_steps? undisturbed_of_isPlain hsteps).snoc htick trivial).trans
    (System.run_of_steps? undisturbed_of_isPlain hrest), of_decide_eq_true hcount⟩

end Queue
end Veilence
