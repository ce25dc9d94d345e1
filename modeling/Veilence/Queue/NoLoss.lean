import Veilence.Foundation.Custody
import Veilence.Queue.Calls

/-!
# When a queued job is lost

The calls of the queue move job IDs between the containers of a job type with one
command to take an ID out and another to put it back.  The custody rule says what that
is worth: an ID that was pushed and not completed stays in a container or is owed by a
call.  Two things can break it: a call that stops, or whose commands begin to fail,
while it is the only one that has the ID; and the last command of a put-back, which
removes the ID from the processing set after another worker may have taken it again
from the pending list.

Main results:

- Theorem {lit}`guarded_bodyOf`: every command that takes an ID is followed by commands
  that put it back, except in {lit}`Complete` and at the end of the put-back.
- Theorem {lit}`covered_of_run`: in a run without these two steps every live job is
  covered.
- Theorem {lit}`inContainer_of_run`: so it is in a container when no call is in progress.
- Theorem {lit}`job_lost_by_stop`: a stopped {lit}`Dequeue` loses its job.
-/

namespace Veilence
namespace Queue

open Go Foundation

/-! ## The custody of job IDs -/

/-- What a call relies on while it moves an ID: its record can be read. -/
def Usable (x : Item) : (c : Command) → Reply c → Prop
  | .get id, r => id = x.2 → ∃ job, r = some job ∧ job.id = id
  | _, _ => True

/-- The custody of job IDs in the containers of the queue. -/
def custody (cfg : Config) : Custody (queueSystem cfg true) Item where
  secured s x := InContainer s.db x
  adds := Adds
  takes := Takes
  sound := Sound
  usable := Usable
  settles _ _ _ := False
  secured_of_adds := inContainer_run_of_adds
  secured_or_takes := inContainer_run_or_takes
  fallible_of_takes := by
    intro c r x htakes
    cases c with
    | time => exact absurd htakes id
    | _ => rfl

/-- The commands that take an ID for good: the removal from the processing set in
{lit}`Complete` and at the end of the put-back. -/
def excused : Op → Command → Prop
  | .complete .., .zrem (.processing _) _ => True
  | .putBack .., .zrem (.processing _) _ => True
  | _, _ => False

section Bodies

variable {cfg : Config} {exc : Command → Prop} {x : Item} {α : Type} {settled : α → Prop}
  {ends : Outcome → Prop}

/-- A command that takes nothing leaves the guard to what follows. -/
theorem guarded_send {c : Command} {f : Option (Reply c) → Body α}
    (hc : ∀ r, ¬Takes c r x) (hf : ∀ r, (custody cfg).Guarded exc settled x (f r)) :
    (custody cfg).Guarded exc settled x (send c >>= f) :=
  ⟨fun r _ => ⟨fun htakes => absurd htakes (hc r), hf (some r)⟩, hf none⟩

/-- A command that takes the ID must be followed by the payment of the debt. -/
theorem guarded_taking {c : Command} {f : Option (Reply c) → Body α}
    (hc : ∀ r, Takes c r x → (custody cfg).Owes settled x (f (some r)))
    (hf : ∀ r, (custody cfg).Guarded exc settled x (f r)) :
    (custody cfg).Guarded exc settled x (send c >>= f) :=
  ⟨fun r _ => ⟨fun htakes => Or.inr (hc r htakes), hf (some r)⟩, hf none⟩

theorem guarded_clock {f : Int → Body α}
    (hf : ∀ now, (custody cfg).Guarded exc settled x (f now)) :
    (custody cfg).Guarded exc settled x (clock >>= f) :=
  ⟨fun r _ => ⟨fun htakes => absurd htakes id, hf r⟩, hf 0⟩

theorem guarded_saveJob {job : Job} {f : Bool → Body α}
    (hf : ∀ ok, (custody cfg).Guarded exc settled x (f ok)) :
    (custody cfg).Guarded exc settled x (saveJob job >>= f) :=
  ⟨fun _ _ => ⟨fun htakes => absurd htakes id, hf true⟩, hf false⟩

theorem guarded_loadJob {id : GoString} {f : Option Job → Body α}
    (hnone : (custody cfg).Guarded exc settled x (f none))
    (hsome : ∀ job, job.id = id → (custody cfg).Guarded exc settled x (f (some job))) :
    (custody cfg).Guarded exc settled x (loadJob id >>= f) := by
  refine ⟨?_, hnone⟩
  rintro (_ | job) hsound
  · exact ⟨fun htakes => htakes.elim, hnone⟩
  · exact ⟨fun htakes => htakes.elim, hsome job (hsound job rfl)⟩

/-- Commands that only have to succeed leave the debt to what follows. -/
theorem owes_send {c : Command} {f : Option (Reply c) → Body α}
    (hf : ∀ r, Usable x c r → (custody cfg).Owes settled x (f (some r))) :
    (custody cfg).Owes settled x (send c >>= f) :=
  Or.inr hf

/-- A command that adds the ID pays the debt. -/
theorem owes_of_adds {c : Command} {f : Option (Reply c) → Body α} (hc : Adds c x) :
    (custody cfg).Owes settled x (send c >>= f) :=
  Or.inl hc

theorem owes_clock {f : Int → Body α}
    (hf : ∀ now, (custody cfg).Owes settled x (f now)) :
    (custody cfg).Owes settled x (clock >>= f) :=
  Or.inr fun r _ => hf r

theorem owes_saveJob {job : Job} {f : Bool → Body α}
    (hf : (custody cfg).Owes settled x (f true)) :
    (custody cfg).Owes settled x (saveJob job >>= f) :=
  Or.inr fun _ _ => hf

theorem owes_loadJob {f : Option Job → Body α}
    (hf : ∀ job, job.id = x.2 → (custody cfg).Owes settled x (f (some job))) :
    (custody cfg).Owes settled x (loadJob x.2 >>= f) := by
  refine Or.inr fun r hr => ?_
  obtain ⟨job, rfl, hid⟩ := hr rfl
  exact hf job hid

/-! ## Every body is guarded -/

theorem guarded_enqueue (jobType workspaceID referenceID : GoString)
    (metadata : List (GoString × GoString)) :
    (custody cfg).Guarded exc ends x (enqueue cfg jobType workspaceID referenceID metadata) := by
  refine guarded_send (fun _ => id) ?_
  rintro (_ | n)
  · trivial
  · refine guarded_clock fun now => ?_
    refine guarded_send (fun _ => id) fun _ => ?_
    refine guarded_send (fun _ => id) fun _ => ?_
    exact guarded_send (fun _ => id) fun _ => trivial

/-- {lit}`Dequeue` takes an ID from the pending list and then owes it until it is in the
processing set. -/
theorem guarded_dequeue (jobType : GoString) :
    (custody cfg).Guarded exc ends x (dequeue jobType) := by
  refine guarded_taking ?_ ?_
  · rintro r ⟨hkey, rfl⟩
    refine owes_send fun _ _ => ?_
    refine owes_loadJob fun job hid => ?_
    refine owes_clock fun now => ?_
    refine owes_saveJob ?_
    exact owes_of_adds ⟨Or.inl (by simpa using hkey), hid⟩
  · rintro (_ | _ | jobID)
    · trivial
    · trivial
    · refine guarded_send (fun _ h => absurd h.1 (by simp)) fun _ => ?_
      refine guarded_loadJob trivial fun job _ => ?_
      refine guarded_clock fun now => ?_
      refine guarded_saveJob ?_
      rintro (_ | _)
      · trivial
      · exact guarded_send (fun _ => id) fun _ => trivial

/-- {lit}`Complete` takes its job for good. -/
theorem guarded_complete (jobType : GoString) (job : Job) :
    (custody cfg).Guarded (excused (.complete jobType job)) ends x (complete job) := by
  refine guarded_clock fun now => ?_
  refine guarded_send (fun _ => id) fun _ => ?_
  refine ⟨fun _ _ => ⟨fun _ => Or.inl trivial, ?_⟩, ?_⟩
  all_goals
    refine guarded_send (fun _ => id) fun _ => ?_
    exact guarded_send (fun _ => id) fun _ => trivial

/-- {lit}`Fail` takes its job from the processing set and then owes it until it is in
the dead set or the pending list. -/
theorem guarded_fail (job : Job) (jobErr : GoString) :
    (custody cfg).Guarded exc ends x (fail job jobErr) := by
  refine guarded_clock fun now => guarded_taking ?_ fun _ => ?_
  · rintro r ⟨hkey, hid⟩
    have htype : job.type = x.1 := by simpa using hkey
    dsimp only
    split_ifs
    · exact owes_saveJob (owes_of_adds ⟨Or.inr (by rw [← htype]), hid⟩)
    · refine owes_clock fun now => ?_
      exact owes_saveJob (owes_of_adds ⟨by rw [← htype], hid⟩)
  · dsimp only
    split_ifs
    · refine guarded_saveJob ?_
      rintro (_ | _)
      · trivial
      · refine guarded_send (fun _ => id) fun _ => ?_
        exact guarded_send (fun _ => id) fun _ => trivial
    · refine guarded_clock fun now => guarded_saveJob ?_
      rintro (_ | _)
      · trivial
      · exact guarded_send (fun _ => id) fun _ => trivial

/-- The put-back pushes its job before it takes it from the processing set. -/
theorem guarded_putBack (jobType : GoString) (job : Job) :
    (custody cfg).Guarded (excused (.putBack jobType job)) ends x (putBack jobType job) := by
  refine guarded_saveJob fun _ => ?_
  refine guarded_send (fun _ => id) fun _ => ?_
  exact ⟨fun _ _ => ⟨fun _ => Or.inl trivial, trivial⟩, trivial⟩

/-- One turn of the recovery takes a job from the processing set and then owes it. -/
theorem guarded_recoverJob (jobType jobID : GoString) :
    (custody cfg).Guarded exc (fun _ => False) x (recoverJob jobType jobID) := by
  refine guarded_loadJob trivial fun job hid => guarded_taking ?_ fun _ => ?_
  · rintro r ⟨hkey, hjob⟩
    have htype : jobType = x.1 := by simpa using hkey
    refine owes_clock fun now => ?_
    split_ifs
    · exact owes_saveJob (owes_of_adds ⟨Or.inr (by rw [htype]), hid.trans hjob⟩)
    · exact owes_saveJob (owes_of_adds ⟨by rw [htype], hjob⟩)
  · refine guarded_clock fun now => ?_
    split_ifs
    · refine guarded_saveJob fun _ => ?_
      exact guarded_send (fun _ => id) fun _ => trivial
    · refine guarded_saveJob fun _ => ?_
      exact guarded_send (fun _ => id) fun _ => trivial

theorem guarded_recoverLoop (jobType : GoString) (recovered : Nat)
    (stuckIDs : List GoString) :
    (custody cfg).Guarded exc ends x (recoverLoop jobType recovered stuckIDs) := by
  induction stuckIDs generalizing recovered with
  | nil => trivial
  | cons jobID stuckIDs ih =>
      refine (guarded_recoverJob jobType jobID).bind ?_ fun _ hnot => hnot.elim
      rintro (_ | _)
      · exact ih recovered
      · exact ih (recovered + 1)

theorem guarded_recoverStuckJobs (jobType : GoString) :
    (custody cfg).Guarded exc ends x (recoverStuckJobs cfg jobType) := by
  refine guarded_clock fun now => guarded_send (fun _ => id) ?_
  rintro (_ | stuckIDs)
  · trivial
  · exact guarded_recoverLoop jobType 0 stuckIDs

/-- {lit}`RequeueDead` takes a job from the dead set and pushes it next. -/
theorem guarded_requeueDead (jobType jobID : GoString) :
    (custody cfg).Guarded exc ends x (requeueDead jobType jobID) := by
  refine guarded_loadJob trivial fun job hid => ?_
  dsimp only
  split_ifs
  · trivial
  · refine guarded_clock fun now => guarded_clock fun later => guarded_saveJob ?_
    rintro (_ | _)
    · trivial
    · refine guarded_taking ?_ fun _ => ?_
      · rintro r ⟨hkey, hjob⟩
        have htype : jobType = x.1 := by simpa using hkey
        exact owes_of_adds ⟨by rw [htype], hjob⟩
      · exact guarded_send (fun _ => id) fun _ => trivial

theorem guarded_requeueLoop (jobType : GoString) (count : Nat) (deadIDs : List GoString) :
    (custody cfg).Guarded exc ends x (requeueLoop jobType count deadIDs) := by
  induction deadIDs generalizing count with
  | nil => trivial
  | cons jobID deadIDs ih =>
      have hturn : (custody cfg).Guarded exc (fun _ => False) x (requeueDead jobType jobID) :=
        guarded_requeueDead jobType jobID
      refine hturn.bind ?_ fun _ hnot => hnot.elim
      rintro (_ | _ | _ | _ | _)
      · exact ih count
      all_goals exact ih (count + 1)

theorem guarded_requeueAllDead (jobType : GoString) :
    (custody cfg).Guarded exc ends x (requeueAllDead jobType) := by
  refine guarded_send (fun _ => id) ?_
  rintro (_ | deadIDs)
  · trivial
  · exact guarded_requeueLoop jobType 0 deadIDs

/-- Every command that takes an ID is followed by commands that put it back, or it is
excused. -/
theorem guarded_bodyOf (op : Op) :
    (custody cfg).Guarded (excused op) ends x (bodyOf cfg op) := by
  cases op with
  | enqueue jobType workspaceID referenceID metadata => exact guarded_enqueue _ _ _ _
  | dequeue jobType => exact guarded_dequeue jobType
  | complete jobType job => exact guarded_complete jobType job
  | fail jobType job jobErr => exact guarded_fail job jobErr
  | putBack jobType job => exact guarded_putBack jobType job
  | recoverStuckJobs jobType => exact guarded_recoverStuckJobs jobType
  | requeueDead jobType jobID => exact guarded_requeueDead jobType jobID
  | requeueAllDead jobType => exact guarded_requeueAllDead jobType

end Bodies

/-! ## Pushed and completed jobs -/

/-- {lit}`Enqueue` has pushed the ID. -/
def Pushed (w : QueueWorld) (x : Item) : Prop :=
  ∃ jobType workspaceID referenceID metadata,
    Event.ran (.enqueue jobType workspaceID referenceID metadata)
      (.lpush (.pending x.1) x.2) ∈ w.log

/-- {lit}`Complete` has removed the ID from the processing set. -/
def Completed (w : QueueWorld) (x : Item) : Prop :=
  ∃ jobType job, Event.ran (.complete jobType job) (.zrem (.processing x.1) x.2) ∈ w.log

/-- The ID was pushed and not completed. -/
def Live (w : QueueWorld) (x : Item) : Prop :=
  Pushed w x ∧ ¬Completed w x

/-- The steps that lose no job: a call stops, or has a command fail, only while each live
job that it owes is in a container or owed by another call; and the put-back removes its
job from the processing set only while that job is still in the pending list, is in the
dead set, or is owed by another call. -/
def Safe (cfg : Config) (w : QueueWorld) : Label Op → Prop
  | .stop i | .fail i => ∀ x t, Live w x → w.threads i = some t →
      (custody cfg).OwesThread x t → (custody cfg).CoveredBut w i x
  | .exec i => ∀ jobType job type id k failed,
      w.threads i = some ⟨.putBack jobType job, .cmd (.zrem (.processing type) id) k, failed⟩ →
        Live w (type, id) →
          id ∈ w.store.db.lists (.pending type) ∨
            id ∈ (w.store.db.zsets (.dead type)).keys ∨
              ∃ j ≠ i, ∃ u, w.threads j = some u ∧ (custody cfg).OwesThread (type, id) u
  | _ => True

/-! ## Enqueue saves the record first -/

/-- As long as nothing fails, a body pushes an ID only after its record is known. -/
def Recording {α : Type} (known : GoString → Prop) : Body α → Prop
  | .ret _ => True
  | .cmd c k =>
      (∀ type id, c = .lpush (.pending type) id → known id) ∧
        ∀ r, Recording (fun id => known id ∨ ∃ job ttl, c = .set job ttl ∧ job.id = id)
          (k (some r))

/-- Knowing more records keeps a body recording. -/
theorem Recording.mono {α : Type} {known known' : GoString → Prop} {p : Body α}
    (hp : Recording known p) (hknown : ∀ id, known id → known' id) : Recording known' p := by
  induction p generalizing known known' with
  | ret a => trivial
  | cmd c k ih =>
      refine ⟨fun type id hc => hknown id (hp.1 type id hc), fun r => ?_⟩
      exact ih (some r) (hp.2 r) fun id => Or.imp_left (hknown id)

theorem recording_enqueue (cfg : Config) (known : GoString → Prop)
    (jobType workspaceID referenceID : GoString) (metadata : List (GoString × GoString)) :
    Recording known (enqueue cfg jobType workspaceID referenceID metadata) := by
  refine ⟨by simp, fun n => ?_⟩
  refine ⟨by simp, fun now => ?_⟩
  refine ⟨by simp, fun _ => ?_⟩
  refine ⟨?_, fun _ => ⟨by simp, fun _ => trivial⟩⟩
  intro type id hc
  cases hc
  exact Or.inr ⟨_, _, rfl, rfl⟩

/-! ## The invariant -/

/-- What holds in every state of a run of safe steps. -/
structure Inv (cfg : Config) (w : QueueWorld) : Prop where
  keyed : Keyed w.store.db
  guarded : ∀ i t, w.threads i = some t → ∀ x,
    (custody cfg).Guarded (excused t.op) (fun _ => False) x t.prog
  recording : ∀ i t, w.threads i = some t →
    (∃ jobType workspaceID referenceID metadata,
      t.op = .enqueue jobType workspaceID referenceID metadata) → t.failed = false →
    Recording (Recorded w.store.db) t.prog
  recorded : ∀ x, Pushed w x → Recorded w.store.db x.2
  covered : ∀ x, Live w x → (custody cfg).Covered w x

/-- The invariant holds before the first call. -/
theorem inv_start (cfg : Config) : Inv cfg start where
  keyed := by
    intro id job hget
    simp [start, World.initial, State.initial, Redis.empty] at hget
  guarded := by simp [start, World.initial]
  recording := by simp [start, World.initial]
  recorded := by simp [start, World.initial, Pushed]
  covered := by simp [start, World.initial, Live, Pushed]

section Preservation

variable {cfg : Config} {w : QueueWorld} {i : Nat}

/-- A started call keeps the invariant. -/
theorem Inv.start {op : Op} (hinv : Inv cfg w) (hfree : w.threads i = none) :
    Inv cfg ⟨w.store.begin op, w.setThread i (some ⟨op, bodyOf cfg op, false⟩), w.log⟩ where
  keyed := by simpa using hinv.keyed
  guarded := by
    refine World.forall_setThread (fun j _ => hinv.guarded j) ?_
    rintro u ⟨⟩ x
    exact guarded_bodyOf op
  recording := by
    simp only [begin_db]
    refine World.forall_setThread (fun j _ => hinv.recording j) ?_
    rintro u ⟨⟩ ⟨jobType, workspaceID, referenceID, metadata, rfl⟩ _
    exact recording_enqueue cfg _ _ _ _ _
  recorded := by simpa [Pushed] using hinv.recorded
  covered := by
    intro x hx
    refine Custody.covered_start (S := queueSystem cfg true) hfree (hinv.covered x hx) ?_
    intro hsecured
    left
    have hdb : ((queueSystem cfg true).begin w.store op).db = w.store.db := begin_db w.store op
    simpa [custody, hdb] using hsecured

/-- A call that stops, or whose command fails, keeps the invariant when every live job is
covered without it. -/
theorem Inv.withThread {t : Option (Thread Op Command Reply Outcome)} (hinv : Inv cfg w)
    (hguarded : ∀ u, t = some u → ∀ x,
      (custody cfg).Guarded (excused u.op) (fun _ => False) x u.prog)
    (hfailed : ∀ u, t = some u → u.failed = true)
    (hbut : ∀ x, Live w x → (custody cfg).CoveredBut w i x) :
    Inv cfg ⟨w.store, w.setThread i t, w.log⟩ where
  keyed := hinv.keyed
  guarded := World.forall_setThread (fun j _ => hinv.guarded j) hguarded
  recording := by
    refine World.forall_setThread (fun j _ => hinv.recording j) fun u hu _ hlive => ?_
    rw [hfailed u hu] at hlive
    exact absurd hlive (by decide)
  recorded := hinv.recorded
  covered := fun x hx => (hbut x hx).covered Or.inl

/-- The condition on a call that stops is about the jobs that it owes. -/
theorem Inv.coveredBut (hinv : Inv cfg w) (hsafe : Safe cfg w (.stop i)) {x : Item}
    (hx : Live w x) : (custody cfg).CoveredBut w i x := by
  rcases (hinv.covered x hx).owes_or_but i with ⟨t, hthread, howes⟩ | hbut
  · exact hsafe x t hx hthread howes
  · exact hbut

/-- A finished call keeps the invariant. -/
theorem Inv.finish {op : Op} {a : Outcome} {failed : Bool} (hinv : Inv cfg w)
    (hthread : w.threads i = some ⟨op, .ret a, failed⟩) :
    Inv cfg ⟨w.store.done op a, w.setThread i none, .returned op a :: w.log⟩ where
  keyed := by simpa using hinv.keyed
  guarded := World.forall_setThread (fun j _ => hinv.guarded j) (by simp)
  recording := by
    simp only [done_db]
    exact World.forall_setThread (fun j _ => hinv.recording j) (by simp)
  recorded := by simpa [Pushed] using hinv.recorded
  covered := by
    intro x hx
    have hlive : Live w x := by simpa [Live, Pushed, Completed] using hx
    refine Custody.covered_finish (S := queueSystem cfg true) hthread (hinv.covered x hlive)
      (fun hsecured => ?_) (fun hnot => hnot.elim)
    have hdb : ((queueSystem cfg true).done w.store op a).db = w.store.db := done_db w.store op a
    simpa [custody, hdb] using hsecured

/-- Time and dying workers keep the invariant. -/
theorem Inv.env {store : State} (hinv : Inv cfg w) (henv : Env true w.store store) :
    Inv cfg ⟨store, w.threads, w.log⟩ := by
  have hdb := env_db henv
  refine ⟨?_, hinv.guarded, ?_, ?_, ?_⟩
  · simpa [hdb] using hinv.keyed
  · simpa [hdb] using hinv.recording
  · simpa [hdb, Pushed] using hinv.recorded
  · intro x hx
    have hcovered := hinv.covered x hx
    simpa [Custody.Covered, custody, hdb] using hcovered

/-- What a command answers while the record of the ID is there. -/
theorem usable_run {db : Redis} {x : Item} (hkeyed : Keyed db) (hrecorded : Recorded db x.2)
    (now : Int) (c : Command) : Usable x c (db.run now c).2 := by
  cases c with
  | get id =>
      rintro rfl
      exact exists_get?_of_recorded hkeyed hrecorded
  | _ => trivial

/-- Only removals from the processing set are excused. -/
theorem exists_of_excused {op : Op} {c : Command} (hexcused : excused op c) :
    ((∃ jobType job, op = .complete jobType job) ∨ ∃ jobType job, op = .putBack jobType job) ∧
      ∃ type id, c = .zrem (.processing type) id := by
  simp only [excused] at hexcused
  split at hexcused
  · exact ⟨Or.inl ⟨_, _, rfl⟩, _, _, rfl⟩
  · exact ⟨Or.inr ⟨_, _, rfl⟩, _, _, rfl⟩
  · exact hexcused.elim

/-- A command keeps every live job covered. -/
theorem covered_command {op : Op} {c : Command} {k : Option (Reply c) → Body Outcome}
    {failed : Bool} (hinv : Inv cfg w) (hsafe : Safe cfg w (.exec i))
    (hthread : w.threads i = some ⟨op, .cmd c k, failed⟩)
    (hlive : c.fallible = true → failed = false) {x : Item}
    (hx : Live ⟨{ w.store with db := (w.store.db.run w.store.now c).1 },
      w.setThread i (some ⟨op, k (some (w.store.db.run w.store.now c).2), failed⟩),
      .ran op c :: w.log⟩ x) :
    (custody cfg).Covered ⟨{ w.store with db := (w.store.db.run w.store.now c).1 },
      w.setThread i (some ⟨op, k (some (w.store.db.run w.store.now c).2), failed⟩),
      .ran op c :: w.log⟩ x := by
  obtain ⟨⟨jobType, workspaceID, referenceID, metadata, hpushed⟩, hopen⟩ := hx
  rcases List.mem_cons.mp hpushed with hnow | hbefore
  · -- This command pushes the ID.
    obtain ⟨rfl, rfl⟩ := Event.ran.inj hnow
    exact Or.inl (inContainer_run_of_adds ⟨rfl, rfl⟩)
  · have hlivex : Live w x := by
      refine ⟨⟨jobType, workspaceID, referenceID, metadata, hbefore⟩, ?_⟩
      rintro ⟨jobType, job, hdone⟩
      exact hopen ⟨jobType, job, List.mem_cons_of_mem _ hdone⟩
    rcases Custody.covered_exec_guarded (S := queueSystem cfg true) (K := custody cfg) hthread
      (fun _ => hlive) (hinv.guarded i _ hthread x) (hinv.covered x hlivex)
      (sound_run hinv.keyed _ c) (usable_run hinv.keyed (hinv.recorded x hlivex.1) _ c) with
      ⟨hexcused, htakes⟩ | hcovered
    · obtain ⟨hop, type, id, rfl⟩ := exists_of_excused hexcused
      obtain ⟨x1, x2⟩ := x
      obtain ⟨hkey, rfl⟩ := htakes
      obtain rfl : type = x1 := by simpa using hkey
      rcases hop with ⟨_, job, rfl⟩ | ⟨_, job, rfl⟩
      · exact absurd ⟨_, job, List.mem_cons_self⟩ hopen
      · rcases hsafe _ job type id k failed hthread hlivex with
          hpending | hdead | ⟨j, hj, u, hu, howes⟩
        · exact Or.inl (Or.inl hpending)
        · exact Or.inl (Or.inr (Or.inr (by simpa [Redis.run, Redis.setZset] using hdead)))
        · exact Or.inr ⟨j, u, by rw [← hu]; exact w.setThread_of_ne _ hj, howes⟩
    · exact hcovered

/-- A command keeps the invariant. -/
theorem Inv.exec {op : Op} {c : Command} {k : Option (Reply c) → Body Outcome}
    {failed : Bool} (hinv : Inv cfg w) (hsafe : Safe cfg w (.exec i))
    (hthread : w.threads i = some ⟨op, .cmd c k, failed⟩)
    (hlive : c.fallible = true → failed = false) :
    Inv cfg ⟨{ w.store with db := (w.store.db.run w.store.now c).1 },
      w.setThread i (some ⟨op, k (some (w.store.db.run w.store.now c).2), failed⟩),
      .ran op c :: w.log⟩ where
  keyed := keyed_run hinv.keyed c
  guarded := by
    refine World.forall_setThread (fun j _ => hinv.guarded j) ?_
    rintro u ⟨⟩ x
    exact ((hinv.guarded i _ hthread x).1 _ (sound_run hinv.keyed _ c)).2
  recording := by
    refine World.forall_setThread
      (fun j _ u hu hop hfailed => (hinv.recording j u hu hop hfailed).mono fun id hid =>
        recorded_run hid c) ?_
    rintro u ⟨⟩ hop hfailed
    refine ((hinv.recording i _ hthread hop hfailed).2 _).mono ?_
    rintro id (hid | ⟨job, ttl, rfl, rfl⟩)
    · exact recorded_run hid c
    · exact recorded_run_set w.store.now _ job ttl
  recorded := by
    rintro x ⟨jobType, workspaceID, referenceID, metadata, hpushed⟩
    rcases List.mem_cons.mp hpushed with hnow | hbefore
    · obtain ⟨rfl, rfl⟩ := Event.ran.inj hnow
      have hrecording := hinv.recording i _ hthread ⟨_, _, _, _, rfl⟩ (hlive rfl)
      exact recorded_run (hrecording.1 _ _ rfl) _
    · exact recorded_run (hinv.recorded x ⟨_, _, _, _, hbefore⟩) c
  covered := fun _ hx => covered_command hinv hsafe hthread hlive hx

/-- Safe steps keep the invariant. -/
theorem Inv.step {l : Label Op} {w' : QueueWorld} (hinv : Inv cfg w) (hsafe : Safe cfg w l)
    (hstep : (queueSystem cfg true).Step w l w') : Inv cfg w' := by
  cases hstep with
  | start hfree henabled => exact hinv.start hfree
  | exec hthread hlive => exact hinv.exec hsafe hthread (hlive rfl)
  | @fail i op c k failed hthread hfallible =>
      refine hinv.withThread ?_ (by simp) fun x hx => hinv.coveredBut hsafe hx
      rintro u ⟨⟩ x
      exact (hinv.guarded i _ hthread x).2
  | stop hthread =>
      exact hinv.withThread (by simp) (by simp) fun x hx => hinv.coveredBut hsafe hx
  | finish hthread => exact hinv.finish hthread
  | env henv => exact hinv.env henv

/-- In a run of safe steps every live job is in a container or owed by a call. -/
theorem covered_of_run (hrun : Run (queueSystem cfg true).Step (Safe cfg) start w) {x : Item}
    (hx : Live w x) : (custody cfg).Covered w x :=
  (hrun.invariant (inv_start cfg) fun _ _ _ hinv hsafe hstep => hinv.step hsafe hstep).covered
    x hx

/-- In a run of safe steps, whenever no call is in progress every job ID that was pushed
and not completed is in the pending list, the processing set or the dead set of its
type. -/
theorem inContainer_of_run (hrun : Run (queueSystem cfg true).Step (Safe cfg) start w)
    (hquiet : w.Quiescent) {x : Item} (hpushed : Pushed w x) (hopen : ¬Completed w x) :
    InContainer w.store.db x :=
  Custody.secured_of_quiescent (K := custody cfg) (covered_of_run hrun ⟨hpushed, hopen⟩) hquiet

end Preservation

/-! ## One job, kept and lost -/

/-- A {lit}`Dequeue` that stops after its first command. -/
def stoppedDequeueLabels : List (Label Op) :=
  [.start 0 (.dequeue "diff".toList), .exec 0, .stop 0]

/-- The steps of calls that are not put-backs and are not disturbed. -/
def isCalm (w : QueueWorld) : Label Op → Bool
  | .stop _ | .fail _ => false
  | .exec i =>
      match w.threads i with
      | some ⟨.putBack .., _, _⟩ => false
      | _ => true
  | _ => true

/-- Such steps are safe. -/
theorem safe_of_isCalm (w : QueueWorld) (l : Label Op) (hcalm : isCalm w l = true) :
    Safe defaultConfig w l := by
  cases l with
  | exec i =>
      intro jobType job type id k failed hthread
      simp [isCalm, hthread] at hcalm
  | stop i => simp [isCalm] at hcalm
  | fail i => simp [isCalm] at hcalm
  | _ => trivial

/-- No event so far belongs to a {lit}`Complete`. -/
def noComplete (w : QueueWorld) : Bool :=
  w.log.all fun e =>
    match e with
    | .ran (.complete ..) _ => false
    | _ => true

/-- Then no job is completed. -/
theorem not_completed_of_noComplete {w : QueueWorld} (hno : noComplete w = true) (x : Item) :
    ¬Completed w x := by
  rintro ⟨jobType, job, hdone⟩
  have hevent := List.all_eq_true.mp hno _ hdone
  simp at hevent

/-- The command by which the first job is pushed. -/
def firstPush : Event Op Command Outcome :=
  .ran (.enqueue "diff".toList "w".toList "r".toList [])
    (.lpush (.pending firstDiffJob.1) firstDiffJob.2)

/-- An undisturbed {lit}`Enqueue` leaves its job in a container. -/
theorem inContainer_of_run_enqueue :
    ∃ w, Run (queueSystem defaultConfig true).Step (Safe defaultConfig) start w ∧ w.Quiescent ∧
      Pushed w firstDiffJob ∧ ¬Completed w firstDiffJob ∧
      InContainer w.store.db firstDiffJob := by
  obtain ⟨w, hsteps, htest⟩ := System.exists_of_steps? (queueSystem defaultConfig true) isCalm
    start enqueueLabels
    (fun w => decide (firstPush ∈ w.log) && noComplete w && (w.threads 0).isNone)
    (by decide +kernel)
  simp only [Bool.and_eq_true, decide_eq_true_eq] at htest
  have hrun := System.run_of_steps? safe_of_isCalm hsteps
  have hquiet : w.Quiescent := by
    refine System.quiescent_of_steps? hsteps (fun _ => rfl) ?_
    simpa [enqueueLabels, Label.thread] using htest.2
  have hpushed : Pushed w firstDiffJob := ⟨_, _, _, _, htest.1.1⟩
  have hopen := not_completed_of_noComplete htest.1.2 firstDiffJob
  exact ⟨w, hrun, hquiet, hpushed, hopen, inContainer_of_run hrun hquiet hpushed hopen⟩

/-- A {lit}`Dequeue` that stops after its first command loses its job. -/
theorem job_lost_by_stop :
    ∃ w, Run (queueSystem defaultConfig true).Step (fun _ _ => True) start w ∧ w.Quiescent ∧
      Pushed w firstDiffJob ∧ ¬Completed w firstDiffJob ∧
      ¬InContainer w.store.db firstDiffJob := by
  obtain ⟨w, hsteps, htest⟩ := System.exists_of_steps? (queueSystem defaultConfig true)
    (fun _ _ => true) start (enqueueLabels ++ stoppedDequeueLabels)
    (fun w => decide (firstPush ∈ w.log) && noComplete w && (w.threads 0).isNone &&
      !decide (InContainer w.store.db firstDiffJob))
    (by decide +kernel)
  simp only [Bool.and_eq_true, decide_eq_true_eq, Bool.not_eq_true', decide_eq_false_iff_not]
    at htest
  have hquiet : w.Quiescent := by
    refine System.quiescent_of_steps? hsteps (fun _ => rfl) ?_
    simpa [enqueueLabels, stoppedDequeueLabels, Label.thread] using htest.1.2
  exact ⟨w, System.run_of_steps? (fun _ _ _ => trivial) hsteps, hquiet,
    ⟨_, _, _, _, htest.1.1.1⟩, not_completed_of_noComplete htest.1.1.2 firstDiffJob, htest.2⟩

end Queue
end Veilence
