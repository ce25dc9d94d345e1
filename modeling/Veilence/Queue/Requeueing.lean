import Veilence.Queue.Effects
import Veilence.Queue.Representation
import Veilence.Queue.Views

/-!
# Requeueing the dead jobs of a workspace

{lit}`RequeueAllDeadForWorkspace` lists the dead set once and requeues the jobs of the
workspace one by one, each with a check of its own.

Main results:

- Theorem {lit}`Revives.trans`: requeueing some jobs and then others is requeueing all of them.
- Theorem {lit}`revives_requeueWorkspaceLoop`: the loop requeues the jobs of the workspace among
  the listed ones and nothing else.
- Theorem {lit}`requeueAllDeadForWorkspace_revives`: the whole call, and a second call.
- Theorem {lit}`deadRecord_of_run`: what the call needs of the dead set holds in every run of
  calls that do not overlap and meet no error.
-/

namespace Veilence
namespace Queue

open Go Foundation

/-! ## The call -/

/-- The loop of {lit}`RequeueAllDeadForWorkspace`, with the number requeued so far. -/
def requeueWorkspaceLoop (jobType workspaceID : GoString) (count : Nat) :
    List GoString → Body Outcome
  | [] => return .count count
  | jobID :: deadIDs => do
      match ← loadJob jobID with
      | none => requeueWorkspaceLoop jobType workspaceID count deadIDs
      | some job =>
          if job.workspaceID ≠ workspaceID then
            requeueWorkspaceLoop jobType workspaceID count deadIDs
          else
            match ← requeueDead jobType jobID with
            | .failed => requeueWorkspaceLoop jobType workspaceID count deadIDs
            | _ => requeueWorkspaceLoop jobType workspaceID (count + 1) deadIDs

/-- {lit}`RequeueAllDeadForWorkspace`. -/
def requeueAllDeadForWorkspace (jobType workspaceID : GoString) : Body Outcome := do
  match ← send (.zrange (.dead jobType)) with
  | none => return .failed
  | some deadIDs => requeueWorkspaceLoop jobType workspaceID 0 deadIDs

/-! ## What requeueing does -/

/-- The listed jobs leave the dead set of the type and enter its pending list after the jobs
that are there, in the order of the list and with fresh records.  Everything else is as before. -/
structure Revives (jobType : GoString) (ids : List GoString) (db db' : Redis) : Prop where
  idCounter : db'.idCounter = db.idCounter
  stats : db'.stats = db.stats
  pending : db'.lists (.pending jobType) = ids.reverse ++ db.lists (.pending jobType)
  lists : ∀ key, key ≠ .pending jobType → db'.lists key = db.lists key
  dead : db'.zsets (.dead jobType) = (db.zsets (.dead jobType)).filterKeys fun id => id ∉ ids
  zsets : ∀ key, key ≠ .dead jobType → db'.zsets key = db.zsets key
  revived : ∀ id ∈ ids, ∃ job now later, db.jobs.get? id = some job ∧
    db'.jobs.get? id = some (job.revived now later)
  jobs : ∀ id, id ∉ ids → db'.jobs.get? id = db.jobs.get? id

/-- There is a dead record under the ID. -/
def DeadRecord (db : Redis) (id : GoString) : Prop :=
  ∃ job, db.jobs.get? id = some job ∧ job.id = id ∧ job.status = .dead

instance (db : Redis) (id : GoString) : Decidable (DeadRecord db id) :=
  decidable_of_iff ((db.jobs.get? id).any fun job => job.id = id ∧ job.status = .dead) (by
    unfold DeadRecord
    cases db.jobs.get? id <;> simp)

/-- The record under the ID belongs to the workspace. -/
def ownedBy (db : Redis) (workspaceID id : GoString) : Bool :=
  (db.jobs.get? id).any fun job => job.workspaceID = workspaceID

section Requeueing

variable {jobType workspaceID id : GoString} {ids others : List GoString} {db mid db' : Redis}
  {a : Outcome}

/-- Requeueing nothing. -/
theorem Revives.refl (jobType : GoString) (db : Redis) : Revives jobType [] db db where
  idCounter := rfl
  stats := rfl
  pending := rfl
  lists := fun _ _ => rfl
  dead := by simp [Table.filterKeys]
  zsets := fun _ _ => rfl
  revived := by simp
  jobs := fun _ _ => rfl

/-- Requeueing some jobs and then others. -/
theorem Revives.trans (hfirst : Revives jobType ids db mid)
    (hsecond : Revives jobType others mid db') (hdisjoint : ids.Disjoint others) :
    Revives jobType (ids ++ others) db db' where
  idCounter := hsecond.idCounter.trans hfirst.idCounter
  stats := hsecond.stats.trans hfirst.stats
  pending := by
    rw [hsecond.pending, hfirst.pending, List.reverse_append, List.append_assoc]
  lists := fun key hkey => (hsecond.lists key hkey).trans (hfirst.lists key hkey)
  dead := by
    rw [hsecond.dead, hfirst.dead]
    simp only [Table.filterKeys, List.filter_filter, List.mem_append, not_or]
    congr 1
    apply List.filter_congr
    intro e _
    simp [Bool.and_comm]
  zsets := fun key hkey => (hsecond.zsets key hkey).trans (hfirst.zsets key hkey)
  revived := by
    intro id hid
    rcases List.mem_append.mp hid with hmem | hmem
    · obtain ⟨job, now, later, hjob, hnew⟩ := hfirst.revived id hmem
      refine ⟨job, now, later, hjob, ?_⟩
      rw [hsecond.jobs id (hdisjoint hmem), hnew]
    · obtain ⟨job, now, later, hjob, hnew⟩ := hsecond.revived id hmem
      refine ⟨job, now, later, ?_, hnew⟩
      rw [← hjob, hfirst.jobs id fun hmem' => hdisjoint hmem' hmem]
  jobs := by
    intro id hid
    rw [List.mem_append, not_or] at hid
    rw [hsecond.jobs id hid.2, hfirst.jobs id hid.1]

/-- {lit}`RequeueDead` on a dead job. -/
theorem revives_requeueDead (hdead : DeadRecord db id)
    (hrun : Finishes (requeueDead jobType id) db a db') :
    a = .done ∧ Revives jobType [id] db db' := by
  obtain ⟨job, hstored, rfl, hstatus⟩ := hdead
  rw [requeueDead, finishes_loadJob, hstored] at hrun
  dsimp only at hrun
  rw [if_neg (by simp [hstatus]), finishes_clock] at hrun
  obtain ⟨now, hrun⟩ := hrun
  rw [finishes_clock] at hrun
  obtain ⟨later, hrun⟩ := hrun
  rw [finishes_saveJob, finishes_zrem, finishes_lpush, finishes_pure] at hrun
  obtain ⟨rfl, rfl⟩ := hrun
  refine ⟨rfl, ?_⟩
  constructor
  case idCounter => rfl
  case stats => rfl
  case pending => simp
  case lists =>
    intro key hkey
    simp [hkey]
  case dead =>
    simp [Table.erase, Table.filterKeys]
  case zsets =>
    intro key hkey
    simp [hkey]
  case revived =>
    intro id hid
    obtain rfl := List.mem_singleton.mp hid
    exact ⟨job, now, later, hstored, Table.get?_insert_self _ _ _⟩
  case jobs =>
    intro id hid
    exact Table.get?_insert_of_ne (by simpa using hid)

/-- The loop requeues the jobs of the workspace among the listed ones. -/
theorem revives_requeueWorkspaceLoop {n : Nat} (hnodup : ids.Nodup)
    (hdead : ∀ id ∈ ids, DeadRecord db id)
    (hrun : Finishes (requeueWorkspaceLoop jobType workspaceID n ids) db a db') :
    a = .count (n + (ids.filter (ownedBy db workspaceID)).length) ∧
      Revives jobType (ids.filter (ownedBy db workspaceID)) db db' := by
  induction ids generalizing db n with
  | nil =>
      obtain ⟨rfl, rfl⟩ := finishes_pure.mp hrun
      exact ⟨rfl, Revives.refl jobType _⟩
  | cons id ids ih =>
      obtain ⟨hnot, hrest⟩ := List.nodup_cons.mp hnodup
      have hlater : ∀ other ∈ ids, DeadRecord db other :=
        fun other hother => hdead other (List.mem_cons_of_mem id hother)
      obtain ⟨job, hstored, hid, hstatus⟩ := hdead id List.mem_cons_self
      rw [requeueWorkspaceLoop, finishes_loadJob, hstored] at hrun
      dsimp only at hrun
      by_cases howned : job.workspaceID = workspaceID
      · have hmine : ownedBy db workspaceID id = true := by simp [ownedBy, hstored, howned]
        rw [if_neg (not_not.mpr howned), finishes_bind] at hrun
        obtain ⟨result, mid, hfirst, hsecond⟩ := hrun
        obtain ⟨rfl, hrevives⟩ := revives_requeueDead ⟨job, hstored, hid, hstatus⟩ hfirst
        -- The records of the jobs that are still listed are as they were.
        have hsame : ∀ other ∈ ids, mid.jobs.get? other = db.jobs.get? other := by
          intro other hother
          apply hrevives.jobs
          rintro hmem
          exact hnot (List.mem_singleton.mp hmem ▸ hother)
        have hmines : ids.filter (ownedBy mid workspaceID) = ids.filter (ownedBy db workspaceID) := by
          apply List.filter_congr
          intro other hother
          rw [ownedBy, ownedBy, hsame other hother]
        obtain ⟨rfl, hrevives'⟩ := ih hrest
          (fun other hother => by
            rw [DeadRecord, hsame other hother]
            exact hlater other hother) hsecond
        rw [hmines] at hrevives' ⊢
        rw [List.filter_cons_of_pos hmine]
        refine ⟨by rw [List.length_cons, Nat.add_assoc, Nat.add_comm 1], ?_⟩
        apply hrevives.trans hrevives'
        rw [List.singleton_disjoint]
        exact fun hmem => hnot (List.mem_of_mem_filter hmem)
      · have hforeign : ¬ownedBy db workspaceID id = true := by simp [ownedBy, hstored, howned]
        rw [if_pos howned] at hrun
        rw [List.filter_cons_of_neg hforeign]
        exact ih hrest hlater hrun

/-- The loop does nothing when no listed job belongs to the workspace. -/
theorem requeueWorkspaceLoop_of_foreign {n : Nat}
    (hforeign : ∀ id ∈ ids, ownedBy db workspaceID id = false)
    (hrun : Finishes (requeueWorkspaceLoop jobType workspaceID n ids) db a db') :
    a = .count n ∧ db' = db := by
  induction ids with
  | nil => exact finishes_pure.mp hrun
  | cons id ids ih =>
      have hid := hforeign id List.mem_cons_self
      have hlater := ih fun other hother => hforeign other (List.mem_cons_of_mem id hother)
      rw [requeueWorkspaceLoop, finishes_loadJob] at hrun
      cases hstored : db.jobs.get? id with
      | none =>
          rw [hstored] at hrun
          exact hlater hrun
      | some job =>
          have hother : job.workspaceID ≠ workspaceID := by simpa [ownedBy, hstored] using hid
          rw [hstored] at hrun
          dsimp only at hrun
          rw [if_pos hother] at hrun
          exact hlater hrun

/-- The dead jobs of a workspace, in the order of the dead set. -/
def deadOf (db : Redis) (jobType workspaceID : GoString) : List GoString :=
  (rangeOf (db.zsets (.dead jobType))).filter (ownedBy db workspaceID)

/-- The other members of the dead set stay in their order. -/
theorem Revives.rangeOf_dead (hrevives : Revives jobType ids db db') :
    rangeOf (db'.zsets (.dead jobType)) =
      (rangeOf (db.zsets (.dead jobType))).filter fun id => id ∉ ids := by
  rw [hrevives.dead, rangeOf_filterKeys]

/-- After the dead jobs of the workspace have been requeued, none are left. -/
theorem Revives.deadOf_eq (hrevives : Revives jobType (deadOf db jobType workspaceID) db db') :
    deadOf db' jobType workspaceID = [] := by
  rw [deadOf, List.filter_eq_nil_iff, hrevives.rangeOf_dead]
  intro id hid howned
  obtain ⟨hlisted, hleft⟩ := List.mem_filter.mp hid
  have hnot : id ∉ deadOf db jobType workspaceID := of_decide_eq_true hleft
  rw [ownedBy, hrevives.jobs id hnot, ← ownedBy] at howned
  exact hnot (List.mem_filter.mpr ⟨hlisted, howned⟩)

/-- {lit}`RequeueAllDeadForWorkspace` on a queue in which every member of the dead set has a dead
record: it requeues the dead jobs of the workspace and returns their number, and a second call
returns zero and changes nothing. -/
theorem requeueAllDeadForWorkspace_revives (jobType workspaceID : GoString)
    (hdead : ∀ id ∈ (db.zsets (.dead jobType)).keys, DeadRecord db id) :
    (∃ a db', Finishes (requeueAllDeadForWorkspace jobType workspaceID) db a db') ∧
      ∀ a db', Finishes (requeueAllDeadForWorkspace jobType workspaceID) db a db' →
        a = .count (deadOf db jobType workspaceID).length ∧
          Revives jobType (deadOf db jobType workspaceID) db db' ∧
          rangeOf (db'.zsets (.dead jobType)) =
            (rangeOf (db.zsets (.dead jobType))).filter
              (fun id => id ∉ deadOf db jobType workspaceID) ∧
          ∀ b db'', Finishes (requeueAllDeadForWorkspace jobType workspaceID) db' b db'' →
            b = .count 0 ∧ db'' = db' := by
  refine ⟨⟨_, _, finishes_runAlone 0 _ _⟩, ?_⟩
  intro a db' hrun
  rw [requeueAllDeadForWorkspace, finishes_send_of fun _ => rfl] at hrun
  obtain ⟨hcount, hrevives⟩ := revives_requeueWorkspaceLoop (nodup_rangeOf _)
    (fun id hid => hdead id (mem_rangeOf.mp hid)) hrun
  rw [Nat.zero_add] at hcount
  refine ⟨hcount, hrevives, hrevives.rangeOf_dead, ?_⟩
  intro b db'' hagain
  rw [requeueAllDeadForWorkspace, finishes_send_of fun _ => rfl] at hagain
  have hnone : deadOf db' jobType workspaceID = [] := hrevives.deadOf_eq
  refine requeueWorkspaceLoop_of_foreign (fun id hid => ?_) hagain
  have hforeign := List.filter_eq_nil_iff.mp hnone id hid
  simpa using hforeign

end Requeueing

/-- In every run of calls that do not overlap and meet no error, the members of a dead set have
dead records. -/
theorem deadRecord_of_run {cfg : Config} (hmax : 1 ≤ cfg.maxAttempts) {h : History}
    (hrun : Run (History.Call cfg) History.Allowed History.initial h) (jobType : GoString) :
    ∀ id ∈ (h.db.zsets (.dead jobType)).keys, DeadRecord h.db id := by
  have hinv : InStep cfg h := hrun.invariant (inStep_initial cfg)
    fun _ _ _ hinv hallowed hcall => (hinv.step hmax hallowed hcall).1
  intro id hid
  obtain ⟨job, hstored, _, hstatus⟩ := (hinv.filed.dead jobType id).mp hid
  exact ⟨job, hstored, hinv.filed.keyed id job hstored, hstatus⟩

/-! ## Two dead jobs -/

/-- Dead jobs of two workspaces. -/
def deadQueue : Redis :=
  let jobs := [{ waitingJob ['a'] 1 with status := .dead, attempts := 3 },
    { waitingJob ['b'] 2 with status := .dead, attempts := 3 }]
  jobs.foldl (fun db job =>
    ((db.run 0 (.set job 604800)).1.run 0 (.zadd (.dead job.type) job.updatedAt job.id)).1) .empty

/-- One of them is requeued, and the other one stays. -/
theorem requeueAllDeadForWorkspace_revives_one :
    (∀ id ∈ (deadQueue.zsets (.dead "diff".toList)).keys, DeadRecord deadQueue id) ∧
      (runAlone 9 (requeueAllDeadForWorkspace "diff".toList ['a']) deadQueue).1 = .count 1 ∧
      rangeOf ((runAlone 9 (requeueAllDeadForWorkspace "diff".toList ['a']) deadQueue).2.zsets
        (.dead "diff".toList)) = ["2".toList] := by
  have hdead : ∀ id ∈ (deadQueue.zsets (.dead "diff".toList)).keys, DeadRecord deadQueue id := by
    decide +kernel
  obtain ⟨hcount, _, hrange, _⟩ := (requeueAllDeadForWorkspace_revives "diff".toList ['a'] hdead).2
    _ _ (finishes_runAlone 9 _ _)
  refine ⟨hdead, ?_, ?_⟩
  · rw [hcount]
    decide +kernel
  · rw [hrange]
    decide +kernel
end Queue
end Veilence
