import Veilence.Foundation.Selection
import Veilence.Queue.Effects
import Veilence.Queue.Views

/-!
# The order of the pending jobs

{lit}`Enqueue` pushes on the left end of the pending list, {lit}`Dequeue` takes from its
right end, and {lit}`PendingJobs` reads it from the right end page by page.

Main results:

- Theorem {lit}`run_dequeue`: one undisturbed {lit}`Dequeue` takes the last ID of the list.
- Theorem {lit}`dequeues_eq`: successive calls return the jobs of the view in its order.
- Theorem {lit}`pendingPages_eq_dequeues`: the pages of the view up to the first empty one
  are these jobs.
-/

namespace Veilence
namespace Queue

open Go Foundation

/-! ## Successive calls -/

/-- The database under the commands of a call that nothing disturbs, at a clock time. -/
def commands (now : Int) : Machine Redis Command Reply where
  exec := Redis.run now
  fallible := Command.fallible

/-- What successive calls of {lit}`Dequeue` return, one at each of the times. -/
def dequeues (jobType : GoString) : List Int → Redis → List Outcome
  | [], _ => []
  | now :: times, db =>
      ((commands now).run (dequeue jobType) db).2 ::
        dequeues jobType times ((commands now).run (dequeue jobType) db).1

/-- The jobs of the pending list, the oldest first. -/
def pendingOrder (db : Redis) (jobType : GoString) : List Job :=
  View.pending.jobs db jobType

/-- The records of the pending list are live. -/
def PendingLive (db : Redis) (jobType : GoString) : Prop :=
  ∀ id ∈ db.lists (.pending jobType), (db.jobs.get? id).isSome

variable {db : Redis} {jobType : GoString}

/-- A command that succeeds. -/
theorem run_send {α : Type} (now : Int) (c : Command) (f : Option (Reply c) → Body α)
    (db : Redis) :
    (commands now).run (send c >>= f) db =
      (commands now).run (f (some (db.run now c).2)) (db.run now c).1 :=
  rfl

/-- Loading a live record. -/
theorem run_loadJob {id : GoString} {job : Job} (now : Int) (hjob : db.jobs.get? id = some job) :
    (commands now).run (loadJob id) db = (db, some job) := by
  unfold loadJob
  rw [run_send]
  simp only [Redis.run, hjob]
  rfl

/-- One undisturbed {lit}`Dequeue` takes the last ID of the list and marks its job. -/
theorem run_dequeue {ids : List GoString} {id : GoString} {job : Job} (now : Int)
    (hlist : db.lists (.pending jobType) = ids ++ [id]) (hjob : db.jobs.get? id = some job)
    (hid : job.id = id) :
    ((commands now).run (dequeue jobType) db).2 = .job (some (job.taken now)) ∧
      ((commands now).run (dequeue jobType) db).1.lists (.pending jobType) = ids ∧
      ((commands now).run (dequeue jobType) db).1.jobs = db.jobs.insert id (job.taken now) := by
  subst hid
  have hmove : (db.run now (.lmove (.pending jobType) (.temp jobType))).2 = some job.id := by
    rw [reply_lmove, hlist, List.getLast?_concat]
  have hids : (db.run now (.lmove (.pending jobType) (.temp jobType))).1.lists
      (.pending jobType) = ids := by
    rw [lists_lmove LKey.noConfusion, if_pos rfl, hlist, List.dropLast_concat]
  have hjobs : (db.run now (.lmove (.pending jobType) (.temp jobType))).1.jobs = db.jobs := by
    simp only [Redis.run]
    split <;> rfl
  unfold dequeue
  rw [run_send, hmove]
  generalize (db.run now (.lmove (.pending jobType) (.temp jobType))).1 = moved at hids hjobs
  dsimp only
  rw [run_send]
  have hload : ((moved.run now (.lrem (.temp jobType) job.id)).1).jobs.get? job.id = some job := by
    rw [← hjob, ← hjobs]
    rfl
  rw [Machine.run_bind_of (run_loadJob now hload)]
  refine ⟨rfl, ?_, ?_⟩
  · rw [← hids]
    rfl
  · rw [← hjobs]
    rfl

/-- Taking a job changes only what taking it again overwrites. -/
theorem zipWith_taken {jobs jobs' : List Job} (times : List Int)
    (hjobs : jobs.map (·.taken 0) = jobs'.map (·.taken 0)) :
    List.zipWith (fun job now => Outcome.job (some (job.taken now))) jobs times =
      List.zipWith (fun job now => Outcome.job (some (job.taken now))) jobs' times := by
  have hretake : ∀ jobs : List Job,
      List.zipWith (fun job now => Outcome.job (some (job.taken now))) (jobs.map (·.taken 0)) times =
        List.zipWith (fun job now => Outcome.job (some (job.taken now))) jobs times := by
    intro jobs
    rw [List.zipWith_map_left]
    rfl
  rw [← hretake jobs, hjobs, hretake jobs']

/-- Successive calls return the jobs of the view in its order. -/
theorem dequeues_eq {times : List Int} (hkeyed : Keyed db) (hlive : PendingLive db jobType)
    (htimes : times.length = (db.lists (.pending jobType)).length) :
    dequeues jobType times db =
      List.zipWith (fun job now => Outcome.job (some (job.taken now))) (pendingOrder db jobType)
        times := by
  induction times generalizing db with
  | nil => simp [dequeues]
  | cons now times ih =>
      rcases List.eq_nil_or_concat (db.lists (.pending jobType)) with hnil | ⟨ids, id, hlist⟩
      · simp [hnil] at htimes
      · rw [List.concat_eq_append] at hlist
        obtain ⟨job, hjob⟩ := Option.isSome_iff_exists.mp (hlive id (by simp [hlist]))
        obtain ⟨hresult, hids, hjobs⟩ := run_dequeue now hlist hjob (hkeyed id job hjob)
        rw [dequeues, hresult]
        generalize ((commands now).run (dequeue jobType) db).1 = rest at hids hjobs
        have hkeyed' : Keyed rest := by
          intro other stored hget
          rw [hjobs, Table.get?_insert] at hget
          split_ifs at hget with hother
          · rw [← Option.some.inj hget, hother]
            exact hkeyed id job hjob
          · exact hkeyed other stored hget
        have hlive' : PendingLive rest jobType := by
          intro other hother
          rw [hids] at hother
          rw [hjobs, Table.get?_insert]
          split_ifs
          · rfl
          · exact hlive other (by simp [hlist, hother])
        rw [ih hkeyed' hlive' (by simpa [hids, hlist] using htimes)]
        have horder : pendingOrder db jobType = job :: ids.reverse.filterMap db.jobs.get? := by
          simp [pendingOrder, View.jobs, View.ids, hlist, hjob]
        have hrest : pendingOrder rest jobType = ids.reverse.filterMap rest.jobs.get? := by
          simp [pendingOrder, View.jobs, View.ids, hids]
        rw [horder, hrest, List.zipWith_cons_cons]
        congr 1
        apply zipWith_taken
        rw [List.map_filterMap, List.map_filterMap]
        -- The record of the returned job is rewritten, also when its ID is in the list again.
        congr 1
        ext1 other
        rw [hjobs, Table.get?_insert]
        split_ifs with hother
        · rw [hother, hjob]
          rfl
        · rfl

/-! ## Paging through the view -/

/-- The result of {lit}`PendingJobs` for one page. -/
def pendingPage (db : Redis) (jobType : GoString) (limit : Int) (k : Nat) : ViewResult :=
  (queries.run (pendingJobs jobType (k * limit) limit) db).2

/-- A page of the view is a page of the jobs. -/
theorem pendingPage_eq {limit : Int} (hlimit : 1 ≤ limit ∧ limit ≤ 100)
    (hlive : PendingLive db jobType) (k : Nat) :
    pendingPage db jobType limit k =
      .page (pageOf (pendingOrder db jobType) (k + 1) limit.toNat)
        (db.lists (.pending jobType)).length := by
  have hoffset : 0 ≤ (k : Int) * limit := Int.mul_nonneg (Int.natCast_nonneg k) (by omega)
  have hclamp : clampLimit 20 limit = limit := by
    rw [clampLimit, if_neg (by omega), if_neg (by omega)]
  have hstart : ((k : Int) * limit).toNat = (k + 1 - 1) * limit.toNat := by
    rw [Nat.add_sub_cancel, Int.toNat_mul (by omega) (by omega), Int.toNat_natCast]
  rw [pendingPage, run_pendingJobs hoffset,
    filterMap_take_drop (fun id hid => hlive id (List.mem_reverse.mp hid)), hclamp, hstart]
  rfl

/-- The pages of the view up to the first empty one are the pending jobs, each once, in the
order in which successive calls of {lit}`Dequeue` return them; every page has the number of
pending jobs as its total. -/
theorem pendingPages_eq_dequeues (db : Redis) (jobType : GoString) {limit : Int}
    (hlimit : 1 ≤ limit ∧ limit ≤ 100) (hkeyed : Keyed db) (hlive : PendingLive db jobType) :
    ∃ (n : Nat) (pages : Nat → List Job),
      (∀ k, pendingPage db jobType limit k =
        .page (pages k) (db.lists (.pending jobType)).length) ∧
      (∀ k < n, pages k ≠ []) ∧ pages n = [] ∧
      ((List.range n).flatMap pages).map (·.id) = (db.lists (.pending jobType)).reverse ∧
      ∀ times : List Int, times.length = (db.lists (.pending jobType)).length →
        dequeues jobType times db =
          List.zipWith (fun job now => Outcome.job (some (job.taken now)))
            ((List.range n).flatMap pages) times := by
  obtain ⟨n, hfull, hempty, hall⟩ :=
    exists_pages (pendingOrder db jobType) (show 0 < limit.toNat by omega)
  refine ⟨n, fun k => pageOf (pendingOrder db jobType) (k + 1) limit.toNat,
    pendingPage_eq hlimit hlive, hfull, hempty, ?_, ?_⟩
  · rw [hall, pendingOrder, View.jobs, List.map_filterMap, View.ids]
    have hids : ∀ id ∈ (db.lists (.pending jobType)).reverse,
        (db.jobs.get? id).map (·.id) = some id := by
      intro id hid
      obtain ⟨job, hjob⟩ := Option.isSome_iff_exists.mp (hlive id (List.mem_reverse.mp hid))
      rw [hjob, Option.map_some, hkeyed id job hjob]
    rw [List.filterMap_congr hids, List.filterMap_some]
  · intro times htimes
    rw [hall]
    exact dequeues_eq hkeyed hlive htimes

/-- Two waiting jobs. -/
def shortQueue : Redis :=
  [waitingJob ['a'] 1, waitingJob ['b'] 2].foldl (fun db job =>
    ((db.run 0 (.set job 86400)).1.run 0 (.lpush (.pending job.type) job.id)).1) .empty

/-- Its records are stored under their own IDs. -/
theorem keyed_shortQueue : Keyed shortQueue := by
  have hempty : Keyed Redis.empty := fun id job hjob => absurd hjob (Option.some_ne_none job).symm
  have hstep : ∀ db : Redis, Keyed db → ∀ c, Keyed (db.run 0 c).1 :=
    fun db hdb c => keyed_run hdb c
  exact hstep _ (hstep _ (hstep _ (hstep _ hempty _) _) _) _

/-- Pages of one job show the two jobs in the order in which they are taken. -/
theorem pendingPages_eq_dequeues_short :
    ∃ (n : Nat) (pages : Nat → List Job),
      (∀ k < n, pages k ≠ []) ∧ pages n = [] ∧
      dequeues "diff".toList [5, 6] shortQueue =
        List.zipWith (fun job now => Outcome.job (some (job.taken now)))
          ((List.range n).flatMap pages) [5, 6] := by
  have hlive : PendingLive shortQueue "diff".toList := by
    unfold PendingLive
    decide
  have hlimit : (1 : Int) ≤ 1 ∧ (1 : Int) ≤ 100 := by decide
  obtain ⟨n, pages, -, hfull, hempty, -, horder⟩ :=
    pendingPages_eq_dequeues shortQueue "diff".toList hlimit keyed_shortQueue hlive
  exact ⟨n, pages, hfull, hempty, horder [5, 6] (by decide)⟩

end Queue
end Veilence
