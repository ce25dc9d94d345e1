import Veilence.Foundation.Sequential
import Veilence.Queue.Redis

/-!
# Reading the queue

The paginated views of the pending list, the processing set and the dead set, the
statistics of a workspace, and the views of a workspace.  These filter one page of the
unfiltered view, which is at most a hundred jobs long whatever limit is asked for.

Main results:

- Theorem {lit}`view_exact_iff`: a view of a workspace is exact if and only if none of its
  jobs comes after the first hundred jobs of the container.
- Theorem {lit}`view_not_exact`: a job that comes after a hundred jobs of another workspace
  is counted by the statistics and missing in the view.
-/

namespace Veilence
namespace Queue

open Go Foundation

/-! ## Ranges by position -/

/-- The elements between two positions, both included; negative positions count from the
end. -/
def elementsBetween {α : Type} (xs : List α) (start stop : Int) : List α :=
  let n : Int := xs.length
  let start := if start < 0 then start + n else start
  let stop := if stop < 0 then stop + n else stop
  let start := if start < 0 then 0 else start
  if start > stop ∨ start ≥ n then []
  else
    let stop := if stop ≥ n then n - 1 else stop
    (xs.drop start.toNat).take (stop - start + 1).toNat

section Ranges

variable {α : Type} (xs : List α)

/-- All elements. -/
theorem elementsBetween_all : elementsBetween xs 0 (-1) = xs := by
  cases xs with
  | nil => simp [elementsBetween]
  | cons x xs =>
      have hlength : ¬((xs.length : Int) + 1 ≤ 0) := by omega
      simp [elementsBetween, hlength]

/-- The elements between two positions that count from the front. -/
theorem elementsBetween_of_nonneg {start stop : Int} (hstart : 0 ≤ start) (hstop : 0 ≤ stop) :
    elementsBetween xs start stop = (xs.drop start.toNat).take (stop - start + 1).toNat := by
  unfold elementsBetween
  simp only [if_neg (Int.not_lt.mpr hstart), if_neg (Int.not_lt.mpr hstop)]
  by_cases hempty : start > stop ∨ start ≥ xs.length
  · rw [if_pos hempty, eq_comm]
    rcases hempty with hcrossed | hbeyond
    · rw [show (stop - start + 1).toNat = 0 by omega, List.take_zero]
    · rw [List.drop_eq_nil_of_le (by omega), List.take_nil]
  · rw [if_neg hempty]
    by_cases hlong : stop ≥ xs.length
    · rw [if_pos hlong, List.take_of_length_le, List.take_of_length_le]
      · rw [List.length_drop]
        omega
      · rw [List.length_drop]
        omega
    · rw [if_neg hlong]

/-- So many elements from a position on. -/
theorem elementsBetween_from {offset limit : Int} (hoffset : 0 ≤ offset) (hlimit : 1 ≤ limit) :
    elementsBetween xs offset (offset + limit - 1) =
      (xs.drop offset.toNat).take limit.toNat := by
  rw [elementsBetween_of_nonneg xs hoffset (by omega)]
  congr 1
  omega

/-- A stretch of a list, read from the other end. -/
theorem reverse_take_drop {start offset : Nat} (hstart : start + offset ≤ xs.length) :
    ((xs.drop start).take (xs.length - offset - start)).reverse =
      (xs.reverse.drop offset).take (xs.length - offset - start) := by
  rw [← List.drop_take, List.reverse_drop, List.reverse_take, List.length_take]
  congr 2 <;> omega

/-- So many elements from a position on, counted from the other end. -/
theorem elementsBetween_reverse {offset limit : Int} (hoffset : 0 ≤ offset) (hlimit : 1 ≤ limit)
    (hin : offset < xs.length) :
    (elementsBetween xs
      (if (xs.length : Int) - 1 - (offset + limit - 1) < 0 then 0
        else (xs.length : Int) - 1 - (offset + limit - 1))
      ((xs.length : Int) - 1 - offset)).reverse =
      (xs.reverse.drop offset.toNat).take limit.toNat := by
  split_ifs with hshort
  · rw [elementsBetween_of_nonneg xs (Int.le_refl 0) (by omega),
      show ((xs.length : Int) - 1 - offset - 0 + 1).toNat = xs.length - offset.toNat - 0 by omega,
      show (0 : Int).toNat = 0 from rfl, reverse_take_drop xs (by omega),
      List.take_of_length_le, List.take_of_length_le]
    · simp only [List.length_drop, List.length_reverse]
      omega
    · simp only [List.length_drop, List.length_reverse]
      omega
  · obtain ⟨start, hstart⟩ : ∃ start : Nat,
        (start : Int) = xs.length - 1 - (offset + limit - 1) :=
      ⟨((xs.length : Int) - 1 - (offset + limit - 1)).toNat, by omega⟩
    rw [elementsBetween_of_nonneg xs (by omega) (by omega), ← hstart, Int.toNat_natCast,
      show ((xs.length : Int) - 1 - offset - start + 1).toNat =
        xs.length - offset.toNat - start by omega,
      reverse_take_drop xs (by omega)]
    congr 1
    omega

end Ranges

/-! ## Members in order -/

/-- The order of the members of a sorted set. -/
def MemberLE (a b : GoString × Int) : Prop :=
  a.2 < b.2 ∨ (a.2 = b.2 ∧ a.1 ≤ b.1)

instance : DecidableRel MemberLE :=
  fun _ _ => inferInstanceAs (Decidable (_ ∨ _))

instance : Std.Total MemberLE where
  total := by
    intro a b
    unfold MemberLE
    rcases lt_trichotomy a.2 b.2 with hlt | heq | hgt
    · exact Or.inl (Or.inl hlt)
    · rcases le_total a.1 b.1 with hle | hle
      · exact Or.inl (Or.inr ⟨heq, hle⟩)
      · exact Or.inr (Or.inr ⟨heq.symm, hle⟩)
    · exact Or.inr (Or.inl hgt)

instance : IsTrans (GoString × Int) MemberLE where
  trans := by
    rintro a b c (hab | ⟨hab, hle⟩) (hbc | ⟨hbc, hle'⟩)
    · exact Or.inl (hab.trans hbc)
    · exact Or.inl (hab.trans_eq hbc)
    · exact Or.inl (hab.trans_lt hbc)
    · exact Or.inr ⟨hab.trans hbc, hle.trans hle'⟩

instance : Std.Antisymm MemberLE where
  antisymm := by
    rintro a b (hab | ⟨hab, hle⟩) (hba | ⟨_, hle'⟩)
    · omega
    · omega
    · omega
    · exact Prod.ext (le_antisymm hle hle') hab

/-- The range lists the entries in their order. -/
theorem rangeOf_eq (t : Table GoString Int) :
    rangeOf t = (t.entries.insertionSort MemberLE).map Prod.fst :=
  rfl

/-- Removing members keeps the order of the others. -/
theorem rangeOf_filterKeys (t : Table GoString Int) (p : GoString → Bool) :
    rangeOf (t.filterKeys p) = (rangeOf t).filter p := by
  have hperm : ((t.entries.filter (p ·.1)).insertionSort MemberLE).Perm
      ((t.entries.insertionSort MemberLE).filter (p ·.1)) :=
    (List.perm_insertionSort _ _).trans ((List.perm_insertionSort _ _).filter _).symm
  have hsorted : (t.entries.filter (p ·.1)).insertionSort MemberLE =
      (t.entries.insertionSort MemberLE).filter (p ·.1) :=
    hperm.eq_of_pairwise' (List.pairwise_insertionSort _ _)
      ((List.pairwise_insertionSort _ _).filter _)
  rw [rangeOf_eq, rangeOf_eq, List.filter_map]
  exact congrArg (List.map Prod.fst) hsorted

/-! ## Queries -/

/-- The commands that the views send. -/
inductive Query where
  | llen (key : LKey)
  | lrange (key : LKey) (start stop : Int)
  | zcard (key : ZKey)
  | zrange (key : ZKey) (start stop : Int)
  | zrevrange (key : ZKey) (start stop : Int)
  | zrem (key : ZKey) (members : List GoString)
  | exists (id : GoString)
  | get (id : GoString)
  | hget (field : GoString)
deriving DecidableEq

/-- What a query answers. -/
abbrev QueryReply : Query → Type
  | .llen _ | .zcard _ | .hget _ => Int
  | .lrange _ _ _ | .zrange _ _ _ | .zrevrange _ _ _ => List GoString
  | .zrem _ _ => Nat
  | .exists _ => Bool
  | .get _ => Option Job

/-- Carry out a query. -/
def Redis.query (db : Redis) : (q : Query) → Redis × QueryReply q
  | .llen key => (db, (db.lists key).length)
  | .lrange key start stop => (db, elementsBetween (db.lists key) start stop)
  | .zcard key => (db, (db.zsets key).keys.length)
  | .zrange key start stop => (db, elementsBetween (rangeOf (db.zsets key)) start stop)
  | .zrevrange key start stop => (db, elementsBetween (rangeOf (db.zsets key)).reverse start stop)
  | .zrem key members =>
      (db.setZset key (members.foldl Table.erase (db.zsets key)),
        ((db.zsets key).keys.filter fun id => members.contains id).length)
  | .exists id => (db, (db.jobs.get? id).isSome)
  | .get id => (db, db.jobs.get? id)
  | .hget field => (db, db.stats field)

/-- The database under queries, each of which can fail. -/
def queries : Machine Redis Query QueryReply where
  exec := Redis.query
  fallible := fun _ => true

/-- The body of a view or of a part of it. -/
abbrev ViewBody (α : Type) := Prog Query QueryReply α

/-- A single query. -/
abbrev ask (q : Query) : ViewBody (Option (QueryReply q)) :=
  Prog.call q

/-- What a view returns: a page and a total, an error with the text it begins with, or
nothing because slice bounds are out of range. -/
inductive ViewResult where
  | page (jobs : List Job) (total : Int)
  | failed (message : GoString)
  | panicked
deriving DecidableEq

/-! ## The paginated views -/

/-- The limit that is used instead of the limit asked for. -/
def clampLimit (standard limit : Int) : Int :=
  if limit ≤ 0 then standard else if limit > 100 then 100 else limit

/-- The offset that is used instead of the offset asked for. -/
def clampOffset (offset : Int) : Int :=
  if offset < 0 then 0 else offset

/-- {lit}`loadJob` for each ID; missing records are passed over. -/
def loadJobs : List GoString → ViewBody (List Job)
  | [] => return []
  | id :: ids => do
      match ← ask (.get id) with
      | some (some job) => return job :: (← loadJobs ids)
      | _ => loadJobs ids

/-- {lit}`PendingJobs`. -/
def pendingJobs (jobType : GoString) (offset limit : Int) : ViewBody ViewResult := do
  let limit := clampLimit 20 limit
  let offset := clampOffset offset
  match ← ask (.llen (.pending jobType)) with
  | none => return .failed "counting pending jobs".toList
  | some total =>
      if total = 0 ∨ offset ≥ total then return .page [] total
      else
        let start := offset
        let stop := start + limit - 1
        let tailStart := total - 1 - stop
        let tailStop := total - 1 - start
        let tailStart := if tailStart < 0 then 0 else tailStart
        match ← ask (.lrange (.pending jobType) tailStart tailStop) with
        | none => return .failed "listing pending jobs".toList
        | some jobIDs => return .page (← loadJobs jobIDs.reverse) total

/-- The members without a record; a failing check counts as a record. -/
def staleMembers : List GoString → ViewBody (List GoString)
  | [] => return []
  | id :: ids => do
      match ← ask (.exists id) with
      | some false => return id :: (← staleMembers ids)
      | _ => staleMembers ids

/-- {lit}`cleanStaleSortedSetMembers`. -/
def cleanStaleSortedSetMembers (key : ZKey) : ViewBody Nat := do
  match ← ask (.zrange key 0 (-1)) with
  | none => return 0
  | some memberIDs =>
      match ← staleMembers memberIDs with
      | [] => return 0
      | stale => return (← ask (.zrem key stale)).getD 0

/-- {lit}`loadJob` for each member; members without a record are removed and not
counted. -/
def loadMembers (key : ZKey) (total : Int) : List GoString → ViewBody (List Job × Int)
  | [] => return ([], total)
  | id :: ids => do
      match ← ask (.get id) with
      | some (some job) =>
          let (jobs, total) ← loadMembers key total ids
          return (job :: jobs, total)
      | _ =>
          let _ ← ask (.zrem key [id])
          loadMembers key (total - 1) ids

/-- The view of a sorted set: clean it up, count it and load one range of it. -/
def memberJobs (key : ZKey) (noun : GoString) (standard : Int)
    (range : Int → Int → ViewBody (Option (List GoString))) (offset limit : Int) :
    ViewBody ViewResult := do
  let limit := clampLimit standard limit
  let offset := clampOffset offset
  let _ ← cleanStaleSortedSetMembers key
  match ← ask (.zcard key) with
  | none => return .failed ("counting ".toList ++ noun)
  | some total =>
      if total = 0 ∨ offset ≥ total then return .page [] total
      else
        match ← range offset (offset + limit - 1) with
        | none => return .failed ("listing ".toList ++ noun)
        | some jobIDs =>
            let (jobs, total) ← loadMembers key total jobIDs
            return .page jobs total

/-- {lit}`ProcessingJobs`: the oldest first. -/
def processingJobs (jobType : GoString) (offset limit : Int) : ViewBody ViewResult :=
  memberJobs (.processing jobType) "processing jobs".toList 20
    (fun start stop => ask (.zrange (.processing jobType) start stop)) offset limit

/-- {lit}`DeadJobs`: the most recent first. -/
def deadJobs (jobType : GoString) (offset limit : Int) : ViewBody ViewResult :=
  memberJobs (.dead jobType) "dead jobs".toList 50
    (fun start stop => ask (.zrevrange (.dead jobType) start stop)) offset limit

/-! ## The views of a workspace -/

/-- {lit}`filterJobsByWorkspace`. -/
def filterJobsByWorkspace (jobs : List Job) (workspaceID : GoString) : List Job :=
  jobs.filter fun job => job.workspaceID = workspaceID

/-- The part of a slice between two positions, if they are in range. -/
def sliceJobs (jobs : List Job) (start stop : Int) : Option (List Job) :=
  if 0 ≤ start ∧ start ≤ stop ∧ stop ≤ jobs.length then
    some ((jobs.drop start.toNat).take (stop - start).toNat)
  else none

/-- A view of a workspace, from the first page of ten thousand jobs. -/
def forWorkspace (view : Int → Int → ViewBody ViewResult) (workspaceID : GoString)
    (offset limit : Int) : ViewBody ViewResult := do
  match ← view 0 10000 with
  | .page jobs _ =>
      let filtered := filterJobsByWorkspace jobs workspaceID
      let total : Int := filtered.length
      if offset ≥ total then return .page [] total
      else
        let stop := int64 (offset + limit)
        let stop := if stop > total then total else stop
        match sliceJobs filtered offset stop with
        | some jobs => return .page jobs total
        | none => return .panicked
  | result => return result

/-- {lit}`PendingJobsForWorkspace`. -/
def pendingJobsForWorkspace (jobType workspaceID : GoString) (offset limit : Int) :
    ViewBody ViewResult :=
  forWorkspace (pendingJobs jobType) workspaceID offset limit

/-- {lit}`ProcessingJobsForWorkspace`. -/
def processingJobsForWorkspace (jobType workspaceID : GoString) (offset limit : Int) :
    ViewBody ViewResult :=
  forWorkspace (processingJobs jobType) workspaceID offset limit

/-- {lit}`DeadJobsForWorkspace`. -/
def deadJobsForWorkspace (jobType workspaceID : GoString) (offset limit : Int) :
    ViewBody ViewResult :=
  forWorkspace (deadJobs jobType) workspaceID offset limit

/-! ## The statistics of a workspace -/

/-- The numbers of jobs. -/
structure QueueStats where
  pending : Int
  processing : Int
  completed : Int
  dead : Int
deriving DecidableEq

/-- The number of the jobs that belong to a workspace. -/
def countJobs (workspaceID : GoString) (ids : List GoString) : ViewBody Int := do
  return (filterJobsByWorkspace (← loadJobs ids) workspaceID).length

/-- {lit}`StatsForWorkspace`; without a counter the completed jobs are none. -/
def statsForWorkspace (jobType workspaceID : GoString) :
    ViewBody (Except GoString QueueStats) := do
  let _ ← cleanStaleSortedSetMembers (.processing jobType)
  let _ ← cleanStaleSortedSetMembers (.dead jobType)
  match ← ask (.lrange (.pending jobType) 0 (-1)) with
  | none => return .error "listing pending jobs".toList
  | some pendingIDs =>
  let pending ← countJobs workspaceID pendingIDs
  match ← ask (.zrange (.processing jobType) 0 (-1)) with
  | none => return .error "listing processing jobs".toList
  | some processingIDs =>
  let processing ← countJobs workspaceID processingIDs
  match ← ask (.zrange (.dead jobType) 0 (-1)) with
  | none => return .error "listing dead jobs".toList
  | some deadIDs =>
  let dead ← countJobs workspaceID deadIDs
  let completed := (← ask (.hget ("completed:".toList ++ workspaceID))).getD 0
  return .ok ⟨pending, processing, completed, dead⟩

/-! ## Containers in the order of their view -/

/-- The three views. -/
inductive View where
  | pending
  | processing
  | dead

namespace View

/-- The IDs of the container in the order of the view. -/
def ids (db : Redis) (jobType : GoString) : View → List GoString
  | pending => (db.lists (.pending jobType)).reverse
  | processing => rangeOf (db.zsets (.processing jobType))
  | dead => (rangeOf (db.zsets (.dead jobType))).reverse

/-- The jobs of the container in the order of the view. -/
def jobs (v : View) (db : Redis) (jobType : GoString) : List Job :=
  (v.ids db jobType).filterMap db.jobs.get?

/-- The paginated view. -/
def paginated : View → GoString → Int → Int → ViewBody ViewResult
  | pending => pendingJobs
  | processing => processingJobs
  | dead => deadJobs

/-- The view of a workspace. -/
def forWorkspace : View → GoString → GoString → Int → Int → ViewBody ViewResult
  | pending => pendingJobsForWorkspace
  | processing => processingJobsForWorkspace
  | dead => deadJobsForWorkspace

/-- The limit of a page when none is asked for. -/
def standard : View → Int
  | pending | processing => 20
  | dead => 50

/-- What the statistics say of the container. -/
def count (stats : QueueStats) : View → Int
  | pending => stats.pending
  | processing => stats.processing
  | dead => stats.dead

/-- The view of a workspace filters the first page of the paginated view. -/
theorem forWorkspace_eq (v : View) (jobType workspaceID : GoString) (offset limit : Int) :
    v.forWorkspace jobType workspaceID offset limit =
      Queue.forWorkspace (v.paginated jobType) workspaceID offset limit := by
  cases v <;> rfl

end View

/-- Every ID in a container of the job type has a record. -/
def Unexpired (db : Redis) (jobType : GoString) : Prop :=
  ∀ v : View, ∀ id ∈ v.ids db jobType, (db.jobs.get? id).isSome

instance (db : Redis) (jobType : GoString) : Decidable (Unexpired db jobType) :=
  decidable_of_iff
    ((∀ id ∈ View.pending.ids db jobType, (db.jobs.get? id).isSome) ∧
      (∀ id ∈ View.processing.ids db jobType, (db.jobs.get? id).isSome) ∧
      (∀ id ∈ View.dead.ids db jobType, (db.jobs.get? id).isSome))
    ⟨fun h v => by cases v; exacts [h.1, h.2.1, h.2.2],
      fun h => ⟨h .pending, h .processing, h .dead⟩⟩

/-- The members of a sorted set are as many as its range is long. -/
theorem length_rangeOf (t : Table GoString Int) : (rangeOf t).length = t.keys.length := by
  simp [rangeOf, Table.keys, List.length_insertionSort]

/-- Loading a stretch of live IDs is a stretch of the jobs. -/
theorem filterMap_take_drop {α β : Type} {f : α → Option β} {xs : List α}
    (hsome : ∀ x ∈ xs, (f x).isSome) (offset limit : Nat) :
    ((xs.drop offset).take limit).filterMap f =
      ((xs.filterMap f).drop offset).take limit := by
  induction xs generalizing offset limit with
  | nil => simp
  | cons x xs ih =>
      obtain ⟨y, hy⟩ := Option.isSome_iff_exists.mp (hsome x List.mem_cons_self)
      have hrest := ih fun z hz => hsome z (List.mem_cons_of_mem x hz)
      rw [List.filterMap_cons_some hy]
      cases offset with
      | succ offset => exact hrest offset limit
      | zero =>
          cases limit with
          | zero => rfl
          | succ limit =>
              have htake := hrest 0 limit
              simp only [List.drop_zero] at htake
              simp only [List.drop_zero, List.take_succ_cons, List.filterMap_cons_some hy, htake]

/-! ## Runs on live records -/

section Runs

variable {db : Redis}

/-- A query that succeeds. -/
theorem run_ask {α : Type} (q : Query) (f : Option (QueryReply q) → ViewBody α) (db : Redis) :
    queries.run (ask q >>= f) db = queries.run (f (some (db.query q).2)) (db.query q).1 :=
  rfl

/-- A query that succeeds with a known answer. -/
theorem run_ask_of {α : Type} {q : Query} {r : QueryReply q} (hq : db.query q = (db, r))
    (f : Option (QueryReply q) → ViewBody α) :
    queries.run (ask q >>= f) db = queries.run (f (some r)) db := by
  rw [run_ask, hq]

/-- Loading jobs leaves out the missing records. -/
theorem run_loadJobs (ids : List GoString) :
    queries.run (loadJobs ids) db = (db, ids.filterMap db.jobs.get?) := by
  induction ids with
  | nil => rfl
  | cons id ids ih =>
      rw [loadJobs, run_ask]
      simp only [Redis.query]
      cases hjob : db.jobs.get? id with
      | none => simpa [hjob] using ih
      | some job =>
          rw [List.filterMap_cons_some hjob]
          exact Machine.run_bind_of ih _

/-- Unexpired members are not stale. -/
theorem run_staleMembers {ids : List GoString} (hlive : ∀ id ∈ ids, (db.jobs.get? id).isSome) :
    queries.run (staleMembers ids) db = (db, []) := by
  induction ids with
  | nil => rfl
  | cons id ids ih =>
      rw [staleMembers, run_ask]
      simp only [Redis.query, hlive id List.mem_cons_self]
      exact ih fun other hother => hlive other (List.mem_cons_of_mem id hother)

/-- Nothing is cleaned up when all members are live. -/
theorem run_cleanStaleSortedSetMembers {key : ZKey}
    (hlive : ∀ id ∈ rangeOf (db.zsets key), (db.jobs.get? id).isSome) :
    queries.run (cleanStaleSortedSetMembers key) db = (db, 0) := by
  rw [cleanStaleSortedSetMembers, run_ask]
  simp only [Redis.query, elementsBetween_all]
  exact Machine.run_bind_of (run_staleMembers hlive) _

/-- Loading live members keeps the total. -/
theorem run_loadMembers {key : ZKey} {total : Int} {ids : List GoString}
    (hlive : ∀ id ∈ ids, (db.jobs.get? id).isSome) :
    queries.run (loadMembers key total ids) db = (db, (ids.filterMap db.jobs.get?, total)) := by
  induction ids with
  | nil => rfl
  | cons id ids ih =>
      obtain ⟨job, hjob⟩ := Option.isSome_iff_exists.mp (hlive id List.mem_cons_self)
      have hrest := ih fun other hother => hlive other (List.mem_cons_of_mem id hother)
      rw [loadMembers, run_ask]
      simp only [Redis.query, hjob, List.filterMap_cons_some hjob]
      exact Machine.run_bind_of hrest _

/-- An offset that is not negative is used. -/
theorem clampOffset_of_nonneg {offset : Int} (hoffset : 0 ≤ offset) :
    clampOffset offset = offset :=
  if_neg (Int.not_lt.mpr hoffset)

/-- A page has room for a job. -/
theorem one_le_clampLimit {standard : Int} (hstandard : 1 ≤ standard) (limit : Int) :
    1 ≤ clampLimit standard limit := by
  unfold clampLimit
  split_ifs <;> omega

/-- The view of a sorted set with live members. -/
theorem run_memberJobs {key : ZKey} {noun : GoString} {standard offset limit : Int}
    {range : Int → Int → ViewBody (Option (List GoString))} {ids : List GoString}
    (hlive : ∀ id ∈ rangeOf (db.zsets key), (db.jobs.get? id).isSome)
    (hids : ids.Perm (rangeOf (db.zsets key)))
    (hrange : ∀ start stop, queries.run (range start stop) db =
      (db, some (elementsBetween ids start stop)))
    (hoffset : 0 ≤ offset) (hstandard : 1 ≤ standard) :
    queries.run (memberJobs key noun standard range offset limit) db =
      (db, .page (((ids.filterMap db.jobs.get?).drop offset.toNat).take
        (clampLimit standard limit).toNat) ids.length) := by
  have hlimit := one_le_clampLimit hstandard limit
  have hsome : ∀ id ∈ ids, (db.jobs.get? id).isSome := fun id hid => hlive id (hids.subset hid)
  have htotal : ((db.zsets key).keys.length : Int) = ids.length := by
    rw [← length_rangeOf, hids.length_eq]
  rw [memberJobs, Machine.run_bind_of (run_cleanStaleSortedSetMembers hlive), run_ask]
  simp only [Redis.query, htotal, clampOffset_of_nonneg hoffset]
  by_cases hbeyond : (ids.length : Int) = 0 ∨ offset ≥ ids.length
  · rw [if_pos hbeyond, List.drop_eq_nil_of_le, List.take_nil]
    · rfl
    · have := List.length_filterMap_le db.jobs.get? ids
      omega
  · rw [if_neg hbeyond, Machine.run_bind_of (hrange _ _), elementsBetween_from ids hoffset hlimit]
    simp only
    rw [Machine.run_bind_of (run_loadMembers _), filterMap_take_drop hsome]
    · rfl
    · intro id hid
      exact hsome id (List.mem_of_mem_drop (List.mem_of_mem_take hid))

/-- The view of the pending list loads a stretch of the IDs. -/
theorem run_pendingJobs {jobType : GoString} {offset limit : Int} (hoffset : 0 ≤ offset) :
    queries.run (pendingJobs jobType offset limit) db =
      (db, .page ((((db.lists (.pending jobType)).reverse.drop offset.toNat).take
        (clampLimit 20 limit).toNat).filterMap db.jobs.get?)
          (db.lists (.pending jobType)).length) := by
  have hlimit := one_le_clampLimit (show (1 : Int) ≤ 20 by decide) limit
  have hlength : db.query (.llen (.pending jobType)) =
      (db, ((db.lists (.pending jobType)).length : Int)) := rfl
  unfold pendingJobs
  rw [clampOffset_of_nonneg hoffset, run_ask_of hlength]
  dsimp only
  by_cases hbeyond : ((db.lists (.pending jobType)).length : Int) = 0 ∨
      offset ≥ (db.lists (.pending jobType)).length
  · rw [if_pos hbeyond, List.drop_eq_nil_of_le, List.take_nil]
    · rfl
    · rw [List.length_reverse]
      omega
  · rw [if_neg hbeyond, run_ask]
    simp only [Redis.query]
    rw [elementsBetween_reverse _ hoffset hlimit (by omega), Machine.run_bind_of (run_loadJobs _)]
    rfl

variable {jobType workspaceID : GoString}

/-- A paginated view with live records. -/
theorem run_paginated (hlive : Unexpired db jobType) (v : View) {offset : Int}
    (hoffset : 0 ≤ offset) (limit : Int) :
    queries.run (v.paginated jobType offset limit) db =
      (db, .page (((v.jobs db jobType).drop offset.toNat).take (clampLimit v.standard limit).toNat)
        (v.ids db jobType).length) := by
  cases v with
  | pending =>
      rw [View.jobs, ← filterMap_take_drop (hlive .pending), View.ids, List.length_reverse]
      exact run_pendingJobs hoffset
  | processing =>
      rw [View.paginated, processingJobs]
      apply run_memberJobs (hlive .processing) (List.Perm.refl _)
      · intro start stop
        rfl
      · exact hoffset
      · decide
  | dead =>
      have hdead : ∀ id ∈ rangeOf (db.zsets (.dead jobType)), (db.jobs.get? id).isSome :=
        fun id hid => hlive .dead id (List.mem_reverse.mpr hid)
      rw [View.paginated, deadJobs]
      apply run_memberJobs hdead (List.reverse_perm _)
      · intro start stop
        rfl
      · exact hoffset
      · decide

/-- The number of the jobs of a workspace does not depend on the order. -/
theorem run_countJobs {ids others : List GoString} (hperm : ids.Perm others) :
    queries.run (countJobs workspaceID ids) db =
      (db, ((filterJobsByWorkspace (others.filterMap db.jobs.get?) workspaceID).length : Int)) := by
  have hlength : (filterJobsByWorkspace (ids.filterMap db.jobs.get?) workspaceID).length =
      (filterJobsByWorkspace (others.filterMap db.jobs.get?) workspaceID).length :=
    ((hperm.filterMap _).filter _).length_eq
  rw [← hlength]
  exact Machine.run_bind_of (run_loadJobs ids) _

/-- The jobs of a workspace in a container, in the order of the view. -/
def workspaceJobs (v : View) (db : Redis) (jobType workspaceID : GoString) : List Job :=
  filterJobsByWorkspace (v.jobs db jobType) workspaceID

/-- The statistics count all jobs of the workspace. -/
theorem run_statsForWorkspace (hlive : Unexpired db jobType) :
    ∃ stats, queries.run (statsForWorkspace jobType workspaceID) db = (db, .ok stats) ∧
      stats.completed = db.stats ("completed:".toList ++ workspaceID) ∧
      ∀ v : View, v.count stats = (workspaceJobs v db jobType workspaceID).length := by
  have hdead : ∀ id ∈ rangeOf (db.zsets (.dead jobType)), (db.jobs.get? id).isSome :=
    fun id hid => hlive .dead id (List.mem_reverse.mpr hid)
  let number (v : View) : Int := (workspaceJobs v db jobType workspaceID).length
  refine ⟨⟨number .pending, number .processing, db.stats ("completed:".toList ++ workspaceID),
    number .dead⟩, ?_, rfl, ?_⟩
  · rw [statsForWorkspace, Machine.run_bind_of (run_cleanStaleSortedSetMembers (hlive .processing)),
      Machine.run_bind_of (run_cleanStaleSortedSetMembers hdead), run_ask]
    simp only [Redis.query, elementsBetween_all]
    rw [Machine.run_bind_of (run_countJobs (List.reverse_perm _).symm), run_ask]
    simp only [Redis.query, elementsBetween_all]
    rw [Machine.run_bind_of (run_countJobs (List.Perm.refl _)), run_ask]
    simp only [Redis.query, elementsBetween_all]
    rw [Machine.run_bind_of (run_countJobs (List.reverse_perm _).symm), run_ask]
    rfl
  · intro v
    cases v <;> rfl

/-- The first hundred jobs are all that a view of a workspace sees. -/
theorem run_forWorkspace (hlive : Unexpired db jobType) (v : View) {offset limit : Int}
    (hoffset : 0 ≤ offset) (hlimit : 1 ≤ limit) (hhundred : limit ≤ 100) :
    queries.run (v.forWorkspace jobType workspaceID offset limit) db =
      (db, .page (((filterJobsByWorkspace ((v.jobs db jobType).take 100) workspaceID).drop
          offset.toNat).take limit.toNat)
        (filterJobsByWorkspace ((v.jobs db jobType).take 100) workspaceID).length) := by
  have hpage := run_paginated hlive v (Int.le_refl 0) 10000
  have hclamp : clampLimit v.standard 10000 = 100 := by cases v <;> rfl
  rw [hclamp, Int.toNat_zero, List.drop_zero, show (100 : Int).toNat = 100 from rfl] at hpage
  have hshort : (filterJobsByWorkspace ((v.jobs db jobType).take 100) workspaceID).length ≤ 100 :=
    (List.length_filter_le _ _).trans (List.length_take_le 100 _)
  rw [View.forWorkspace_eq, forWorkspace, Machine.run_bind_of hpage]
  dsimp only
  generalize filterJobsByWorkspace ((v.jobs db jobType).take 100) workspaceID = filtered at hshort ⊢
  by_cases hbeyond : offset ≥ filtered.length
  · rw [if_pos hbeyond, List.drop_eq_nil_of_le (by omega), List.take_nil]
    rfl
  · have hsum : int64 (offset + limit) = offset + limit := int64_of_range (by omega) (by omega)
    rw [if_neg hbeyond, hsum]
    by_cases hlong : offset + limit > filtered.length
    · rw [if_pos hlong, sliceJobs, if_pos ⟨hoffset, by omega, by omega⟩]
      dsimp only
      rw [List.take_of_length_le, List.take_of_length_le]
      · rfl
      · rw [List.length_drop]
        omega
      · rw [List.length_drop]
        omega
    · rw [if_neg hlong, sliceJobs, if_pos ⟨hoffset, by omega, by omega⟩]
      dsimp only
      rw [show (offset + limit - offset).toNat = limit.toNat by omega]
      rfl

/-! ## Exact views -/

/-- The view of a workspace returns the elements that were asked for among the jobs of the
workspace, with the total that the statistics say. -/
def ViewExact (v : View) (db : Redis) (jobType workspaceID : GoString) (offset limit : Int) :
    Prop :=
  ∃ stats, (queries.run (statsForWorkspace jobType workspaceID) db).2 = .ok stats ∧
    v.count stats = (workspaceJobs v db jobType workspaceID).length ∧
    (queries.run (v.forWorkspace jobType workspaceID offset limit) db).2 =
      .page (((workspaceJobs v db jobType workspaceID).drop offset.toNat).take limit.toNat)
        (v.count stats)

/-- The jobs of the workspace are among the first hundred if and only if these are as many
as there are in all. -/
theorem length_filterJobs_take {jobs : List Job} {n : Nat} :
    (filterJobsByWorkspace (jobs.take n) workspaceID).length =
        (filterJobsByWorkspace jobs workspaceID).length ↔
      ∀ job ∈ jobs.drop n, job.workspaceID ≠ workspaceID := by
  have hsplit : (filterJobsByWorkspace jobs workspaceID).length =
      (filterJobsByWorkspace (jobs.take n) workspaceID).length +
        (filterJobsByWorkspace (jobs.drop n) workspaceID).length := by
    rw [filterJobsByWorkspace, filterJobsByWorkspace, filterJobsByWorkspace,
      ← List.length_append, ← List.filter_append, List.take_append_drop]
  have hnone : filterJobsByWorkspace (jobs.drop n) workspaceID = [] ↔
      ∀ job ∈ jobs.drop n, job.workspaceID ≠ workspaceID := by
    simp [filterJobsByWorkspace, List.filter_eq_nil_iff]
  rw [← hnone, ← List.length_eq_zero_iff]
  omega

/-- No job of the workspace comes after the first so many jobs. -/
theorem filterJobs_take {jobs : List Job} {n : Nat}
    (hnone : ∀ job ∈ jobs.drop n, job.workspaceID ≠ workspaceID) :
    filterJobsByWorkspace (jobs.take n) workspaceID = filterJobsByWorkspace jobs workspaceID := by
  apply List.Sublist.eq_of_length
  · exact (List.take_sublist n jobs).filter _
  · exact length_filterJobs_take.mpr hnone

/-- The view of a workspace is exact if and only if no job of the workspace comes after the
first hundred jobs of the container. -/
theorem view_exact_iff (v : View) (hlive : Unexpired db jobType) {offset limit : Int}
    (hoffset : 0 ≤ offset) (hlimit : 1 ≤ limit) (hhundred : limit ≤ 100) :
    ViewExact v db jobType workspaceID offset limit ↔
      ∀ job ∈ (v.jobs db jobType).drop 100, job.workspaceID ≠ workspaceID := by
  obtain ⟨stats, hstats, -, hcount⟩ := @run_statsForWorkspace db jobType workspaceID hlive
  have hview := @run_forWorkspace db jobType workspaceID hlive v offset limit hoffset hlimit hhundred
  constructor
  · rintro ⟨others, hothers, htotal, hpage⟩
    rw [hview, htotal] at hpage
    injection hpage with _ hlength
    exact length_filterJobs_take.mp (by exact_mod_cast hlength)
  · intro hnone
    refine ⟨stats, by rw [hstats], hcount v, ?_⟩
    rw [hview, filterJobs_take hnone, hcount v]
    rfl

end Runs

/-- A pending job. -/
def waitingJob (workspaceID : GoString) (n : Nat) : Job where
  id := itoa n
  type := "diff".toList
  workspaceID := workspaceID
  referenceID := itoa n
  status := .pending
  attempts := 0
  maxAttempts := 3
  lastError := []
  metadata := []
  createdAt := n
  updatedAt := n
  nextRunAt := n

/-- A hundred pending jobs of one workspace, and after them a job of another workspace. -/
def crowdedQueue : Redis :=
  let jobs := (List.range 100).map (waitingJob ['a']) ++ [waitingJob ['b'] 100]
  jobs.foldl (fun db job =>
    ((db.run 0 (.set job 86400)).1.run 0 (.lpush (.pending job.type) job.id)).1) .empty

/-- All of its records are live, no job of the first workspace comes after the first hundred
jobs, and the only job of the other workspace does. -/
theorem crowdedQueue_jobs :
    Unexpired crowdedQueue "diff".toList ∧
      (∀ job ∈ (View.pending.jobs crowdedQueue "diff".toList).drop 100, job.workspaceID ≠ ['a']) ∧
      (workspaceJobs .pending crowdedQueue "diff".toList ['b']).length = 1 ∧
      (filterJobsByWorkspace ((View.pending.jobs crowdedQueue "diff".toList).take 100)
        ['b']).length = 0 := by
  decide +kernel

/-- The workspace with the first hundred jobs sees all of them. -/
theorem view_exact_first : ViewExact .pending crowdedQueue "diff".toList ['a'] 90 20 :=
  (view_exact_iff .pending crowdedQueue_jobs.1 (by decide) (by decide) (by decide)).mpr
    crowdedQueue_jobs.2.1

/-- The workspace with the job after these sees none, but its statistics count it. -/
theorem view_not_exact :
    Unexpired crowdedQueue "diff".toList ∧
      ¬ViewExact .pending crowdedQueue "diff".toList ['b'] 0 20 := by
  obtain ⟨hlive, -, hjobs, hseen⟩ := crowdedQueue_jobs
  refine ⟨hlive, ?_⟩
  rintro ⟨stats, _, hcount, hpage⟩
  rw [run_forWorkspace hlive .pending (by decide) (by decide) (by decide), hcount, hjobs,
    hseen] at hpage
  injection hpage with _ htotal
  exact absurd htotal (by decide)

end Queue
end Veilence
