import Veilence.Go.Strconv
import Veilence.Queue.Views

/-!
# Pages of a workspace's jobs

{lit}`GetQueueJobs` with the page and the limit that a request asks for.  The offset of the
page is a product that wraps around at 64 bits, and the views of a workspace only compare it
with the number of jobs.

Main results:

- Theorem {lit}`run_forWorkspace_first`: whatever records are missing, a view of a workspace
  slices the jobs that it has read.
- Theorem {lit}`page_exact_iff`: a request gets the jobs of its page and does not panic if and
  only if the offset of the page fits or wraps to a number past the end.
- Theorem {lit}`page_panics`: a page whose offset wraps to a negative number.
-/

namespace Veilence
namespace Queue

open Go Foundation

/-! ## The handler -/

/-- {lit}`parsePagination`: the page and the limit. -/
def parsePagination (page limit : GoString) : Int × Int :=
  let page := atoi page
  let page := if page < 1 then 1 else page
  let limit := atoi limit
  let limit := if limit < 1 ∨ limit > 100 then 20 else limit
  (page, limit)

/-- {lit}`validJobTypes`. -/
def validJobTypes : List GoString :=
  ["diff".toList, "analyze".toList]

/-- The view of one of {lit}`validJobStatuses`. -/
def viewOf (status : GoString) : Option View :=
  if status = "pending".toList then some .pending
  else if status = "processing".toList then some .processing
  else if status = "dead".toList then some .dead
  else none

/-- What a request gets: an error with its status code and message, or jobs with the page, the
limit and the total; or the handler panics. -/
inductive Response where
  | error (code : Nat) (message : GoString)
  | jobs (jobs : List Job) (page limit total : Int)
  | panicked
deriving DecidableEq

/-- The message for a status that cannot be browsed. -/
def statusMessage (status : GoString) : GoString :=
  if status = "completed".toList then
    ("completed jobs are counter-only and cannot be listed - use GET /api/queue/stats " ++
      "for the completed count").toList
  else if status = "failed".toList then
    ("failed is not a browsable status - retrying jobs appear as 'pending' with lastError " ++
      "set, exhausted jobs appear as 'dead'").toList
  else "invalid status parameter: must be 'pending', 'processing', or 'dead'".toList

/-- The response to the result of a view. -/
def respond (page limit : Int) : ViewResult → Response
  | .page jobs total => .jobs jobs page limit total
  | .failed _ => .error 500 "failed to get queue jobs".toList
  | .panicked => .panicked

/-- {lit}`GetQueueJobs`, with a queue that may not be configured. -/
def getQueueJobs (configured : Bool) (workspaceID jobType status page limit : GoString) :
    ViewBody Response :=
  if configured = false then return .error 500 "queue not configured".toList
  else if jobType = [] then
    return .error 400 "missing required parameter: type (diff or analyze)".toList
  else if jobType ∉ validJobTypes then
    return .error 400 "invalid type parameter: must be 'diff' or 'analyze'".toList
  else if status = [] then
    return .error 400
      "missing required parameter: status (pending, processing, or dead)".toList
  else
    match viewOf status with
    | none => return .error 400 (statusMessage status)
    | some v => do
        let (page, limit) := parsePagination page limit
        let offset := int64 (int64 (page - 1) * limit)
        return respond page limit (← v.forWorkspace jobType workspaceID offset limit)

/-! ## What a view reads -/

/-- The jobs that a view of a workspace has read when it filters them. -/
def View.seen (db : Redis) (jobType : GoString) : View → List Job
  | .pending => ((View.pending.ids db jobType).take 100).filterMap db.jobs.get?
  | .processing => (View.processing.jobs db jobType).take 100
  | .dead => (View.dead.jobs db jobType).take 100

/-- The part of the filtered jobs that a view of a workspace returns. -/
def slicePage (filtered : List Job) (offset limit : Int) : ViewResult :=
  if offset ≥ filtered.length then .page [] filtered.length
  else
    match sliceJobs filtered offset
      (if int64 (offset + limit) > filtered.length then filtered.length
        else int64 (offset + limit)) with
    | some jobs => .page jobs filtered.length
    | none => .panicked

/-- A sorted set without the members that have no record. -/
def Redis.cleaned (db : Redis) (key : ZKey) : Redis :=
  db.setZset key ((db.zsets key).filterKeys fun id => (db.jobs.get? id).isSome)

section Reading

variable {db : Redis} {key : ZKey} {jobType workspaceID : GoString}

/-- The members without a record are stale. -/
theorem run_staleMembers_missing (ids : List GoString) :
    queries.run (staleMembers ids) db =
      (db, ids.filter fun id => (db.jobs.get? id).isNone) := by
  induction ids with
  | nil => rfl
  | cons id ids ih =>
      rw [staleMembers, run_ask]
      simp only [Redis.query]
      cases hjob : db.jobs.get? id with
      | none =>
          rw [List.filter_cons_of_pos (by simp [hjob])]
          exact Machine.run_bind_of ih _
      | some job =>
          rw [List.filter_cons_of_neg (by simp [hjob])]
          exact ih

/-- Removing members one by one. -/
theorem foldl_erase (t : Table GoString Int) (members : List GoString) :
    members.foldl Table.erase t = t.filterKeys fun id => id ∉ members := by
  induction members generalizing t with
  | nil => simp [Table.filterKeys]
  | cons member members ih =>
      rw [List.foldl_cons, ih]
      simp only [Table.filterKeys, Table.erase, List.filter_filter, List.mem_cons, not_or]
      congr 1
      apply List.filter_congr
      intro e _
      simp [Bool.and_comm]

/-- The members that are not stale are those with a record. -/
theorem cleaned_eq {stale : List GoString}
    (hstale : (rangeOf (db.zsets key)).filter (fun id => (db.jobs.get? id).isNone) = stale) :
    db.cleaned key = db.setZset key ((db.zsets key).filterKeys fun id => id ∉ stale) := by
  unfold Redis.cleaned Table.filterKeys
  congr 2
  apply List.filter_congr
  intro e he
  have hlisted : e.1 ∈ rangeOf (db.zsets key) := by
    rw [rangeOf_eq]
    exact List.mem_map_of_mem ((List.mem_insertionSort _).mpr he)
  rw [← hstale]
  cases hjob : db.jobs.get? e.1 with
  | none => simp [hjob, hlisted]
  | some job => simp [hjob]

/-- Cleaning up removes the members that have no record. -/
theorem run_cleanStaleSortedSetMembers_missing :
    ∃ n, queries.run (cleanStaleSortedSetMembers key) db = (db.cleaned key, n) := by
  rw [cleanStaleSortedSetMembers, run_ask]
  simp only [Redis.query, elementsBetween_all]
  rw [Machine.run_bind_of (run_staleMembers_missing _)]
  cases hstale : (rangeOf (db.zsets key)).filter fun id => (db.jobs.get? id).isNone with
  | nil =>
      have hkept : (db.zsets key).filterKeys (fun id => id ∉ ([] : List GoString)) =
          db.zsets key := by
        simp [Table.filterKeys]
      rw [cleaned_eq hstale, hkept, Redis.setZset, Function.update_eq_self]
      exact ⟨0, rfl⟩
  | cons id ids =>
      rw [cleaned_eq hstale, ← foldl_erase]
      exact ⟨_, rfl⟩

/-- A cleaned sorted set keeps the records and the order of its other members. -/
theorem rangeOf_cleaned : rangeOf ((db.cleaned key).zsets key) =
    (rangeOf (db.zsets key)).filter fun id => (db.jobs.get? id).isSome := by
  rw [Redis.cleaned, Redis.setZset]
  simp only [Function.update_self]
  exact rangeOf_filterKeys _ _

/-- The first page of the view of a sorted set. -/
theorem run_memberJobs_first (noun : GoString) {standard : Int}
    {range : Int → Int → ViewBody (Option (List GoString))} {order : List GoString → List GoString}
    (horder : ∀ ids, (order ids).Perm ids)
    (hfilter : ∀ ids, order (ids.filter fun id => (db.jobs.get? id).isSome) =
      (order ids).filter fun id => (db.jobs.get? id).isSome)
    (hrange : ∀ db start stop, queries.run (range start stop) db =
      (db, some (elementsBetween (order (rangeOf (db.zsets key))) start stop)))
    (hstandard : 1 ≤ standard) :
    ∃ total, queries.run (memberJobs key noun standard range 0 10000) db = (db.cleaned key,
      .page (((order (rangeOf (db.zsets key))).filterMap db.jobs.get?).take 100) total) := by
  obtain ⟨n, hclean⟩ := @run_cleanStaleSortedSetMembers_missing db key
  have hlive : ∀ id ∈ rangeOf ((db.cleaned key).zsets key),
      ((db.cleaned key).jobs.get? id).isSome := by
    intro id hid
    rw [rangeOf_cleaned] at hid
    exact (List.mem_filter.mp hid).2
  have hagain : queries.run (memberJobs key noun standard range 0 10000) db =
      queries.run (memberJobs key noun standard range 0 10000) (db.cleaned key) := by
    rw [memberJobs, Machine.run_bind_of hclean,
      Machine.run_bind_of (run_cleanStaleSortedSetMembers hlive)]
  have hclamp : clampLimit standard 10000 = 100 := by
    rw [clampLimit, if_neg (by decide), if_pos (by decide)]
  have hloaded : ∀ ids : List GoString, (ids.filter fun id => (db.jobs.get? id).isSome).filterMap
      (db.cleaned key).jobs.get? = ids.filterMap db.jobs.get? := by
    intro ids
    rw [List.filterMap_filter]
    congr 1
    ext1 id
    change (if (db.jobs.get? id).isSome = true then db.jobs.get? id else none) = _
    cases db.jobs.get? id <;> rfl
  rw [hagain, run_memberJobs hlive (horder _) (hrange _) (Int.le_refl 0) hstandard, hclamp,
    rangeOf_cleaned, hfilter, hloaded]
  exact ⟨_, rfl⟩

/-- The first page of a paginated view is what it sees. -/
theorem run_paginated_first (v : View) :
    ∃ db' total, queries.run (v.paginated jobType 0 10000) db =
      (db', .page (v.seen db jobType) total) := by
  cases v with
  | pending => exact ⟨_, _, run_pendingJobs (Int.le_refl 0)⟩
  | processing =>
      obtain ⟨total, hrun⟩ := @run_memberJobs_first db (.processing jobType)
        "processing jobs".toList 20 (fun start stop => ask (.zrange (.processing jobType) start stop))
        id List.Perm.refl (fun _ => rfl) (fun _ _ _ => rfl) (by decide)
      exact ⟨_, total, hrun⟩
  | dead =>
      obtain ⟨total, hrun⟩ := @run_memberJobs_first db (.dead jobType)
        "dead jobs".toList 50 (fun start stop => ask (.zrevrange (.dead jobType) start stop))
        List.reverse List.reverse_perm (fun _ => List.filter_reverse.symm) (fun _ _ _ => rfl)
        (by decide)
      exact ⟨_, total, hrun⟩

/-- A view of a workspace slices the jobs that it has read. -/
theorem run_forWorkspace_first (v : View) (offset limit : Int) :
    (queries.run (v.forWorkspace jobType workspaceID offset limit) db).2 =
      slicePage (filterJobsByWorkspace (v.seen db jobType) workspaceID) offset limit := by
  obtain ⟨db', total, hrun⟩ := @run_paginated_first db jobType v
  rw [View.forWorkspace_eq, forWorkspace, Machine.run_bind_of hrun, slicePage]
  dsimp only
  by_cases hbeyond : offset ≥ (filterJobsByWorkspace (v.seen db jobType) workspaceID).length
  · rw [if_pos hbeyond, if_pos hbeyond]
    rfl
  · rw [if_neg hbeyond, if_neg hbeyond]
    generalize sliceJobs _ offset _ = slice
    cases slice with
    | none => rfl
    | some jobs => rfl

/-- A view reads at most a hundred jobs. -/
theorem length_seen_le (v : View) : (v.seen db jobType).length ≤ 100 := by
  cases v with
  | pending => exact (List.length_filterMap_le _ _).trans (List.length_take_le 100 _)
  | processing => exact List.length_take_le 100 _
  | dead => exact List.length_take_le 100 _

end Reading

/-! ## Pages -/

/-- The elements of a list from one position up to another. -/
def positions {α : Type} (xs : List α) (start stop : Int) : List α :=
  (xs.drop start.toNat).take (stop - start).toNat

section Pages

variable {filtered : List Job} {offset limit : Int}

/-- A negative offset is out of range. -/
theorem slicePage_of_neg (hneg : offset < 0) : slicePage filtered offset limit = .panicked := by
  have hbeyond : ¬offset ≥ filtered.length := by omega
  have hnone : ∀ stop, sliceJobs filtered offset stop = none :=
    fun stop => if_neg fun hrange => Int.not_le.mpr hneg hrange.1
  rw [slicePage, if_neg hbeyond, hnone]

/-- Past the end there are no jobs. -/
theorem slicePage_of_le (hbeyond : filtered.length ≤ offset) :
    slicePage filtered offset limit = .page [] filtered.length :=
  if_pos hbeyond

/-- An offset inside the list gives the jobs from there on. -/
theorem slicePage_of_lt (hoffset : 0 ≤ offset) (hin : offset < filtered.length)
    (hlimit : 1 ≤ limit) (hfit : filtered.length + limit ≤ 2 ^ 63) :
    slicePage filtered offset limit =
      .page ((filtered.drop offset.toNat).take limit.toNat) filtered.length := by
  have hsum : int64 (offset + limit) = offset + limit := int64_of_range (by omega) (by omega)
  rw [slicePage, if_neg (Int.not_le.mpr hin), hsum]
  by_cases hlong : offset + limit > filtered.length
  · rw [if_pos hlong, sliceJobs, if_pos ⟨hoffset, by omega, by omega⟩]
    dsimp only
    rw [List.take_of_length_le, List.take_of_length_le]
    · rw [List.length_drop]
      omega
    · rw [List.length_drop]
      omega
  · rw [if_neg hlong, sliceJobs, if_pos ⟨hoffset, by omega, by omega⟩]
    dsimp only
    rw [show (offset + limit - offset).toNat = limit.toNat by omega]

/-- A slice is a page with the number of jobs as its total, or out of range. -/
theorem slicePage_cases (filtered : List Job) (offset limit : Int) :
    slicePage filtered offset limit = .panicked ∨
      ∃ jobs, slicePage filtered offset limit = .page jobs filtered.length := by
  unfold slicePage
  split_ifs
  · exact Or.inr ⟨_, rfl⟩
  · split
    · exact Or.inr ⟨_, rfl⟩
    · exact Or.inl rfl
  · split
    · exact Or.inr ⟨_, rfl⟩
    · exact Or.inl rfl

/-- The page whose offset is a given number, and the slice at the wrapped offset. -/
theorem slicePage_wrapped_iff {start : Int} (hstart : 0 ≤ start) (hlimit : 1 ≤ limit)
    (hhundred : limit ≤ 100) (hshort : filtered.length ≤ 100) :
    slicePage filtered (int64 start) limit =
        .page (positions filtered start (start + limit)) filtered.length ↔
      start < 2 ^ 63 ∨ filtered.length ≤ int64 start := by
  have hwidth : (start + limit - start).toNat = limit.toNat := by omega
  rw [positions, hwidth]
  by_cases hfits : start < 2 ^ 63
  · refine iff_of_true ?_ (Or.inl hfits)
    rw [int64_of_range (by omega) hfits]
    by_cases hin : start < filtered.length
    · exact slicePage_of_lt hstart hin hlimit (by omega)
    · rw [slicePage_of_le (by omega), List.drop_eq_nil_of_le (by omega), List.take_nil]
  · have hpast : filtered.drop start.toNat = [] := List.drop_eq_nil_of_le (by omega)
    rw [hpast, List.take_nil]
    rcases lt_or_ge (int64 start) filtered.length with hin | hbeyond
    · refine iff_of_false ?_ (by omega)
      rcases lt_or_ge (int64 start) 0 with hneg | hoffset
      · simp [slicePage_of_neg hneg]
      · -- The slice begins inside the list, so it is not empty.
        rw [slicePage_of_lt hoffset hin hlimit (by omega)]
        intro hpage
        injection hpage with hjobs _
        have hlength := congrArg List.length hjobs
        rw [List.length_take, List.length_drop, List.length_nil] at hlength
        omega
    · exact iff_of_true (slicePage_of_le hbeyond) (Or.inr hbeyond)

end Pages

/-! ## Requests -/

/-- The offset of the page that a request asks for, as a number. -/
def pageStart (page limit : GoString) : Int :=
  ((parsePagination page limit).1 - 1) * (parsePagination page limit).2

/-- The page and the limit are in their ranges. -/
theorem parsePagination_range (page limit : GoString) :
    1 ≤ (parsePagination page limit).1 ∧ (parsePagination page limit).1 < 2 ^ 63 ∧
      1 ≤ (parsePagination page limit).2 ∧ (parsePagination page limit).2 ≤ 100 := by
  have hpage := (atoi_range page).2
  unfold parsePagination
  dsimp only
  refine ⟨?_, ?_, ?_, ?_⟩
  · split_ifs <;> omega
  · split_ifs <;> omega
  · split_ifs <;> omega
  · split_ifs <;> omega

/-- The request does not panic, and the jobs that it gets are those of its page. -/
def PageExact (configured : Bool) (db : Redis)
    (workspaceID jobType status page limit : GoString) : Prop :=
  let response :=
    (queries.run (getQueueJobs configured workspaceID jobType status page limit) db).2
  response ≠ .panicked ∧
    ∀ v jobs number size total, viewOf status = some v →
      response = .jobs jobs number size total →
      (number, size) = parsePagination page limit ∧
        total = (filterJobsByWorkspace (v.seen db jobType) workspaceID).length ∧
        jobs = positions (filterJobsByWorkspace (v.seen db jobType) workspaceID)
          ((number - 1) * size) (number * size)

section Requests

variable {configured : Bool} {db : Redis} {workspaceID jobType status page limit : GoString}
  {v : View}

/-- A request for the jobs of a view. -/
theorem run_getQueueJobs (hconfigured : configured = true) (htype : jobType ∈ validJobTypes)
    (hstatus : viewOf status = some v) :
    (queries.run (getQueueJobs configured workspaceID jobType status page limit) db).2 =
      respond (parsePagination page limit).1 (parsePagination page limit).2
        (slicePage (filterJobsByWorkspace (v.seen db jobType) workspaceID)
          (int64 (pageStart page limit)) (parsePagination page limit).2) := by
  have hrange := parsePagination_range page limit
  have htype' : jobType ≠ [] := by
    rintro rfl
    simp [validJobTypes] at htype
  have hstatus' : status ≠ [] := by
    rintro rfl
    simp [viewOf] at hstatus
  have hpred : int64 ((parsePagination page limit).1 - 1) = (parsePagination page limit).1 - 1 :=
    int64_of_range (by omega) (by omega)
  rw [getQueueJobs, if_neg (by simp [hconfigured]), if_neg htype', if_neg (not_not.mpr htype),
    if_neg hstatus', hstatus]
  dsimp only
  rw [hpred, Machine.run_bind, run_forWorkspace_first]
  rfl

/-- A request that is refused. -/
theorem run_getQueueJobs_refused
    (hrefused : ¬(configured = true ∧ jobType ∈ validJobTypes ∧ (viewOf status).isSome)) :
    ∃ code message,
      (queries.run (getQueueJobs configured workspaceID jobType status page limit) db).2 =
        .error code message := by
  unfold getQueueJobs
  by_cases hconfigured : configured = false
  · rw [if_pos hconfigured]
    exact ⟨_, _, rfl⟩
  by_cases hempty : jobType = []
  · rw [if_neg hconfigured, if_pos hempty]
    exact ⟨_, _, rfl⟩
  by_cases htype : jobType ∉ validJobTypes
  · rw [if_neg hconfigured, if_neg hempty, if_pos htype]
    exact ⟨_, _, rfl⟩
  rw [if_neg hconfigured, if_neg hempty, if_neg htype]
  by_cases hblank : status = []
  · rw [if_pos hblank]
    exact ⟨_, _, rfl⟩
  · rw [if_neg hblank]
    cases hstatus : viewOf status with
    | none => exact ⟨_, _, rfl⟩
    | some v => exact absurd ⟨by simpa using hconfigured, not_not.mp htype, by simp [hstatus]⟩ hrefused

/-- A request gets the jobs of its page and does not panic if and only if the offset of the page
is below {lit}`2 ^ 63` or wraps to a number past the end of the workspace's jobs. -/
theorem page_exact_iff (configured : Bool) (db : Redis)
    (workspaceID jobType status page limit : GoString) :
    PageExact configured db workspaceID jobType status page limit ↔
      ∀ v, configured = true → jobType ∈ validJobTypes → viewOf status = some v →
        pageStart page limit < 2 ^ 63 ∨
          (filterJobsByWorkspace (v.seen db jobType) workspaceID).length ≤
            int64 (pageStart page limit) := by
  obtain ⟨hpage, -, hlimit, hhundred⟩ := parsePagination_range page limit
  have hstart : 0 ≤ pageStart page limit := Int.mul_nonneg (by omega) (by omega)
  have hstop : (parsePagination page limit).1 * (parsePagination page limit).2 =
      pageStart page limit + (parsePagination page limit).2 := by
    unfold pageStart
    ring
  have hshort : ∀ v : View, (filterJobsByWorkspace (v.seen db jobType) workspaceID).length ≤ 100 :=
    fun v => (List.length_filter_le _ _).trans (length_seen_le v)
  constructor
  · rintro ⟨hsafe, hjobs⟩ v hconfigured htype hstatus
    have hrun := @run_getQueueJobs configured db workspaceID jobType status page limit v
      hconfigured htype hstatus
    rw [← slicePage_wrapped_iff hstart hlimit hhundred (hshort v), ← hstop]
    rcases slicePage_cases (filterJobsByWorkspace (v.seen db jobType) workspaceID)
      (int64 (pageStart page limit)) (parsePagination page limit).2 with hpanic | ⟨jobs, hslice⟩
    · rw [hpanic] at hrun
      exact absurd hrun hsafe
    · rw [hslice] at hrun ⊢
      have hexact := (hjobs v _ _ _ _ hstatus hrun).2.2
      rw [hexact]
      rfl
  · intro hcondition
    by_cases hserved : configured = true ∧ jobType ∈ validJobTypes ∧ (viewOf status).isSome
    · obtain ⟨hconfigured, htype, hview⟩ := hserved
      obtain ⟨v, hstatus⟩ := Option.isSome_iff_exists.mp hview
      have hslice := (slicePage_wrapped_iff hstart hlimit hhundred (hshort v)).mpr
        (hcondition v hconfigured htype hstatus)
      have hrun := @run_getQueueJobs configured db workspaceID jobType status page limit v
        hconfigured htype hstatus
      rw [hslice, ← hstop] at hrun
      refine ⟨by simp [hrun, respond], ?_⟩
      intro v' jobs number size total hstatus' hjobs
      rw [hstatus, Option.some.injEq] at hstatus'
      rw [hrun] at hjobs
      injection hjobs with hjobs hnumber hsize htotal
      subst hstatus' hnumber hsize
      exact ⟨rfl, htotal.symm, hjobs.symm⟩
    · obtain ⟨code, message, hrun⟩ := @run_getQueueJobs_refused configured db workspaceID jobType
        status page limit hserved
      refine ⟨by simp [hrun], ?_⟩
      intro v jobs number size total _ hjobs
      rw [hrun] at hjobs
      cases hjobs

/-- The page whose offset is {lit}`2 ^ 63` panics, even when the queue is empty. -/
theorem page_panics :
    ¬PageExact true .empty "w".toList "diff".toList "pending".toList
      "4611686018427387905".toList "2".toList := by
  rintro ⟨hsafe, -⟩
  exact hsafe (by decide +kernel)

end Requests

end Queue
end Veilence
