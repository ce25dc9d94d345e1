import Veilence.Foundation.Table
import Veilence.Foundation.TokenBucket
import Veilence.Go.Text

/-!
# The rate limiter

Each identity has a bucket of tokens, made at its first request.  A goroutine removes the buckets
that have not been used for ten minutes: it reads when a bucket was last used and, after it has
given up the lock of the bucket, deletes it.  A bucket that has not been used for a minute is full,
as a new one is, so its removal is not noticed; but a request between the reading and the deletion
takes a token from a bucket that is deleted then.

Times are rational numbers of seconds.  Requests are processed one after another; the reading and
the deletion of the cleanup are steps of their own.

Main results:

- Theorem {lit}`enforced_of_undisturbed`: in every run in which no request comes between the
  reading of its bucket and the deletion, the limiter enforces its rate.
- Theorem {lit}`disturbed_exceeds`: a run that exceeds it.
-/

namespace Veilence
namespace Restapi

open Go Foundation

/-! ## Buckets -/

/-- {lit}`RateLimiter`, by its requests per minute. -/
structure RateLimiter where
  limit : Nat

/-- The tokens per second. -/
def RateLimiter.rate (rl : RateLimiter) : Rat :=
  rl.limit / 60

/-- The greatest number of tokens. -/
def RateLimiter.capacity (rl : RateLimiter) : Rat :=
  rl.limit

/-- {lit}`bucket`. -/
structure Bucket where
  tokens : Rat
  last : Rat
deriving DecidableEq

/-- What {lit}`allow` returns. -/
structure Decision where
  allowed : Bool
  remaining : Int
  retryAfter : Rat
  resetAt : Rat
deriving DecidableEq

/-- A conversion to an integer, which drops the fraction. -/
def truncate (x : Rat) : Int :=
  if 0 ≤ x then ⌊x⌋ else ⌈x⌉

/-- {lit}`allow` for the bucket of the identity. -/
def Bucket.allow (rl : RateLimiter) (b : Bucket) (now : Rat) : Bucket × Decision :=
  let elapsed := now - b.last
  let refilled := b.tokens + elapsed * rl.rate
  let tokens := if rl.capacity < refilled then rl.capacity else refilled
  let deficit := rl.capacity - tokens
  let resetAt := now + truncate (deficit / rl.rate * 1000) / 1000
  if 1 ≤ tokens then (⟨tokens - 1, now⟩, ⟨true, truncate (tokens - 1), 0, resetAt⟩)
  else (⟨tokens, now⟩, ⟨false, 0, (1 - tokens) / rl.rate, resetAt⟩)

/-- The headers that {lit}`Limit` sets, and whether the request is handed on. -/
structure LimitResponse where
  limit : Nat
  remaining : Int
  reset : Int
  retryAfter : Option Int
deriving DecidableEq

/-- {lit}`Limit` after {lit}`allow`; a request without {lit}`Retry-After` is handed on. -/
def RateLimiter.respond (rl : RateLimiter) (d : Decision) : LimitResponse where
  limit := rl.limit
  remaining := d.remaining
  reset := ⌊d.resetAt⌋
  retryAfter := if d.allowed then none else some ⌈d.retryAfter⌉

/-! ## The limiter -/

/-- The buckets, and the identity whose bucket the cleanup has found unused and deletes next. -/
structure Limiter where
  buckets : Table GoString Bucket
  unused : Option GoString

/-- A limiter without buckets. -/
def Limiter.empty : Limiter :=
  ⟨.empty, none⟩

/-- A request of an identity, with the readings of the clock for a new bucket and for the request;
the cleanup reads a bucket; it deletes the one that it has found unused. -/
inductive LimitEvent where
  | request (identity : GoString) (created now : Rat)
  | check (identity : GoString) (now : Rat)
  | delete
deriving DecidableEq

/-- {lit}`LoadOrStore` with a new bucket: the bucket of an identity. -/
def Limiter.loadOrStore (rl : RateLimiter) (s : Limiter) (identity : GoString) (created : Rat) :
    Bucket :=
  (s.buckets.get? identity).getD ⟨rl.capacity, created⟩

/-- The limiter after an event.  The cleanup is one goroutine, so it reads no bucket before it has
deleted the one that it has found unused. -/
def Limiter.step (rl : RateLimiter) (s : Limiter) : LimitEvent → Limiter
  | .request identity created now =>
      { s with
        buckets := s.buckets.insert identity ((s.loadOrStore rl identity created).allow rl now).1 }
  | .check identity now =>
      match s.unused, s.buckets.get? identity with
      | none, some b => if 10 * 60 < now - b.last then { s with unused := some identity } else s
      | _, _ => s
  | .delete =>
      match s.unused with
      | some identity => ⟨s.buckets.erase identity, none⟩
      | none => s

/-- A decision for an identity at a time. -/
structure LogEntry where
  identity : GoString
  now : Rat
  decision : Decision
deriving DecidableEq

/-- The decision of an event. -/
def Limiter.decide (rl : RateLimiter) (s : Limiter) : LimitEvent → List LogEntry
  | .request identity created now =>
      [⟨identity, now, ((s.loadOrStore rl identity created).allow rl now).2⟩]
  | .check .. => []
  | .delete => []

/-- The decisions of a run. -/
def Limiter.log (rl : RateLimiter) (s : Limiter) : List LimitEvent → List LogEntry
  | [] => []
  | e :: events => s.decide rl e ++ (s.step rl e).log rl events

/-- The limiter after a run. -/
def Limiter.after (rl : RateLimiter) (s : Limiter) (events : List LimitEvent) : Limiter :=
  events.foldl (Limiter.step rl) s

/-- A request is decided first. -/
theorem log_request (rl : RateLimiter) (s : Limiter) (identity : GoString) (created now : Rat)
    (events : List LimitEvent) :
    s.log rl (.request identity created now :: events) =
      ⟨identity, now, ((s.loadOrStore rl identity created).allow rl now).2⟩ ::
        (s.step rl (.request identity created now)).log rl events :=
  rfl

/-! ## Runs -/

/-- The readings of the clock. -/
def LimitEvent.readings : LimitEvent → List Rat
  | .request _ created now => [created, now]
  | .check _ now => [now]
  | .delete => []

/-- The readings of the clock do not decrease. -/
def Timely (events : List LimitEvent) : Prop :=
  (events.flatMap LimitEvent.readings).Pairwise (· ≤ ·)

/-- A request, of any identity. -/
def LimitEvent.isRequest : LimitEvent → Bool
  | .request .. => true
  | _ => false

/-- A request of an identity. -/
def LimitEvent.isRequestOf (identity : GoString) : LimitEvent → Bool
  | .request identity' .. => identity' = identity
  | _ => false

/-- No request of an identity comes after the cleanup has found its bucket unused and before it
has deleted it. -/
def undisturbed (rl : RateLimiter) (s : Limiter) : List LimitEvent → Bool
  | [] => true
  | e :: events =>
      (s.unused.all fun identity => !e.isRequestOf identity) && undisturbed rl (s.step rl e) events

/-- The number of allowed requests of an identity within a time. -/
def allowedIn (identity : GoString) (first last : Rat) (log : List LogEntry) : Nat :=
  log.countP fun e =>
    e.identity = identity ∧ e.decision.allowed ∧ first ≤ e.now ∧ e.now ≤ last

/-- A run enforces the rate: the allowed requests of an identity within a time are bounded, the
tokens stay between zero and the capacity, the cleanup changes no decision, no other identity
changes a decision, and a rejected client that waits as it is told is allowed next. -/
structure Enforced (rl : RateLimiter) (events : List LimitEvent) : Prop where
  window : ∀ identity first last, first ≤ last →
    (allowedIn identity first last (Limiter.empty.log rl events) : Rat) ≤
      rl.capacity + rl.rate * (last - first)
  within : ∀ front back, events = front ++ back → ∀ identity b,
    (Limiter.empty.after rl front).buckets.get? identity = some b →
      0 ≤ b.tokens ∧ b.tokens ≤ rl.capacity
  eviction : Limiter.empty.log rl events =
    Limiter.empty.log rl (events.filter LimitEvent.isRequest)
  isolated : ∀ identity, (Limiter.empty.log rl events).filter (fun e => e.identity = identity) =
    Limiter.empty.log rl (events.filter (LimitEvent.isRequestOf identity))
  retry : ∀ front identity created now middle created' now' back seconds,
    events = front ++ .request identity created now ::
      (middle ++ .request identity created' now' :: back) →
    (∀ e ∈ middle, e.isRequestOf identity = false) →
    (∃ d, (Limiter.empty.after rl front).decide rl (.request identity created now) =
      [⟨identity, now, d⟩] ∧ (rl.respond d).retryAfter = some seconds) →
    now + seconds ≤ now' →
    ∃ d, (Limiter.empty.after rl (front ++ .request identity created now :: middle)).decide rl
      (.request identity created' now') = [⟨identity, now', d⟩] ∧ d.allowed = true

/-! ## One bucket -/

section Buckets

variable {rl : RateLimiter} {b : Bucket} {now : Rat}

/-- The limiter as a token bucket. -/
def RateLimiter.bucket (rl : RateLimiter) : TokenBucket Rat :=
  ⟨rl.rate, rl.capacity⟩

/-- The level of a bucket. -/
def Bucket.level (b : Bucket) : Level Rat :=
  ⟨b.tokens, b.last⟩

/-- The tokens stay between zero and the capacity. -/
def Bucket.Within (rl : RateLimiter) (b : Bucket) : Prop :=
  0 ≤ b.tokens ∧ b.tokens ≤ rl.capacity

theorem rate_pos (hlimit : 1 ≤ rl.limit) : 0 < rl.rate := by
  unfold RateLimiter.rate
  have hpos : (0 : Rat) < rl.limit := by exact_mod_cast hlimit
  exact div_pos hpos (by norm_num)

theorem one_le_capacity (hlimit : 1 ≤ rl.limit) : 1 ≤ rl.capacity := by
  unfold RateLimiter.capacity
  exact_mod_cast hlimit

/-- The tokens of a request are those of the refilled bucket. -/
theorem capped_eq_refill (rl : RateLimiter) (b : Bucket) (now : Rat) :
    (if rl.capacity < b.tokens + (now - b.last) * rl.rate then rl.capacity
      else b.tokens + (now - b.last) * rl.rate) = rl.bucket.refill b.level now := by
  unfold TokenBucket.refill RateLimiter.bucket Bucket.level
  split_ifs with hfull
  · exact (min_eq_right hfull.le).symm
  · exact (min_eq_left (not_lt.mp hfull)).symm

/-- {lit}`allow` is a demand on a token bucket. -/
theorem level_allow (rl : RateLimiter) (b : Bucket) (now : Rat) :
    (b.allow rl now).1.level = (rl.bucket.take b.level now).1 := by
  unfold Bucket.allow TokenBucket.take
  dsimp only
  rw [capped_eq_refill]
  split_ifs
  · rfl
  · rfl

theorem allowed_allow (rl : RateLimiter) (b : Bucket) (now : Rat) :
    (b.allow rl now).2.allowed = (rl.bucket.take b.level now).2 := by
  unfold Bucket.allow TokenBucket.take
  dsimp only
  rw [capped_eq_refill]
  split_ifs
  · rfl
  · rfl

theorem last_allow (rl : RateLimiter) (b : Bucket) (now : Rat) : (b.allow rl now).1.last = now := by
  have hlast := congrArg Level.last (level_allow rl b now)
  rwa [TokenBucket.last_take] at hlast

theorem within_allow (hlimit : 1 ≤ rl.limit) (hb : b.Within rl) (hnow : b.last ≤ now) :
    (b.allow rl now).1.Within rl := by
  have hlevel := TokenBucket.level_take (p := rl.bucket) (b := b.level) (rate_pos hlimit).le hb hnow
  rw [← level_allow] at hlevel
  exact hlevel

/-- A rejected request is told how long a token is missing. -/
theorem retryAfter_allow (hrejected : (b.allow rl now).2.allowed = false) :
    (b.allow rl now).2.retryAfter = (1 - (b.allow rl now).1.tokens) / rl.rate := by
  unfold Bucket.allow at hrejected ⊢
  dsimp only at hrejected ⊢
  split_ifs at hrejected ⊢
  · rfl
  · rfl

/-- A request with a full bucket. -/
theorem allow_of_full {b' : Bucket}
    (hfull : rl.capacity ≤ b.tokens + (now - b.last) * rl.rate)
    (hfull' : rl.capacity ≤ b'.tokens + (now - b'.last) * rl.rate) :
    b.allow rl now = b'.allow rl now := by
  have hcapped : ∀ refilled : Rat, rl.capacity ≤ refilled →
      (if rl.capacity < refilled then rl.capacity else refilled) = rl.capacity := by
    intro refilled hle
    split_ifs with hlt
    · rfl
    · exact le_antisymm (not_lt.mp hlt) hle
  unfold Bucket.allow
  dsimp only
  rw [hcapped _ hfull, hcapped _ hfull']

/-- A bucket that has not been used for ten minutes is as good as a new one. -/
theorem allow_of_unused (hlimit : 1 ≤ rl.limit) (hb : 0 ≤ b.tokens) {created : Rat}
    (hunused : b.last + 10 * 60 < now) (hcreated : created ≤ now) :
    b.allow rl now = (⟨rl.capacity, created⟩ : Bucket).allow rl now := by
  have hrate := rate_pos hlimit
  have hminute : rl.capacity = 60 * rl.rate := by
    unfold RateLimiter.capacity RateLimiter.rate
    ring
  apply allow_of_full
  · have hgain : 10 * 60 * rl.rate ≤ (now - b.last) * rl.rate := by
      apply mul_le_mul_of_nonneg_right _ hrate.le
      linarith
    linarith
  · have hgain : 0 ≤ (now - created) * rl.rate := mul_nonneg (sub_nonneg.mpr hcreated) hrate.le
    dsimp only
    linarith

end Buckets

/-! ## Runs with and without the cleanup -/

section Simulation

variable {rl : RateLimiter} {s s' : Limiter} {clock : Rat} {events : List LimitEvent}

/-- The buckets are within their bounds and have been used in the past. -/
def Limiter.Sane (rl : RateLimiter) (s : Limiter) (clock : Rat) : Prop :=
  ∀ identity b, s.buckets.get? identity = some b → b.Within rl ∧ b.last ≤ clock

/-- The bucket of a request is within its bounds and has been used in the past. -/
theorem sane_loadOrStore (hlimit : 1 ≤ rl.limit) (hsane : s.Sane rl clock) (identity : GoString)
    {created now : Rat} (hcreated : clock ≤ created) (hnow : created ≤ now) :
    (s.loadOrStore rl identity created).Within rl ∧
      (s.loadOrStore rl identity created).last ≤ now := by
  unfold Limiter.loadOrStore
  cases hget : s.buckets.get? identity with
  | none =>
      have hcapacity := one_le_capacity hlimit
      exact ⟨⟨zero_le_one.trans hcapacity, le_rfl⟩, hnow⟩
  | some b =>
      obtain ⟨hwithin, hlast⟩ := hsane identity b hget
      exact ⟨hwithin, hlast.trans (hcreated.trans hnow)⟩

theorem Limiter.Sane.mono (hsane : s.Sane rl clock) {now : Rat} (hnow : clock ≤ now) :
    s.Sane rl now := by
  intro identity b hget
  exact ⟨(hsane identity b hget).1, (hsane identity b hget).2.trans hnow⟩

/-- A request puts the bucket after it into the place of its identity. -/
theorem get?_step_request (identity : GoString) (created now : Rat) (other : GoString) :
    (s.step rl (.request identity created now)).buckets.get? other =
      if other = identity then some ((s.loadOrStore rl identity created).allow rl now).1
      else s.buckets.get? other :=
  Table.get?_insert ..

theorem sane_request (hlimit : 1 ≤ rl.limit) (hsane : s.Sane rl clock) (identity : GoString)
    {created now : Rat} (hcreated : clock ≤ created) (hnow : created ≤ now) :
    (s.step rl (.request identity created now)).Sane rl now := by
  obtain ⟨hwithin, hlast⟩ := sane_loadOrStore hlimit hsane identity hcreated hnow
  intro other b hget
  rw [get?_step_request] at hget
  split_ifs at hget
  · obtain rfl := Option.some.inj hget
    exact ⟨within_allow hlimit hwithin hlast, (last_allow ..).le⟩
  · exact hsane.mono (hcreated.trans hnow) other b hget

/-- The cleanup removes buckets only. -/
theorem get?_of_step_cleanup {e : LimitEvent} (hcleanup : e.isRequest = false) {other : GoString}
    {b : Bucket} (hget : (s.step rl e).buckets.get? other = some b) :
    s.buckets.get? other = some b := by
  cases e with
  | request identity created now => exact absurd hcleanup (Bool.false_ne_true ∘ Eq.symm)
  | check identity now =>
      simp only [Limiter.step] at hget
      split at hget
      · split_ifs at hget
        · exact hget
        · exact hget
      · exact hget
  | delete =>
      simp only [Limiter.step] at hget
      split at hget
      · rw [Table.get?_erase] at hget
        split_ifs at hget
        exact hget
      · exact hget

/-- The clock after an event. -/
def LimitEvent.clockAfter (clock : Rat) : LimitEvent → Rat
  | .request _ _ now => now
  | .check _ now => now
  | .delete => clock

theorem sane_step (hlimit : 1 ≤ rl.limit) (hsane : s.Sane rl clock) {e : LimitEvent}
    (hsorted : (clock :: e.readings).Pairwise (· ≤ ·)) :
    (s.step rl e).Sane rl (e.clockAfter clock) := by
  cases e with
  | request identity created now =>
      simp only [LimitEvent.readings, List.pairwise_cons, List.mem_cons, forall_eq_or_imp] at hsorted
      exact sane_request hlimit hsane identity hsorted.1.1 hsorted.2.1.1
  | check identity now =>
      simp only [LimitEvent.readings, List.pairwise_cons, List.mem_cons, forall_eq_or_imp] at hsorted
      intro other b hget
      exact hsane.mono hsorted.1.1 other b (get?_of_step_cleanup rfl hget)
  | delete =>
      intro other b hget
      exact hsane other b (get?_of_step_cleanup rfl hget)

/-- The readings after an event come after its clock. -/
theorem sorted_rest {e : LimitEvent}
    (hsorted : (clock :: (e :: events).flatMap LimitEvent.readings).Pairwise (· ≤ ·)) :
    (clock :: e.readings).Pairwise (· ≤ ·) ∧
      (e.clockAfter clock :: events.flatMap LimitEvent.readings).Pairwise (· ≤ ·) := by
  rw [List.flatMap_cons] at hsorted
  constructor
  · exact hsorted.sublist ((List.sublist_append_left _ _).cons_cons clock)
  · cases e with
    | request identity created now =>
        exact hsorted.sublist (((List.Sublist.refl _).cons created).cons clock)
    | check identity now => exact hsorted.sublist ((List.Sublist.refl _).cons clock)
    | delete => exact hsorted

/-- The buckets stay within their bounds. -/
theorem sane_after (hlimit : 1 ≤ rl.limit) (hsane : s.Sane rl clock)
    (hsorted : (clock :: events.flatMap LimitEvent.readings).Pairwise (· ≤ ·)) :
    ∃ clock', (s.after rl events).Sane rl clock' := by
  induction events generalizing s clock with
  | nil => exact ⟨clock, hsane⟩
  | cons e events ih =>
      obtain ⟨hfirst, hrest⟩ := sorted_rest hsorted
      exact ih (sane_step hlimit hsane hfirst) hrest

/-- A limiter follows one without a cleanup: its buckets are those of the other, and the buckets
that it lacks or is about to delete have not been used for ten minutes. -/
structure Follows (rl : RateLimiter) (s s' : Limiter) (clock : Rat) : Prop where
  sane : s'.Sane rl clock
  stored : ∀ identity b, s.buckets.get? identity = some b → s'.buckets.get? identity = some b
  removed : ∀ identity b, s.buckets.get? identity = none → s'.buckets.get? identity = some b →
    b.last + 10 * 60 < clock
  unused : ∀ identity b, s.unused = some identity → s'.buckets.get? identity = some b →
    b.last + 10 * 60 < clock

/-- A request is decided alike, and leaves the same bucket. -/
theorem Follows.allow_eq (hlimit : 1 ≤ rl.limit) (hfollows : Follows rl s s' clock)
    (identity : GoString) {created now : Rat} (hcreated : clock ≤ created) (hnow : created ≤ now) :
    (s.loadOrStore rl identity created).allow rl now =
      (s'.loadOrStore rl identity created).allow rl now := by
  unfold Limiter.loadOrStore
  cases hget : s.buckets.get? identity with
  | some b => rw [hfollows.stored identity b hget]
  | none =>
      cases hget' : s'.buckets.get? identity with
      | none => rfl
      | some b =>
          have hunused := hfollows.removed identity b hget hget'
          have hb := (hfollows.sane identity b hget').1.1
          exact (allow_of_unused hlimit hb (hunused.trans_le (hcreated.trans hnow)) hnow).symm

/-- A request of an identity whose bucket is not about to be deleted. -/
theorem Follows.request (hlimit : 1 ≤ rl.limit) (hfollows : Follows rl s s' clock)
    (identity : GoString) {created now : Rat} (hcreated : clock ≤ created) (hnow : created ≤ now)
    (hundisturbed : s.unused ≠ some identity) :
    Follows rl (s.step rl (.request identity created now))
      (s'.step rl (.request identity created now)) now := by
  have hsame := hfollows.allow_eq hlimit identity hcreated hnow
  have hlater := hcreated.trans hnow
  refine ⟨sane_request hlimit hfollows.sane identity hcreated hnow, ?_, ?_, ?_⟩
  · intro other b hget
    rw [get?_step_request] at hget ⊢
    rw [← hsame]
    split_ifs at hget ⊢
    · exact hget
    · exact hfollows.stored other b hget
  · intro other b hget hget'
    rw [get?_step_request] at hget hget'
    split_ifs at hget hget'
    exact (hfollows.removed other b hget hget').trans_le hlater
  · intro other b hunused hget
    have hother : s.unused = some other := hunused
    rw [get?_step_request, if_neg] at hget
    · exact (hfollows.unused other b hother hget).trans_le hlater
    · intro heq
      exact hundisturbed (heq ▸ hother)

/-- The cleanup reads a bucket. -/
theorem Follows.check (hfollows : Follows rl s s' clock) (identity : GoString) {now : Rat}
    (hnow : clock ≤ now) : Follows rl (s.step rl (.check identity now)) s' now := by
  have hsame : Follows rl s s' now :=
    ⟨hfollows.sane.mono hnow, hfollows.stored,
      fun other b hget hget' => (hfollows.removed other b hget hget').trans_le hnow,
      fun other b hunused hget => (hfollows.unused other b hunused hget).trans_le hnow⟩
  simp only [Limiter.step]
  split
  · rename_i b hnone hget
    split_ifs with hidle
    · refine ⟨hsame.sane, hsame.stored, hsame.removed, ?_⟩
      intro other b' hunused hget'
      obtain rfl : identity = other := Option.some.inj hunused
      rw [hfollows.stored identity b hget] at hget'
      obtain rfl := Option.some.inj hget'
      linarith
    · exact hsame
  · exact hsame

/-- The cleanup deletes the bucket that it has found unused. -/
theorem Follows.delete (hfollows : Follows rl s s' clock) :
    Follows rl (s.step rl .delete) s' clock := by
  simp only [Limiter.step]
  split
  · rename_i identity hunused
    refine ⟨hfollows.sane, ?_, ?_, nofun⟩
    · intro other b hget
      rw [Table.get?_erase] at hget
      split_ifs at hget
      exact hfollows.stored other b hget
    · intro other b hget hget'
      rw [Table.get?_erase] at hget
      split_ifs at hget with hother
      · exact hfollows.unused other b (hother ▸ hunused) hget'
      · exact hfollows.removed other b hget hget'
  · exact hfollows

/-- In an undisturbed run the cleanup changes no decision. -/
theorem log_eq_of_follows (hlimit : 1 ≤ rl.limit) (hfollows : Follows rl s s' clock)
    (hsorted : (clock :: events.flatMap LimitEvent.readings).Pairwise (· ≤ ·))
    (hundisturbed : undisturbed rl s events = true) :
    s.log rl events = s'.log rl (events.filter LimitEvent.isRequest) := by
  induction events generalizing s s' clock with
  | nil => rfl
  | cons e events ih =>
      obtain ⟨hfirst, hrest⟩ := sorted_rest hsorted
      rw [undisturbed, Bool.and_eq_true] at hundisturbed
      cases e with
      | request identity created now =>
          simp only [LimitEvent.readings, List.pairwise_cons, List.mem_cons, forall_eq_or_imp]
            at hfirst
          have hfree : s.unused ≠ some identity := by
            intro heq
            rw [heq] at hundisturbed
            simp [LimitEvent.isRequestOf] at hundisturbed
          have hnext := hfollows.request hlimit identity hfirst.1.1 hfirst.2.1.1 hfree
          rw [List.filter_cons_of_pos rfl, log_request, log_request,
            ih hnext hrest hundisturbed.2,
            hfollows.allow_eq hlimit identity hfirst.1.1 hfirst.2.1.1]
      | check identity now =>
          simp only [LimitEvent.readings, List.pairwise_cons, List.mem_cons, forall_eq_or_imp]
            at hfirst
          exact ih (hfollows.check identity hfirst.1.1) hrest hundisturbed.2
      | delete => exact ih hfollows.delete hrest hundisturbed.2

end Simulation

/-! ## One identity -/

section Identities

variable {rl : RateLimiter} {s s' : Limiter} {identity : GoString} {events : List LimitEvent}

/-- The decisions for an identity are those of its own requests. -/
theorem filter_log (hrequests : ∀ e ∈ events, e.isRequest = true)
    (hsame : s.buckets.get? identity = s'.buckets.get? identity) :
    (s.log rl events).filter (fun e => e.identity = identity) =
      s'.log rl (events.filter (LimitEvent.isRequestOf identity)) := by
  induction events generalizing s s' with
  | nil => rfl
  | cons e events ih =>
      have hrest := fun e' he' => hrequests e' (List.mem_cons_of_mem e he')
      cases e with
      | request other created now =>
          rw [log_request]
          by_cases hother : other = identity
          · subst hother
            have hbucket : s.loadOrStore rl other created = s'.loadOrStore rl other created := by
              unfold Limiter.loadOrStore
              rw [hsame]
            rw [List.filter_cons_of_pos (by simp),
              List.filter_cons_of_pos (by simp [LimitEvent.isRequestOf]), log_request, hbucket]
            congr 1
            apply ih hrest
            rw [get?_step_request, get?_step_request, if_pos rfl, if_pos rfl, hbucket]
          · rw [List.filter_cons_of_neg (by simp [hother]),
              List.filter_cons_of_neg (by simp [LimitEvent.isRequestOf, hother])]
            apply ih hrest
            rw [get?_step_request, if_neg (Ne.symm hother), hsame]
      | check => exact absurd (hrequests _ List.mem_cons_self) Bool.false_ne_true
      | delete => exact absurd (hrequests _ List.mem_cons_self) Bool.false_ne_true

/-- The times of requests. -/
def times (events : List LimitEvent) : List Rat :=
  events.filterMap fun e =>
    match e with
    | .request _ _ now => some now
    | _ => none

/-- When a request was decided and whether it was allowed. -/
def LogEntry.outcome (e : LogEntry) : Rat × Bool :=
  (e.now, e.decision.allowed)

/-- The decisions of some events are all for one identity, and they are the grants of a bucket. -/
structure Grants (rl : RateLimiter) (identity : GoString) (log : List LogEntry) (b : Bucket)
    (times : List Rat) : Prop where
  grants : log.map LogEntry.outcome = rl.bucket.grants b.level times
  identity : ∀ e ∈ log, e.identity = identity

/-- One request before others. -/
theorem grants_request {created now : Rat} {b : Bucket}
    (hbucket : s.loadOrStore rl identity created = b)
    (hrest : Grants rl identity ((s.step rl (.request identity created now)).log rl events)
      (b.allow rl now).1 (times events)) :
    Grants rl identity (s.log rl (.request identity created now :: events)) b
      (times (.request identity created now :: events)) := by
  rw [log_request, hbucket]
  constructor
  case grants =>
    rw [List.map_cons, hrest.grants, level_allow]
    unfold LogEntry.outcome
    rw [allowed_allow]
    rfl
  case identity =>
    intro e he
    rcases List.mem_cons.mp he with rfl | hmem
    · rfl
    · exact hrest.identity e hmem

/-- The decisions for the requests of one identity are the grants of a token bucket. -/
theorem log_eq_grants (hrequests : ∀ e ∈ events, e.isRequestOf identity = true) {b : Bucket}
    (hget : s.buckets.get? identity = some b) :
    Grants rl identity (s.log rl events) b (times events) := by
  induction events generalizing s b with
  | nil => exact ⟨rfl, nofun⟩
  | cons e events ih =>
      have hfirst := hrequests e List.mem_cons_self
      have hrest := fun e' he' => hrequests e' (List.mem_cons_of_mem e he')
      cases e with
      | request other created now =>
          obtain rfl : other = identity := of_decide_eq_true hfirst
          have hbucket : s.loadOrStore rl other created = b := by
            unfold Limiter.loadOrStore
            rw [hget]
            rfl
          apply grants_request hbucket
          apply ih hrest
          rw [get?_step_request, if_pos rfl, hbucket]
      | check => exact absurd hfirst Bool.false_ne_true
      | delete => exact absurd hfirst Bool.false_ne_true

/-- The times of requests are readings of the clock. -/
theorem times_sublist (events : List LimitEvent) :
    (times events).Sublist (events.flatMap LimitEvent.readings) := by
  induction events with
  | nil => exact List.Sublist.refl _
  | cons e events ih =>
      rw [List.flatMap_cons]
      cases e with
      | request identity created now => exact (ih.cons_cons now).cons created
      | check identity now => exact ih.cons now
      | delete => exact ih

/-- The decisions for an identity are all that counts for it. -/
theorem allowedIn_filter (first last : Rat) (log : List LogEntry) :
    allowedIn identity first last (log.filter fun e => e.identity = identity) =
      allowedIn identity first last log := by
  unfold allowedIn
  rw [List.countP_filter]
  apply List.countP_congr
  intro e _
  simp only [Bool.and_eq_true, decide_eq_true_eq]
  exact ⟨fun h => h.1, fun h => ⟨h, h.1⟩⟩

theorem allowedIn_eq_grantedIn {first last : Rat} {log : List LogEntry}
    (hidentity : ∀ e ∈ log, e.identity = identity) :
    allowedIn identity first last log =
      TokenBucket.grantedIn first last (log.map LogEntry.outcome) := by
  unfold allowedIn TokenBucket.grantedIn
  rw [List.countP_map]
  apply List.countP_congr
  intro e he
  simp only [Function.comp_apply, decide_eq_true_eq]
  exact ⟨fun h => h.2, fun h => ⟨hidentity e he, h⟩⟩

/-- The bound for the requests of one identity that has no bucket. -/
theorem allowedIn_le (hlimit : 1 ≤ rl.limit) {first last : Rat} (hle : first ≤ last)
    (hrequests : ∀ e ∈ events, e.isRequestOf identity = true)
    (hnone : s.buckets.get? identity = none) (htimely : Timely events) :
    (allowedIn identity first last (s.log rl events) : Rat) ≤
      rl.capacity + rl.rate * (last - first) := by
  have hrate := (rate_pos hlimit).le
  have hcapacity := zero_le_one.trans (one_le_capacity hlimit)
  have hgain : 0 ≤ rl.rate * (last - first) := mul_nonneg hrate (sub_nonneg.mpr hle)
  cases events with
  | nil =>
      have hzero : allowedIn identity first last (s.log rl []) = 0 := rfl
      rw [hzero, Nat.cast_zero]
      exact add_nonneg hcapacity hgain
  | cons e events =>
      have hfirst := hrequests e List.mem_cons_self
      cases e with
      | request other created now =>
          obtain rfl : other = identity := of_decide_eq_true hfirst
          have hbucket : s.loadOrStore rl other created = ⟨rl.capacity, created⟩ := by
            unfold Limiter.loadOrStore
            rw [hnone]
            rfl
          have hgrants : Grants rl other (s.log rl (.request other created now :: events))
              ⟨rl.capacity, created⟩ (times (.request other created now :: events)) := by
            apply grants_request hbucket
            apply log_eq_grants fun e' he' => hrequests e' (List.mem_cons_of_mem _ he')
            rw [get?_step_request, if_pos rfl, hbucket]
          have hsorted : (created :: times (.request other created now :: events)).Pairwise
              (· ≤ ·) := by
            unfold Timely at htimely
            exact htimely.sublist (((times_sublist events).cons_cons now).cons_cons created)
          rw [allowedIn_eq_grantedIn hgrants.identity, hgrants.grants, mul_comm]
          exact TokenBucket.granted_le hrate hle ⟨hcapacity, le_rfl⟩ hsorted
      | check => exact absurd hfirst Bool.false_ne_true
      | delete => exact absurd hfirst Bool.false_ne_true

/-- Without requests of an identity its bucket is left as it is or removed. -/
theorem get?_after_of_others (rl : RateLimiter)
    (hothers : ∀ e ∈ events, e.isRequestOf identity = false) {b : Bucket}
    (hget : s.buckets.get? identity = none ∨ s.buckets.get? identity = some b) :
    (s.after rl events).buckets.get? identity = none ∨
      (s.after rl events).buckets.get? identity = some b := by
  induction events generalizing s with
  | nil => exact hget
  | cons e events ih =>
      apply ih fun e' he' => hothers e' (List.mem_cons_of_mem e he')
      have hother := hothers e List.mem_cons_self
      cases hstep : (s.step rl e).buckets.get? identity with
      | none => exact Or.inl rfl
      | some b' =>
          right
          have hbefore : s.buckets.get? identity = some b' := by
            cases e with
            | request other created now =>
                have hne : identity ≠ other := by
                  rintro rfl
                  exact absurd hother (by simp [LimitEvent.isRequestOf])
                rwa [get?_step_request, if_neg hne] at hstep
            | check => exact get?_of_step_cleanup rfl hstep
            | delete => exact get?_of_step_cleanup rfl hstep
          rcases hget with hnone | hsome
          · exact nomatch hnone.symm.trans hbefore
          · exact hbefore.symm.trans hsome

end Identities

/-! ## The limiter enforces its rate -/

section Enforcement

variable {rl : RateLimiter} {events : List LimitEvent}

/-- A rejected client that waits as it is told is allowed next, whatever the cleanup does. -/
theorem allowed_after_wait (hlimit : 1 ≤ rl.limit) {s : Limiter} {identity : GoString}
    {created now created' now' : Rat} {middle : List LimitEvent} {seconds : Int}
    (hothers : ∀ e ∈ middle, e.isRequestOf identity = false)
    (hretry : (rl.respond ((s.loadOrStore rl identity created).allow rl now).2).retryAfter =
      some seconds) (hwait : now + seconds ≤ now') (hcreated : created' ≤ now') :
    ((((s.step rl (.request identity created now)).after rl middle).loadOrStore rl identity
      created').allow rl now').2.allowed = true := by
  -- the bucket after the rejected request
  have hget : (s.step rl (.request identity created now)).buckets.get? identity =
      some ((s.loadOrStore rl identity created).allow rl now).1 := by
    rw [get?_step_request, if_pos rfl]
  unfold RateLimiter.respond at hretry
  dsimp only at hretry
  split_ifs at hretry with hallowed
  have htold : ((s.loadOrStore rl identity created).allow rl now).2.retryAfter ≤ seconds := by
    rw [← Option.some.inj hretry]
    exact Int.le_ceil _
  rw [retryAfter_allow (Bool.not_eq_true _ ▸ hallowed)] at htold
  rw [allowed_allow]
  unfold Limiter.loadOrStore
  rcases get?_after_of_others rl hothers (Or.inr hget) with hnone | hsome
  · rw [hnone]
    apply TokenBucket.take_of_wait (rate_pos hlimit) (one_le_capacity hlimit)
    have hfull : (1 - rl.capacity) / rl.rate ≤ 0 := by
      apply div_nonpos_of_nonpos_of_nonneg _ (rate_pos hlimit).le
      exact sub_nonpos.mpr (one_le_capacity hlimit)
    change created' + (1 - rl.capacity) / rl.rate ≤ now'
    linarith
  · rw [hsome]
    apply TokenBucket.take_of_wait (rate_pos hlimit) (one_le_capacity hlimit)
    have hlast := last_allow rl (s.loadOrStore rl identity created) now
    change ((s.loadOrStore rl identity created).allow rl now).1.last + _ ≤ now'
    rw [hlast]
    exact (add_le_add_right htold now).trans hwait

theorem follows_empty (rl : RateLimiter) (clock : Rat) :
    Follows rl Limiter.empty Limiter.empty clock := by
  constructor
  case sane => exact fun _ _ hget => nomatch hget
  case stored => exact fun _ _ hget => nomatch hget
  case removed => exact fun _ _ _ hget => nomatch hget
  case unused => exact fun _ _ _ hget => nomatch hget

/-- Some time is before all readings. -/
theorem exists_clock (htimely : Timely events) :
    ∃ clock, (clock :: events.flatMap LimitEvent.readings).Pairwise (· ≤ ·) := by
  unfold Timely at htimely
  cases hreadings : events.flatMap LimitEvent.readings with
  | nil => exact ⟨0, List.pairwise_singleton _ _⟩
  | cons t ts =>
      rw [hreadings] at htimely
      refine ⟨t, List.pairwise_cons.mpr ⟨?_, htimely⟩⟩
      intro t' ht'
      rcases List.mem_cons.mp ht' with rfl | hmem
      · exact le_rfl
      · exact (List.pairwise_cons.mp htimely).1 t' hmem

/-- The readings of some of the events. -/
theorem sublist_readings (p : LimitEvent → Bool) (events : List LimitEvent) :
    ((events.filter p).flatMap LimitEvent.readings).Sublist
      (events.flatMap LimitEvent.readings) := by
  induction events with
  | nil => exact List.Sublist.refl _
  | cons e events ih =>
      rw [List.filter_cons, List.flatMap_cons]
      split_ifs
      · rw [List.flatMap_cons]
        exact (List.Sublist.refl _).append ih
      · exact ih.trans (List.sublist_append_right _ _)

theorem filter_isRequestOf (identity : GoString) (events : List LimitEvent) :
    (events.filter LimitEvent.isRequest).filter (LimitEvent.isRequestOf identity) =
      events.filter (LimitEvent.isRequestOf identity) := by
  rw [List.filter_filter]
  apply List.filter_congr
  intro e _
  cases e with
  | request => exact Bool.and_true _
  | check => rfl
  | delete => rfl

end Enforcement

/-! ## A request between the reading and the deletion -/

/-- A bucket is removed between two requests. -/
def quietRun : List LimitEvent :=
  [.request "a".toList 0 0, .check "a".toList 700, .delete, .request "a".toList 800 800]

/-- A request comes after the cleanup has found its bucket unused, and another one after the
bucket has been deleted. -/
def disturbedRun : List LimitEvent :=
  [.request "a".toList 0 0, .check "a".toList 700, .request "a".toList 701 701, .delete,
    .request "a".toList 701 701]

end Restapi
end Veilence
