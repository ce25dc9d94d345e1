import Mathlib
import Veilence.Foundation.Table
import Veilence.Go.Text

/-!
# The settings cache of the poller

The poller caches settings by workspace and key.  The cache has one time of expiry, which every
{lit}`set` moves, and a value stays in its map when that time has passed.  So a value lives on
when another key is set after it.

A history lists the calls with their times, the latest first.

Main results:

- Theorem {lit}`fresh_iff_setsAlone`: every value that can still be read is at most {lit}`ttl`
  old if and only if no key is set while an older one is stored.
- Theorem {lit}`recent_getSetting`: then {lit}`getSetting` returns no value that stopped being
  current more than {lit}`ttl` ago.
-/

namespace Veilence
namespace Poller

open Go Foundation

/-! ## The cache -/

/-- A time in nanoseconds. -/
abbrev Time : Type := Int

/-- The zero value of a time. -/
def zeroTime : Time := 0

/-- {lit}`settingsCache`. -/
structure SettingsCache where
  values : Table GoString GoString
  expiresAt : Time
  ttl : Nat

/-- {lit}`newSettingsCache`. -/
def newSettingsCache (ttl : Nat) : SettingsCache where
  values := .empty
  expiresAt := zeroTime
  ttl := ttl

namespace SettingsCache

/-- {lit}`get` at a time. -/
def get (c : SettingsCache) (now : Time) (key : GoString) : Option GoString :=
  if c.expiresAt < now then none else c.values.get? key

/-- {lit}`set` at a time. -/
def set (c : SettingsCache) (now : Time) (key value : GoString) : SettingsCache :=
  { c with values := c.values.insert key value, expiresAt := now + c.ttl }

/-- {lit}`invalidate`. -/
def invalidate (c : SettingsCache) : SettingsCache :=
  { c with values := .empty, expiresAt := zeroTime }

/-- A value that is found is stored, and the time of expiry has not passed. -/
theorem get_eq_some_iff {c : SettingsCache} {now : Time} {key value : GoString} :
    c.get now key = some value ↔ now ≤ c.expiresAt ∧ c.values.get? key = some value := by
  unfold get
  split_ifs with hexpired
  · simp [Int.not_le.mpr hexpired]
  · simp [Int.not_lt.mp hexpired]

end SettingsCache

/-! ## Calls of the cache -/

/-- A call of the cache. -/
inductive CacheOp where
  | set (key value : GoString)
  | get (key : GoString)
  | invalidate

/-- The cache after a call. -/
def CacheOp.apply (now : Time) (c : SettingsCache) : CacheOp → SettingsCache
  | .set key value => c.set now key value
  | .get _ => c
  | .invalidate => c.invalidate

/-- The cache after a history. -/
def cacheAfter (ttl : Nat) : List (Time × CacheOp) → SettingsCache
  | [] => newSettingsCache ttl
  | (now, op) :: h => op.apply now (cacheAfter ttl h)

/-- The latest {lit}`set` of a key since the last {lit}`invalidate`: its time and its value. -/
def latestSet (key : GoString) : List (Time × CacheOp) → Option (Time × GoString)
  | [] => none
  | (now, .set k value) :: h => if k = key then some (now, value) else latestSet key h
  | (_, .get _) :: h => latestSet key h
  | (_, .invalidate) :: _ => none

/-- The times of a history do not decrease. -/
def Timed {Op : Type} (h : List (Time × Op)) : Prop :=
  h.Pairwise fun e e' => e'.1 ≤ e.1

/-- A {lit}`get` that succeeds now or later returns the value of the latest {lit}`set` of the key
since the last {lit}`invalidate`, and that is at most {lit}`ttl` ago. -/
def Fresh (ttl : Nat) (h : List (Time × CacheOp)) : Prop :=
  ∀ key value now, (∀ e ∈ h, e.1 ≤ now) → (cacheAfter ttl h).get now key = some value →
    ∃ since, latestSet key h = some (since, value) ∧ now ≤ since + ttl

/-- No key is set while another one is stored that was set before. -/
def SetsAlone : List (Time × CacheOp) → Prop
  | [] => True
  | (now, .set key _) :: h =>
      (∀ k since value, k ≠ key → latestSet k h = some (since, value) → now ≤ since) ∧ SetsAlone h
  | _ :: h => SetsAlone h

variable {ttl : Nat} {h : List (Time × CacheOp)} {key value : GoString} {now since : Time}

@[simp]
theorem cacheAfter_ttl (h : List (Time × CacheOp)) : (cacheAfter ttl h).ttl = ttl := by
  induction h with
  | nil => rfl
  | cons e h ih =>
      obtain ⟨now, op⟩ := e
      cases op with
      | set key value => exact ih
      | get key => exact ih
      | invalidate => exact ih

/-- The map holds the latest value of each key. -/
theorem values_cacheAfter (key : GoString) (h : List (Time × CacheOp)) :
    (cacheAfter ttl h).values.get? key = (latestSet key h).map Prod.snd := by
  induction h with
  | nil => rfl
  | cons e h ih =>
      obtain ⟨now, op⟩ := e
      cases op with
      | set k value =>
          refine (Table.get?_insert ..).trans ?_
          unfold latestSet
          by_cases hk : k = key
          · rw [if_pos hk.symm, if_pos hk]
            rfl
          · rw [if_neg (Ne.symm hk), if_neg hk]
            exact ih
      | get k => exact ih
      | invalidate => rfl

/-- Everything has been set by now. -/
theorem le_of_latestSet (hnow : ∀ e ∈ h, e.1 ≤ now) (hset : latestSet key h = some (since, value)) :
    since ≤ now := by
  induction h with
  | nil => exact absurd hset.symm (Option.some_ne_none _)
  | cons e h ih =>
      obtain ⟨time, op⟩ := e
      have hrest : ∀ e ∈ h, e.1 ≤ now := fun e he => hnow e (List.mem_cons_of_mem _ he)
      cases op with
      | set k v =>
          unfold latestSet at hset
          split_ifs at hset
          · obtain ⟨rfl, -⟩ := Prod.mk.inj (Option.some.inj hset)
            exact hnow (time, .set k v) List.mem_cons_self
          · exact ih hrest hset
      | get k => exact ih hrest hset
      | invalidate => exact absurd hset.symm (Option.some_ne_none _)

/-- When keys are set alone, the cache expires as soon as any of its values should. -/
theorem expiresAt_le (hsets : SetsAlone h) (hset : latestSet key h = some (since, value)) :
    (cacheAfter ttl h).expiresAt ≤ since + ttl := by
  induction h with
  | nil => exact absurd hset.symm (Option.some_ne_none _)
  | cons e h ih =>
      obtain ⟨now, op⟩ := e
      cases op with
      | set k v =>
          obtain ⟨halone, hrest⟩ := hsets
          have hexpires : (cacheAfter ttl ((now, .set k v) :: h)).expiresAt = now + ttl := by
            change now + ((cacheAfter ttl h).ttl : Int) = now + ttl
            rw [cacheAfter_ttl]
          rw [hexpires]
          unfold latestSet at hset
          split_ifs at hset with hk
          · obtain ⟨rfl, -⟩ := Prod.mk.inj (Option.some.inj hset)
            exact le_rfl
          · exact Int.add_le_add_right (halone key since value (Ne.symm hk) hset) _
      | get k => exact ih hsets hset
      | invalidate => exact absurd hset.symm (Option.some_ne_none _)

/-- Values stay fresh when keys are set alone. -/
theorem fresh_of_setsAlone (hsets : SetsAlone h) : Fresh ttl h := by
  intro key value now _ hget
  obtain ⟨hlive, hvalue⟩ := SettingsCache.get_eq_some_iff.mp hget
  rw [values_cacheAfter, Option.map_eq_some_iff] at hvalue
  obtain ⟨⟨since, _⟩, hset, rfl⟩ := hvalue
  exact ⟨since, hset, hlive.trans (expiresAt_le hsets hset)⟩

/-- A key that is set keeps every other stored value alive for as long as its own. -/
theorem le_of_fresh (hfresh : Fresh ttl ((now, .set key value) :: h)) (hnow : ∀ e ∈ h, e.1 ≤ now)
    {k v : GoString} (hk : k ≠ key) (hset : latestSet k h = some (since, v)) : now ≤ since := by
  have hlatest : latestSet k ((now, .set key value) :: h) = some (since, v) := by
    unfold latestSet
    rw [if_neg (Ne.symm hk)]
    exact hset
  have hget : (cacheAfter ttl ((now, .set key value) :: h)).get (now + ttl) k = some v := by
    apply SettingsCache.get_eq_some_iff.mpr
    refine ⟨?_, ?_⟩
    · change now + ttl ≤ now + ((cacheAfter ttl h).ttl : Int)
      rw [cacheAfter_ttl]
    · rw [values_cacheAfter, hlatest]
      rfl
  have htimes : ∀ e ∈ (now, CacheOp.set key value) :: h, e.1 ≤ now + ttl := by
    intro e he
    cases he with
    | head => simp
    | tail _ he => exact (hnow e he).trans (Int.le_add_of_nonneg_right (Int.natCast_nonneg ttl))
  obtain ⟨since', hsince, hle⟩ := hfresh k v (now + ttl) htimes hget
  rw [hlatest] at hsince
  obtain ⟨rfl, -⟩ := Prod.mk.inj (Option.some.inj hsince)
  exact Int.le_of_add_le_add_right hle

/-- An earlier part of such a history. -/
theorem SetsAlone.suffix (hsets : SetsAlone h) {p : List (Time × CacheOp)} (hp : p <:+ h) :
    SetsAlone p := by
  induction h with
  | nil => rwa [List.suffix_nil.mp hp]
  | cons e h ih =>
      rcases List.suffix_cons_iff.mp hp with rfl | hrest
      · exact hsets
      · refine ih ?_ hrest
        obtain ⟨now, op⟩ := e
        cases op with
        | set key value => exact hsets.2
        | get key => exact hsets
        | invalidate => exact hsets

/-- Values are fresh all along a history if and only if keys are set alone. -/
theorem fresh_iff_setsAlone (hh : Timed h) :
    (∀ p, p <:+ h → Fresh ttl p) ↔ SetsAlone h := by
  constructor
  · intro hfresh
    induction h with
    | nil => trivial
    | cons e h ih =>
        obtain ⟨hnow, hrest⟩ := List.pairwise_cons.mp hh
        have htail := ih hrest fun p hp => hfresh p (hp.trans (List.suffix_cons e h))
        obtain ⟨now, op⟩ := e
        cases op with
        | set key value =>
            refine ⟨?_, htail⟩
            intro k since v hk hset
            exact le_of_fresh (hfresh _ List.suffix_rfl) hnow hk hset
        | get key => exact htail
        | invalidate => exact htail
  · intro hsets p hp
    exact fresh_of_setsAlone (hsets.suffix hp)

/-! ## Settings -/

/-- A workspace ID, a UUID. -/
abbrev WorkspaceID : Type :=
  { s : GoString // ':' ∉ s }

/-- The key of a setting in the cache. -/
def cacheKey (workspaceID : WorkspaceID) (key : GoString) : GoString :=
  workspaceID.1 ++ ':' :: key

/-- Different settings have different keys. -/
theorem cacheKey_inj {w w' : WorkspaceID} {key key' : GoString}
    (h : cacheKey w key = cacheKey w' key') : w = w' ∧ key = key' := by
  have hsplit := List.append_eq_append_iff.mp h
  have hnot : ∀ (v v' : WorkspaceID) (rest rest' : GoString) (a : List Char),
      v'.1 = v.1 ++ a → ':' :: rest = a ++ ':' :: rest' → a = [] := by
    intro v v' rest rest' a hv hrest
    cases a with
    | nil => rfl
    | cons c a =>
        have hc : ':' = c := (List.cons.inj hrest).1
        exact absurd (by rw [hv, ← hc]; simp) v'.2
  rcases hsplit with ⟨a, hw, hrest⟩ | ⟨a, hw, hrest⟩
  · obtain rfl := hnot w w' key key' a hw hrest
    rw [List.append_nil] at hw
    exact ⟨Subtype.ext hw.symm, (List.cons.inj hrest).2⟩
  · obtain rfl := hnot w' w key' key a hw hrest
    rw [List.append_nil] at hw
    exact ⟨Subtype.ext hw, (List.cons.inj hrest).2.symm⟩

/-- The table of settings. -/
abbrev Settings : Type :=
  WorkspaceID → GoString → Option GoString

/-- The value that a setting has: an absent or empty one has the default. -/
def current (defaults : GoString → GoString) (settings : Settings) (workspaceID : WorkspaceID)
    (key : GoString) : GoString :=
  match settings workspaceID key with
  | some value => if value = [] then defaults key else value
  | none => defaults key

/-- What {lit}`getSetting` gets from the database, the default if the query fails. -/
def lookup (defaults : GoString → GoString) (settings : Settings) (workspaceID : WorkspaceID)
    (key : GoString) (fails : Bool) : GoString :=
  if fails then defaults key else current defaults settings workspaceID key

/-- {lit}`getSetting` at a time: the value, and the calls of the cache. -/
def getSetting (defaults : GoString → GoString) (c : SettingsCache) (settings : Settings)
    (now : Time) (workspaceID : WorkspaceID) (key : GoString) (fails : Bool) :
    GoString × List CacheOp :=
  match c.get now (cacheKey workspaceID key) with
  | some value => (value, [.get (cacheKey workspaceID key)])
  | none =>
      (lookup defaults settings workspaceID key fails,
        [.set (cacheKey workspaceID key) (lookup defaults settings workspaceID key fails),
          .get (cacheKey workspaceID key)])

/-- What happens around the cache: a setting is written or deleted, the cache is invalidated, or a
setting is read by a query that may fail. -/
inductive Event where
  | write (workspaceID : WorkspaceID) (key : GoString) (value : Option GoString)
  | invalidate
  | read (workspaceID : WorkspaceID) (key : GoString) (fails : Bool)

section Events

variable (ttl : Nat) (defaults : GoString → GoString)

/-- The table of settings after a history. -/
def settingsAfter : List (Time × Event) → Settings
  | [] => fun _ _ => none
  | (_, .write workspaceID key value) :: h =>
      Function.update (settingsAfter h) workspaceID
        (Function.update (settingsAfter h workspaceID) key value)
  | (_, .invalidate) :: h => settingsAfter h
  | (_, .read ..) :: h => settingsAfter h

/-- The calls of the cache in a history. -/
def cacheOps : List (Time × Event) → List (Time × CacheOp)
  | [] => []
  | (_, .write ..) :: h => cacheOps h
  | (now, .invalidate) :: h => (now, .invalidate) :: cacheOps h
  | (now, .read workspaceID key fails) :: h =>
      (getSetting defaults (cacheAfter ttl (cacheOps h)) (settingsAfter h) now workspaceID key
        fails).2.map (now, ·) ++ cacheOps h

/-- What {lit}`getSetting` returns after a history. -/
def returned (h : List (Time × Event)) (now : Time) (workspaceID : WorkspaceID) (key : GoString)
    (fails : Bool) : GoString :=
  (getSetting defaults (cacheAfter ttl (cacheOps ttl defaults h)) (settingsAfter h) now
    workspaceID key fails).1

/-- The value was the current one at some time since then: before the last events, all of them
not earlier. -/
def CurrentSince (h : List (Time × Event)) (workspaceID : WorkspaceID) (key value : GoString)
    (since : Time) : Prop :=
  ∃ n < h.length + 1, current defaults (settingsAfter (h.drop n)) workspaceID key = value ∧
    ∀ e ∈ h.take n, since ≤ e.1

instance (h : List (Time × Event)) (workspaceID : WorkspaceID) (key value : GoString)
    (since : Time) : Decidable (CurrentSince defaults h workspaceID key value since) :=
  inferInstanceAs (Decidable (∃ n < h.length + 1,
    current defaults (settingsAfter (h.drop n)) workspaceID key = value ∧
      ∀ e ∈ h.take n, since ≤ e.1))

/-- A query fails only where the default is the current value. -/
def Answered : List (Time × Event) → Prop
  | [] => True
  | (_, .write ..) :: h => Answered h
  | (_, .invalidate) :: h => Answered h
  | (_, .read w key fails) :: h =>
      (fails = true → current defaults (settingsAfter h) w key = defaults key) ∧ Answered h

section Readings

variable {ttl : Nat} {defaults : GoString → GoString} {h : List (Time × Event)}
  {w : WorkspaceID} {key value : GoString} {now since : Time} {fails : Bool}

/-- What has happened before happened before. -/
theorem time_of_mem_cacheOps {e : Time × CacheOp} (he : e ∈ cacheOps ttl defaults h) :
    ∃ e' ∈ h, e'.1 = e.1 := by
  induction h with
  | nil => exact absurd he List.not_mem_nil
  | cons e' h ih =>
      have hrest : e ∈ cacheOps ttl defaults h → ∃ e'' ∈ e' :: h, e''.1 = e.1 := by
        intro he
        obtain ⟨e'', hmem, htime⟩ := ih he
        exact ⟨e'', List.mem_cons_of_mem _ hmem, htime⟩
      obtain ⟨now, event⟩ := e'
      cases event with
      | write w key value => exact hrest he
      | invalidate =>
          rcases List.mem_cons.mp he with rfl | he
          · exact ⟨_, List.mem_cons_self, rfl⟩
          · exact hrest he
      | read w key fails =>
          rcases List.mem_append.mp he with he | he
          · obtain ⟨op, -, rfl⟩ := List.mem_map.mp he
            exact ⟨_, List.mem_cons_self, rfl⟩
          · exact hrest he

theorem le_of_mem_cacheOps (hnow : ∀ e ∈ h, e.1 ≤ now) :
    ∀ e ∈ cacheOps ttl defaults h, e.1 ≤ now := by
  intro e he
  obtain ⟨e', hmem, htime⟩ := time_of_mem_cacheOps he
  rw [← htime]
  exact hnow e' hmem

/-- A later event changes nothing of it. -/
theorem CurrentSince.cons (hcurrent : CurrentSince defaults h w key value since) {e : Time × Event}
    (he : since ≤ e.1) : CurrentSince defaults (e :: h) w key value since := by
  obtain ⟨n, hn, hvalue, htimes⟩ := hcurrent
  refine ⟨n + 1, Nat.succ_lt_succ hn, hvalue, ?_⟩
  intro e' he'
  rcases List.mem_cons.mp he' with rfl | he'
  · exact he
  · exact htimes e' he'

theorem CurrentSince.mono (hcurrent : CurrentSince defaults h w key value since) {t : Time}
    (ht : t ≤ since) : CurrentSince defaults h w key value t := by
  obtain ⟨n, hn, hvalue, htimes⟩ := hcurrent
  exact ⟨n, hn, hvalue, fun e he => ht.trans (htimes e he)⟩

/-- A value that has just been looked up is the current one. -/
theorem lookup_eq_current (hanswered : Answered defaults ((now, .read w key fails) :: h)) :
    lookup defaults (settingsAfter h) w key fails = current defaults (settingsAfter h) w key := by
  cases fails with
  | true => exact (hanswered.1 rfl).symm
  | false => rfl

theorem Answered.tail {e : Time × Event} (hanswered : Answered defaults (e :: h)) :
    Answered defaults h := by
  obtain ⟨now, event⟩ := e
  cases event with
  | write w key value => exact hanswered
  | invalidate => exact hanswered
  | read w key fails => exact hanswered.2

theorem Answered.suffix (hanswered : Answered defaults h) {p : List (Time × Event)}
    (hp : p <:+ h) : Answered defaults p := by
  induction h with
  | nil => rwa [List.suffix_nil.mp hp]
  | cons e h ih =>
      rcases List.suffix_cons_iff.mp hp with rfl | hrest
      · exact hanswered
      · exact ih hanswered.tail hrest

/-- What is set for a setting was its value when it was set. -/
theorem currentSince_of_latestSet (hh : Timed h) (hanswered : Answered defaults h)
    (hset : latestSet (cacheKey w key) (cacheOps ttl defaults h) = some (since, value)) :
    CurrentSince defaults h w key value since := by
  induction h with
  | nil => exact absurd hset.symm (Option.some_ne_none _)
  | cons e h ih =>
      obtain ⟨hnow, hrest⟩ := List.pairwise_cons.mp hh
      have hearlier : latestSet (cacheKey w key) (cacheOps ttl defaults h) = some (since, value) →
          CurrentSince defaults (e :: h) w key value since := by
        intro hset
        apply (ih hrest hanswered.tail hset).cons
        exact le_of_latestSet (le_of_mem_cacheOps hnow) hset
      obtain ⟨now, event⟩ := e
      cases event with
      | write w' key' value' => exact hearlier hset
      | invalidate => exact absurd hset.symm (Option.some_ne_none _)
      | read w' key' fails =>
          unfold cacheOps getSetting at hset
          split at hset
          · exact hearlier hset
          · change (if cacheKey w' key' = cacheKey w key then _ else _) = _ at hset
            split_ifs at hset with hkey
            · obtain ⟨rfl, rfl⟩ := cacheKey_inj hkey
              obtain ⟨rfl, rfl⟩ := Prod.mk.inj (Option.some.inj hset)
              refine ⟨1, Nat.succ_lt_succ (Nat.succ_pos _), (lookup_eq_current hanswered).symm, ?_⟩
              intro e he
              rw [List.mem_singleton.mp he]
            · exact hearlier hset

/-- What {lit}`getSetting` returns was the value of the setting at most {lit}`ttl` ago. -/
theorem recent_getSetting (hh : Timed ((now, .read w key fails) :: h))
    (hanswered : Answered defaults ((now, .read w key fails) :: h))
    (hsets : SetsAlone (cacheOps ttl defaults h)) :
    CurrentSince defaults h w key (returned ttl defaults h now w key fails) (now - ttl) := by
  obtain ⟨hnow, hrest⟩ := List.pairwise_cons.mp hh
  unfold returned getSetting
  split
  · rename_i value hget
    obtain ⟨since, hset, hle⟩ :=
      fresh_of_setsAlone hsets _ value now (le_of_mem_cacheOps hnow) hget
    exact (currentSince_of_latestSet hrest hanswered.tail hset).mono (Int.sub_right_le_of_le_add hle)
  · exact ⟨0, Nat.succ_pos _, (lookup_eq_current hanswered).symm,
      fun e he => absurd he List.not_mem_nil⟩

/-- The calls of the cache in an earlier part of a history. -/
theorem cacheOps_suffix {p : List (Time × Event)} (hp : p <:+ h) :
    cacheOps ttl defaults p <:+ cacheOps ttl defaults h := by
  induction h with
  | nil => rw [List.suffix_nil.mp hp]
  | cons e h ih =>
      rcases List.suffix_cons_iff.mp hp with rfl | hrest
      · exact List.suffix_rfl
      · obtain ⟨now, event⟩ := e
        cases event with
        | write w key value => exact ih hrest
        | invalidate => exact (ih hrest).trans (List.suffix_cons _ _)
        | read w key fails => exact (ih hrest).trans (List.suffix_append _ _)

end Readings

end Events

/-! ## Ageing -/

/-- In a history of cache calls, every value that can be read is at most {lit}`ttl` old exactly
if keys are set alone; and if the readings of settings set keys alone and are answered, every
setting that is read was current at most {lit}`ttl` ago. -/
theorem settings_fresh (ttl : Nat) :
    (∀ h : List (Time × CacheOp), Timed h →
      ((∀ p, p <:+ h → Fresh ttl p) ↔ SetsAlone h)) ∧
    ∀ (defaults : GoString → GoString) (h : List (Time × Event)), Timed h → Answered defaults h →
      SetsAlone (cacheOps ttl defaults h) →
      ∀ now w key fails p, (now, .read w key fails) :: p <:+ h →
        CurrentSince defaults p w key (returned ttl defaults p now w key fails) (now - ttl) := by
  constructor
  · exact fun h hh => fresh_iff_setsAlone hh
  · intro defaults h hh hanswered hsets now w key fails p hp
    apply recent_getSetting (hh.sublist hp.sublist) (hanswered.suffix hp)
    · exact hsets.suffix (cacheOps_suffix ((List.suffix_cons _ p).trans hp))

/-! ### Two histories -/

/-- {lit}`SettingsCacheTTL`, one minute. -/
def settingsCacheTTL : Nat :=
  60000000000

/-- A workspace. -/
def someWorkspace : WorkspaceID :=
  ⟨"w".toList, by decide⟩

/-- The settings have the default {lit}`0`. -/
def zeroDefault (_ : GoString) : GoString :=
  "0".toList

/-- A setting is read and changed, and read again when the cache has expired. -/
def expiredHistory : List (Time × Event) :=
  [(70000000000, .read someWorkspace "a".toList false),
    (10000000000, .write someWorkspace "a".toList (some "1".toList)),
    (5000000000, .read someWorkspace "a".toList false)]

/-- A setting is read and changed; then another one is read. -/
def crossedHistory : List (Time × Event) :=
  [(50000000000, .read someWorkspace "b".toList false),
    (10000000000, .write someWorkspace "a".toList (some "1".toList)),
    (5000000000, .read someWorkspace "a".toList false)]

/-- The other setting keeps the first one in the cache. -/
theorem settings_stale :
    Timed crossedHistory ∧ Answered zeroDefault crossedHistory ∧
      returned settingsCacheTTL zeroDefault crossedHistory 100000000000 someWorkspace "a".toList
        false = "0".toList ∧
      ¬CurrentSince zeroDefault crossedHistory someWorkspace "a".toList "0".toList
        (100000000000 - settingsCacheTTL) ∧
      ¬Fresh settingsCacheTTL (cacheOps settingsCacheTTL zeroDefault crossedHistory) := by
  refine ⟨by simp [Timed, crossedHistory], ?_, by decide +kernel, by decide +kernel, ?_⟩
  · exact ⟨fun hfails => absurd hfails Bool.false_ne_true,
      fun hfails => absurd hfails Bool.false_ne_true, trivial⟩
  · intro hfresh
    obtain ⟨since, hset, hle⟩ := hfresh (cacheKey someWorkspace "a".toList) "0".toList 100000000000
      (by decide +kernel) (by decide +kernel)
    have hlatest : latestSet (cacheKey someWorkspace "a".toList)
        (cacheOps settingsCacheTTL zeroDefault crossedHistory) =
          some (5000000000, "0".toList) := by
      decide +kernel
    rw [hlatest] at hset
    obtain ⟨rfl, -⟩ := Prod.mk.inj (Option.some.inj hset)
    exact absurd hle (by decide)

/-- A single setting is read again from the database. -/
theorem settings_reread :
    (∀ p, p <:+ cacheOps settingsCacheTTL zeroDefault expiredHistory → Fresh settingsCacheTTL p) ∧
      CurrentSince zeroDefault expiredHistory.tail someWorkspace "a".toList
        (returned settingsCacheTTL zeroDefault expiredHistory.tail 70000000000 someWorkspace
          "a".toList false)
        (70000000000 - settingsCacheTTL) := by
  have hops : cacheOps settingsCacheTTL zeroDefault expiredHistory =
      [(70000000000, .set (cacheKey someWorkspace "a".toList) "1".toList),
        (70000000000, .get (cacheKey someWorkspace "a".toList)),
        (5000000000, .set (cacheKey someWorkspace "a".toList) "0".toList),
        (5000000000, .get (cacheKey someWorkspace "a".toList))] := by
    rfl
  have hsets : SetsAlone (cacheOps settingsCacheTTL zeroDefault expiredHistory) := by
    rw [hops]
    refine ⟨?_, ?_, trivial⟩
    · intro k since value hk hset
      simp only [latestSet, if_neg (Ne.symm hk)] at hset
      exact absurd hset.symm (Option.some_ne_none _)
    · intro k since value hk hset
      simp [latestSet] at hset
  constructor
  · refine ((settings_fresh settingsCacheTTL).1 _ ?_).mpr hsets
    rw [hops]
    simp [Timed]
  · refine (settings_fresh settingsCacheTTL).2 zeroDefault expiredHistory ?_ ?_ hsets _ _ _ _ _
      List.suffix_rfl
    · simp [Timed, expiredHistory]
    · exact ⟨fun hfails => absurd hfails Bool.false_ne_true,
        fun hfails => absurd hfails Bool.false_ne_true, trivial⟩

end Poller
end Veilence
