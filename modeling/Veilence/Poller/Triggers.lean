import Veilence.Poller.Settings

/-!
# The triggers of the poller

Two loops run cycles side by side.  A monitoring cycle lists the workspaces with active packages,
keeps those that are due, loads the packages of each, checks them and marks the workspace as
polled; a discovery cycle does the same with the settings of each workspace, one after another.
A trigger deletes the time of the last poll, so that the workspace is due at the next cycle.

The mark at the end of a cycle writes that time again.  So a trigger that falls between the
reading of a workspace and its mark is lost.

Main results:

- Theorem {lit}`pollRegistryKey_inj`: no two workspaces or purposes share a key.
- Theorem {lit}`triggers_served`: in a run without such triggers every triggered workspace is read
  again by the end of the next cycle.
- Theorem {lit}`trigger_lost`: a run in which it is not.
-/

namespace Veilence
namespace Poller

open Go Foundation

/-! ## Keys -/

/-- The purposes of a poll. -/
inductive Purpose where
  | monitor
  | discover
deriving DecidableEq

/-- The text of a purpose. -/
def Purpose.text : Purpose → GoString
  | .monitor => "monitor".toList
  | .discover => "discover".toList

/-- {lit}`pollRegistryKey`. -/
def pollRegistryKey (workspaceID : GoString) (purpose : Purpose) : GoString :=
  workspaceID ++ ":".toList ++ purpose.text

/-- The last letter but one of a key tells its purpose. -/
theorem pollRegistryKey_letter (w : GoString) (p : Purpose) :
    (pollRegistryKey w p).dropLast.getLast? = some (if p = .monitor then 'o' else 'e') := by
  unfold pollRegistryKey
  cases p with
  | monitor =>
      have hnonempty : Purpose.monitor.text.dropLast ≠ [] := by decide
      rw [List.dropLast_append_of_ne_nil (by decide), List.getLast?_append_of_ne_nil _ hnonempty]
      decide
  | discover =>
      have hnonempty : Purpose.discover.text.dropLast ≠ [] := by decide
      rw [List.dropLast_append_of_ne_nil (by decide), List.getLast?_append_of_ne_nil _ hnonempty]
      decide

/-- No two workspaces or purposes share a key. -/
theorem pollRegistryKey_inj {w w' : GoString} {p p' : Purpose} :
    pollRegistryKey w p = pollRegistryKey w' p' ↔ w = w' ∧ p = p' := by
  constructor
  · intro h
    have hletter := pollRegistryKey_letter w p
    rw [h, pollRegistryKey_letter] at hletter
    have hpurpose : p = p' := by
      cases p <;> cases p' <;> simp_all
    subst hpurpose
    unfold pollRegistryKey at h
    exact ⟨List.append_cancel_right (List.append_cancel_right h), rfl⟩
  · intro h
    rw [h.1, h.2]

/-! ## States -/

/-- How far the monitoring of a due workspace has come. -/
inductive Stage where
  | queued
  | loaded
  | checked
deriving DecidableEq

/-- The monitoring loop: between two cycles, testing which workspaces are due, or monitoring
those that are. -/
inductive MonitorLoop where
  | idle
  | filtering (rest due : List GoString)
  | monitoring (jobs : List (GoString × Stage))
deriving DecidableEq

/-- The discovery loop: between two cycles, at the next workspace, or at a workspace that is due
before its settings are read, while its registries are scanned, and before it is marked. -/
inductive DiscoveryLoop where
  | idle
  | choosing (rest : List GoString)
  | entered (workspaceID : GoString) (rest : List GoString)
  | discovering (workspaceID : GoString) (rest : List GoString)
  | marking (workspaceID : GoString) (rest : List GoString)
deriving DecidableEq

/-- The clock, the times of the last polls and the two loops. -/
structure PollerState where
  workspaceConcurrency : Nat
  now : Time
  lastPollAt : Table GoString Time
  monitorLoop : MonitorLoop
  discoveryLoop : DiscoveryLoop

namespace PollerState

/-- {lit}`New`. -/
def new (workspaceConcurrency : Nat) (now : Time) : PollerState where
  workspaceConcurrency := if workspaceConcurrency = 0 then 5 else workspaceConcurrency
  now := now
  lastPollAt := .empty
  monitorLoop := .idle
  discoveryLoop := .idle

/-- {lit}`TriggerMonitoring` and {lit}`TriggerDiscovery`. -/
def trigger (s : PollerState) (purpose : Purpose) (workspaceID : GoString) : PollerState :=
  { s with lastPollAt := s.lastPollAt.erase (pollRegistryKey workspaceID purpose) }

/-- {lit}`isWorkspaceDue`. -/
def isWorkspaceDue (s : PollerState) (workspaceID : GoString) (purpose : Purpose)
    (interval : Time) : Bool :=
  match s.lastPollAt.get? (pollRegistryKey workspaceID purpose) with
  | none => true
  | some last => decide (interval ≤ s.now - last)

/-- {lit}`markWorkspacePolled`. -/
def markWorkspacePolled (s : PollerState) (workspaceID : GoString) (purpose : Purpose) :
    PollerState :=
  { s with lastPollAt := s.lastPollAt.insert (pollRegistryKey workspaceID purpose) s.now }

end PollerState

/-! ## Steps -/

/-- What happens: a trigger, the passing of time, or a step of a cycle.  The answers of the
database and the settings come with the steps that read them. -/
inductive PollerEvent where
  | trigger (purpose : Purpose) (workspaceID : GoString)
  | pass (duration : Nat)
  | startMonitor (ids : Option (List GoString))
  | testMonitor (interval : Time)
  | dispatch
  | loadPackages (workspaceID : GoString) (loads : Bool)
  | checkPackages (workspaceID : GoString)
  | markMonitored (workspaceID : GoString)
  | finishMonitor
  | startDiscovery (ids : Option (List GoString))
  | testDiscovery (interval : Time)
  | readSettings (workspaceID : GoString) (scanDepth : Int)
  | discoverPackages
  | markDiscovered
  | finishDiscovery
deriving DecidableEq

/-- A job gets to its next stage. -/
def advance (jobs : List (GoString × Stage)) (workspaceID : GoString) (before after : Stage) :
    List (GoString × Stage) :=
  jobs.map fun job => if job = (workspaceID, before) then (workspaceID, after) else job

/-- The number of workspaces that are being monitored. -/
def running (jobs : List (GoString × Stage)) : Nat :=
  jobs.countP fun job => job.2 ≠ .queued

/-- A step of the monitoring loop. -/
def monitorStep (s : PollerState) : PollerEvent → Option PollerState
  | .startMonitor ids =>
      match s.monitorLoop with
      | .idle =>
          match ids with
          | none => some s
          | some ids =>
              if ids.Nodup then some { s with monitorLoop := .filtering ids [] } else none
      | _ => none
  | .testMonitor interval =>
      match s.monitorLoop with
      | .filtering (w :: rest) due =>
          some { s with
            monitorLoop := .filtering rest
              (if s.isWorkspaceDue w .monitor interval then due ++ [w] else due) }
      | _ => none
  | .dispatch =>
      match s.monitorLoop with
      | .filtering [] due =>
          some { s with monitorLoop := .monitoring (due.map fun w => (w, .queued)) }
      | _ => none
  | .loadPackages w _ =>
      match s.monitorLoop with
      | .monitoring jobs =>
          if (w, Stage.queued) ∈ jobs ∧ running jobs < s.workspaceConcurrency then
            some { s with monitorLoop := .monitoring (advance jobs w .queued .loaded) }
          else none
      | _ => none
  | .checkPackages w =>
      match s.monitorLoop with
      | .monitoring jobs =>
          if (w, Stage.loaded) ∈ jobs then
            some { s with monitorLoop := .monitoring (advance jobs w .loaded .checked) }
          else none
      | _ => none
  | .markMonitored w =>
      match s.monitorLoop with
      | .monitoring jobs =>
          if (w, Stage.checked) ∈ jobs then
            some { s.markWorkspacePolled w .monitor with
              monitorLoop := .monitoring (jobs.filter fun job => job ≠ (w, .checked)) }
          else none
      | _ => none
  | .finishMonitor =>
      match s.monitorLoop with
      | .monitoring [] => some { s with monitorLoop := .idle }
      | _ => none
  | _ => none

/-- A step of the discovery loop. -/
def discoveryStep (s : PollerState) : PollerEvent → Option PollerState
  | .startDiscovery ids =>
      match s.discoveryLoop with
      | .idle =>
          match ids with
          | none => some s
          | some ids =>
              if ids.Nodup then some { s with discoveryLoop := .choosing ids } else none
      | _ => none
  | .testDiscovery interval =>
      match s.discoveryLoop with
      | .choosing (w :: rest) =>
          some { s with
            discoveryLoop :=
              if s.isWorkspaceDue w .discover interval then .entered w rest else .choosing rest }
      | _ => none
  | .readSettings w scanDepth =>
      match s.discoveryLoop with
      | .entered w' rest =>
          if w = w' then
            some { s with
              discoveryLoop := if scanDepth ≤ 0 then .marking w rest else .discovering w rest }
          else none
      | _ => none
  | .discoverPackages =>
      match s.discoveryLoop with
      | .discovering w rest => some { s with discoveryLoop := .marking w rest }
      | _ => none
  | .markDiscovered =>
      match s.discoveryLoop with
      | .marking w rest =>
          some { s.markWorkspacePolled w .discover with discoveryLoop := .choosing rest }
      | _ => none
  | .finishDiscovery =>
      match s.discoveryLoop with
      | .choosing [] => some { s with discoveryLoop := .idle }
      | _ => none
  | _ => none

/-- A step, if it is possible. -/
def step? (s : PollerState) : PollerEvent → Option PollerState
  | .trigger purpose w => some (s.trigger purpose w)
  | .pass duration => some { s with now := s.now + duration }
  | .startMonitor ids => monitorStep s (.startMonitor ids)
  | .testMonitor interval => monitorStep s (.testMonitor interval)
  | .dispatch => monitorStep s .dispatch
  | .loadPackages w loads => monitorStep s (.loadPackages w loads)
  | .checkPackages w => monitorStep s (.checkPackages w)
  | .markMonitored w => monitorStep s (.markMonitored w)
  | .finishMonitor => monitorStep s .finishMonitor
  | e => discoveryStep s e

/-! ## What a step does -/

/-- The possible steps of the monitoring loop. -/
inductive MonitorStep (s : PollerState) : PollerEvent → PollerState → Prop where
  | missed (hloop : s.monitorLoop = .idle) : MonitorStep s (.startMonitor none) s
  | start {ids : List GoString} (hloop : s.monitorLoop = .idle) :
      MonitorStep s (.startMonitor (some ids)) { s with monitorLoop := .filtering ids [] }
  | test {w : GoString} {rest due : List GoString} {interval : Time}
      (hloop : s.monitorLoop = .filtering (w :: rest) due) :
      MonitorStep s (.testMonitor interval)
        { s with
          monitorLoop := .filtering rest
            (if s.isWorkspaceDue w .monitor interval then due ++ [w] else due) }
  | dispatch {due : List GoString} (hloop : s.monitorLoop = .filtering [] due) :
      MonitorStep s .dispatch { s with monitorLoop := .monitoring (due.map fun w => (w, .queued)) }
  | load {w : GoString} {loads : Bool} {jobs : List (GoString × Stage)}
      (hloop : s.monitorLoop = .monitoring jobs) (hjob : (w, Stage.queued) ∈ jobs) :
      MonitorStep s (.loadPackages w loads)
        { s with monitorLoop := .monitoring (advance jobs w .queued .loaded) }
  | check {w : GoString} {jobs : List (GoString × Stage)}
      (hloop : s.monitorLoop = .monitoring jobs) (hjob : (w, Stage.loaded) ∈ jobs) :
      MonitorStep s (.checkPackages w)
        { s with monitorLoop := .monitoring (advance jobs w .loaded .checked) }
  | mark {w : GoString} {jobs : List (GoString × Stage)}
      (hloop : s.monitorLoop = .monitoring jobs) (hjob : (w, Stage.checked) ∈ jobs) :
      MonitorStep s (.markMonitored w)
        { s.markWorkspacePolled w .monitor with
          monitorLoop := .monitoring (jobs.filter fun job => job ≠ (w, .checked)) }
  | finish (hloop : s.monitorLoop = .monitoring []) :
      MonitorStep s .finishMonitor { s with monitorLoop := .idle }

/-- The step function of the monitoring loop takes no other steps. -/
theorem MonitorStep.of_monitorStep {s s' : PollerState} {e : PollerEvent}
    (h : monitorStep s e = some s') : MonitorStep s e s' := by
  unfold monitorStep at h
  split at h
  case h_1 ids =>
    split at h
    case h_1 hloop =>
      cases ids with
      | none =>
          cases h
          exact .missed hloop
      | some ids =>
          simp only [Option.ite_none_right_eq_some] at h
          cases h.2
          exact .start hloop
    case h_2 => cases h
  case h_2 interval =>
    split at h
    case h_1 hloop =>
      cases h
      exact .test hloop
    case h_2 => cases h
  case h_3 =>
    split at h
    case h_1 hloop =>
      cases h
      exact .dispatch hloop
    case h_2 => cases h
  case h_4 w loads =>
    split at h
    case h_1 hloop =>
      simp only [Option.ite_none_right_eq_some] at h
      cases h.2
      exact .load hloop h.1.1
    case h_2 => cases h
  case h_5 w =>
    split at h
    case h_1 hloop =>
      simp only [Option.ite_none_right_eq_some] at h
      cases h.2
      exact .check hloop h.1
    case h_2 => cases h
  case h_6 w =>
    split at h
    case h_1 hloop =>
      simp only [Option.ite_none_right_eq_some] at h
      cases h.2
      exact .mark hloop h.1
    case h_2 => cases h
  case h_7 =>
    split at h
    case h_1 hloop =>
      cases h
      exact .finish hloop
    case h_2 => cases h
  case h_8 => cases h

/-- The possible steps of the discovery loop. -/
inductive DiscoveryStep (s : PollerState) : PollerEvent → PollerState → Prop where
  | missed (hloop : s.discoveryLoop = .idle) : DiscoveryStep s (.startDiscovery none) s
  | start {ids : List GoString} (hloop : s.discoveryLoop = .idle) :
      DiscoveryStep s (.startDiscovery (some ids)) { s with discoveryLoop := .choosing ids }
  | test {w : GoString} {rest : List GoString} {interval : Time}
      (hloop : s.discoveryLoop = .choosing (w :: rest)) :
      DiscoveryStep s (.testDiscovery interval)
        { s with
          discoveryLoop :=
            if s.isWorkspaceDue w .discover interval then .entered w rest else .choosing rest }
  | read {w : GoString} {rest : List GoString} {scanDepth : Int}
      (hloop : s.discoveryLoop = .entered w rest) :
      DiscoveryStep s (.readSettings w scanDepth)
        { s with discoveryLoop := if scanDepth ≤ 0 then .marking w rest else .discovering w rest }
  | discover {w : GoString} {rest : List GoString}
      (hloop : s.discoveryLoop = .discovering w rest) :
      DiscoveryStep s .discoverPackages { s with discoveryLoop := .marking w rest }
  | mark {w : GoString} {rest : List GoString} (hloop : s.discoveryLoop = .marking w rest) :
      DiscoveryStep s .markDiscovered
        { s.markWorkspacePolled w .discover with discoveryLoop := .choosing rest }
  | finish (hloop : s.discoveryLoop = .choosing []) :
      DiscoveryStep s .finishDiscovery { s with discoveryLoop := .idle }

/-- The step function of the discovery loop takes no other steps. -/
theorem DiscoveryStep.of_discoveryStep {s s' : PollerState} {e : PollerEvent}
    (h : discoveryStep s e = some s') : DiscoveryStep s e s' := by
  unfold discoveryStep at h
  split at h
  case h_1 ids =>
    split at h
    case h_1 hloop =>
      cases ids with
      | none =>
          cases h
          exact .missed hloop
      | some ids =>
          simp only [Option.ite_none_right_eq_some] at h
          cases h.2
          exact .start hloop
    case h_2 => cases h
  case h_2 interval =>
    split at h
    case h_1 hloop =>
      cases h
      exact .test hloop
    case h_2 => cases h
  case h_3 w scanDepth =>
    split at h
    case h_1 w' rest hloop =>
      simp only [Option.ite_none_right_eq_some] at h
      cases h.1
      cases h.2
      exact .read hloop
    case h_2 => cases h
  case h_4 =>
    split at h
    case h_1 hloop =>
      cases h
      exact .discover hloop
    case h_2 => cases h
  case h_5 =>
    split at h
    case h_1 hloop =>
      cases h
      exact .mark hloop
    case h_2 => cases h
  case h_6 =>
    split at h
    case h_1 hloop =>
      cases h
      exact .finish hloop
    case h_2 => cases h
  case h_7 => cases h

/-- The possible steps. -/
inductive Step (s : PollerState) : PollerEvent → PollerState → Prop where
  | trigger (purpose : Purpose) (w : GoString) : Step s (.trigger purpose w) (s.trigger purpose w)
  | pass (duration : Nat) : Step s (.pass duration) { s with now := s.now + duration }
  | monitor {e : PollerEvent} {s' : PollerState} (h : MonitorStep s e s') : Step s e s'
  | discovery {e : PollerEvent} {s' : PollerState} (h : DiscoveryStep s e s') : Step s e s'

/-- The step function takes no other steps. -/
theorem Step.of_step? {s s' : PollerState} {e : PollerEvent} (h : step? s e = some s') :
    Step s e s' := by
  cases e with
  | trigger purpose w =>
      cases h
      exact .trigger purpose w
  | pass duration =>
      cases h
      exact .pass duration
  | startMonitor | testMonitor | dispatch | loadPackages | checkPackages | markMonitored
  | finishMonitor =>
      exact .monitor (.of_monitorStep h)
  | startDiscovery | testDiscovery | readSettings | discoverPackages | markDiscovered
  | finishDiscovery =>
      exact .discovery (.of_discoveryStep h)

/-! ## Runs -/

/-- The run is possible from a state, and every step meets a condition. -/
def follows (cond : PollerState → PollerEvent → Bool) : PollerState → List PollerEvent → Bool
  | _, [] => true
  | s, e :: run =>
      cond s e && match step? s e with
        | none => false
        | some s' => follows cond s' run

/-- The run is possible. -/
def possible (s : PollerState) (run : List PollerEvent) : Bool :=
  follows (fun _ _ => true) s run

theorem follows_cons {cond : PollerState → PollerEvent → Bool} {s : PollerState} {e : PollerEvent}
    {run : List PollerEvent} :
    follows cond s (e :: run) = true ↔
      cond s e = true ∧ ∃ s', step? s e = some s' ∧ follows cond s' run = true := by
  cases hstep : step? s e with
  | none => simp [follows, hstep]
  | some s' => simp [follows, hstep]

/-- A run gets to a state from which the rest is possible. -/
theorem follows_append {cond : PollerState → PollerEvent → Bool} {before run : List PollerEvent}
    {s : PollerState} (h : follows cond s (before ++ run) = true) :
    ∃ s', follows cond s' run = true := by
  induction before generalizing s with
  | nil => exact ⟨s, h⟩
  | cons e before ih =>
      rw [List.cons_append, follows_cons] at h
      rcases h with ⟨_, s', _, hrun⟩
      exact ih hrun

/-! ## Served triggers -/

/-- The start of a cycle. -/
def start : Purpose → Option (List GoString) → PollerEvent
  | .monitor, ids => .startMonitor ids
  | .discover, ids => .startDiscovery ids

/-- The end of a cycle. -/
def finish : Purpose → PollerEvent
  | .monitor => .finishMonitor
  | .discover => .finishDiscovery

/-- A cycle reads the packages or the settings of the workspace. -/
def reads (purpose : Purpose) (workspaceID : GoString) : PollerEvent → Bool
  | .loadPackages w loads => decide (purpose = .monitor ∧ w = workspaceID ∧ loads = true)
  | .readSettings w _ => decide (purpose = .discover ∧ w = workspaceID)
  | _ => false

/-- Every trigger is followed by a reading of the workspace before the end of the next cycle that
starts after it. -/
def TriggersServed (purpose : Purpose) (workspaceID : GoString) (run : List PollerEvent) : Prop :=
  ∀ before mid ids body rest,
    run = before ++ .trigger purpose workspaceID ::
      (mid ++ start purpose ids :: (body ++ finish purpose :: rest)) →
    ∃ e ∈ mid ++ body, reads purpose workspaceID e = true

/-! ## Triggers between reading and marking -/

/-- The packages are read and the mark is to come. -/
def MonitorLoop.holds (workspaceID : GoString) : MonitorLoop → Bool
  | .monitoring jobs => decide ((workspaceID, .loaded) ∈ jobs ∨ (workspaceID, .checked) ∈ jobs)
  | _ => false

/-- The settings are read and the mark is to come. -/
def DiscoveryLoop.holds (workspaceID : GoString) : DiscoveryLoop → Bool
  | .discovering w _ => decide (w = workspaceID)
  | .marking w _ => decide (w = workspaceID)
  | _ => false

/-- A cycle has read the workspace and has not marked it. -/
def PollerState.holds (s : PollerState) (purpose : Purpose) (workspaceID : GoString) : Bool :=
  match purpose with
  | .monitor => s.monitorLoop.holds workspaceID
  | .discover => s.discoveryLoop.holds workspaceID

/-- The workspace has no time of a last poll. -/
def PollerState.unpolled (s : PollerState) (purpose : Purpose) (workspaceID : GoString) : Bool :=
  (s.lastPollAt.get? (pollRegistryKey workspaceID purpose)).isNone

/-- The listing succeeds and has the workspace. -/
def lists (workspaceID : GoString) (ids : Option (List GoString)) : Bool :=
  ids.any fun ids => decide (workspaceID ∈ ids)

/-- The workspace is not triggered between reading and marking, and as long as it has no poll time
the listings have it and its packages are loaded. -/
def meets (purpose : Purpose) (workspaceID : GoString) (s : PollerState) : PollerEvent → Bool
  | .trigger purpose' w =>
      decide (purpose' = purpose → w = workspaceID → s.holds purpose workspaceID = false)
  | .startMonitor ids =>
      decide (purpose = .monitor → s.unpolled .monitor workspaceID → lists workspaceID ids)
  | .startDiscovery ids =>
      decide (purpose = .discover → s.unpolled .discover workspaceID → lists workspaceID ids)
  | .loadPackages w loads =>
      decide (purpose = .monitor → w = workspaceID → s.unpolled .monitor workspaceID → loads)
  | _ => true

/-- The cycle in progress is still to read the workspace if it has no poll time. -/
def MonitorLoop.Awaits (workspaceID : GoString) : MonitorLoop → Prop
  | .idle => False
  | .filtering rest due => workspaceID ∈ rest ∨ workspaceID ∈ due
  | .monitoring jobs => (workspaceID, .queued) ∈ jobs

/-- The cycle in progress is still to read the workspace if it has no poll time. -/
def DiscoveryLoop.Awaits (workspaceID : GoString) : DiscoveryLoop → Prop
  | .idle => False
  | .choosing rest => workspaceID ∈ rest
  | .entered w rest => w = workspaceID ∨ workspaceID ∈ rest
  | .discovering _ rest => workspaceID ∈ rest
  | .marking _ rest => workspaceID ∈ rest

/-- The cycle in progress is still to read the workspace if it has no poll time. -/
def PollerState.Awaits (s : PollerState) (purpose : Purpose) (workspaceID : GoString) : Prop :=
  match purpose with
  | .monitor => s.monitorLoop.Awaits workspaceID
  | .discover => s.discoveryLoop.Awaits workspaceID

/-- A trigger that is not served yet. -/
structure Pending (purpose : Purpose) (workspaceID : GoString) (s : PollerState) : Prop where
  unpolled : s.unpolled purpose workspaceID = true
  unheld : s.holds purpose workspaceID = false

@[simp]
theorem unpolled_iff {s : PollerState} {purpose : Purpose} {w : GoString} :
    s.unpolled purpose w = true ↔ s.lastPollAt.get? (pollRegistryKey w purpose) = none := by
  unfold PollerState.unpolled
  exact Option.isNone_iff_eq_none

/-- A mark of another workspace or purpose leaves a workspace unpolled. -/
theorem get?_markWorkspacePolled {s : PollerState} {p p' : Purpose} {w w' : GoString}
    (hne : ¬ (w = w' ∧ p = p')) :
    (s.markWorkspacePolled w' p').lastPollAt.get? (pollRegistryKey w p) =
      s.lastPollAt.get? (pollRegistryKey w p) := by
  unfold PollerState.markWorkspacePolled
  rw [Table.get?_insert, if_neg]
  rwa [pollRegistryKey_inj]

/-- A workspace without a poll time is due. -/
theorem isWorkspaceDue_of_unpolled {s : PollerState} {p : Purpose} {w : GoString}
    (h : s.unpolled p w = true) (interval : Time) : s.isWorkspaceDue w p interval = true := by
  unfold PollerState.isWorkspaceDue
  rw [unpolled_iff.mp h]

/-- A job that is another than the one that advances keeps its stage. -/
theorem mem_advance {jobs : List (GoString × Stage)} {w : GoString} {before after : Stage}
    {job : GoString × Stage} :
    job ∈ advance jobs w before after ↔
      job ∈ jobs ∧ job ≠ (w, before) ∨ job = (w, after) ∧ (w, before) ∈ jobs := by
  unfold advance
  rw [List.mem_map]
  constructor
  · rintro ⟨old, hold, hjob⟩
    by_cases heq : old = (w, before)
    · rw [if_pos heq] at hjob
      exact .inr ⟨hjob.symm, heq ▸ hold⟩
    · rw [if_neg heq] at hjob
      exact .inl ⟨hjob ▸ hold, hjob ▸ heq⟩
  · intro h
    rcases h with ⟨hmem, hne⟩ | ⟨hjob, hmem⟩
    · exact ⟨job, hmem, if_neg hne⟩
    · exact ⟨(w, before), hmem, by rw [if_pos rfl, hjob]⟩

/-- A step of the monitoring loop leaves the discovery alone. -/
theorem MonitorStep.discover {s s' : PollerState} {e : PollerEvent} (h : MonitorStep s e s') :
    s'.discoveryLoop = s.discoveryLoop ∧
      ∀ w, s'.unpolled .discover w = s.unpolled .discover w := by
  cases h with
  | mark =>
      refine ⟨rfl, fun w => congrArg Option.isNone (get?_markWorkspacePolled ?_)⟩
      intro h
      cases h.2
  | missed | start | test | dispatch | load | check | finish =>
      exact ⟨rfl, fun _ => rfl⟩

/-- A step of the discovery loop leaves the monitoring alone. -/
theorem DiscoveryStep.monitor {s s' : PollerState} {e : PollerEvent} (h : DiscoveryStep s e s') :
    s'.monitorLoop = s.monitorLoop ∧ ∀ w, s'.unpolled .monitor w = s.unpolled .monitor w := by
  cases h with
  | mark =>
      refine ⟨rfl, fun w => congrArg Option.isNone (get?_markWorkspacePolled ?_)⟩
      intro h
      cases h.2
  | missed | start | test | read | discover | finish =>
      exact ⟨rfl, fun _ => rfl⟩

section Steps

variable {s s' : PollerState} {e : PollerEvent} {w : GoString}

/-- The monitoring loop does not serve a trigger without reading the packages. -/
theorem MonitorStep.pending (h : MonitorStep s e s') (hmeets : meets .monitor w s e = true)
    (hreads : reads .monitor w e = false) (hp : Pending .monitor w s) :
    Pending .monitor w s' := by
  have hunheld := hp.unheld
  have hunpolled := hp.unpolled
  cases h with
  | missed =>
      exact hp
  | start | test | finish =>
      exact ⟨hunpolled, rfl⟩
  | dispatch =>
      refine ⟨hunpolled, ?_⟩
      simp [PollerState.holds, MonitorLoop.holds]
  | @load w' loads jobs hloop hjob =>
      refine ⟨hunpolled, ?_⟩
      have hne : w' ≠ w := by
        intro heq
        simp_all [meets, reads]
      simp only [PollerState.holds, MonitorLoop.holds, hloop] at hunheld ⊢
      simp_all [mem_advance, Ne.symm hne]
  | @check w' jobs hloop hjob =>
      refine ⟨hunpolled, ?_⟩
      have hne : w' ≠ w := by
        intro heq
        simp_all [PollerState.holds, MonitorLoop.holds]
      simp only [PollerState.holds, MonitorLoop.holds, hloop] at hunheld ⊢
      simp_all [mem_advance, Ne.symm hne]
  | @mark w' jobs hloop hjob =>
      have hne : w' ≠ w := by
        intro heq
        simp_all [PollerState.holds, MonitorLoop.holds]
      constructor
      · rw [unpolled_iff] at hunpolled ⊢
        rw [← hunpolled]
        exact get?_markWorkspacePolled fun h => hne h.1.symm
      · simp only [PollerState.holds, MonitorLoop.holds, hloop] at hunheld ⊢
        simp_all

/-- A cycle of monitoring that is to read an unpolled workspace goes on until it does. -/
theorem MonitorStep.awaits (h : MonitorStep s e s') (hmeets : meets .monitor w s e = true)
    (hreads : reads .monitor w e = false) (hp : Pending .monitor w s)
    (ha : s.Awaits .monitor w) : s'.Awaits .monitor w := by
  unfold PollerState.Awaits at ha ⊢
  cases h with
  | missed =>
      exact ha
  | start hloop | finish hloop =>
      simp [MonitorLoop.Awaits, hloop] at ha
  | @test w' rest due interval hloop =>
      simp only [MonitorLoop.Awaits, hloop, List.mem_cons] at ha ⊢
      rcases ha with (heq | hrest) | hdue
      · subst heq
        right
        simp [isWorkspaceDue_of_unpolled hp.unpolled]
      · exact .inl hrest
      · right
        split
        · exact List.mem_append_left _ hdue
        · exact hdue
  | dispatch hloop =>
      simp only [MonitorLoop.Awaits, hloop] at ha ⊢
      simpa using ha
  | @load w' loads jobs hloop hjob =>
      have hne : w' ≠ w := by
        intro heq
        have hunpolled := hp.unpolled
        simp_all [meets, reads]
      simp only [MonitorLoop.Awaits, hloop] at ha ⊢
      exact mem_advance.mpr (.inl ⟨ha, by simp [Ne.symm hne]⟩)
  | check hloop =>
      simp only [MonitorLoop.Awaits, hloop] at ha ⊢
      exact mem_advance.mpr (.inl ⟨ha, by simp⟩)
  | mark hloop =>
      simp only [MonitorLoop.Awaits, hloop] at ha ⊢
      exact List.mem_filter.mpr ⟨ha, by simp⟩

/-- The discovery loop does not serve a trigger without reading the settings. -/
theorem DiscoveryStep.pending (h : DiscoveryStep s e s') (hreads : reads .discover w e = false)
    (hp : Pending .discover w s) : Pending .discover w s' := by
  have hunheld : s.discoveryLoop.holds w = false := hp.unheld
  have hunpolled := hp.unpolled
  cases h with
  | missed =>
      exact hp
  | start | finish =>
      exact ⟨hunpolled, rfl⟩
  | test =>
      refine ⟨hunpolled, ?_⟩
      change DiscoveryLoop.holds w (ite _ _ _) = false
      split
      · rfl
      · rfl
  | @read w' rest scanDepth hloop =>
      refine ⟨hunpolled, ?_⟩
      have hne : w' ≠ w := by
        simpa [reads] using hreads
      change DiscoveryLoop.holds w (ite _ _ _) = false
      split
      · simp [DiscoveryLoop.holds, hne]
      · simp [DiscoveryLoop.holds, hne]
  | discover hloop =>
      refine ⟨hunpolled, ?_⟩
      simpa [hloop, PollerState.holds, DiscoveryLoop.holds] using hunheld
  | @mark w' rest hloop =>
      have hne : w' ≠ w := by
        simpa [hloop, DiscoveryLoop.holds] using hunheld
      constructor
      · rw [unpolled_iff] at hunpolled ⊢
        rw [← hunpolled]
        exact get?_markWorkspacePolled fun h => hne h.1.symm
      · rfl

/-- A cycle of discovery that is to read an unpolled workspace goes on until it does. -/
theorem DiscoveryStep.awaits (h : DiscoveryStep s e s') (hreads : reads .discover w e = false)
    (hp : Pending .discover w s) (ha : s.Awaits .discover w) : s'.Awaits .discover w := by
  unfold PollerState.Awaits at ha ⊢
  cases h with
  | missed =>
      exact ha
  | start hloop | finish hloop =>
      simp [DiscoveryLoop.Awaits, hloop] at ha
  | @test w' rest interval hloop =>
      simp only [DiscoveryLoop.Awaits, hloop, List.mem_cons] at ha
      rcases ha with heq | hrest
      · subst heq
        rw [if_pos (isWorkspaceDue_of_unpolled hp.unpolled interval)]
        exact .inl rfl
      · dsimp only
        split
        · exact .inr hrest
        · exact hrest
  | @read w' rest scanDepth hloop =>
      have hne : w' ≠ w := by
        simpa [reads] using hreads
      simp only [DiscoveryLoop.Awaits, hloop] at ha
      dsimp only
      split
      · exact ha.resolve_left hne
      · exact ha.resolve_left hne
  | discover hloop | mark hloop =>
      simpa [DiscoveryLoop.Awaits, hloop] using ha

end Steps

section Runs

variable {s s' : PollerState} {e : PollerEvent} {p : Purpose} {w : GoString}

/-- No step serves a trigger without reading the workspace. -/
theorem Step.pending (h : Step s e s') (hmeets : meets p w s e = true)
    (hreads : reads p w e = false) (hp : Pending p w s) : Pending p w s' := by
  cases h with
  | trigger p' w' =>
      constructor
      · have hunpolled := hp.unpolled
        rw [unpolled_iff] at hunpolled ⊢
        unfold PollerState.trigger
        rw [Table.get?_erase, hunpolled, ite_self]
      · exact hp.unheld
  | pass =>
      exact ⟨hp.unpolled, hp.unheld⟩
  | monitor h =>
      cases p with
      | monitor =>
          exact h.pending hmeets hreads hp
      | discover =>
          exact ⟨(h.discover.2 w).trans hp.unpolled,
            (congrArg (DiscoveryLoop.holds w) h.discover.1).trans hp.unheld⟩
  | discovery h =>
      cases p with
      | monitor =>
          exact ⟨(h.monitor.2 w).trans hp.unpolled,
            (congrArg (MonitorLoop.holds w) h.monitor.1).trans hp.unheld⟩
      | discover =>
          exact h.pending hreads hp

/-- A cycle that is to read an unpolled workspace goes on until it does. -/
theorem Step.awaits (h : Step s e s') (hmeets : meets p w s e = true)
    (hreads : reads p w e = false) (hp : Pending p w s) (ha : s.Awaits p w) : s'.Awaits p w := by
  cases h with
  | trigger | pass =>
      exact ha
  | monitor h =>
      cases p with
      | monitor =>
          exact h.awaits hmeets hreads hp ha
      | discover =>
          exact (congrArg (DiscoveryLoop.Awaits w) h.discover.1).mpr ha
  | discovery h =>
      cases p with
      | monitor =>
          exact (congrArg (MonitorLoop.Awaits w) h.monitor.1).mpr ha
      | discover =>
          exact h.awaits hreads hp ha

/-- A trigger outside a reading is pending. -/
theorem pending_trigger (hmeets : meets p w s (.trigger p w) = true) :
    Pending p w (s.trigger p w) := by
  constructor
  · rw [unpolled_iff]
    unfold PollerState.trigger
    rw [Table.get?_erase, if_pos rfl]
  · exact of_decide_eq_true hmeets rfl rfl

/-- The next cycle has the triggered workspace in its list. -/
theorem awaits_start {ids : Option (List GoString)} (hstep : step? s (start p ids) = some s')
    (hmeets : meets p w s (start p ids) = true) (hp : Pending p w s) : s'.Awaits p w := by
  have hlists : lists w ids = true := by
    have hunpolled := hp.unpolled
    cases p with
    | monitor => exact of_decide_eq_true hmeets rfl hunpolled
    | discover => exact of_decide_eq_true hmeets rfl hunpolled
  cases ids with
  | none => cases hlists
  | some ids =>
      have hmem : w ∈ ids := by simpa [lists] using hlists
      cases p with
      | monitor =>
          have hstep' : monitorStep s (.startMonitor (some ids)) = some s' := hstep
          cases MonitorStep.of_monitorStep hstep'
          exact Or.inl hmem
      | discover =>
          have hstep' : discoveryStep s (.startDiscovery (some ids)) = some s' := hstep
          cases DiscoveryStep.of_discoveryStep hstep'
          exact hmem

/-- A cycle that is still to read a workspace does not end. -/
theorem not_awaits_finish (hstep : step? s (finish p) = some s') : ¬ s.Awaits p w := by
  unfold PollerState.Awaits
  cases p with
  | monitor =>
      have hstep' : monitorStep s .finishMonitor = some s' := hstep
      cases MonitorStep.of_monitorStep hstep' with
      | finish hloop => simp [hloop, MonitorLoop.Awaits]
  | discover =>
      have hstep' : discoveryStep s .finishDiscovery = some s' := hstep
      cases DiscoveryStep.of_discoveryStep hstep' with
      | finish hloop => simp [hloop, DiscoveryLoop.Awaits]

/-- Until the workspace is read a trigger stays pending, and a cycle that is to read it goes on. -/
theorem pending_run {mid rest : List PollerEvent} (h : follows (meets p w) s (mid ++ rest) = true)
    (hp : Pending p w s) :
    (∃ e ∈ mid, reads p w e = true) ∨
      ∃ s', follows (meets p w) s' rest = true ∧ Pending p w s' ∧
        (s.Awaits p w → s'.Awaits p w) := by
  induction mid generalizing s with
  | nil => exact .inr ⟨s, h, hp, id⟩
  | cons e mid ih =>
      rw [List.cons_append, follows_cons] at h
      rcases h with ⟨hmeets, s₁, hstep, hrun⟩
      cases hreads : reads p w e with
      | true => exact .inl ⟨e, List.mem_cons_self, hreads⟩
      | false =>
          have hs := Step.of_step? hstep
          rcases ih hrun (hs.pending hmeets hreads hp) with ⟨e', he', hread⟩ | ⟨s', hs', hp', ha'⟩
          · exact .inl ⟨e', List.mem_cons_of_mem e he', hread⟩
          · exact .inr ⟨s', hs', hp', fun ha => ha' (hs.awaits hmeets hreads hp ha)⟩

/-- The start of a cycle reads nothing. -/
theorem reads_start (ids : Option (List GoString)) : reads p w (start p ids) = false := by
  cases p with
  | monitor => rfl
  | discover => rfl

end Runs

/-- A run whose steps all meet the condition serves the triggers. -/
theorem triggers_served (purpose : Purpose) (workspaceID : GoString) (s : PollerState)
    (run : List PollerEvent) (h : follows (meets purpose workspaceID) s run = true) :
    TriggersServed purpose workspaceID run := by
  intro before mid ids body rest hrun
  subst hrun
  rcases follows_append h with ⟨s₀, h₀⟩
  rw [follows_cons] at h₀
  rcases h₀ with ⟨hmeets, s₁, hstep, h₁⟩
  cases hstep
  rcases pending_run h₁ (pending_trigger hmeets) with ⟨e, he, hread⟩ | ⟨s₂, h₂, hp₂, _⟩
  · exact ⟨e, List.mem_append_left _ he, hread⟩
  · rw [follows_cons] at h₂
    rcases h₂ with ⟨hmeets₂, s₃, hstep₃, h₃⟩
    have hp₃ := (Step.of_step? hstep₃).pending hmeets₂ (reads_start ids) hp₂
    have ha₃ := awaits_start hstep₃ hmeets₂ hp₂
    rcases pending_run h₃ hp₃ with ⟨e, he, hread⟩ | ⟨s₄, h₄, _, ha₄⟩
    · exact ⟨e, List.mem_append_right _ he, hread⟩
    · rw [follows_cons] at h₄
      rcases h₄ with ⟨_, s₅, hstep₅, _⟩
      exact absurd (ha₄ ha₃) (not_awaits_finish hstep₅)

/-- A workspace is approved a package while its cycle has loaded the packages. -/
def approvalWhileLoaded : List PollerEvent :=
  [.startMonitor (some ["w".toList]), .testMonitor 3600000000000, .dispatch,
    .loadPackages "w".toList true] ++
  .trigger .monitor "w".toList ::
    ([.checkPackages "w".toList, .markMonitored "w".toList, .finishMonitor, .pass 30000000000] ++
      start .monitor (some ["w".toList]) ::
        ([.testMonitor 3600000000000, .dispatch] ++ finish .monitor :: []))

/-- The mark of the cycle in progress undoes the trigger. -/
theorem trigger_lost :
    ¬ ∀ (workspaceConcurrency : Nat) (now : Time) (purpose : Purpose) (workspaceID : GoString)
        (run : List PollerEvent),
      possible (.new workspaceConcurrency now) run = true →
      TriggersServed purpose workspaceID run := by
  intro h
  have hserved := h 5 0 .monitor "w".toList approvalWhileLoaded (by decide +kernel)
  have hread := hserved _ _ _ _ _ rfl
  revert hread
  decide +kernel

/-- A package is approved before its cycle loads the packages, the other workspace is not due. -/
theorem triggers_served_queued :
    TriggersServed .monitor "w".toList
      [.startMonitor (some ["w".toList, "v".toList]), .testMonitor 3600000000000,
        .testMonitor 3600000000000, .dispatch, .loadPackages "v".toList false,
        .trigger .monitor "w".toList, .loadPackages "w".toList true,
        .checkPackages "v".toList, .checkPackages "w".toList, .markMonitored "w".toList,
        .markMonitored "v".toList, .finishMonitor, .pass 30000000000,
        .startMonitor (some ["w".toList, "v".toList]), .testMonitor 3600000000000,
        .testMonitor 3600000000000, .dispatch, .finishMonitor] :=
  triggers_served .monitor "w".toList (.new 5 0) _ (by decide +kernel)

end Poller
end Veilence
