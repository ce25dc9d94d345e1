import Veilence.Notifications.Repository

/-!
# Dispatching an event

An event is stored as one in-app notification and sent to external channels.  The loop runs over
the active rules of the workspace: a rule whose threshold the event reaches sends to the channel
that it names.  So a channel that several such rules name is sent to several times, and the
channel is looked up in any workspace.

Main results:

- Theorem {lit}`dispatchEvent_sends`: one send for each such rule whose channel is found, active
  and of a known type, whatever becomes of the other lookups and sends, and one in-app
  notification.
- Theorem {lit}`notified_twice`: two rules of one channel.
-/

namespace Veilence
namespace Notifications

open Go Foundation

/-! ## Severities -/

/-- {lit}`severityOrder`; the value of a missing key is zero. -/
def severityOrder (severity : GoString) : Nat :=
  if severity = "low".toList then 0
  else if severity = "medium".toList then 1
  else if severity = "high".toList then 2
  else if severity = "critical".toList then 3
  else 0

/-! ## The dispatch -/

/-- {lit}`NotificationEvent`. -/
structure NotificationEvent where
  severity : GoString
  eventType : GoString
  title : GoString
  message : GoString
  referenceID : ID
  referenceType : GoString
  userID : ID
deriving DecidableEq

/-- {lit}`sendEmail`, {lit}`sendSlack` and {lit}`sendWebhook` with a channel, a title and a
message: the error, if there is one. -/
structure Senders where
  sendEmail : Channel → GoString → GoString → Option GoString
  sendSlack : Channel → GoString → GoString → Option GoString
  sendWebhook : Channel → GoString → GoString → Option GoString

/-- A call of one of the senders. -/
structure Send where
  channel : Channel
  title : GoString
  message : GoString
deriving DecidableEq

/-- {lit}`dispatchToChannel`: the sender that is called, and the error. -/
def dispatchToChannel (senders : Senders) (channel : Channel) (title message : GoString) :
    List Send × Option GoString :=
  match channel.type with
  | .email => ([⟨channel, title, message⟩], senders.sendEmail channel title message)
  | .slack => ([⟨channel, title, message⟩], senders.sendSlack channel title message)
  | .webhook => ([⟨channel, title, message⟩], senders.sendWebhook channel title message)
  | .other name => ([], some ("unknown notification channel type: ".toList ++ name))

/-- What becomes of the repository calls of a dispatch: whether the row is stored under a new
ID, whether the rules are loaded, and whether the channel of the rule at a position is. -/
structure Answers where
  created : Option (ID × Int)
  rulesLoaded : Bool
  channelLoaded : Nat → Bool

variable (senders : Senders) (answers : Answers) (db : Database)

/-- The part of the loop in {lit}`dispatchInternal` for the rule at a position. -/
def dispatchRule (severity title message : GoString) (position : Nat) (rule : Rule) :
    List Send :=
  if severityOrder severity < severityOrder rule.severity then []
  else
    match if answers.channelLoaded position then db.findChannelByID rule.channelID else none with
    | none => []
    | some channel =>
        if channel.isActive = false then []
        else (dispatchToChannel senders channel title message).1

/-- The loop in {lit}`dispatchInternal`, from a position on. -/
def dispatchRules (severity title message : GoString) : Nat → List Rule → List Send
  | _, [] => []
  | position, rule :: rules =>
      dispatchRule senders answers db severity title message position rule ++
        dispatchRules severity title message (position + 1) rules

/-- The in-app notification of an event. -/
def inAppNotification (now : Int) (workspaceID : ID) (evt : NotificationEvent) (id : ID)
    (createdAt : Int) : Notification where
  id := id
  workspaceID := workspaceID
  userID := evt.userID
  channelID := []
  severity := evt.severity
  eventType := evt.eventType
  referenceID := evt.referenceID
  referenceType := evt.referenceType
  title := evt.title
  message := evt.message
  isRead := false
  sentAt := now
  createdAt := createdAt

/-- {lit}`Create` in {lit}`dispatchInternal`; an error is logged. -/
def storeInApp (now : Int) (workspaceID : ID) (evt : NotificationEvent) : Database :=
  match answers.created with
  | none => db
  | some (id, createdAt) =>
      db.createNotification (inAppNotification now workspaceID evt id createdAt)

/-- {lit}`DispatchEvent`: the tables and the senders that are called. -/
def dispatchEvent (now : Int) (workspaceID : ID) (evt : NotificationEvent) :
    Database × List Send :=
  let db := storeInApp answers db now workspaceID evt
  if answers.rulesLoaded then
    (db, dispatchRules senders answers db evt.severity evt.title evt.message 0
      (db.findActiveRules workspaceID))
  else (db, [])

/-! ## What is sent -/

/-- A channel whose type has a sender. -/
def ChannelType.known : ChannelType → Bool
  | .other _ => false
  | _ => true

/-- The event reaches the threshold of the rule. -/
def Rule.reachedBy (rule : Rule) (severity : GoString) : Bool :=
  severityOrder rule.severity ≤ severityOrder severity

/-- The active rules of a workspace that an event reaches and whose channel is loaded, with
their positions. -/
def matchingRules (workspaceID : ID) (severity : GoString) : List (Rule × Nat) :=
  (db.findActiveRules workspaceID).zipIdx.filter fun e =>
    e.1.reachedBy severity && answers.channelLoaded e.2

variable {senders answers db} {severity title message : GoString}

@[simp]
theorem findActiveRules_storeInApp (now : Int) (workspaceID : ID) (evt : NotificationEvent)
    (other : ID) :
    (storeInApp answers db now workspaceID evt).findActiveRules other =
      db.findActiveRules other := by
  unfold storeInApp
  split <;> rfl

@[simp]
theorem channels_storeInApp (now : Int) (workspaceID : ID) (evt : NotificationEvent) :
    (storeInApp answers db now workspaceID evt).channels = db.channels := by
  unfold storeInApp
  split <;> rfl

/-- A channel of a known type is sent to once, any other not at all. -/
theorem dispatchToChannel_fst (channel : Channel) :
    (dispatchToChannel senders channel title message).1 =
      if channel.type.known then [⟨channel, title, message⟩] else [] := by
  unfold dispatchToChannel ChannelType.known
  cases channel.type <;> rfl

/-- The channel that a rule sends to: the one that it names, if that is active and of a known
type. -/
def Database.target (db : Database) (rule : Rule) : Option Channel :=
  (db.findChannelByID rule.channelID).filter fun c => c.isActive && c.type.known

/-- What one rule sends. -/
theorem dispatchRule_eq (position : Nat) (rule : Rule) :
    dispatchRule senders answers db severity title message position rule =
      if rule.reachedBy severity && answers.channelLoaded position then
        (db.target rule).toList.map fun c => ⟨c, title, message⟩
      else [] := by
  unfold dispatchRule Rule.reachedBy Database.target
  by_cases hreached : severityOrder rule.severity ≤ severityOrder severity
  · rw [if_neg (Nat.not_lt.mpr hreached)]
    cases hloaded : answers.channelLoaded position with
    | false => simp
    | true =>
        cases hfind : db.findChannelByID rule.channelID with
        | none => simp [hreached]
        | some c =>
            cases hactive : c.isActive with
            | false => simp [hreached, hactive]
            | true =>
                cases hknown : c.type.known <;>
                  simp [hreached, hactive, hknown, dispatchToChannel_fst, Option.filter]
  · rw [if_pos (Nat.not_le.mp hreached)]
    simp [hreached]

/-- What the loop sends, from a position on. -/
theorem dispatchRules_eq (position : Nat) (rules : List Rule) :
    dispatchRules senders answers db severity title message position rules =
      ((rules.zipIdx position).filter fun e =>
        e.1.reachedBy severity && answers.channelLoaded e.2).flatMap fun e =>
          (db.target e.1).toList.map fun c => ⟨c, title, message⟩ := by
  induction rules generalizing position with
  | nil => rfl
  | cons rule rules ih =>
      rw [dispatchRules, ih, dispatchRule_eq, List.zipIdx_cons]
      cases hmatch : rule.reachedBy severity && answers.channelLoaded position with
      | false => simp [hmatch]
      | true => simp [hmatch]

/-! ## How often a channel is sent to -/

/-- An active channel of the workspace with an active rule that the event reaches. -/
structure Reached (db : Database) (workspaceID : ID) (severity : GoString) (c : Channel) :
    Prop where
  mem : c ∈ db.channels
  workspace : c.workspaceID = workspaceID
  active : c.isActive = true
  rule : ∃ r ∈ db.findActiveRules workspaceID, r.channelID = c.id ∧ r.reachedBy severity = true

/-- The event is sent once to every channel that it reaches and to no other one, and is stored
as one notification. -/
structure NotifiedOnce (senders : Senders) (answers : Answers) (db : Database) (now : Int)
    (workspaceID : ID) (evt : NotificationEvent) : Prop where
  once : ∀ c, Reached db workspaceID evt.severity c →
    ((dispatchEvent senders answers db now workspaceID evt).2.filter fun s =>
      s.channel = c).length = 1
  others : ∀ s ∈ (dispatchEvent senders answers db now workspaceID evt).2,
    Reached db workspaceID evt.severity s.channel
  stored : ∃ n, (dispatchEvent senders answers db now workspaceID evt).1.notifications =
    db.notifications ++ [n]

/-- What the dispatch sends if the rules are loaded. -/
theorem dispatchEvent_snd (now : Int) (workspaceID : ID) (evt : NotificationEvent)
    (hloaded : answers.rulesLoaded = true) :
    (dispatchEvent senders answers db now workspaceID evt).2 =
      (matchingRules answers db workspaceID evt.severity).flatMap fun e =>
        (db.target e.1).toList.map fun c => ⟨c, evt.title, evt.message⟩ := by
  have htarget : ∀ rule : Rule,
      (storeInApp answers db now workspaceID evt).target rule = db.target rule := by
    intro rule
    unfold Database.target Database.findChannelByID
    rw [channels_storeInApp]
  simp only [dispatchEvent, hloaded, if_true, dispatchRules_eq, findActiveRules_storeInApp,
    htarget, matchingRules]

/-- The channel that a rule sends to is the one that it names. -/
theorem target_eq_some {rule : Rule} {c : Channel} (hids : (db.channels.map Channel.id).Nodup) :
    db.target rule = some c ↔
      c ∈ db.channels ∧ c.id = rule.channelID ∧ c.isActive = true ∧ c.type.known = true := by
  unfold Database.target Database.findChannelByID
  rw [Option.filter_eq_some_iff, Bool.and_eq_true]
  constructor
  · rintro ⟨hfind, hactive, hknown⟩
    exact ⟨List.mem_of_find?_eq_some hfind, by simpa using List.find?_some hfind, hactive, hknown⟩
  · rintro ⟨hmem, hid, hactive, hknown⟩
    refine ⟨find?_eq_of_key hids hmem (by simpa using hid) ?_, hactive, hknown⟩
    intro b _ hb
    rw [of_decide_eq_true hb, hid]

/-- Selecting the sends to a channel counts the rules that name it. -/
theorem length_filter_sends {entries : List (Rule × Nat)} {c : Channel}
    (hids : (db.channels.map Channel.id).Nodup) (hmem : c ∈ db.channels)
    (hactive : c.isActive = true) (hknown : c.type.known = true) :
    ((entries.flatMap fun e => (db.target e.1).toList.map fun c => Send.mk c title message).filter
      fun s => s.channel = c).length = (entries.filter fun e => e.1.channelID = c.id).length := by
  induction entries with
  | nil => rfl
  | cons e entries ih =>
      rw [List.flatMap_cons, List.filter_append, List.length_append, ih, List.filter_cons]
      by_cases hid : e.1.channelID = c.id
      · have htarget : db.target e.1 = some c :=
          (target_eq_some hids).mpr ⟨hmem, hid.symm, hactive, hknown⟩
        simp [hid, htarget, Nat.add_comm]
      · cases htarget : db.target e.1 with
        | none => simp [hid]
        | some other =>
            obtain ⟨-, hother, -⟩ := (target_eq_some hids).mp htarget
            have hne : other ≠ c := fun heq => hid (hother.symm.trans (heq ▸ rfl))
            simp [hid, hne]

/-- An event is stored as one notification if the store takes the row, and each channel that is
active and of a known type is sent to as often as it is named by an active rule of the workspace
that the event reaches and whose lookup succeeds.  Nothing else is sent, so if these rules name
channels of their own workspace, only those are sent to. -/
theorem dispatchEvent_sends (senders : Senders) (answers : Answers) (db : Database) (now : Int)
    (workspaceID : ID) (evt : NotificationEvent) (hids : (db.channels.map Channel.id).Nodup)
    (hloaded : answers.rulesLoaded = true) :
    (∀ id createdAt, answers.created = some (id, createdAt) →
      (dispatchEvent senders answers db now workspaceID evt).1.notifications =
        db.notifications ++ [inAppNotification now workspaceID evt id createdAt]) ∧
    (∀ c ∈ db.channels, c.isActive = true → c.type.known = true →
      ((dispatchEvent senders answers db now workspaceID evt).2.filter fun s =>
          s.channel = c).length =
        ((matchingRules answers db workspaceID evt.severity).filter fun e =>
          e.1.channelID = c.id).length) ∧
    ∀ s ∈ (dispatchEvent senders answers db now workspaceID evt).2,
      s.title = evt.title ∧ s.message = evt.message ∧ s.channel ∈ db.channels ∧
        s.channel.isActive = true ∧
        ∃ e ∈ matchingRules answers db workspaceID evt.severity, e.1.channelID = s.channel.id ∧
          ((∀ c ∈ db.channels, c.id = e.1.channelID → c.workspaceID = e.1.workspaceID) →
            Reached db workspaceID evt.severity s.channel) := by
  refine ⟨?_, ?_, ?_⟩
  · intro id createdAt hcreated
    simp only [dispatchEvent, hloaded, if_true, storeInApp, hcreated]
    rfl
  · intro c hmem hactive hknown
    rw [dispatchEvent_snd now workspaceID evt hloaded]
    exact length_filter_sends hids hmem hactive hknown
  · intro s hs
    rw [dispatchEvent_snd now workspaceID evt hloaded] at hs
    obtain ⟨e, he, hs⟩ := List.mem_flatMap.mp hs
    obtain ⟨c, hc, rfl⟩ := List.mem_map.mp hs
    obtain ⟨hmem, hid, hactive, -⟩ := (target_eq_some hids).mp (Option.mem_toList.mp hc)
    refine ⟨rfl, rfl, hmem, hactive, e, he, hid.symm, fun hhome => ?_⟩
    unfold matchingRules at he
    rw [List.mem_filter, Bool.and_eq_true] at he
    have hrule : e.1 ∈ db.findActiveRules workspaceID := by
      obtain ⟨rule, position⟩ := e
      exact (List.mem_zipIdx' he.1).2 ▸ List.getElem_mem _
    have hworkspace : e.1.workspaceID = workspaceID := by
      unfold Database.findActiveRules at hrule
      simp only [List.mem_filter, decide_eq_true_eq] at hrule
      exact hrule.2.1
    exact ⟨hmem, (hhome c hmem hid).trans hworkspace, hactive, e.1, hrule, hid.symm, he.2.1⟩

/-! ## Two rules of one channel -/

/-- A channel of a workspace. -/
def teamChannel : Channel :=
  ⟨"c".toList, "w".toList, "team".toList, .webhook, [], true⟩

/-- A channel with a rule for low and a rule for high severities. -/
def twoRules : Database where
  channels := [teamChannel]
  rules := [⟨"r".toList, "w".toList, "c".toList, "low".toList, true⟩,
    ⟨"s".toList, "w".toList, "c".toList, "high".toList, true⟩]
  notifications := []
  memberships := []

/-- Senders that succeed. -/
def quietSenders : Senders :=
  ⟨fun _ _ _ => none, fun _ _ _ => none, fun _ _ _ => none⟩

/-- Repository calls that succeed. -/
def allAnswers : Answers :=
  ⟨some ("n".toList, 1), true, fun _ => true⟩

/-- An event of the highest severity. -/
def criticalEvent : NotificationEvent :=
  ⟨"critical".toList, "alert.created.malicious".toList, "title".toList, "message".toList, [],
    "alert".toList, []⟩

/-- The sends to a channel with two rules. -/
theorem dispatchEvent_sends_twoRules :
    ((dispatchEvent quietSenders allAnswers twoRules 0 "w".toList criticalEvent).2.filter fun s =>
        s.channel = teamChannel).length =
      ((matchingRules allAnswers twoRules "w".toList criticalEvent.severity).filter fun e =>
        e.1.channelID = teamChannel.id).length :=
  (dispatchEvent_sends quietSenders allAnswers twoRules 0 "w".toList criticalEvent (by decide)
    rfl).2.1 teamChannel (by decide) rfl rfl

/-- A critical event is sent twice to a channel with a rule for low and one for high
severities, though all calls succeed. -/
theorem notified_twice :
    Reached twoRules "w".toList criticalEvent.severity teamChannel ∧
      ¬NotifiedOnce quietSenders allAnswers twoRules 0 "w".toList criticalEvent := by
  have hreached : Reached twoRules "w".toList criticalEvent.severity teamChannel :=
    ⟨by decide, rfl, rfl, _, List.mem_cons_self, rfl, rfl⟩
  refine ⟨hreached, fun hnotified => ?_⟩
  have honce := hnotified.once teamChannel hreached
  have htwice : ((dispatchEvent quietSenders allAnswers twoRules 0 "w".toList
      criticalEvent).2.filter fun s => s.channel = teamChannel).length = 2 := by
    decide
  omega

end Notifications
end Veilence
