import Veilence.Foundation.Selection
import Veilence.Go.Text

/-!
# The tables of the notification service

Channels, rules, notifications and memberships, with the queries of their repositories.  A
notification is for one user or, when its user ID is empty, for everyone in its workspace; the
repository stores the empty ID as NULL.  Each row carries one flag that says whether it has been
read.

Main results:

- Theorem {lit}`filter_deleteWhere_of_not`: a deletion leaves a selection of other rows as it is.
- Theorem {lit}`filter_setRead_of_not`: marking rows as read leaves a selection of other rows as
  it is.
-/

namespace Veilence
namespace Notifications

open Go Foundation

/-- A UUID as a text; the empty text stands for none. -/
abbrev ID : Type := GoString

/-! ## Rows -/

/-- {lit}`NotificationChannelType`; any other text is kept as it is. -/
inductive ChannelType where
  | email
  | slack
  | webhook
  | other (name : GoString)
deriving DecidableEq

/-- {lit}`NotificationChannel`. -/
structure Channel where
  id : ID
  workspaceID : ID
  name : GoString
  type : ChannelType
  config : GoString
  isActive : Bool
deriving DecidableEq

/-- {lit}`NotificationRule`. -/
structure Rule where
  id : ID
  workspaceID : ID
  channelID : ID
  severity : GoString
  isActive : Bool
deriving DecidableEq

/-- {lit}`Notification`. -/
structure Notification where
  id : ID
  workspaceID : ID
  userID : ID
  channelID : ID
  severity : GoString
  eventType : GoString
  referenceID : ID
  referenceType : GoString
  title : GoString
  message : GoString
  isRead : Bool
  sentAt : Int
  createdAt : Int
deriving DecidableEq

/-- The tables; a membership is a user and a workspace. -/
structure Database where
  channels : List Channel
  rules : List Rule
  notifications : List Notification
  memberships : List (ID × ID)

/-! ## Channels, rules and memberships -/

/-- {lit}`FindByID` of the channels, in any workspace. -/
def Database.findChannelByID (db : Database) (id : ID) : Option Channel :=
  db.channels.find? fun c => c.id = id

/-- {lit}`FindActiveByWorkspaceID` of the rules. -/
def Database.findActiveRules (db : Database) (workspaceID : ID) : List Rule :=
  db.rules.filter fun r => r.workspaceID = workspaceID ∧ r.isActive

/-- {lit}`FindWorkspaceIDsByUserID`. -/
def Database.findWorkspaceIDsByUserID (db : Database) (userID : ID) : List ID :=
  (db.memberships.filter fun m => m.1 = userID).map Prod.snd

/-! ## Notifications -/

/-- {lit}`user_id = ? OR user_id IS NULL`. -/
def Notification.visibleTo (n : Notification) (userID : ID) : Bool :=
  n.userID = userID ∨ n.userID = []

/-- {lit}`Create`. -/
def Database.createNotification (db : Database) (n : Notification) : Database :=
  { db with notifications := db.notifications ++ [n] }

/-- {lit}`FindByID` of the notifications. -/
def Database.findNotificationByID (db : Database) (id : ID) : Option Notification :=
  db.notifications.find? fun n => n.id = id

/-- Mark the selected rows as read. -/
def setRead (p : Notification → Bool) (rows : List Notification) : List Notification :=
  rows.map fun n => if p n then { n with isRead := true } else n

/-- Delete the selected rows. -/
def deleteWhere (p : Notification → Bool) (rows : List Notification) : List Notification :=
  rows.filter fun n => !p n

/-- An {lit}`Update` of the selected rows, with the number of rows affected. -/
def Database.markWhere (db : Database) (p : Notification → Bool) : Database × Nat :=
  ({ db with notifications := setRead p db.notifications }, (db.notifications.filter p).length)

/-- A {lit}`Delete` of the selected rows, with the number of rows affected. -/
def Database.removeWhere (db : Database) (p : Notification → Bool) : Database × Nat :=
  ({ db with notifications := deleteWhere p db.notifications },
    (db.notifications.filter p).length)

/-- Rows by {lit}`created_at DESC`; rows of one time come in any order. -/
def latestFirst (o : RowOrder Notification) (rows : List Notification) : List Notification :=
  (o.order rows).mergeSort fun a b => b.createdAt ≤ a.createdAt

/-- The listing has the selected rows. -/
theorem latestFirst_perm (o : RowOrder Notification) (rows : List Notification) :
    (latestFirst o rows).Perm rows :=
  (List.mergeSort_perm _ _).trans (o.perm rows)

/-! ## What an update leaves as it is -/

section Updates

variable {p q : Notification → Bool} {rows : List Notification}

/-- A deletion leaves a selection of other rows as it is. -/
theorem filter_deleteWhere_of_not (hpq : ∀ n ∈ rows, p n = true → q n = false) :
    (deleteWhere p rows).filter q = rows.filter q := by
  unfold deleteWhere
  rw [List.filter_filter]
  apply List.filter_congr
  intro n hn
  cases hp : p n with
  | false => simp
  | true => simp [hpq n hn hp]

/-- Marking rows as read leaves a selection of other rows as it is. -/
theorem filter_setRead_of_not
    (hpq : ∀ n ∈ rows, p n = true → q n = false ∧ q { n with isRead := true } = false) :
    (setRead p rows).filter q = rows.filter q := by
  unfold setRead
  induction rows with
  | nil => rfl
  | cons n rows ih =>
      have hrest := ih fun n' hn' => hpq n' (List.mem_cons_of_mem n hn')
      cases hp : p n with
      | true =>
          obtain ⟨hq, hread⟩ := hpq n List.mem_cons_self hp
          simp [hp, hq, hread, hrest]
      | false => simp [hp, hrest, List.filter_cons]

/-- What has been marked was there. -/
theorem exists_of_mem_setRead {n : Notification} (hn : n ∈ setRead p rows) :
    ∃ n₀ ∈ rows, n₀.userID = n.userID ∧ n₀.workspaceID = n.workspaceID := by
  obtain ⟨n₀, hn₀, rfl⟩ := List.mem_map.mp hn
  refine ⟨n₀, hn₀, ?_⟩
  cases hp : p n₀ <;> simp

/-- Marking rows changes no ID. -/
theorem map_id_setRead : (setRead p rows).map Notification.id = rows.map Notification.id := by
  unfold setRead
  rw [List.map_map]
  apply List.map_congr_left
  intro n _
  cases hp : p n <;> simp [hp]

end Updates

end Notifications
end Veilence
