import Veilence.Notifications.Repository

/-!
# The notifications of a user

A user lists and counts the notifications for the user and those for everyone in the workspaces.
Marking and deleting work on the same rows, and a row for everyone carries one flag and is there
once.  So what one user does to such a row every other user of the workspace sees; a row for one
user is touched by nobody else.

Main results:

- Theorem {lit}`others_calls_frame`: the calls of one user leave what another one sees as it is,
  up to notifications for everyone in a workspace that the calls reach.
- Theorem {lit}`markRead_interferes`: such a notification.
-/

namespace Veilence
namespace Notifications

open Go Foundation

/-! ## Listing and counting -/

/-- The workspaces that {lit}`ListNotifications` and {lit}`GetUnreadCount` look at: the given
one, or those of the user. -/
def Database.scope (db : Database) (workspaceID userID : ID) : List ID :=
  if workspaceID = [] then db.findWorkspaceIDsByUserID userID else [workspaceID]

/-- {lit}`FindByUserAndWorkspace` and {lit}`FindByUserAndWorkspaceIDs`. -/
def Database.findByUser (o : RowOrder Notification) (db : Database) (workspaceIDs : List ID)
    (userID : ID) (onlyUnread : Bool) : List Notification :=
  latestFirst o (db.notifications.filter fun n =>
    n.workspaceID ∈ workspaceIDs ∧ n.visibleTo userID ∧ (onlyUnread → n.isRead = false))

/-- {lit}`CountUnread` and {lit}`CountUnreadByWorkspaceIDs`. -/
def Database.countUnread (db : Database) (workspaceIDs : List ID) (userID : ID) : Nat :=
  (db.notifications.filter fun n =>
    n.isRead = false ∧ n.workspaceID ∈ workspaceIDs ∧ n.visibleTo userID).length

/-- {lit}`ListNotifications`. -/
def listNotifications (o : RowOrder Notification) (db : Database) (workspaceID userID : ID)
    (onlyUnread : Bool) : List Notification :=
  if workspaceID = [] then
    let wsIDs := db.findWorkspaceIDsByUserID userID
    if wsIDs = [] then [] else db.findByUser o wsIDs userID onlyUnread
  else db.findByUser o [workspaceID] userID onlyUnread

/-- {lit}`GetUnreadCount`. -/
def getUnreadCount (db : Database) (workspaceID userID : ID) : Nat :=
  if workspaceID = [] then
    let wsIDs := db.findWorkspaceIDsByUserID userID
    if wsIDs = [] then 0 else db.countUnread wsIDs userID
  else db.countUnread [workspaceID] userID

/-! ## Marking and deleting -/

/-- What becomes of the repository calls of an operation: whether the row, the memberships and
the statement succeed. -/
structure Outcomes where
  found : Bool
  listed : Bool
  written : Bool

/-- An operation returns the number of rows affected or an error with the text it begins with. -/
abbrev Outcome : Type :=
  Database × Except GoString Nat

/-- Carry out a statement that may fail. -/
def perform (db : Database) (written : Bool) (message : String) (statement : Database × Nat) :
    Outcome :=
  if written then (statement.1, .ok statement.2) else (db, .error message.toList)

/-- {lit}`containsString`. -/
def containsString (haystack : List ID) (needle : ID) : Bool :=
  needle ∈ haystack

/-- The check in {lit}`MarkRead` and {lit}`DeleteByID` that a notification is the user's: the
error, if it is not. -/
def checkNotification (out : Outcomes) (db : Database) (notif : Notification) (userID : ID) :
    Option GoString :=
  if notif.userID = userID then none
  else if out.listed = false then some "listing user workspaces".toList
  else if containsString (db.findWorkspaceIDsByUserID userID) notif.workspaceID then none
  else some "notification not found".toList

/-- A statement on the row of an ID, of which there has to be one. -/
def performOne (db : Database) (written : Bool) (message : String) (statement : Database × Nat) :
    Outcome :=
  if written = false then (db, .error message.toList)
  else if statement.2 = 0 then (statement.1, .error "notification not found".toList)
  else (statement.1, .ok statement.2)

/-- The row of an ID in a workspace, as the repository selects it for a user. -/
def selectedByID (id workspaceID userID : ID) (n : Notification) : Bool :=
  n.id = id ∧ n.visibleTo userID ∧ n.workspaceID = workspaceID ∧ workspaceID ≠ []

/-- {lit}`MarkRead`. -/
def markRead (out : Outcomes) (db : Database) (id userID : ID) : Outcome :=
  match if out.found then db.findNotificationByID id else none with
  | none => (db, .error "notification not found".toList)
  | some notif =>
      match checkNotification out db notif userID with
      | some message => (db, .error message)
      | none =>
          performOne db out.written "marking notification as read"
            (db.markWhere (selectedByID id notif.workspaceID userID))

/-- The workspaces of the operations on many rows; {lit}`none` after an error. -/
def operationScope (out : Outcomes) (db : Database) (workspaceID userID : ID) : Option (List ID) :=
  if workspaceID = [] then
    if out.listed then some (db.findWorkspaceIDsByUserID userID) else none
  else some [workspaceID]

/-- An operation on the rows of some workspaces, none if there are no workspaces.  The text of
the error of the statement depends on whether a workspace is given. -/
def onScope (out : Outcomes) (db : Database) (workspaceID userID : ID)
    (ofUser ofWorkspace : String) (statement : List ID → Database × Nat) : Outcome :=
  match operationScope out db workspaceID userID with
  | none => (db, .error "listing user workspaces".toList)
  | some [] => (db, .ok 0)
  | some wsIDs =>
      perform db out.written (if workspaceID = [] then ofUser else ofWorkspace) (statement wsIDs)

/-- {lit}`MarkAllRead`. -/
def markAllRead (out : Outcomes) (db : Database) (workspaceID userID : ID) : Outcome :=
  onScope out db workspaceID userID "marking workspace notifications as read"
      "marking all notifications as read" fun wsIDs =>
    db.markWhere fun n => n.isRead = false ∧ n.workspaceID ∈ wsIDs ∧ n.visibleTo userID

/-- {lit}`DeleteByID`. -/
def deleteByID (out : Outcomes) (db : Database) (id workspaceID userID : ID) : Outcome :=
  if workspaceID = [] then
    match if out.found then db.findNotificationByID id else none with
    | none => (db, .error "notification not found".toList)
    | some notif =>
        match checkNotification out db notif userID with
        | some message => (db, .error message)
        | none =>
            performOne db out.written "deleting notification"
              (db.removeWhere (selectedByID id notif.workspaceID userID))
  else
    performOne db out.written "deleting notification"
      (db.removeWhere (selectedByID id workspaceID userID))

/-- {lit}`DeleteAll`. -/
def deleteAll (out : Outcomes) (db : Database) (workspaceID userID : ID) : Outcome :=
  onScope out db workspaceID userID "deleting workspace notifications"
      "deleting all notifications" fun wsIDs =>
    db.removeWhere fun n => n.workspaceID ∈ wsIDs ∧ n.visibleTo userID

/-- {lit}`DeleteBatch`. -/
def deleteBatch (out : Outcomes) (db : Database) (ids : List ID) (workspaceID userID : ID) :
    Outcome :=
  if ids = [] then (db, .error "no notification IDs provided".toList)
  else if 100 < ids.length then
    (db, .error "batch delete limited to 100 notifications at a time".toList)
  else
    onScope out db workspaceID userID "batch deleting notifications"
        "batch deleting notifications" fun wsIDs =>
      db.removeWhere fun n => n.id ∈ ids ∧ n.workspaceID ∈ wsIDs ∧ n.visibleTo userID

/-! ## Calls of one user -/

/-- A call that marks or deletes notifications. -/
inductive InboxCall where
  | markRead (id : ID)
  | markAllRead (workspaceID : ID)
  | deleteByID (id workspaceID : ID)
  | deleteBatch (ids : List ID) (workspaceID : ID)
  | deleteAll (workspaceID : ID)
deriving DecidableEq

/-- Carry out a call of a user. -/
def InboxCall.run (out : Outcomes) (db : Database) (userID : ID) : InboxCall → Outcome
  | .markRead id => Notifications.markRead out db id userID
  | .markAllRead workspaceID => Notifications.markAllRead out db workspaceID userID
  | .deleteByID id workspaceID => Notifications.deleteByID out db id workspaceID userID
  | .deleteBatch ids workspaceID => Notifications.deleteBatch out db ids workspaceID userID
  | .deleteAll workspaceID => Notifications.deleteAll out db workspaceID userID

/-- The tables after calls of a user. -/
def runCalls (userID : ID) (db : Database) (calls : List (InboxCall × Outcomes)) : Database :=
  calls.foldl (fun db call => (call.1.run call.2 db userID).1) db

/-- The workspaces whose notifications for everyone a call reaches. -/
def InboxCall.reaches (db : Database) (userID : ID) : InboxCall → ID → Bool
  | .markRead _, ws => ws ∈ db.findWorkspaceIDsByUserID userID
  | .markAllRead workspaceID, ws => ws ∈ db.scope workspaceID userID
  | .deleteByID _ workspaceID, ws => ws ∈ db.scope workspaceID userID
  | .deleteBatch _ workspaceID, ws => ws ∈ db.scope workspaceID userID
  | .deleteAll workspaceID, ws => ws ∈ db.scope workspaceID userID

/-- A notification that a user may mark or delete: the user's own, or one for everyone in a
workspace that is reached. -/
def Touchable (userID : ID) (reach : ID → Bool) (n : Notification) : Prop :=
  n.userID = userID ∨ (n.userID = [] ∧ reach n.workspaceID = true)

/-- A call marks or deletes rows that it may touch, and nothing else happens. -/
structure Touches (userID : ID) (reach : ID → Bool) (db db' : Database) : Prop where
  rows : ∃ p : Notification → Bool, (∀ n ∈ db.notifications, p n = true → Touchable userID reach n) ∧
    (db'.notifications = setRead p db.notifications ∨
      db'.notifications = deleteWhere p db.notifications)
  memberships : db'.memberships = db.memberships

section Touching

variable {userID : ID} {reach : ID → Bool} {db : Database} {out : Outcomes}

/-- A call without effect. -/
theorem Touches.same : Touches userID reach db db := by
  refine ⟨⟨fun _ => false, ?_, Or.inr ?_⟩, rfl⟩
  · intro n _ hn
    exact absurd hn Bool.false_ne_true
  · unfold deleteWhere
    simp

theorem Touches.mark {p : Notification → Bool}
    (hp : ∀ n ∈ db.notifications, p n = true → Touchable userID reach n) :
    Touches userID reach db (db.markWhere p).1 :=
  ⟨⟨p, hp, Or.inl rfl⟩, rfl⟩

theorem Touches.remove {p : Notification → Bool}
    (hp : ∀ n ∈ db.notifications, p n = true → Touchable userID reach n) :
    Touches userID reach db (db.removeWhere p).1 :=
  ⟨⟨p, hp, Or.inr rfl⟩, rfl⟩

theorem Touches.performOne {written : Bool} {message : String} {statement : Database × Nat}
    (htouches : Touches userID reach db statement.1) :
    Touches userID reach db (performOne db written message statement).1 := by
  unfold Notifications.performOne
  split_ifs
  · exact .same
  · exact htouches
  · exact htouches

/-- An operation on workspaces that are reached. -/
theorem Touches.onScope {workspaceID : ID} {ofUser ofWorkspace : String}
    {statement : List ID → Database × Nat}
    (hstatement : Touches userID reach db (statement (db.scope workspaceID userID)).1) :
    Touches userID reach db
      (onScope out db workspaceID userID ofUser ofWorkspace statement).1 := by
  have hscope : ∀ wsIDs, operationScope out db workspaceID userID = some wsIDs →
      wsIDs = db.scope workspaceID userID := by
    intro wsIDs hwsIDs
    unfold operationScope at hwsIDs
    unfold Database.scope
    split_ifs at hwsIDs ⊢
    · exact (Option.some.inj hwsIDs).symm
    · exact (Option.some.inj hwsIDs).symm
  unfold Notifications.onScope
  cases hop : operationScope out db workspaceID userID with
  | none => exact .same
  | some wsIDs =>
      obtain rfl := hscope wsIDs hop
      cases hws : db.scope workspaceID userID with
      | nil => exact .same
      | cons ws rest =>
          rw [hws] at hstatement
          change Touches userID reach db (perform db out.written _ (statement (ws :: rest))).1
          unfold perform
          cases hwritten : out.written with
          | true => exact hstatement
          | false => exact .same

/-- A row of some workspaces that is visible to the user may be touched. -/
theorem touchable_of_visible {n : Notification} (hvisible : n.visibleTo userID = true)
    (hreach : reach n.workspaceID = true) : Touchable userID reach n := by
  unfold Notification.visibleTo at hvisible
  rcases of_decide_eq_true hvisible with howner | heveryone
  · exact Or.inl howner
  · exact Or.inr ⟨heveryone, hreach⟩

/-- The row of a notification that has passed the check may be touched. -/
theorem touchable_of_checked {id : ID} {notif n : Notification}
    (hids : (db.notifications.map Notification.id).Nodup)
    (hfind : db.findNotificationByID id = some notif)
    (hcheck : checkNotification out db notif userID = none)
    (hreach : ∀ ws ∈ db.findWorkspaceIDsByUserID userID, reach ws = true)
    (hn : n ∈ db.notifications) (hselected : selectedByID id notif.workspaceID userID n = true) :
    Touchable userID reach n := by
  simp only [selectedByID, decide_eq_true_eq] at hselected
  obtain ⟨hid, hvisible, -⟩ := hselected
  have hnotif : notif.id = id := by simpa using List.find?_some hfind
  -- the ID tells the row
  obtain rfl : n = notif :=
    List.inj_on_of_nodup_map hids hn (List.mem_of_find?_eq_some hfind) (hid.trans hnotif.symm)
  unfold checkNotification at hcheck
  split_ifs at hcheck with howner hlisted hmember
  · exact Or.inl howner
  · exact touchable_of_visible hvisible (hreach _ (of_decide_eq_true hmember))

/-- What a call does. -/
theorem InboxCall.touches (call : InboxCall)
    (hids : (db.notifications.map Notification.id).Nodup)
    (hreach : ∀ ws, call.reaches db userID ws = true → reach ws = true) :
    Touches userID reach db (call.run out db userID).1 := by
  cases call with
  | markRead id =>
      simp only [InboxCall.run, Notifications.markRead]
      split
      · exact .same
      · rename_i notif hfound
        split
        · exact .same
        · rename_i hcheck
          have hfind : db.findNotificationByID id = some notif := by
            cases hok : out.found <;> simp_all
          apply Touches.performOne
          apply Touches.mark
          intro n hn hselected
          exact touchable_of_checked hids hfind hcheck
            (fun ws hws => hreach ws (decide_eq_true hws)) hn hselected
  | markAllRead workspaceID =>
      apply Touches.onScope
      apply Touches.mark
      intro n _ hn
      simp only [decide_eq_true_eq] at hn
      exact touchable_of_visible hn.2.2 (hreach _ (decide_eq_true hn.2.1))
  | deleteByID id workspaceID =>
      simp only [InboxCall.run, Notifications.deleteByID]
      by_cases hnone : workspaceID = []
      · rw [if_pos hnone]
        split
        · exact .same
        · rename_i notif hfound
          split
          · exact .same
          · rename_i hcheck
            have hfind : db.findNotificationByID id = some notif := by
              cases hok : out.found <;> simp_all
            have hmember : ∀ ws ∈ db.findWorkspaceIDsByUserID userID, reach ws = true := by
              intro ws hws
              apply hreach
              simpa [InboxCall.reaches, Database.scope, hnone] using hws
            apply Touches.performOne
            apply Touches.remove
            intro n hn hselected
            exact touchable_of_checked hids hfind hcheck hmember hn hselected
      · rw [if_neg hnone]
        apply Touches.performOne
        apply Touches.remove
        intro n _ hn
        simp only [selectedByID, decide_eq_true_eq] at hn
        apply touchable_of_visible hn.2.1
        apply hreach
        simpa [InboxCall.reaches, Database.scope, hnone] using hn.2.2.1
  | deleteBatch ids workspaceID =>
      simp only [InboxCall.run, Notifications.deleteBatch]
      split_ifs
      · exact .same
      · exact .same
      · apply Touches.onScope
        apply Touches.remove
        intro n _ hn
        simp only [decide_eq_true_eq] at hn
        exact touchable_of_visible hn.2.2 (hreach _ (decide_eq_true hn.2.1))
  | deleteAll workspaceID =>
      apply Touches.onScope
      apply Touches.remove
      intro n _ hn
      simp only [decide_eq_true_eq] at hn
      exact touchable_of_visible hn.2 (hreach _ (decide_eq_true hn.1))

variable {db' : Database}

/-- What has been left was there. -/
theorem Touches.exists_of_mem (htouches : Touches userID reach db db') {n : Notification}
    (hn : n ∈ db'.notifications) :
    ∃ n₀ ∈ db.notifications, n₀.userID = n.userID ∧ n₀.workspaceID = n.workspaceID := by
  obtain ⟨p, -, hmark | hdelete⟩ := htouches.rows
  · rw [hmark] at hn
    exact exists_of_mem_setRead hn
  · rw [hdelete] at hn
    exact ⟨n, List.mem_of_mem_filter hn, rfl, rfl⟩

/-- The IDs stay different. -/
theorem Touches.nodup (htouches : Touches userID reach db db')
    (hids : (db.notifications.map Notification.id).Nodup) :
    (db'.notifications.map Notification.id).Nodup := by
  obtain ⟨p, -, hmark | hdelete⟩ := htouches.rows
  · rwa [hmark, map_id_setRead]
  · rw [hdelete]
    exact hids.sublist (List.filter_sublist.map Notification.id)

/-- A selection without rows that may be touched stays as it is. -/
theorem Touches.filter_eq (htouches : Touches userID reach db db') {q : Notification → Bool}
    (hq : ∀ n, Touchable userID reach n → q n = false) :
    db'.notifications.filter q = db.notifications.filter q := by
  obtain ⟨p, hp, hmark | hdelete⟩ := htouches.rows
  · rw [hmark]
    apply filter_setRead_of_not
    intro n hn hpn
    exact ⟨hq n (hp n hn hpn), hq { n with isRead := true } (hp n hn hpn)⟩
  · rw [hdelete]
    apply filter_deleteWhere_of_not
    intro n hn hpn
    exact hq n (hp n hn hpn)

end Touching

/-! ## What another user sees -/

section Frame

variable {userID : ID} {db : Database} {calls : List (InboxCall × Outcomes)}

/-- The workspaces whose notifications for everyone some of the calls reach. -/
def reachedBy (userID : ID) (db : Database) (calls : List (InboxCall × Outcomes)) (ws : ID) :
    Bool :=
  calls.any fun call => call.1.reaches db userID ws

/-- The workspaces of a call depend on the memberships only. -/
theorem reaches_congr {db' : Database} (hmembers : db'.memberships = db.memberships)
    (call : InboxCall) (ws : ID) : call.reaches db' userID ws = call.reaches db userID ws := by
  have hworkspaces : db'.findWorkspaceIDsByUserID userID = db.findWorkspaceIDsByUserID userID := by
    unfold Database.findWorkspaceIDsByUserID
    rw [hmembers]
  unfold InboxCall.reaches Database.scope
  rw [hworkspaces]

/-- What calls of one user leave as it is: a selection without rows that may be touched, the
owners and the workspaces of the rows, and the memberships. -/
structure Frame (userID : ID) (reach : ID → Bool) (db db' : Database) : Prop where
  filter_eq : ∀ q : Notification → Bool, (∀ n, Touchable userID reach n → q n = false) →
    db'.notifications.filter q = db.notifications.filter q
  exists_of_mem : ∀ n ∈ db'.notifications,
    ∃ n₀ ∈ db.notifications, n₀.userID = n.userID ∧ n₀.workspaceID = n.workspaceID
  memberships : db'.memberships = db.memberships

/-- Calls one after the other. -/
theorem frame_runCalls {reach : ID → Bool} (hids : (db.notifications.map Notification.id).Nodup)
    (hreach : ∀ call ∈ calls, ∀ ws, call.1.reaches db userID ws = true → reach ws = true) :
    Frame userID reach db (runCalls userID db calls) := by
  induction calls generalizing db with
  | nil => exact ⟨fun _ _ => rfl, fun n hn => ⟨n, hn, rfl, rfl⟩, rfl⟩
  | cons call calls ih =>
      have hfirst : Touches userID reach db (call.1.run call.2 db userID).1 :=
        call.1.touches hids (hreach call List.mem_cons_self)
      have hrest := ih (hfirst.nodup hids) fun later hlater ws hws =>
        hreach later (List.mem_cons_of_mem call hlater) ws
          (reaches_congr hfirst.memberships later.1 ws ▸ hws)
      refine ⟨?_, ?_, ?_⟩
      · intro q hq
        exact (hrest.filter_eq q hq).trans (hfirst.filter_eq hq)
      · intro n hn
        obtain ⟨n₁, hn₁, huser₁, hws₁⟩ := hrest.exists_of_mem n hn
        obtain ⟨n₀, hn₀, huser₀, hws₀⟩ := hfirst.exists_of_mem hn₁
        exact ⟨n₀, hn₀, huser₀.trans huser₁, hws₀.trans hws₁⟩
      · exact hrest.memberships.trans hfirst.memberships

/-- A notification for one user, or for everyone in a workspace that is not reached. -/
def outOfReach (reach : ID → Bool) (n : Notification) : Bool :=
  n.userID ≠ [] ∨ reach n.workspaceID = false

/-- What another user sees and what the calls may touch exclude each other. -/
theorem not_touchable {reach : ID → Bool} {other : ID} {n : Notification} (huser : userID ≠ [])
    (hne : userID ≠ other) (hvisible : n.visibleTo other = true)
    (hout : outOfReach reach n = true) : ¬Touchable userID reach n := by
  unfold Notification.visibleTo at hvisible
  unfold outOfReach at hout
  rintro (howner | ⟨heveryone, hreach⟩)
  · rcases of_decide_eq_true hvisible with hother | hnone
    · exact hne (howner.symm.trans hother)
    · exact huser (howner.symm.trans hnone)
  · rcases of_decide_eq_true hout with hsome | hfalse
    · exact hsome heveryone
    · exact Bool.false_ne_true (hfalse.symm.trans hreach)

/-- The listing of a user as a selection. -/
theorem listNotifications_eq (o : RowOrder Notification) (db : Database) (workspaceID other : ID)
    (onlyUnread : Bool) :
    listNotifications o db workspaceID other onlyUnread =
      db.findByUser o (db.scope workspaceID other) other onlyUnread := by
  unfold listNotifications Database.scope
  by_cases hws : workspaceID = []
  · rw [if_pos hws, if_pos hws]
    by_cases hnone : db.findWorkspaceIDsByUserID other = []
    · simp [hnone, Database.findByUser, latestFirst, o.order_nil]
    · simp [hnone]
  · rw [if_neg hws, if_neg hws]

/-- The count of a user as a selection. -/
theorem getUnreadCount_eq (db : Database) (workspaceID other : ID) :
    getUnreadCount db workspaceID other = db.countUnread (db.scope workspaceID other) other := by
  unfold getUnreadCount Database.scope
  by_cases hws : workspaceID = []
  · rw [if_pos hws, if_pos hws]
    by_cases hnone : db.findWorkspaceIDsByUserID other = []
    · simp [hnone, Database.countUnread]
    · simp [hnone]
  · rw [if_neg hws, if_neg hws]

/-- Two users see each other's calls in no listing and in no count. -/
def NoInterference (o : RowOrder Notification) (userID other : ID) (db : Database)
    (calls : List (InboxCall × Outcomes)) : Prop :=
  ∀ workspaceID onlyUnread,
    listNotifications o (runCalls userID db calls) workspaceID other onlyUnread =
        listNotifications o db workspaceID other onlyUnread ∧
      getUnreadCount (runCalls userID db calls) workspaceID other =
        getUnreadCount db workspaceID other

/-- Whatever one user marks or deletes, another one still sees all notifications for one user
and all for everyone in workspaces that the calls do not reach, with the same flags.  Where
there are no others, the listings and the counts are the same. -/
theorem others_calls_frame (o : RowOrder Notification) (userID other : ID) (huser : userID ≠ [])
    (hne : userID ≠ other) (db : Database) (hids : (db.notifications.map Notification.id).Nodup)
    (calls : List (InboxCall × Outcomes)) (workspaceID : ID) (onlyUnread : Bool) :
    ((listNotifications o (runCalls userID db calls) workspaceID other onlyUnread).filter
        (outOfReach (reachedBy userID db calls))).Perm
      ((listNotifications o db workspaceID other onlyUnread).filter
        (outOfReach (reachedBy userID db calls))) ∧
    ((∀ n ∈ db.notifications, n.workspaceID ∈ db.scope workspaceID other →
        outOfReach (reachedBy userID db calls) n = true) →
      listNotifications o (runCalls userID db calls) workspaceID other onlyUnread =
          listNotifications o db workspaceID other onlyUnread ∧
        getUnreadCount (runCalls userID db calls) workspaceID other =
          getUnreadCount db workspaceID other) := by
  have hframe : Frame userID (reachedBy userID db calls) db (runCalls userID db calls) := by
    apply frame_runCalls hids
    intro call hcall ws hws
    exact List.any_eq_true.mpr ⟨call, hcall, hws⟩
  have hscope : (runCalls userID db calls).scope workspaceID other = db.scope workspaceID other := by
    unfold Database.scope Database.findWorkspaceIDsByUserID
    rw [hframe.memberships]
  -- a selection of what the other user sees out of reach
  have hselect : ∀ q : Notification → Bool,
      (∀ n, q n = true → n.visibleTo other = true) →
      (runCalls userID db calls).notifications.filter
          (fun n => outOfReach (reachedBy userID db calls) n && q n) =
        db.notifications.filter fun n => outOfReach (reachedBy userID db calls) n && q n := by
    intro q hq
    apply hframe.filter_eq
    intro n htouchable
    by_contra hn
    simp only [Bool.not_eq_false, Bool.and_eq_true] at hn
    exact not_touchable huser hne (hq n hn.2) hn.1 htouchable
  rw [listNotifications_eq, listNotifications_eq, getUnreadCount_eq, getUnreadCount_eq, hscope]
  unfold Database.findByUser Database.countUnread
  refine ⟨?_, ?_⟩
  · refine ((latestFirst_perm o _).filter _).trans ?_
    refine List.Perm.trans (.of_eq ?_) ((latestFirst_perm o _).filter _).symm
    rw [List.filter_filter, List.filter_filter]
    apply hselect
    intro n hn
    exact (of_decide_eq_true hn).2.1
  · intro hall
    have hafter : ∀ n ∈ (runCalls userID db calls).notifications,
        n.workspaceID ∈ db.scope workspaceID other →
          outOfReach (reachedBy userID db calls) n = true := by
      intro n hn hws
      obtain ⟨n₀, hn₀, huser₀, hws₀⟩ := hframe.exists_of_mem n hn
      have hout := hall n₀ hn₀ (hws₀ ▸ hws)
      unfold outOfReach at hout ⊢
      rwa [huser₀, hws₀] at hout
    -- where everything is out of reach, that part of the selection can be left out
    have hsame : ∀ q : Notification → Bool,
        (∀ n, q n = true → n.visibleTo other = true ∧ n.workspaceID ∈ db.scope workspaceID other) →
        (runCalls userID db calls).notifications.filter q = db.notifications.filter q := by
      intro q hq
      have hdrop : ∀ rows : List Notification,
          (∀ n ∈ rows, n.workspaceID ∈ db.scope workspaceID other →
            outOfReach (reachedBy userID db calls) n = true) →
          (rows.filter fun n => outOfReach (reachedBy userID db calls) n && q n) =
            rows.filter q := by
        intro rows hrows
        apply List.filter_congr
        intro n hn
        cases hqn : q n with
        | false => rw [Bool.and_false]
        | true => rw [hrows n hn (hq n hqn).2, Bool.and_true]
      rw [← hdrop _ hafter, ← hdrop _ hall]
      exact hselect q fun n hn => (hq n hn).1
    constructor
    · congr 1
      apply hsame
      intro n hn
      exact ⟨(of_decide_eq_true hn).2.1, (of_decide_eq_true hn).1⟩
    · congr 1
      apply hsame
      intro n hn
      exact ⟨(of_decide_eq_true hn).2.2, (of_decide_eq_true hn).2.1⟩

end Frame

/-! ## A notification for everyone -/

/-- A notification in a workspace. -/
def notificationFor (id workspaceID userID : String) : Notification where
  id := id.toList
  workspaceID := workspaceID.toList
  userID := userID.toList
  channelID := []
  severity := "critical".toList
  eventType := "alert.created.malicious".toList
  referenceID := []
  referenceType := "alert".toList
  title := "title".toList
  message := "message".toList
  isRead := false
  sentAt := 0
  createdAt := 0

/-- Two users of a workspace, with a notification for one of them and one for everyone. -/
def sharedInbox : Database where
  channels := []
  rules := []
  notifications := [notificationFor "m" "w" "b", notificationFor "n" "w" ""]
  memberships := [("a".toList, "w".toList), ("b".toList, "w".toList)]

/-- Everything succeeds. -/
def allSucceed : Outcomes :=
  ⟨true, true, true⟩

/-- Two users of a workspace with a notification each, and one for everyone in a workspace of
the second user. -/
def separateInbox : Database where
  channels := []
  rules := []
  notifications := [notificationFor "m" "w" "a", notificationFor "n" "w" "b",
    notificationFor "s" "v" ""]
  memberships := [("a".toList, "w".toList), ("b".toList, "w".toList), ("b".toList, "v".toList)]

/-- A deletion of everything in the common workspace is not seen by the other user. -/
theorem others_calls_frame_deleteAll :
    listNotifications .stored
        (runCalls "a".toList separateInbox [(.deleteAll "w".toList, allSucceed)]) [] "b".toList
        true = listNotifications .stored separateInbox [] "b".toList true ∧
      getUnreadCount (runCalls "a".toList separateInbox [(.deleteAll "w".toList, allSucceed)]) []
        "b".toList = getUnreadCount separateInbox [] "b".toList :=
  (others_calls_frame .stored "a".toList "b".toList (by decide) (by decide) separateInbox
    (by decide) [(.deleteAll "w".toList, allSucceed)] [] true).2 (by decide)

/-- What one user has read counts as read for the other one. -/
theorem markRead_interferes :
    ¬NoInterference .stored "a".toList "b".toList sharedInbox
      [(.markRead "n".toList, allSucceed)] := by
  intro hnone
  have hcount := (hnone "w".toList true).2
  have hbefore : getUnreadCount sharedInbox "w".toList "b".toList = 2 := by
    decide
  have hafter : getUnreadCount
      (runCalls "a".toList sharedInbox [(.markRead "n".toList, allSucceed)]) "w".toList
      "b".toList = 1 := by
    decide
  omega

end Notifications
end Veilence
