import Veilence.Notifications.Inbox

/-!
# Notifications for one user

A notification may be for a user who is no member of its workspace, such as an invitation.  The
calls for one notification accept it, since they look at its user.  The calls over all workspaces
look at the workspaces of the user only, so such a notification is neither listed nor counted, and
it is marked and deleted alone.

Main results:

- Theorem {lit}`stored_after`: a notification for one user stays until a call of the user deletes
  it.
- Theorem {lit}`served_iff_member`: in every state of a history, a notification for one user is
  served by all calls if and only if the user is a member of its workspace; and every count is the
  length of the listing of the unread ones.
- Theorem {lit}`invitation_not_served`: an invitation that is not.
-/

namespace Veilence
namespace Notifications

open Go Foundation

/-! ## Histories -/

/-- What happens to the tables: a call of a user, a new notification, or a user who joins or
leaves a workspace. -/
inductive InboxEvent where
  | call (userID : ID) (call : InboxCall) (out : Outcomes)
  | create (n : Notification)
  | join (userID workspaceID : ID)
  | leave (userID workspaceID : ID)

/-- The tables after an event.  The ID is the primary key, so a second row with one is refused. -/
def Database.step (db : Database) : InboxEvent → Database
  | .call userID call out => (call.run out db userID).1
  | .create n =>
      if n.id ∈ db.notifications.map Notification.id then db else db.createNotification n
  | .join userID workspaceID =>
      { db with memberships := (userID, workspaceID) :: db.memberships }
  | .leave userID workspaceID =>
      { db with memberships := db.memberships.filter fun m => m ≠ (userID, workspaceID) }

/-- The tables after a history. -/
def Database.after (db : Database) (events : List InboxEvent) : Database :=
  events.foldl Database.step db

/-- The notification as it was created. -/
def Notification.unread (n : Notification) : Notification :=
  { n with isRead := false }

/-- The row of a notification is there, read or not. -/
def Database.Stored (db : Database) (n : Notification) : Prop :=
  ∃ n' ∈ db.notifications, n'.unread = n.unread

/-- A call of its user has taken the row of a notification away. -/
def DeletedByUser (db : Database) (events : List InboxEvent) (n : Notification) : Prop :=
  ∃ before call out later, events = before ++ .call n.userID call out :: later ∧
    (db.after before).Stored n ∧ ¬((db.after before).step (.call n.userID call out)).Stored n

section Histories

variable {db : Database} {n : Notification} {events : List InboxEvent}

/-- What a call of a user may touch at most. -/
theorem touches_step {userID : ID} {call : InboxCall} {out : Outcomes}
    (hids : (db.notifications.map Notification.id).Nodup) :
    Touches userID (fun _ => true) db (db.step (.call userID call out)) := by
  apply call.touches hids
  intro ws _
  rfl

/-- The IDs stay different. -/
theorem nodup_step (hids : (db.notifications.map Notification.id).Nodup) (e : InboxEvent) :
    ((db.step e).notifications.map Notification.id).Nodup := by
  cases e with
  | call userID call out => exact (touches_step hids).nodup hids
  | create n =>
      simp only [Database.step]
      split_ifs with hmem
      · exact hids
      · unfold Database.createNotification
        rw [List.map_append, List.nodup_append]
        refine ⟨hids, List.nodup_singleton _, ?_⟩
        intro id hid id' hid'
        simp only [List.map_cons, List.map_nil, List.mem_singleton] at hid'
        intro heq
        exact hmem (hid' ▸ heq ▸ hid)
  | join userID workspaceID => exact hids
  | leave userID workspaceID => exact hids

theorem nodup_after (hids : (db.notifications.map Notification.id).Nodup) :
    ((db.after events).notifications.map Notification.id).Nodup := by
  induction events generalizing db with
  | nil => exact hids
  | cons e events ih => exact ih (nodup_step hids e)

/-- The row of a notification for one user is taken away by a call of this user only. -/
theorem stored_step (hids : (db.notifications.map Notification.id).Nodup) (huser : n.userID ≠ [])
    (hstored : db.Stored n) {e : InboxEvent}
    (hother : ∀ call out, e ≠ .call n.userID call out) : (db.step e).Stored n := by
  cases e with
  | call userID call out =>
      have hne : n.userID ≠ userID := by
        intro heq
        exact hother call out (by rw [heq])
      have hrows : (db.step (.call userID call out)).notifications.filter
            (fun n' => n'.unread = n.unread) =
          db.notifications.filter fun n' => n'.unread = n.unread := by
        apply (touches_step hids).filter_eq
        intro n' htouchable
        apply decide_eq_false
        intro hsame
        have hn' : n'.unread.userID = n.unread.userID := by rw [hsame]
        rcases htouchable with howner | ⟨heveryone, -⟩
        · exact hne (hn'.symm.trans howner)
        · exact huser (hn'.symm.trans heveryone)
      rcases hstored with ⟨n', hn', hsame⟩
      have hmem : n' ∈ db.notifications.filter fun n' => n'.unread = n.unread :=
        List.mem_filter.mpr ⟨hn', decide_eq_true hsame⟩
      rw [← hrows] at hmem
      exact ⟨n', List.mem_of_mem_filter hmem, hsame⟩
  | create n' =>
      rcases hstored with ⟨n₀, hn₀, hsame⟩
      simp only [Database.step]
      split_ifs
      · exact ⟨n₀, hn₀, hsame⟩
      · exact ⟨n₀, List.mem_append_left [n'] hn₀, hsame⟩
  | join userID workspaceID => exact hstored
  | leave userID workspaceID => exact hstored

/-- The row of a notification for one user is there, or a call of the user has deleted it. -/
theorem stored_after (hids : (db.notifications.map Notification.id).Nodup) (huser : n.userID ≠ [])
    (hstored : db.Stored n) : (db.after events).Stored n ∨ DeletedByUser db events n := by
  induction events generalizing db with
  | nil => exact Or.inl hstored
  | cons e events ih =>
      by_cases hfirst : (db.step e).Stored n
      · rcases ih (nodup_step hids e) hfirst with hrest | hdeleted
        · exact Or.inl hrest
        · rcases hdeleted with ⟨before, call, out, later, hevents, hbefore, hafter⟩
          right
          exact ⟨e :: before, call, out, later, by rw [hevents]; rfl, hbefore, hafter⟩
      · right
        by_contra hnone
        apply hfirst
        apply stored_step hids huser hstored
        intro call out he
        apply hnone
        exact ⟨[], call, out, events, by rw [he]; rfl, hstored, he ▸ hfirst⟩

end Histories

/-! ## Listings and counts -/

/-- Every count is the length of the listing of the unread notifications. -/
theorem getUnreadCount_eq_length (o : RowOrder Notification) (db : Database)
    (workspaceID userID : ID) :
    getUnreadCount db workspaceID userID =
      (listNotifications o db workspaceID userID true).length := by
  rw [getUnreadCount_eq, listNotifications_eq]
  unfold Database.countUnread Database.findByUser
  rw [(latestFirst_perm o _).length_eq]
  congr 1
  apply List.filter_congr
  intro n _
  rw [decide_eq_decide]
  constructor
  · intro hn
    exact ⟨hn.2.1, hn.2.2, fun _ => hn.1⟩
  · intro hn
    exact ⟨hn.2.2 rfl, hn.1, hn.2.1⟩

/-- What is listed over all workspaces. -/
theorem mem_listNotifications {o : RowOrder Notification} {db : Database} {userID : ID}
    {onlyUnread : Bool} {n : Notification} :
    n ∈ listNotifications o db [] userID onlyUnread ↔
      n ∈ db.notifications ∧ n.workspaceID ∈ db.findWorkspaceIDsByUserID userID ∧
        n.visibleTo userID = true ∧ (onlyUnread = true → n.isRead = false) := by
  rw [listNotifications_eq]
  unfold Database.findByUser Database.scope
  rw [(latestFirst_perm o _).mem_iff, List.mem_filter, decide_eq_true_eq, if_pos rfl]

/-! ## The calls of the user -/

/-- A notification is in the listing of its user over all workspaces, it is counted until it is
read, and every call of the user that is about it changes it. -/
structure Served (o : RowOrder Notification) (db : Database) (n : Notification) : Prop where
  listed : n ∈ listNotifications o db [] n.userID false
  unread : n.isRead = false → n ∈ listNotifications o db [] n.userID true
  counted : n.isRead = false →
    getUnreadCount db [] n.userID =
      getUnreadCount (db.markWhere fun n' => n'.id = n.id).1 [] n.userID + 1
  markRead : { n with isRead := true } ∈
    (markRead allSucceed db n.id n.userID).1.notifications
  markAllRead : { n with isRead := true } ∈
    (markAllRead allSucceed db [] n.userID).1.notifications
  deleteByID : n.id ∉
    (deleteByID allSucceed db n.id [] n.userID).1.notifications.map Notification.id
  deleteBatch : ∀ ids, n.id ∈ ids → ids.length ≤ 100 → n.id ∉
    (deleteBatch allSucceed db ids [] n.userID).1.notifications.map Notification.id
  deleteAll : n.id ∉
    (deleteAll allSucceed db [] n.userID).1.notifications.map Notification.id

section Calls

variable {db : Database} {n : Notification} {p : Notification → Bool}

theorem visibleTo_owner (n : Notification) : n.visibleTo n.userID = true := by
  simp [Notification.visibleTo]

/-- A row that is selected is marked. -/
theorem mem_setRead (hn : n ∈ db.notifications) (hp : p n = true) :
    { n with isRead := true } ∈ setRead p db.notifications := by
  unfold setRead
  apply List.mem_map.mpr
  exact ⟨n, hn, if_pos hp⟩

/-- A row that is selected is deleted. -/
theorem notMem_deleteWhere (hids : (db.notifications.map Notification.id).Nodup)
    (hn : n ∈ db.notifications) (hp : p n = true) :
    n.id ∉ (deleteWhere p db.notifications).map Notification.id := by
  intro hmem
  rcases List.mem_map.mp hmem with ⟨n', hn', hid⟩
  unfold deleteWhere at hn'
  rcases List.mem_filter.mp hn' with ⟨hrow, hkept⟩
  have hsame : n' = n := List.inj_on_of_nodup_map hids hrow hn hid
  rw [hsame, hp] at hkept
  exact Bool.false_ne_true hkept

/-- The row of an ID. -/
theorem findNotificationByID_eq (hids : (db.notifications.map Notification.id).Nodup)
    (hn : n ∈ db.notifications) : db.findNotificationByID n.id = some n := by
  unfold Database.findNotificationByID
  cases hfind : db.notifications.find? fun n' => n'.id = n.id with
  | none =>
      have hnone := List.find?_eq_none.mp hfind n hn
      simp at hnone
  | some n' =>
      have hid : n'.id = n.id := by simpa using List.find?_some hfind
      rw [List.inj_on_of_nodup_map hids (List.mem_of_find?_eq_some hfind) hn hid]

theorem selectedByID_self (hws : n.workspaceID ≠ []) :
    selectedByID n.id n.workspaceID n.userID n = true := by
  simp [selectedByID, visibleTo_owner, hws]

/-- A statement that affects a row is carried out. -/
theorem performOne_notifications {message : String} {statement : Database × Nat}
    (hrows : statement.2 ≠ 0) : (performOne db true message statement).1 = statement.1 := by
  unfold performOne
  simp [hrows]

theorem length_filter_ne_zero (hn : n ∈ db.notifications) (hp : p n = true) :
    (db.notifications.filter p).length ≠ 0 := by
  have hmem : n ∈ db.notifications.filter p := List.mem_filter.mpr ⟨hn, hp⟩
  exact (List.length_pos_of_mem hmem).ne'

/-- An operation over all workspaces of a user with some workspace. -/
theorem onScope_all {userID : ID} {ofUser ofWorkspace : String}
    {statement : List ID → Database × Nat} (hsome : db.findWorkspaceIDsByUserID userID ≠ []) :
    (onScope allSucceed db [] userID ofUser ofWorkspace statement).1 =
      (statement (db.findWorkspaceIDsByUserID userID)).1 := by
  unfold onScope
  have hscope : operationScope allSucceed db [] userID =
      some (db.findWorkspaceIDsByUserID userID) := rfl
  rw [hscope]
  cases hws : db.findWorkspaceIDsByUserID userID with
  | nil => exact absurd hws hsome
  | cons ws rest => rfl

/-- Marking one unread row takes it out of a count of unread rows. -/
theorem length_filter_setRead (hids : (db.notifications.map Notification.id).Nodup)
    (hn : n ∈ db.notifications) (hp : p n = true)
    (hp' : ∀ n', p n' = true → n'.isRead = false) :
    (db.notifications.filter p).length =
      ((setRead (fun n' => n'.id = n.id) db.notifications).filter p).length + 1 := by
  rcases List.append_of_mem hn with ⟨front, back, hrows⟩
  rw [hrows] at hids ⊢
  rw [List.map_append, List.map_cons, List.nodup_middle, List.nodup_cons] at hids
  have hothers : ∀ rows : List Notification, (∀ n' ∈ rows, n'.id ≠ n.id) →
      setRead (fun n' => n'.id = n.id) rows = rows := by
    intro rows hrows
    unfold setRead
    apply (List.map_congr_left fun n' hn' => ?_).trans rows.map_id
    exact if_neg (by simp [hrows n' hn'])
  have hfront : setRead (fun n' => n'.id = n.id) front = front := by
    apply hothers
    intro n' hn' hid
    exact hids.1 (List.mem_append_left _ (hid ▸ List.mem_map_of_mem hn'))
  have hback : setRead (fun n' => n'.id = n.id) back = back := by
    apply hothers
    intro n' hn' hid
    exact hids.1 (List.mem_append_right _ (hid ▸ List.mem_map_of_mem hn'))
  have hread : p { n with isRead := true } = false := by
    by_contra htrue
    have hcontra := hp' _ (Bool.not_eq_false _ ▸ htrue)
    exact Bool.noConfusion hcontra
  have hmark : setRead (fun n' => n'.id = n.id) (front ++ n :: back) =
      front ++ { n with isRead := true } :: back := by
    unfold setRead at hfront hback ⊢
    rw [List.map_append, List.map_cons, hfront, hback]
    simp
  rw [hmark, List.filter_append, List.filter_append, List.filter_cons_of_pos hp,
    List.filter_cons_of_neg (by simp [hread]), List.length_append, List.length_append,
    List.length_cons]
  omega

/-- A notification for a member of its workspace is served by all calls. -/
theorem served_of_member (o : RowOrder Notification)
    (hids : (db.notifications.map Notification.id).Nodup) (hn : n ∈ db.notifications)
    (hws : n.workspaceID ≠ [])
    (hmember : n.workspaceID ∈ db.findWorkspaceIDsByUserID n.userID) : Served o db n := by
  have hsome : db.findWorkspaceIDsByUserID n.userID ≠ [] := List.ne_nil_of_mem hmember
  have hselected := selectedByID_self hws
  have hcheck : checkNotification allSucceed db n n.userID = none := if_pos rfl
  constructor
  case listed =>
    exact mem_listNotifications.mpr ⟨hn, hmember, visibleTo_owner n, nofun⟩
  case unread =>
    intro hunread
    exact mem_listNotifications.mpr ⟨hn, hmember, visibleTo_owner n, fun _ => hunread⟩
  case counted =>
    intro hunread
    rw [getUnreadCount_eq, getUnreadCount_eq]
    apply length_filter_setRead hids hn
    · exact decide_eq_true ⟨hunread, hmember, visibleTo_owner n⟩
    · intro n' hn'
      exact (of_decide_eq_true hn').1
  case markRead =>
    unfold Notifications.markRead
    simp only [allSucceed, if_true, findNotificationByID_eq hids hn]
    rw [show checkNotification ⟨true, true, true⟩ db n n.userID = none from hcheck]
    dsimp only
    rw [performOne_notifications (length_filter_ne_zero hn hselected)]
    exact mem_setRead hn hselected
  case markAllRead =>
    unfold Notifications.markAllRead
    rw [onScope_all hsome]
    unfold Database.markWhere
    cases hread : n.isRead with
    | true =>
        -- a row that has been read is not selected and stays
        apply List.mem_map.mpr
        refine ⟨n, hn, ?_⟩
        have hsame : { n with isRead := true } = n := by rw [← hread]
        rw [hsame, if_neg]
        simp [hread]
    | false =>
        apply mem_setRead hn
        exact decide_eq_true ⟨hread, hmember, visibleTo_owner n⟩
  case deleteByID =>
    unfold Notifications.deleteByID
    simp only [allSucceed, if_true, findNotificationByID_eq hids hn]
    rw [show checkNotification ⟨true, true, true⟩ db n n.userID = none from hcheck]
    dsimp only
    rw [performOne_notifications (length_filter_ne_zero hn hselected)]
    exact notMem_deleteWhere hids hn hselected
  case deleteBatch =>
    intro ids hmem hlength
    unfold Notifications.deleteBatch
    rw [if_neg (List.ne_nil_of_mem hmem), if_neg (Nat.not_lt.mpr hlength), onScope_all hsome]
    apply notMem_deleteWhere hids hn
    exact decide_eq_true ⟨hmem, hmember, visibleTo_owner n⟩
  case deleteAll =>
    unfold Notifications.deleteAll
    rw [onScope_all hsome]
    apply notMem_deleteWhere hids hn
    exact decide_eq_true ⟨hmember, visibleTo_owner n⟩

/-- A notification that is served is for a member of its workspace. -/
theorem member_of_served {o : RowOrder Notification} (hserved : Served o db n) :
    n.workspaceID ∈ db.findWorkspaceIDsByUserID n.userID :=
  (mem_listNotifications.mp hserved.listed).2.1

end Calls

/-- Whatever happens after a notification for one user has been created, by calls of any users,
its row is there until a call of its user deletes it; the row is served by all calls of its user
if and only if the user is a member of its workspace; and all counts are the lengths of the
listings of unread notifications. -/
theorem served_iff_member (o : RowOrder Notification) (db : Database)
    (hids : (db.notifications.map Notification.id).Nodup) (n : Notification)
    (huser : n.userID ≠ []) (hws : n.workspaceID ≠ [])
    (hnew : n.id ∉ db.notifications.map Notification.id) (events : List InboxEvent) :
    (((db.createNotification n).after events).Stored n ∨
      DeletedByUser (db.createNotification n) events n) ∧
    (∀ n' ∈ ((db.createNotification n).after events).notifications, n'.unread = n.unread →
      (Served o ((db.createNotification n).after events) n' ↔
        n.workspaceID ∈
          ((db.createNotification n).after events).findWorkspaceIDsByUserID n.userID)) ∧
    ∀ workspaceID userID,
      getUnreadCount ((db.createNotification n).after events) workspaceID userID =
        (listNotifications o ((db.createNotification n).after events) workspaceID userID
          true).length := by
  have hstart : ((db.createNotification n).notifications.map Notification.id).Nodup := by
    have hstep := nodup_step hids (.create n)
    simp only [Database.step] at hstep
    rwa [if_neg hnew] at hstep
  refine ⟨?_, ?_, fun _ _ => getUnreadCount_eq_length ..⟩
  · apply stored_after hstart huser
    exact ⟨n, List.mem_append_right _ List.mem_cons_self, rfl⟩
  · intro n' hn' hsame
    have howner : n'.unread.userID = n.unread.userID := by rw [hsame]
    have hplace : n'.unread.workspaceID = n.unread.workspaceID := by rw [hsame]
    change n'.userID = n.userID at howner
    change n'.workspaceID = n.workspaceID at hplace
    rw [← howner, ← hplace]
    constructor
    · exact member_of_served
    · exact served_of_member o (nodup_after hstart) hn' (hplace ▸ hws)

/-! ## An invitation -/

/-- A workspace of one user and no notifications. -/
def invitingInbox : Database where
  channels := []
  rules := []
  notifications := []
  memberships := [("a".toList, "w".toList)]

/-- A user who joins after an invitation is served. -/
theorem served_iff_member_join :
    Served .stored
      ((invitingInbox.createNotification (notificationFor "n" "w" "b")).after
        [.join "b".toList "w".toList]) (notificationFor "n" "w" "b") :=
  ((served_iff_member .stored invitingInbox (by decide) (notificationFor "n" "w" "b") (by decide)
    (by decide) (by decide) [.join "b".toList "w".toList]).2.1 (notificationFor "n" "w" "b")
    (by decide) rfl).mpr (by decide)

/-- An invitation is neither listed nor counted, and marking or deleting everything leaves it. -/
theorem invitation_not_served :
    ¬Served .stored (invitingInbox.createNotification (notificationFor "n" "w" "b"))
        (notificationFor "n" "w" "b") ∧
      listNotifications .stored
        (invitingInbox.createNotification (notificationFor "n" "w" "b")) [] "b".toList false = [] ∧
      getUnreadCount (invitingInbox.createNotification (notificationFor "n" "w" "b")) []
        "b".toList = 0 ∧
      (markAllRead allSucceed (invitingInbox.createNotification (notificationFor "n" "w" "b")) []
        "b".toList).1.notifications = [notificationFor "n" "w" "b"] ∧
      (deleteAll allSucceed (invitingInbox.createNotification (notificationFor "n" "w" "b")) []
        "b".toList).1.notifications = [notificationFor "n" "w" "b"] := by
  refine ⟨?_, by decide, by decide, by decide, by decide⟩
  intro hserved
  exact absurd (member_of_served hserved) (by decide)

end Notifications
end Veilence
