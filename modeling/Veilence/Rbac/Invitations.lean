import Veilence.Rbac.Discipline

/-!
# The life cycle of an invitation

An operation on an invitation reads it, checks that it is pending and writes it back later,
whatever has happened to the row in between.  Only the revocation makes the database check
that the row is still pending.  So the life cycle is kept in those runs in which every
acceptance, decline and renewed sending still finds the row pending when it writes; a
renewed sending may also find it gone.

Main results:

- Theorem {lit}`life_cycle_of_run`: in such a run an invitation is decided once and for all,
  and a membership comes of it only when it is accepted.
- Theorem {lit}`joined_after_revocation`: without the condition an invitation that has been
  revoked still gives a membership.
-/

namespace Veilence
namespace Rbac

open Go Foundation

open Auth (Token TokenHash User)

/-! ## What happens to invitations -/

/-- How an invitation is decided. -/
inductive Decision where
  | joined (userID : Nat)
  | declined
  | revoked
deriving DecidableEq

/-- An invitation is decided, and the token hash with which it was found. -/
structure Happening where
  id : Nat
  decision : Decision
  tokenHash : Option TokenHash
deriving DecidableEq

/-- What has happened to invitations, and what operations have reported, the latest
first. -/
structure History where
  happened : List Happening
  reported : List (Op × Result)

/-- Nothing has happened. -/
def History.empty : History :=
  ⟨[], []⟩

/-- One more happening. -/
def History.add (g : History) (h : Happening) : History :=
  { g with happened := h :: g.happened }

/-- What a command does to invitations.  An update decides an invitation only when a
declining operation makes it. -/
def decides (g : History) (op : Op) : (c : Call) → Answer c → History
  | .accept id i userID, .ok _ => g.add ⟨id, .joined userID, some i.tokenHash⟩
  | .updateInvitation id i, true =>
      if op.declines then g.add ⟨id, .declined, some i.tokenHash⟩ else g
  | .deletePendingInvitation _ id, true => g.add ⟨id, .revoked, none⟩
  | _, _ => g

/-- The recorder of what happens to invitations. -/
def happenings : Recorder Database Op Call Answer Result History where
  ran := fun g _ op c r => decides g op c r
  returned := fun g _ op a => { g with reported := (op, a) :: g.reported }

/-- The services with what has happened to invitations. -/
abbrev RecordedStep (cfg : Config) :=
  (rbacSystem cfg).Tracked ((rbacSystem cfg).record happenings)

/-! ## The life cycle -/

/-- The invitation is the one that a request names. -/
def Names (op : Op) (h : Happening) : Prop :=
  match op with
  | .acceptInvitation token _ _ | .declineInvitationByToken token _ =>
      h.tokenHash = some (hashToken token)
  | .acceptInvitationByID id _ _ | .declineInvitationByID id _ => h.id = id
  | .revokeInvitation _ id => h.id = id
  | _ => False

/-- An operation has reported that it has decided an invitation so. -/
def Reports (op : Op) (a : Result) (decision : Decision) : Prop :=
  match decision, a with
  | .joined _, .member _ => op.accepts = true
  | .declined, .ok => op.declines = true
  | .revoked, .ok => ∃ workspaceID id, op = .revokeInvitation workspaceID id
  | _, _ => False

/-- The row of an invitation is as its decision says. -/
def Agrees (invitations : Ledger Invitation) (id : Nat) : Decision → Prop
  | .joined _ =>
      ∃ i, invitations.get? id = some i ∧ i.acceptedAt.isSome = true ∧ i.declinedAt = none
  | .declined =>
      ∃ i, invitations.get? id = some i ∧ i.acceptedAt = none ∧ i.declinedAt.isSome = true
  | .revoked => id < invitations.next ∧ invitations.get? id = none

/-- Every invitation is decided at most once, its row says how, a row says that it is
accepted or declined only if that has happened, and what operations report has happened. -/
structure LifeCycle (invitations : Ledger Invitation) (g : History) : Prop where
  agrees : ∀ h ∈ g.happened, Agrees invitations h.id h.decision
  decided : ∀ id i, invitations.get? id = some i → ¬i.IsPending → ∃ h ∈ g.happened, h.id = id
  once : (g.happened.map Happening.id).Nodup
  reported : ∀ op a decision, (op, a) ∈ g.reported → Reports op a decision →
    ∃ h ∈ g.happened, Names op h ∧ Reports op a h.decision

/-- A row that is decided stays as it is decided, a row that is gone stays away, and what
has happened has happened. -/
structure Stays (invitations : Ledger Invitation) (g : History)
    (invitations' : Ledger Invitation) (g' : History) : Prop where
  next : invitations.next ≤ invitations'.next
  decided : ∀ id i, invitations.get? id = some i → ¬i.IsPending →
    ∃ i', invitations'.get? id = some i' ∧ i'.acceptedAt = i.acceptedAt ∧
      i'.declinedAt = i.declinedAt
  rows : ∀ id i', id < invitations.next → invitations'.get? id = some i' →
    ∃ i, invitations.get? id = some i ∧ i'.workspaceID = i.workspaceID
  happened : g.happened <:+ g'.happened

/-- The row of an invitation is still pending. -/
def PendingRow (db : Database) (id : Nat) : Prop :=
  (db.invitations.get? id).any fun i => i.IsPending

instance (db : Database) (id : Nat) : Decidable (PendingRow db id) :=
  inferInstanceAs (Decidable (_ = true))

/-- What an operation writes, it writes while the row is still pending; an invitation that
is sent again may be gone. -/
def InTime (db : Database) (op : Op) : Call → Prop
  | .accept id _ _ => PendingRow db id
  | .updateInvitation id _ =>
      PendingRow db id ∨ (op.declines = false ∧ (db.invitations.get? id).isNone = true)
  | _ => True

instance (db : Database) (op : Op) : (c : Call) → Decidable (InTime db op c)
  | .accept _ _ _ => inferInstanceAs (Decidable (PendingRow _ _))
  | .updateInvitation _ _ => inferInstanceAs (Decidable (_ ∨ _))
  | .timeNow | .drawToken | .salt | .beginTransaction | .countAllUsers | .findUserByID _
  | .findUserByEmail _ | .createUser _ | .countWorkspacesBySlug _ _ | .findWorkspaceByID _
  | .updateWorkspace _ _ _ _ | .createOwned _ | .findRoleByIDAndWorkspace _ _
  | .findMemberByUserAndWorkspace _ _ | .updateMember _ _
  | .deleteMemberByUserAndWorkspace _ _ | .addMember _ _ _ _ | .createInvitation _
  | .findInvitationByTokenHash _ | .findInvitationByID _ _ | .findInvitationByIDGlobal _
  | .deletePendingInvitation _ _ | .sendInvitationEmail _ _ | .initiatePasswordReset _
  | .findActiveByPrefix _ | .createAPIKey _ | .softDeleteScoped _ _ _
  | .checkUserPermission _ _ _ | .checkRolePermission _ _ _ => isTrue trivial

/-! ## What an answer tells -/

/-- An invitation with that ID is, if it is still there, of the same workspace. -/
def SameWorkspace (db : Database) (id : Nat) (i : Invitation) : Prop :=
  id < db.invitations.next ∧
    ∀ row, db.invitations.get? id = some row → row.workspaceID = i.workspaceID

/-- What an answer tells for good: the workspace of an invitation, and that it has been
decided. -/
def Noted (db : Database) (g : History) : (c : Call) → Answer c → Prop
  | .findInvitationByTokenHash tokenHash, some (id, i) =>
      i.tokenHash = tokenHash ∧ SameWorkspace db id i
  | .findInvitationByIDGlobal id, some i => SameWorkspace db id i
  | .findInvitationByID _ id, some i => SameWorkspace db id i
  | .accept id i userID, .ok _ => ⟨id, .joined userID, some i.tokenHash⟩ ∈ g.happened
  | .updateInvitation id i, true =>
      i.IsPending ∨ ⟨id, .declined, some i.tokenHash⟩ ∈ g.happened
  | .deletePendingInvitation _ id, true => ⟨id, .revoked, none⟩ ∈ g.happened
  | _, _ => True

section Facts

variable {db db' : Database} {g g' : History}

theorem SameWorkspace.stay (hgrows : Stays db.invitations g db'.invitations g') {id : Nat}
    {i : Invitation} (hsame : SameWorkspace db id i) : SameWorkspace db' id i := by
  refine ⟨Nat.lt_of_lt_of_le hsame.1 hgrows.next, fun row' hrow' => ?_⟩
  obtain ⟨row, hrow, hw⟩ := hgrows.rows id row' hsame.1 hrow'
  exact hw.trans (hsame.2 row hrow)

/-- What has been noted stays true. -/
theorem Noted.stay (hgrows : Stays db.invitations g db'.invitations g') {c : Call} {r : Answer c}
    (hnoted : Noted db g c r) : Noted db' g' c r := by
  cases c with
  | findInvitationByTokenHash tokenHash =>
      cases r with
      | none => trivial
      | some e => exact ⟨hnoted.1, SameWorkspace.stay hgrows hnoted.2⟩
  | findInvitationByIDGlobal id =>
      cases r with
      | none => trivial
      | some i => exact SameWorkspace.stay hgrows hnoted
  | findInvitationByID workspaceID id =>
      cases r with
      | none => trivial
      | some i => exact SameWorkspace.stay hgrows hnoted
  | accept id i userID =>
      cases r with
      | error message => trivial
      | ok member => exact hgrows.happened.subset hnoted
  | updateInvitation id i =>
      cases r with
      | false => trivial
      | true => exact Or.imp_right (fun h => hgrows.happened.subset h) hnoted
  | deletePendingInvitation workspaceID id =>
      cases r with
      | false => trivial
      | true => exact hgrows.happened.subset hnoted
  | _ => trivial

/-- An invitation that has been found belongs to its workspace. -/
theorem sameWorkspace_of_found {op : Op} {m : Answers} (hknows : ∀ e ∈ m, Noted db g e.1 e.2)
    {id : Nat} {i : Invitation} (hfound : Found op m id i) : SameWorkspace db id i := by
  cases op with
  | acceptInvitation token userID userEmail => exact (hknows _ hfound).2
  | acceptInvitationByID id' userID userEmail => exact hknows _ hfound.2
  | declineInvitationByToken token userEmail => exact (hknows _ hfound).2
  | declineInvitationByID id' userEmail => exact hknows _ hfound.2
  | resendInvitation workspaceID id' => exact hknows _ hfound.2
  | _ => exact absurd hfound not_false

/-- A decision about an invitation that has been found is about the one of the request. -/
theorem names_of_found {op : Op} {m : Answers} (hknows : ∀ e ∈ m, Noted db g e.1 e.2)
    {id : Nat} {i : Invitation} (hfound : Found op m id i)
    (hop : op.accepts = true ∨ op.declines = true) (decision : Decision) :
    Names op ⟨id, decision, some i.tokenHash⟩ := by
  cases op with
  | acceptInvitation token userID userEmail => exact congrArg some (hknows _ hfound).1
  | acceptInvitationByID id' userID userEmail => exact hfound.1.symm
  | declineInvitationByToken token userEmail => exact congrArg some (hknows _ hfound).1
  | declineInvitationByID id' userEmail => exact hfound.1.symm
  | resendInvitation workspaceID id' => simp [Op.accepts, Op.declines] at hop
  | _ => exact absurd hfound not_false

end Facts

/-! ## What the statements do to the life cycle -/

section Statements

variable {invitations : Ledger Invitation} {g : History}

theorem Stays.refl (invitations : Ledger Invitation) (g : History) :
    Stays invitations g invitations g where
  next := Nat.le_refl _
  decided := fun _ i hi _ => ⟨i, hi, rfl, rfl⟩
  rows := fun _ i _ hi => ⟨i, hi, rfl⟩
  happened := List.suffix_rfl

theorem Stays.trans {invitations' invitations'' : Ledger Invitation} {g' g'' : History}
    (h : Stays invitations g invitations' g') (h' : Stays invitations' g' invitations'' g'') :
    Stays invitations g invitations'' g'' where
  next := h.next.trans h'.next
  decided := by
    intro id i hi hdecided
    obtain ⟨i', hi', haccepted, hdeclined⟩ := h.decided id i hi hdecided
    have hdecided' : ¬i'.IsPending := by
      rwa [Invitation.IsPending, haccepted, hdeclined]
    obtain ⟨i'', hi'', haccepted', hdeclined'⟩ := h'.decided id i' hi' hdecided'
    exact ⟨i'', hi'', haccepted'.trans haccepted, hdeclined'.trans hdeclined⟩
  rows := by
    intro id i'' hid hi''
    obtain ⟨i', hi', hw'⟩ := h'.rows id i'' (Nat.lt_of_lt_of_le hid h.next) hi''
    obtain ⟨i, hi, hw⟩ := h.rows id i' hid hi'
    exact ⟨i, hi, hw'.trans hw⟩
  happened := h.happened.trans h'.happened

/-- What has happened concerns invitations that were there. -/
theorem LifeCycle.lt_next (hlife : LifeCycle invitations g) {h : Happening}
    (hh : h ∈ g.happened) : h.id < invitations.next := by
  have hagrees := hlife.agrees h hh
  cases hd : h.decision with
  | joined userID =>
      rw [hd] at hagrees
      obtain ⟨i, hi, -⟩ := hagrees
      exact Ledger.lt_of_get? hi
  | declined =>
      rw [hd] at hagrees
      obtain ⟨i, hi, -⟩ := hagrees
      exact Ledger.lt_of_get? hi
  | revoked =>
      rw [hd] at hagrees
      exact hagrees.1

/-- Nothing has happened to an invitation whose row is pending. -/
theorem LifeCycle.not_happened (hlife : LifeCycle invitations g) {id : Nat} {i : Invitation}
    (hi : invitations.get? id = some i) (hpending : i.IsPending) :
    ∀ h ∈ g.happened, h.id ≠ id := by
  rintro h hh rfl
  have hagrees := hlife.agrees h hh
  cases hd : h.decision with
  | joined userID =>
      rw [hd] at hagrees
      obtain ⟨i', hi', haccepted, -⟩ := hagrees
      rw [hi] at hi'
      obtain rfl := Option.some.inj hi'
      simp [hpending.1] at haccepted
  | declined =>
      rw [hd] at hagrees
      obtain ⟨i', hi', -, hdeclined⟩ := hagrees
      rw [hi] at hi'
      obtain rfl := Option.some.inj hi'
      simp [hpending.2] at hdeclined
  | revoked =>
      rw [hd] at hagrees
      simp [hagrees.2] at hi

/-- The decision about a row depends on this row only. -/
theorem Agrees.of_get?_eq {invitations' : Ledger Invitation} {id : Nat} {decision : Decision}
    (hagrees : Agrees invitations id decision)
    (hget : invitations'.get? id = invitations.get? id)
    (hnext : invitations.next ≤ invitations'.next) : Agrees invitations' id decision := by
  cases decision with
  | joined userID => rwa [Agrees, hget]
  | declined => rwa [Agrees, hget]
  | revoked => exact ⟨Nat.lt_of_lt_of_le hagrees.1 hnext, hget.trans hagrees.2⟩

/-- A new invitation is pending. -/
theorem LifeCycle.create (hlife : LifeCycle invitations g) {i : Invitation}
    (hpending : i.IsPending) :
    LifeCycle (invitations.add i) g ∧ Stays invitations g (invitations.add i) g := by
  have hget : ∀ id, id < invitations.next → (invitations.add i).get? id = invitations.get? id := by
    intro id hid
    rw [Ledger.get?_add, if_neg (Nat.ne_of_lt hid)]
  refine ⟨⟨?_, ?_, hlife.once, hlife.reported⟩,
    ⟨Nat.le_succ _, ?_, ?_, List.suffix_rfl⟩⟩
  · intro h hh
    exact (hlife.agrees h hh).of_get?_eq (hget h.id (hlife.lt_next hh)) (Nat.le_succ _)
  · intro id i' hi' hdecided
    obtain ⟨-, rfl⟩ | hold := Ledger.of_get?_add hi'
    · exact absurd hpending hdecided
    · exact hlife.decided id i' hold hdecided
  · intro id i' hi' _
    exact ⟨i', Ledger.get?_add_of_some hi', rfl, rfl⟩
  · intro id i' hid hi'
    exact ⟨i', (hget id hid) ▸ hi', rfl⟩

section Change

variable {invitations' : Ledger Invitation} {id : Nat} {i : Invitation}

/-- A change of a pending row takes back nothing. -/
theorem stays_of_change (hi : invitations.get? id = some i) (hpending : i.IsPending)
    (hother : ∀ id', id' ≠ id → invitations'.get? id' = invitations.get? id')
    (hnext : invitations'.next = invitations.next)
    (hrow : ∀ i', invitations'.get? id = some i' → i'.workspaceID = i.workspaceID)
    {g' : History} (hg : g.happened <:+ g'.happened) :
    Stays invitations g invitations' g' where
  next := hnext.ge
  decided := by
    intro id' i' hi' hdecided
    have hne : id' ≠ id := by
      rintro rfl
      rw [hi] at hi'
      obtain rfl := Option.some.inj hi'
      exact hdecided hpending
    exact ⟨i', (hother id' hne).trans hi', rfl, rfl⟩
  rows := by
    intro id' i' _ hi'
    by_cases hid : id' = id
    · subst hid
      exact ⟨i, hi, hrow i' hi'⟩
    · exact ⟨i', (hother id' hid) ▸ hi', rfl⟩
  happened := hg

/-- A pending row is decided. -/
theorem LifeCycle.decide (hlife : LifeCycle invitations g) (hi : invitations.get? id = some i)
    (hpending : i.IsPending)
    (hother : ∀ id', id' ≠ id → invitations'.get? id' = invitations.get? id')
    (hnext : invitations'.next = invitations.next) {h : Happening} (hh : h.id = id)
    (hagrees : Agrees invitations' id h.decision) :
    LifeCycle invitations' (g.add h) := by
  have hnew := hlife.not_happened hi hpending
  constructor
  · intro h' hh'
    rcases List.mem_cons.mp hh' with rfl | hold
    · rwa [hh]
    · exact (hlife.agrees h' hold).of_get?_eq (hother h'.id (hnew h' hold)) hnext.ge
  · intro id' i' hi' hdecided
    by_cases hid : id' = id
    · exact ⟨h, List.mem_cons_self, hh.trans hid.symm⟩
    · rw [hother id' hid] at hi'
      obtain ⟨h', hh', heq⟩ := hlife.decided id' i' hi' hdecided
      exact ⟨h', List.mem_cons_of_mem h hh', heq⟩
  · refine List.nodup_cons.mpr ⟨?_, hlife.once⟩
    intro hmem
    obtain ⟨h', hh', heq⟩ := List.mem_map.mp hmem
    exact hnew h' hh' (heq.trans hh)
  · intro op a decision hreported hreports
    obtain ⟨h', hh', hfits⟩ := hlife.reported op a decision hreported hreports
    exact ⟨h', List.mem_cons_of_mem h hh', hfits⟩

/-- A pending row stays pending. -/
theorem LifeCycle.renew (hlife : LifeCycle invitations g) (hi : invitations.get? id = some i)
    (hpending : i.IsPending)
    (hother : ∀ id', id' ≠ id → invitations'.get? id' = invitations.get? id')
    (hnext : invitations'.next = invitations.next)
    (hrow : ∀ i', invitations'.get? id = some i' → i'.IsPending) : LifeCycle invitations' g where
  agrees := fun h hh => (hlife.agrees h hh).of_get?_eq
    (hother h.id (hlife.not_happened hi hpending h hh)) hnext.ge
  decided := by
    intro id' i' hi' hdecided
    by_cases hid : id' = id
    · subst hid
      exact absurd (hrow i' hi') hdecided
    · rw [hother id' hid] at hi'
      exact hlife.decided id' i' hi' hdecided
  once := hlife.once
  reported := hlife.reported

end Change

end Statements

/-! ## One command -/

section Commands

variable {db db' : Database} {g : History} {op : Op} {m : Answers}

/-- An update of a row that is there, in its own workspace. -/
theorem updateInvitation_of_row {id : Nat} {i written : Invitation}
    (hupdate : db.updateInvitation id written = some db')
    (hi : db.invitations.get? id = some i) (hw : i.workspaceID = written.workspaceID) :
    db' = { db with invitations := db.invitations.modify id fun r => r.written written } := by
  rw [Database.updateInvitation] at hupdate
  simp only [hi, if_pos hw] at hupdate
  split_ifs at hupdate
  exact (Option.some.inj hupdate).symm

/-- The new row. -/
theorem get?_written {invitations : Ledger Invitation} {id : Nat} {i : Invitation}
    (hi : invitations.get? id = some i) (written : Invitation) :
    (invitations.modify id fun r => r.written written).get? id = some (i.written written) := by
  rw [Ledger.get?_modify, if_pos rfl, hi, Option.map_some]

/-- The other rows. -/
theorem get?_written_of_ne {invitations : Ledger Invitation} {id id' : Nat} (hid : id' ≠ id)
    (written : Invitation) :
    (invitations.modify id fun r => r.written written).get? id' = invitations.get? id' := by
  rw [Ledger.get?_modify, if_neg hid]

/-- A row that is pending. -/
theorem exists_of_pendingRow {id : Nat} (hrow : PendingRow db id) :
    ∃ i, db.invitations.get? id = some i ∧ i.IsPending := by
  unfold PendingRow at hrow
  cases hi : db.invitations.get? id with
  | none => simp [hi] at hrow
  | some i => exact ⟨i, rfl, by simpa [hi] using hrow⟩

/-- What a command leaves: the life cycle, what has happened, and what it answers. -/
def KeepsLife (db db' : Database) (g : History) (op : Op) (c : Call) (r : Answer c) : Prop :=
  (LifeCycle db'.invitations (decides g op c r) ∧
    Stays db.invitations g db'.invitations (decides g op c r)) ∧ Noted db' (decides g op c r) c r

/-- A command that does not touch invitations. -/
theorem LifeCycle.keeps (hlife : LifeCycle db.invitations g) {c : Call} {r : Answer c}
    (hinvitations : db'.invitations = db.invitations) (hdecides : decides g op c r = g)
    (hnoted : Noted db' g c r) : KeepsLife db db' g op c r := by
  rw [KeepsLife, hdecides, hinvitations]
  exact ⟨⟨hlife, .refl _ _⟩, hnoted⟩

/-- An acceptance of a row that is still pending. -/
theorem keepsLife_accept (hlife : LifeCycle db.invitations g) {id userID : Nat}
    {i : Invitation} (hpending : i.IsPending) (hsame : SameWorkspace db id i)
    (hrow : PendingRow db id) :
    KeepsLife db (db.exec (.accept id i userID)).1 g op (.accept id i userID)
      (db.exec (.accept id i userID)).2 := by
  simp only [Database.exec]
  cases haccept : db.accept id i userID with
  | error message => exact hlife.keeps rfl rfl trivial
  | ok accepted =>
      obtain ⟨db', member⟩ := accepted
      obtain ⟨-, db₁, hupdate, hmember⟩ := accept_eq_ok haccept
      obtain ⟨row, hget, hpendingRow⟩ := exists_of_pendingRow hrow
      have hw := hsame.2 row hget
      obtain rfl := updateInvitation_of_row hupdate hget hw
      obtain ⟨rfl, -, -⟩ := createMember_eq_some hmember
      have hother : ∀ id', id' ≠ id → (db.invitations.modify id fun r =>
          r.written { i with acceptedAt := some db.now }).get? id' = db.invitations.get? id' :=
        fun id' hid => get?_written_of_ne hid _
      have hnew := get?_written hget { i with acceptedAt := some db.now }
      refine ⟨⟨hlife.decide hget hpendingRow hother (by simp) rfl ⟨_, hnew, rfl, hpending.2⟩,
        stays_of_change hget hpendingRow hother (by simp) ?_ (List.suffix_cons _ _)⟩,
        List.mem_cons_self⟩
      intro i' hi'
      obtain rfl := Option.some.inj (hnew.symm.trans hi')
      rfl

/-- A decline of a row that is still pending. -/
theorem keepsLife_decline (hlife : LifeCycle db.invitations g) {id : Nat} {i : Invitation}
    {t : Int} (hop : op.declines = true) (hpending : i.IsPending) (hsame : SameWorkspace db id i)
    (hrow : PendingRow db id) :
    KeepsLife db (db.exec (.updateInvitation id (i.declined t))).1 g op
      (.updateInvitation id (i.declined t)) (db.exec (.updateInvitation id (i.declined t))).2 := by
  simp only [Database.exec]
  cases hupdate : db.updateInvitation id (i.declined t) with
  | none => exact hlife.keeps rfl rfl trivial
  | some db' =>
      obtain ⟨row, hget, hpendingRow⟩ := exists_of_pendingRow hrow
      have hw := hsame.2 row hget
      obtain rfl := updateInvitation_of_row hupdate hget hw
      have hother : ∀ id', id' ≠ id → (db.invitations.modify id fun r =>
          r.written (i.declined t)).get? id' = db.invitations.get? id' :=
        fun id' hid => get?_written_of_ne hid _
      have hnew := get?_written hget (i.declined t)
      have hdecides : decides g op (.updateInvitation id (i.declined t)) true =
          g.add ⟨id, .declined, some i.tokenHash⟩ := if_pos hop
      rw [KeepsLife, accepted, hdecides]
      refine ⟨⟨hlife.decide hget hpendingRow hother (by simp) rfl ⟨_, hnew, hpending.1, rfl⟩,
        stays_of_change hget hpendingRow hother (by simp) ?_ (List.suffix_cons _ _)⟩,
        Or.inr List.mem_cons_self⟩
      intro i' hi'
      obtain rfl := Option.some.inj (hnew.symm.trans hi')
      rfl

/-- An invitation that is sent again, if it is still there. -/
theorem keepsLife_resend (hlife : LifeCycle db.invitations g) {id : Nat} {i : Invitation}
    {tokenHash : TokenHash} {t : Int} (hop : op.declines = false) (hpending : i.IsPending)
    (hsame : SameWorkspace db id i)
    (hrow : PendingRow db id ∨ (db.invitations.get? id).isNone = true) :
    KeepsLife db (db.exec (.updateInvitation id (i.resent tokenHash t))).1 g op
      (.updateInvitation id (i.resent tokenHash t))
      (db.exec (.updateInvitation id (i.resent tokenHash t))).2 := by
  simp only [Database.exec]
  cases hupdate : db.updateInvitation id (i.resent tokenHash t) with
  | none => exact hlife.keeps rfl rfl trivial
  | some db' =>
      have hdecides : decides g op (.updateInvitation id (i.resent tokenHash t)) true = g := by
        simp [decides, hop]
      rw [KeepsLife, accepted, hdecides]
      rcases hrow with hrow | hgone
      · obtain ⟨row, hget, hpendingRow⟩ := exists_of_pendingRow hrow
        have hw := hsame.2 row hget
        obtain rfl := updateInvitation_of_row hupdate hget hw
        have hother : ∀ id', id' ≠ id → (db.invitations.modify id fun r =>
            r.written (i.resent tokenHash t)).get? id' = db.invitations.get? id' :=
          fun id' hid => get?_written_of_ne hid _
        have hnew := get?_written hget (i.resent tokenHash t)
        refine ⟨⟨hlife.renew hget hpendingRow hother (by simp) ?_,
          stays_of_change hget hpendingRow hother (by simp) ?_ List.suffix_rfl⟩,
          Or.inl hpending⟩
        · intro i' hi'
          obtain rfl := Option.some.inj (hnew.symm.trans hi')
          exact hpending
        · intro i' hi'
          obtain rfl := Option.some.inj (hnew.symm.trans hi')
          rfl
      · obtain rfl | ⟨row, hget, -, -⟩ := updateInvitation_eq_some hupdate
        · exact ⟨⟨hlife, .refl _ _⟩, Or.inl hpending⟩
        · simp [hget] at hgone

/-- A revocation. -/
theorem keepsLife_revoke (hlife : LifeCycle db.invitations g) (workspaceID id : Nat) :
    KeepsLife db (db.exec (.deletePendingInvitation workspaceID id)).1 g op
      (.deletePendingInvitation workspaceID id)
      (db.exec (.deletePendingInvitation workspaceID id)).2 := by
  simp only [Database.exec]
  split
  · rename_i row hget
    split_ifs with hpending
    · have hother : ∀ id', id' ≠ id →
          (db.invitations.remove id).get? id' = db.invitations.get? id' := by
        intro id' hid
        rw [Ledger.get?_remove, if_neg hid]
      have hgone : (db.invitations.remove id).get? id = none := by
        rw [Ledger.get?_remove, if_pos rfl]
      have hid : id < db.invitations.next := Ledger.lt_of_get? hget
      refine ⟨⟨hlife.decide hget hpending.2 hother rfl rfl ⟨hid, hgone⟩,
        stays_of_change hget hpending.2 hother rfl ?_ (List.suffix_cons _ _)⟩,
        List.mem_cons_self⟩
      intro i' hi'
      simp [hgone] at hi'
    · exact hlife.keeps rfl rfl trivial
  · exact hlife.keeps rfl rfl trivial

/-- The look-ups of an invitation answer what is so. -/
theorem sameWorkspace_of_get? {id : Nat} {i : Invitation} (hi : db.invitations.get? id = some i) :
    SameWorkspace db id i := by
  refine ⟨Ledger.lt_of_get? hi, fun row hrow => ?_⟩
  rw [hi] at hrow
  rw [Option.some.inj hrow]

/-- Every command that is permitted and in time keeps the life cycle. -/
theorem keepsLife_exec (hlife : LifeCycle db.invitations g)
    (hknows : ∀ e ∈ m, Noted db g e.1 e.2) {c : Call} (hpermitted : Permitted op m c)
    (hintime : InTime db op c) :
    KeepsLife db (db.exec c).1 g op c (db.exec c).2 := by
  have hframe : c.writes .invitations = false → decides g op c (db.exec c).2 = g →
      Noted (db.exec c).1 g c (db.exec c).2 → KeepsLife db (db.exec c).1 g op c (db.exec c).2 :=
    fun hwrites => hlife.keeps (sameTable_exec db hwrites)
  cases c with
  | createInvitation i =>
      simp only [Database.exec]
      split_ifs
      · exact ⟨hlife.create ⟨rfl, rfl⟩, trivial⟩
      · exact hlife.keeps rfl rfl trivial
  | findInvitationByTokenHash tokenHash =>
      simp only [Database.exec]
      cases hi : (Auth.rowsWhere db.invitations fun i => i.tokenHash = tokenHash).head? with
      | none => exact hlife.keeps rfl rfl trivial
      | some e =>
          obtain ⟨hget, htoken⟩ := Auth.of_head?_rowsWhere hi
          exact hlife.keeps rfl rfl ⟨of_decide_eq_true htoken, sameWorkspace_of_get? hget⟩
  | findInvitationByIDGlobal id =>
      simp only [Database.exec]
      cases hi : db.invitations.get? id with
      | none => exact hlife.keeps rfl rfl trivial
      | some i => exact hlife.keeps rfl rfl (sameWorkspace_of_get? hi)
  | findInvitationByID workspaceID id =>
      simp only [Database.exec]
      cases hi : (db.invitations.get? id).filter fun i => i.workspaceID = workspaceID with
      | none => exact hlife.keeps rfl rfl trivial
      | some i =>
          exact hlife.keeps rfl rfl (sameWorkspace_of_get? (Option.filter_eq_some_iff.mp hi).1)
  | updateInvitation id written =>
      obtain ⟨i, hfound, hpending, ⟨hop, t, rfl⟩ | ⟨hop, tokenHash, t, rfl⟩⟩ := hpermitted
      · have hrow : PendingRow db id := by
          rcases hintime with hrow | ⟨hno, -⟩
          · exact hrow
          · simp [hop] at hno
        exact keepsLife_decline hlife hop hpending (sameWorkspace_of_found hknows hfound) hrow
      · have hno : op.declines = false := by
          cases op <;> simp_all [Op.resends, Op.declines]
        exact keepsLife_resend hlife hno hpending (sameWorkspace_of_found hknows hfound)
          (hintime.imp_right And.right)
  | deletePendingInvitation workspaceID id => exact keepsLife_revoke hlife workspaceID id
  | accept id i userID =>
      exact keepsLife_accept hlife hpermitted.2.2 (sameWorkspace_of_found hknows hpermitted.2.1)
        hintime
  | _ => exact hframe rfl rfl trivial

/-- What an operation reports has happened. -/
theorem LifeCycle.report (hlife : LifeCycle db.invitations g)
    (hknows : ∀ e ∈ m, Noted db g e.1 e.2) {a : Result} (hfinal : Final op m a) :
    LifeCycle db.invitations { g with reported := (op, a) :: g.reported } := by
  refine ⟨hlife.agrees, hlife.decided, hlife.once, ?_⟩
  intro op' a' decision hreported hreports
  rcases List.mem_cons.mp hreported with heq | hold
  · obtain ⟨rfl, rfl⟩ := Prod.mk.inj heq
    cases decision with
    | joined userID =>
        cases a' with
        | member member =>
            obtain ⟨id, i, userID, member, hfound, htold⟩ := hfinal hreports
            exact ⟨_, hknows _ htold, names_of_found hknows hfound (Or.inl hreports) _, hreports⟩
        | _ => exact absurd hreports not_false
    | declined =>
        cases a' with
        | ok =>
            obtain ⟨id, i, t, hfound, htold⟩ := hfinal.1 hreports
            rcases hknows _ htold with hpending | hhappened
            · simp [Invitation.declined, Invitation.IsPending] at hpending
            · exact ⟨_, hhappened, names_of_found hknows hfound (Or.inr hreports) _, hreports⟩
        | _ => exact absurd hreports not_false
    | revoked =>
        cases a' with
        | ok =>
            obtain ⟨workspaceID, id, rfl⟩ := hreports
            exact ⟨_, hknows _ (hfinal.2 workspaceID id rfl), rfl, workspaceID, id, rfl⟩
        | _ => exact absurd hreports not_false
  · exact hlife.reported op' a' decision hold hreports

end Commands

/-! ## Runs -/

/-- The outline of the life cycle. -/
def lifeOutline : Outline Database Op Call Answer Result History where
  permitted := Permitted
  result := Final
  inv := fun db g => LifeCycle db.invitations g
  grows := fun db g db' g' => Stays db.invitations g db'.invitations g'
  fact := Noted

/-- The life cycle is kept while everything is written in time. -/
theorem life_sound (cfg : Config) :
    lifeOutline.Sound (rbacSystem cfg) happenings InTime where
  refl := fun db g => .refl _ g
  trans := fun _ _ _ _ _ _ => Stays.trans
  stable := fun _ _ _ _ _ _ hgrows => Noted.stay hgrows
  safe := safe_bodyOf cfg
  exec := fun _ _ _ _ _ hinv hknows hpermitted hintime =>
    keepsLife_exec hinv hknows hpermitted hintime
  begins := fun _ g _ hinv _ => ⟨hinv, .refl _ g⟩
  finish := fun _ _ _ _ _ hinv hknows hfinal =>
    ⟨LifeCycle.report hinv hknows hfinal, ⟨Nat.le_refl _, fun _ i hi _ => ⟨i, hi, rfl, rfl⟩,
      fun _ i _ hi => ⟨i, hi, rfl⟩, List.suffix_rfl⟩⟩
  stop := fun _ g _ hinv => ⟨hinv, .refl _ g⟩
  env := by
    rintro db g db' hinv ⟨t, -, rfl⟩
    exact ⟨hinv, .refl _ g⟩

/-- In a run in which everything is written in time, every invitation keeps to its life
cycle, and what is decided stays decided. -/
theorem life_cycle_of_run {cfg : Config} {db : Database} {w w' : RbacWorld} {g g' : History}
    (hfresh : Fresh db)
    (hrun : Run (RecordedStep cfg) (fun s l => System.Admits InTime s.1 l)
      (World.initial db, .empty) (w, g))
    (hrest : Run (RecordedStep cfg) (fun s l => System.Admits InTime s.1 l) (w, g) (w', g')) :
    LifeCycle w.store.invitations g ∧ LifeCycle w'.store.invitations g' ∧
      Stays w.store.invitations g w'.store.invitations g' := by
  have hlife : LifeCycle db.invitations .empty := by
    constructor <;> simp [hfresh.invitations, History.empty]
  obtain ⟨hholds, -⟩ := (life_sound cfg).run (fun _ _ hl => hl) hrun (.initial hlife)
  obtain ⟨hholds', hgrows⟩ := (life_sound cfg).run (fun _ _ hl => hl) hrest hholds
  exact ⟨hholds.1, hholds'.1, hgrows⟩

/-! ## Invitations to a workspace -/

/-- User 0 creates a workspace and invites user 1 as an admin. -/
def invitingLabels : List (Label Op) :=
  Label.alone 0 (.createWorkspace 0 "acme".toList "acme".toList []) 2 ++
    Label.alone 0 (.inviteMember 0 "b@x".toList 1 0) 4

/-- The invitation is sent again and accepted; a second one is declined and a third one
revoked. -/
def decidingLabels : List (Label Op) :=
  [Label.alone 0 (.resendInvitation 0 0) 4,
    Label.alone 0 (.acceptInvitation ⟨1⟩ 1 "b@x".toList) 3,
    Label.alone 0 (.inviteMember 0 "c@x".toList 2 0) 4,
    Label.alone 0 (.declineInvitationByID 1 "c@x".toList) 4,
    Label.alone 0 (.inviteMember 0 "c@x".toList 2 0) 4,
    Label.alone 0 (.revokeInvitation 0 2) 1].flatten

/-- What has then happened. -/
def threeDecisions : List Happening :=
  [⟨2, .revoked, none⟩, ⟨1, .declined, some ⟨⟨2⟩⟩⟩, ⟨0, .joined 1, some ⟨⟨1⟩⟩⟩]

/-- All three keep to the life cycle. -/
theorem life_cycle_of_run_three :
    ∃ (w : RbacWorld) (g : History), g.happened = threeDecisions ∧
      LifeCycle w.store.invitations g := by
  obtain ⟨w, g, hsteps, htest⟩ := System.exists_of_trackedSteps? (rbacSystem openConfig)
    ((rbacSystem openConfig).record happenings) (fun s l => System.admits InTime s.1 l)
    (World.initial threeUsers, .empty) (invitingLabels ++ decidingLabels)
    (fun s => s.2.happened = threeDecisions) (by decide +kernel)
  refine ⟨w, g, of_decide_eq_true htest, ?_⟩
  have hrun : Run (RecordedStep openConfig) (fun s l => System.Admits InTime s.1 l)
      (World.initial threeUsers, .empty) (w, g) :=
    System.tracked_of_trackedSteps? (fun _ _ => System.admits_sound) hsteps
  exact (life_cycle_of_run ⟨rfl, rfl, rfl, rfl, rfl⟩ hrun (Run.refl _)).1

/-- The invitation is read by the operation that accepts it and revoked, and the acceptance
goes on. -/
def overlapLabels : List (Label Op) :=
  [invitingLabels, [.start 1 (.acceptInvitation ⟨0⟩ 1 "b@x".toList)], Label.execs 1 2,
    Label.alone 2 (.revokeInvitation 0 0) 1, Label.execs 1 1, [.finish 1]].flatten

/-- The membership that comes of the invitation. -/
def lateMember : Member :=
  ⟨0, 1, 1, 0⟩

/-- After the revocation has returned, user 1 joins the workspace. -/
theorem joined_after_revocation :
    ∃ (w : RbacWorld) (g : History), Run (RecordedStep openConfig) (fun _ _ => True)
      (World.initial threeUsers, .empty) (w, g) ∧
      g.reported.take 2 = [(.acceptInvitation ⟨0⟩ 1 "b@x".toList, .member lateMember),
        (.revokeInvitation 0 0, .ok)] ∧
      w.store.members.get? 1 = some lateMember ∧ ¬LifeCycle w.store.invitations g := by
  obtain ⟨w, g, hsteps, htest⟩ := System.exists_of_trackedSteps? (rbacSystem openConfig)
    ((rbacSystem openConfig).record happenings) (fun _ _ => true)
    (World.initial threeUsers, .empty) overlapLabels
    (fun s => s.2.happened = [⟨0, .joined 1, some ⟨⟨0⟩⟩⟩, ⟨0, .revoked, none⟩] ∧
      s.2.reported.take 2 = [(.acceptInvitation ⟨0⟩ 1 "b@x".toList, .member lateMember),
        (.revokeInvitation 0 0, .ok)] ∧ s.1.store.members.get? 1 = some lateMember)
    (by decide +kernel)
  obtain ⟨hhappened, hreported, hmember⟩ := of_decide_eq_true htest
  refine ⟨w, g, System.tracked_of_trackedSteps? (fun _ _ _ => trivial) hsteps, hreported, hmember,
    fun hlife => ?_⟩
  have honce := hlife.once
  rw [hhappened] at honce
  simp at honce

end Rbac
end Veilence
