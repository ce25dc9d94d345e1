import Veilence.Foundation.Outline
import Veilence.Rbac.Access

/-!
# What the operations do with what they have read

An operation checks what the database answers and then writes.  Between the two, other
operations may run, so the checks are stated about the answers: a role that is given away
has been read as no owner role, an invitation that is decided has been read as pending, a
new API key is not above the role that was read for it.

Main results:

- Theorem {lit}`safe_bodyOf`: every operation writes only what its answers permit, and
  reports only what it has been told.
-/

namespace Veilence
namespace Rbac

open Go Foundation

open Auth (Token TokenHash User)

/-- What an operation has been answered. -/
abbrev Answers := Memory Call Answer

/-! ## What answers permit -/

/-- The role has been read as one that is not an owner role. -/
def ToldPlain (m : Answers) (roleID workspaceID : Nat) : Prop :=
  ∃ r, Told m (.findRoleByIDAndWorkspace roleID workspaceID) (some r) ∧ r.name ≠ roleOwner

/-- The workspace has been read as one with another owner. -/
def ToldOther (m : Answers) (workspaceID userID : Nat) : Prop :=
  ∃ ws, Told m (.findWorkspaceByID workspaceID) (some ws) ∧ ws.ownerID ≠ userID

/-- An operation has found the invitation that it is about. -/
def Found (op : Op) (m : Answers) (id : Nat) (i : Invitation) : Prop :=
  match op with
  | .acceptInvitation token _ _ | .declineInvitationByToken token _ =>
      Told m (.findInvitationByTokenHash (hashToken token)) (some (id, i))
  | .acceptInvitationByID id' _ _ | .declineInvitationByID id' _ =>
      id' = id ∧ Told m (.findInvitationByIDGlobal id) (some i)
  | .resendInvitation workspaceID id' =>
      id' = id ∧ Told m (.findInvitationByID workspaceID id) (some i)
  | _ => False

/-- An invitation that is neither accepted nor declined. -/
def Invitation.IsPending (i : Invitation) : Prop :=
  i.acceptedAt = none ∧ i.declinedAt = none

instance (i : Invitation) : Decidable i.IsPending :=
  inferInstanceAs (Decidable (_ ∧ _))

/-- The invitation as a declining operation writes it. -/
def Invitation.declined (i : Invitation) (t : Int) : Invitation :=
  { i with declinedAt := some t }

/-- The invitation as it is sent again. -/
def Invitation.resent (i : Invitation) (tokenHash : TokenHash) (t : Int) : Invitation :=
  { i with tokenHash := tokenHash, expiresAt := t }

/-- Whether an operation accepts an invitation. -/
def Op.accepts : Op → Bool
  | .acceptInvitation _ _ _ | .acceptInvitationByID _ _ _ => true
  | _ => false

/-- Whether an operation declines an invitation. -/
def Op.declines : Op → Bool
  | .declineInvitationByToken _ _ | .declineInvitationByID _ _ => true
  | _ => false

/-- Whether an operation sends an invitation again. -/
def Op.resends : Op → Bool
  | .resendInvitation _ _ => true
  | _ => false

/-- A membership with a role of that name has been read, or an API key with that role. -/
def ToldRole (m : Answers) (userID workspaceID : Nat) (roleName : GoString) : Prop :=
  (∃ id member, Told m (.findMemberByUserAndWorkspace userID workspaceID)
      (some (id, member, roleName))) ∨
    ∃ keyPrefix keys id key, Told m (.findActiveByPrefix keyPrefix) keys ∧ (id, key) ∈ keys ∧
      key.userID = userID ∧ key.workspaceID = workspaceID ∧ key.role = roleName

/-- The commands that an operation may send after some answers. -/
def Permitted (op : Op) (m : Answers) : Call → Prop
  | .updateMember id roleID =>
      ∃ workspaceID userID member name, ToldOther m workspaceID userID ∧
        ToldPlain m roleID workspaceID ∧
        Told m (.findMemberByUserAndWorkspace userID workspaceID) (some (id, member, name))
  | .deleteMemberByUserAndWorkspace userID workspaceID => ToldOther m workspaceID userID
  | .addMember _ workspaceID _ roleID => ToldPlain m roleID workspaceID
  | .createInvitation i => ToldPlain m i.roleID i.workspaceID
  | .accept id i _ => op.accepts = true ∧ Found op m id i ∧ i.IsPending
  | .updateInvitation id written =>
      ∃ i, Found op m id i ∧ i.IsPending ∧
        ((op.declines = true ∧ ∃ t, written = i.declined t) ∨
          (op.resends = true ∧ ∃ tokenHash t, written = i.resent tokenHash t))
  | .deletePendingInvitation workspaceID id => op = .revokeInvitation workspaceID id
  | .createAPIKey key =>
      isValidAPIKeyRole key.role = true ∧
        ∃ name, ToldRole m key.userID key.workspaceID name ∧ roleLevel key.role ≤ roleLevel name
  | _ => True

/-- What the result of an operation on an invitation tells. -/
def Final (op : Op) (m : Answers) : Result → Prop
  | .member _ =>
      op.accepts = true → ∃ id i userID member, Found op m id i ∧
        Told m (.accept id i userID) (.ok member)
  | .ok =>
      (op.declines = true → ∃ id i t, Found op m id i ∧
        Told m (.updateInvitation id (i.declined t)) true) ∧
      ∀ workspaceID id, op = .revokeInvitation workspaceID id →
        Told m (.deletePendingInvitation workspaceID id) true
  | _ => True

section Monotone

variable {m m' : Answers}

theorem Found.mono {op : Op} {id : Nat} {i : Invitation} (hfound : Found op m id i)
    (hm : m <:+ m') : Found op m' id i := by
  cases op with
  | acceptInvitation token userID userEmail => exact Told.mono hfound hm
  | acceptInvitationByID id' userID userEmail => exact ⟨hfound.1, hfound.2.mono hm⟩
  | declineInvitationByToken token userEmail => exact Told.mono hfound hm
  | declineInvitationByID id' userEmail => exact ⟨hfound.1, hfound.2.mono hm⟩
  | resendInvitation workspaceID id' => exact ⟨hfound.1, hfound.2.mono hm⟩
  | _ => exact hfound

theorem ToldPlain.mono {roleID workspaceID : Nat} (htold : ToldPlain m roleID workspaceID)
    (hm : m <:+ m') : ToldPlain m' roleID workspaceID := by
  obtain ⟨role, hrole, hname⟩ := htold
  exact ⟨role, hrole.mono hm, hname⟩

theorem ToldOther.mono {workspaceID userID : Nat} (htold : ToldOther m workspaceID userID)
    (hm : m <:+ m') : ToldOther m' workspaceID userID := by
  obtain ⟨ws, hws, hother⟩ := htold
  exact ⟨ws, hws.mono hm, hother⟩

theorem ToldRole.mono {userID workspaceID : Nat} {name : GoString}
    (htold : ToldRole m userID workspaceID name) (hm : m <:+ m') :
    ToldRole m' userID workspaceID name := by
  obtain ⟨id, member, hmember⟩ | ⟨keyPrefix, keys, id, key, hkeys, hfields⟩ := htold
  · exact Or.inl ⟨id, member, hmember.mono hm⟩
  · exact Or.inr ⟨keyPrefix, keys, id, key, hkeys.mono hm, hfields⟩

end Monotone

/-! ## Every operation keeps to its answers -/

section Bodies

variable {cfg : Config} {op : Op} {m : Answers}

/-- The body of an operation keeps to what it has been answered. -/
abbrev Keeps (op : Op) (m : Answers) (p : Body Result) : Prop :=
  Safe Permitted op (Final op) m p

/-- A part of a body keeps to what it has been answered. -/
abbrev KeepsPart {α : Type} (op : Op) (m : Answers) (p : Body α) : Prop :=
  Safe Permitted op (fun _ _ => True) m p

/-- The clock tells nothing that matters. -/
theorem safe_timeNow {α : Type} {final : Answers → α → Prop} {f : Int → Body α}
    (hf : ∀ r now, Safe Permitted op final (remember m .timeNow r) (f now)) :
    Safe Permitted op final m (timeNow >>= f) :=
  ⟨trivial, fun r => hf r (r.getD 0)⟩

theorem keeps_notifyInvitee (workspaceID : Nat) (email : GoString) (rawToken : Token) :
    KeepsPart op m (notifyInvitee cfg workspaceID email rawToken) := by
  unfold notifyInvitee
  split_ifs
  · refine safe_call trivial fun _ => ?_
    exact safe_call trivial fun _ => trivial
  · trivial

theorem keeps_notifyNewUser (email password : GoString) (userCreated : Bool) :
    KeepsPart op m (notifyNewUser cfg email password userCreated) := by
  unfold notifyNewUser
  split_ifs
  · exact safe_call trivial fun _ => trivial
  · trivial

/-! ### Workspaces and users -/

theorem keeps_storeUser (user : User) :
    KeepsPart op m (storeUser user) := by
  unfold storeUser
  refine safe_call trivial ?_
  rintro (_ | _ | id)
  · trivial
  · trivial
  · trivial

theorem keeps_setupInitialize (email password firstName lastName workspaceName
    workspaceSlug : GoString) :
    Keeps op m (setupInitialize cfg email password firstName lastName workspaceName
      workspaceSlug) := by
  unfold setupInitialize
  refine safe_call trivial ?_
  rintro (_ | count)
  · trivial
  dsimp only
  split_ifs
  · trivial
  split
  · trivial
  refine safe_call trivial ?_
  rintro (_ | salt)
  · trivial
  dsimp only
  split
  · trivial
  refine safe_call trivial ?_
  rintro (_ | _)
  · trivial
  apply (keeps_storeUser _).bind
  rintro m' (message | userID) -
  · trivial
  refine safe_call trivial ?_
  rintro (_ | message | workspaceID)
  · trivial
  · trivial
  · refine safe_call trivial ?_
    rintro (_ | _) <;> trivial

theorem keeps_createWorkspace (userID : Nat) (name slug description : GoString) :
    Keeps op m (createWorkspace userID name slug description) := by
  unfold createWorkspace
  refine safe_call trivial fun r => ?_
  dsimp only
  split_ifs
  · trivial
  · refine safe_call trivial ?_
    rintro (_ | message | workspaceID) <;> trivial

theorem keeps_slugTaken (workspaceID : Nat) (ws : Workspace) (slug : GoString) :
    KeepsPart op m (slugTaken workspaceID ws slug) := by
  unfold slugTaken
  split_ifs
  · exact safe_call trivial fun _ => trivial
  · trivial

theorem keeps_updateWorkspace (workspaceID : Nat) (name slug description : GoString) :
    Keeps op m (updateWorkspace workspaceID name slug description) := by
  unfold updateWorkspace
  refine safe_call trivial ?_
  rintro (_ | _ | ws)
  · trivial
  · trivial
  apply (keeps_slugTaken _ _ _).bind
  rintro m' (_ | _) -
  · refine safe_call trivial ?_
    rintro (_ | _ | _) <;> trivial
  · trivial

/-! ### Invitations -/

theorem keeps_inviteMember (workspaceID : Nat) (email : GoString) (roleID invitedBy : Nat) :
    Keeps op m (inviteMember cfg workspaceID email roleID invitedBy) := by
  unfold inviteMember
  split_ifs
  · trivial
  dsimp only
  split_ifs
  · trivial
  refine safe_call trivial ?_
  rintro (_ | _ | role)
  · trivial
  · trivial
  dsimp only
  split_ifs with hname
  · trivial
  have hplain : ToldPlain
      (remember m (.findRoleByIDAndWorkspace roleID workspaceID) (some (some role))) roleID
      workspaceID := ⟨role, told_remember _ _ _, hname⟩
  refine safe_call trivial fun rawToken => ?_
  cases rawToken with
  | none => trivial
  | some rawToken =>
      apply safe_timeNow
      intro r now
      refine safe_call (hplain.mono ((suffix_remember _ _ _).trans (suffix_remember _ _ _))) ?_
      rintro (_ | _ | id)
      · trivial
      · trivial
      · exact (keeps_notifyInvitee _ _ _).bind fun _ _ _ => trivial

/-- An invitation that passes the check is pending. -/
theorem isPending_of_checkDecided {i : Invitation} (hcheck : checkDecided i = none) :
    i.IsPending := by
  unfold checkDecided at hcheck
  split_ifs at hcheck with haccepted hdeclined
  exact ⟨by simpa using haccepted, by simpa using hdeclined⟩

/-- The check of the time forgets no invitation. -/
theorem safe_checkExpired {id : Nat} {i : Invitation} (hfound : Found op m id i) :
    Safe Permitted op (fun m' _ => Found op m' id i) m (checkExpired i) := by
  unfold checkExpired
  apply safe_timeNow
  intro r now
  split_ifs
  · exact hfound.mono (suffix_remember _ _ _)
  · exact hfound.mono (suffix_remember _ _ _)

theorem keeps_acceptFound {id : Nat} {i : Invitation} (userID : Nat) (hop : op.accepts = true)
    (hfound : Found op m id i) (hpending : i.IsPending) :
    Keeps op m (acceptFound id i userID) := by
  unfold acceptFound
  refine safe_call ⟨hop, hfound, hpending⟩ ?_
  rintro (_ | message | member)
  · trivial
  · trivial
  · exact fun _ => ⟨id, i, userID, member, hfound.mono (suffix_remember _ _ _), told_remember _ _ _⟩

theorem keeps_acceptInvitation (token : Token) (userID : Nat) (userEmail : GoString) :
    Keeps (.acceptInvitation token userID userEmail) m
      (acceptInvitation cfg token userID userEmail) := by
  unfold acceptInvitation
  split_ifs
  · trivial
  refine safe_call trivial ?_
  rintro (_ | _ | ⟨id, i⟩)
  · trivial
  · trivial
  have hfound : Found (.acceptInvitation token userID userEmail)
      (remember m (.findInvitationByTokenHash (hashToken token)) (some (some (id, i)))) id i :=
    told_remember _ _ _
  dsimp only
  split
  · trivial
  rename_i hcheck
  apply (safe_checkExpired hfound).bind
  rintro m' (_ | message) hfound'
  · dsimp only
    split
    · trivial
    · exact keeps_acceptFound _ rfl hfound' (isPending_of_checkDecided hcheck)
  · trivial

theorem keeps_acceptInvitationByID (id userID : Nat) (userEmail : GoString) :
    Keeps (.acceptInvitationByID id userID userEmail) m
      (acceptInvitationByID cfg id userID userEmail) := by
  unfold acceptInvitationByID
  split_ifs
  · trivial
  refine safe_call trivial ?_
  rintro (_ | _ | i)
  · trivial
  · trivial
  have hfound : Found (.acceptInvitationByID id userID userEmail)
      (remember m (.findInvitationByIDGlobal id) (some (some i))) id i :=
    ⟨rfl, told_remember _ _ _⟩
  dsimp only
  split
  · trivial
  split
  · trivial
  rename_i hcheck
  apply (safe_checkExpired hfound).bind
  rintro m' (_ | message) hfound'
  · exact keeps_acceptFound _ rfl hfound' (isPending_of_checkDecided hcheck)
  · trivial

theorem keeps_declineFound {id : Nat} {i : Invitation} (userEmail failure : GoString)
    (hop : op.declines = true) (hfound : Found op m id i) :
    Keeps op m (declineFound id i userEmail failure) := by
  have hrevoke : ∀ workspaceID id', op ≠ .revokeInvitation workspaceID id' := by
    rintro workspaceID id' rfl
    cases hop
  unfold declineFound
  split
  · trivial
  split
  · trivial
  rename_i hcheck
  apply (safe_checkExpired hfound).bind
  rintro m' (_ | message) hfound'
  · apply safe_timeNow
    intro r now
    refine safe_call ⟨i, hfound'.mono (suffix_remember _ _ _), isPending_of_checkDecided hcheck,
      Or.inl ⟨hop, now, rfl⟩⟩ ?_
    rintro (_ | _ | _)
    · trivial
    · trivial
    · exact ⟨fun _ => ⟨id, i, now, hfound'.mono ((suffix_remember _ _ _).trans (suffix_remember _ _ _)), told_remember _ _ _⟩,
        fun workspaceID id' heq => absurd heq (hrevoke workspaceID id')⟩
  · trivial

theorem keeps_declineInvitationByToken (token : Token) (userEmail : GoString) :
    Keeps (.declineInvitationByToken token userEmail) m
      (declineInvitationByToken cfg token userEmail) := by
  unfold declineInvitationByToken
  split_ifs
  · trivial
  refine safe_call trivial ?_
  rintro (_ | _ | ⟨id, i⟩)
  · trivial
  · trivial
  · exact keeps_declineFound _ _ rfl (told_remember _ _ _)

theorem keeps_declineInvitationByID (id : Nat) (userEmail : GoString) :
    Keeps (.declineInvitationByID id userEmail) m
      (declineInvitationByID cfg id userEmail) := by
  unfold declineInvitationByID
  split_ifs
  · trivial
  refine safe_call trivial ?_
  rintro (_ | _ | i)
  · trivial
  · trivial
  · exact keeps_declineFound _ _ rfl ⟨rfl, told_remember _ _ _⟩

theorem keeps_revokeInvitation (workspaceID id : Nat) :
    Keeps (.revokeInvitation workspaceID id) m
      (revokeInvitation cfg workspaceID id) := by
  unfold revokeInvitation
  split_ifs
  · trivial
  refine safe_call rfl ?_
  rintro (_ | _ | _)
  · trivial
  · trivial
  · refine ⟨(fun hop => nomatch hop), ?_⟩
    rintro workspaceID' id' ⟨⟩
    exact told_remember _ _ _

theorem keeps_resendInvitation (workspaceID id : Nat) :
    Keeps (.resendInvitation workspaceID id) m
      (resendInvitation cfg workspaceID id) := by
  unfold resendInvitation
  split_ifs
  · trivial
  refine safe_call trivial ?_
  rintro (_ | _ | i)
  · trivial
  · trivial
  dsimp only
  split
  · trivial
  rename_i hcheck
  refine safe_call trivial fun rawToken => ?_
  cases rawToken with
  | none => trivial
  | some rawToken =>
      apply safe_timeNow
      intro r now
      have hfound : Found (.resendInvitation workspaceID id)
          (remember m (.findInvitationByID workspaceID id) (some (some i))) id i :=
        ⟨rfl, told_remember _ _ _⟩
      refine safe_call ⟨i, hfound.mono ((suffix_remember _ _ _).trans (suffix_remember _ _ _)), isPending_of_checkDecided hcheck,
        Or.inr ⟨rfl, hashToken rawToken, now + invitationDuration, rfl⟩⟩ ?_
      rintro (_ | _ | _)
      · trivial
      · trivial
      · exact (keeps_notifyInvitee _ _ _).bind fun _ _ _ => trivial

/-! ### Members -/

theorem keeps_removeMember (workspaceID userID : Nat) :
    Keeps (.removeMember workspaceID userID) m (removeMember workspaceID userID) := by
  unfold removeMember
  refine safe_call trivial ?_
  rintro (_ | _ | ws)
  · trivial
  · trivial
  dsimp only
  split_ifs with howner
  · trivial
  refine safe_call ⟨ws, told_remember _ _ _, howner⟩ ?_
  rintro (_ | _ | _)
  · trivial
  · trivial
  · exact ⟨(fun hop => nomatch hop), (fun _ _ heq => nomatch heq)⟩

theorem keeps_updateMemberRole (workspaceID userID newRoleID : Nat) :
    Keeps (.updateMemberRole workspaceID userID newRoleID) m
      (updateMemberRole workspaceID userID newRoleID) := by
  unfold updateMemberRole
  refine safe_call trivial ?_
  rintro (_ | _ | ws)
  · trivial
  · trivial
  dsimp only
  split_ifs with howner
  · trivial
  have hother : ToldOther (remember m (.findWorkspaceByID workspaceID) (some (some ws)))
      workspaceID userID := ⟨ws, told_remember _ _ _, howner⟩
  refine safe_call trivial ?_
  rintro (_ | _ | role)
  · trivial
  · trivial
  dsimp only
  split_ifs with hname
  · trivial
  have hplain : ToldPlain
      (remember (remember m (.findWorkspaceByID workspaceID) (some (some ws)))
        (.findRoleByIDAndWorkspace newRoleID workspaceID) (some (some role))) newRoleID
      workspaceID := ⟨role, told_remember _ _ _, hname⟩
  refine safe_call trivial ?_
  rintro (_ | _ | ⟨id, member, name⟩)
  · trivial
  · trivial
  refine safe_call ⟨workspaceID, userID, member, name, hother.mono ((suffix_remember _ _ _).trans (suffix_remember _ _ _)),
    hplain.mono (suffix_remember _ _ _), told_remember _ _ _⟩ ?_
  rintro (_ | _ | _)
  · trivial
  · trivial
  · exact fun hop => nomatch hop

theorem keeps_findExisting (email : GoString) : KeepsPart op m (findExisting cfg email) := by
  unfold findExisting
  split_ifs
  · refine safe_call trivial ?_
    rintro (_ | _ | ⟨userID, user⟩)
    · trivial
    · trivial
    · trivial
  · trivial

theorem keeps_checkExistingUser (email : GoString) :
    KeepsPart op m (checkExistingUser email) := by
  unfold checkExistingUser
  refine safe_call trivial ?_
  rintro (_ | _ | _)
  · trivial
  · trivial
  · trivial

theorem keeps_createUserWithoutPassword (email firstName lastName : GoString) :
    KeepsPart op m (createUserWithoutPassword cfg email firstName lastName) := by
  unfold createUserWithoutPassword
  dsimp only
  split
  · trivial
  apply (keeps_checkExistingUser _).bind
  rintro m' (message | _) -
  · trivial
  · exact keeps_storeUser _

theorem keeps_createUserWithPassword (email firstName lastName password : GoString) :
    KeepsPart op m (createUserWithPassword cfg email firstName lastName password) := by
  unfold createUserWithPassword
  dsimp only
  split
  · trivial
  split
  · trivial
  apply (keeps_checkExistingUser _).bind
  rintro m' (message | _) -
  · trivial
  refine safe_call trivial ?_
  rintro (_ | salt)
  · trivial
  dsimp only
  split
  · trivial
  · exact keeps_storeUser _

theorem keeps_createAccount (email firstName lastName password : GoString) :
    KeepsPart op m (createAccount cfg email firstName lastName password) := by
  unfold createAccount
  split_ifs
  · trivial
  · exact keeps_createUserWithPassword _ _ _ _
  · exact keeps_createUserWithoutPassword _ _ _

theorem keeps_joinWorkspace {workspaceID roleID : Nat} (hplain : ToldPlain m roleID workspaceID)
    (userID : Nat) (email password : GoString) (userCreated : Bool) :
    Keeps op m (joinWorkspace cfg workspaceID userID roleID email password userCreated) := by
  unfold joinWorkspace
  refine safe_call hplain ?_
  rintro (_ | message | member)
  · trivial
  · trivial
  · exact (keeps_notifyNewUser _ _ _).bind fun _ _ _ => trivial

theorem keeps_addUserToWorkspace (workspaceID : Nat) (email firstName lastName : GoString)
    (roleID : Nat) (password : GoString) :
    Keeps op m (addUserToWorkspace cfg workspaceID email firstName lastName roleID password) := by
  unfold addUserToWorkspace
  refine safe_call trivial ?_
  rintro (_ | _ | role)
  · trivial
  · trivial
  dsimp only
  split_ifs with hname
  · trivial
  · trivial
  have hplain : ToldPlain
      (remember m (.findRoleByIDAndWorkspace roleID workspaceID) (some (some role))) roleID
      workspaceID := ⟨role, told_remember _ _ _, hname⟩
  refine safe_call trivial fun r => ?_
  cases r with
  | none => trivial
  | some _ =>
      -- what has been read of the role is kept while the user is looked up and created
      apply (keeps_findExisting _).grow.bind
      rintro m' existing ⟨hm', -⟩
      have hplain' := (hplain.mono (suffix_remember _ _ _)).mono hm'
      cases existing with
      | some userID => exact keeps_joinWorkspace hplain' _ _ _ _
      | none =>
          apply (keeps_createAccount _ _ _ _).grow.bind
          rintro m'' (message | userID) ⟨hm'', -⟩
          · trivial
          · exact keeps_joinWorkspace (hplain'.mono hm'') _ _ _ _

/-! ### API keys -/

/-- The role of an API key has been read. -/
def ToldIdentity (m : Answers) : Identity → Prop
  | .jwt _ => True
  | .apiKey userID role workspaceID => ToldRole m userID workspaceID role

theorem safe_validateAPIKey (rawKey : Token) :
    Safe Permitted op (fun m' r => ∀ identity, r = .ok identity → ToldIdentity m' identity) m
      (validateAPIKey cfg rawKey) := by
  unfold validateAPIKey
  refine safe_call trivial ?_
  rintro (_ | keys)
  · exact fun identity heq => nomatch heq
  unfold validateFound
  dsimp only
  split
  · exact fun identity heq => nomatch heq
  rename_i id key hkey
  have htold : ToldRole (remember m (.findActiveByPrefix (cfg.keyPrefix rawKey)) (some keys))
      key.userID key.workspaceID key.role :=
    Or.inr ⟨_, keys, id, key, told_remember _ _ _, List.mem_of_find?_eq_some hkey, rfl, rfl, rfl⟩
  apply safe_timeNow
  intro r now
  split_ifs
  · exact fun identity heq => nomatch heq
  refine safe_call trivial ?_
  rintro (_ | _ | user)
  · exact fun identity heq => nomatch heq
  · exact fun identity heq => nomatch heq
  dsimp only
  split_ifs
  · exact fun identity heq => nomatch heq
  · rintro identity ⟨⟩
    exact htold.mono ((suffix_remember _ _ _).trans (suffix_remember _ _ _))

theorem safe_authenticate (credential : Credential) :
    Safe Permitted op (fun m' r => ∀ identity, r = .ok identity → ToldIdentity m' identity) m
      (authenticate cfg credential) := by
  cases credential with
  | jwt userID =>
      rintro identity ⟨⟩
      trivial
  | apiKey rawKey => exact safe_validateAPIKey rawKey

/-- The role that a context names has been read. -/
theorem safe_requireWorkspace {identity : Identity} (hidentity : ToldIdentity m identity)
    (param : WorkspaceParam) :
    Safe Permitted op
      (fun m' r => ∀ ctx, r = .ok ctx →
        ToldRole m' ctx.identity.userID ctx.workspaceID ctx.memberRole) m
      (requireWorkspace identity param) := by
  unfold requireWorkspace
  cases identity with
  | apiKey userID role workspaceID =>
      dsimp only
      split_ifs
      · rintro ctx ⟨⟩
        exact hidentity
      · exact fun ctx heq => nomatch heq
  | jwt userID =>
      cases param with
      | absent => exact fun ctx heq => nomatch heq
      | malformed => exact fun ctx heq => nomatch heq
      | id workspaceID =>
          refine safe_call trivial ?_
          rintro (_ | _ | ⟨id, member, roleName⟩)
          · exact fun ctx heq => nomatch heq
          · exact fun ctx heq => nomatch heq
          · rintro ctx ⟨⟩
            exact Or.inl ⟨id, member, told_remember _ _ _⟩

theorem keeps_requirePermission (ctx : Context) (p : Permission) :
    KeepsPart op m (requirePermission ctx p) := by
  unfold requirePermission
  split
  · refine safe_call trivial ?_
    rintro (_ | _ | _) <;> trivial
  · refine safe_call trivial ?_
    rintro (_ | _ | _) <;> trivial

/-- A request that passes has the role that its context names. -/
theorem safe_authorize (credential : Credential) (param : WorkspaceParam) (p : Permission) :
    Safe Permitted op
      (fun m' r => ∀ ctx, r = .ok ctx →
        ToldRole m' ctx.identity.userID ctx.workspaceID ctx.memberRole) m
      (authorize cfg credential param p) := by
  unfold authorize
  apply (safe_authenticate credential).bind
  rintro m' (message | identity) hidentity
  · exact fun ctx heq => nomatch heq
  apply (safe_requireWorkspace (hidentity identity rfl) param).bind
  rintro m'' (message | ctx) hctx
  · exact fun ctx heq => nomatch heq
  apply (keeps_requirePermission ctx p).grow.bind
  rintro m₃ (message | _) ⟨hm₃, -⟩
  · exact fun ctx heq => nomatch heq
  · rintro ctx' ⟨⟩
    exact (hctx ctx rfl).mono hm₃

theorem keeps_checkExpiresAt (expiresAt : Option Int) :
    KeepsPart op m (checkExpiresAt expiresAt) := by
  unfold checkExpiresAt
  cases expiresAt with
  | none => trivial
  | some t =>
      apply safe_timeNow
      intro r now
      split_ifs <;> trivial

theorem keeps_createAPIKey {userID workspaceID : Nat} {userRole : GoString}
    (htold : ToldRole m userID workspaceID userRole) (name role : GoString)
    (expiresAt : Option Int) :
    Keeps op m (createAPIKey cfg userID workspaceID name role userRole expiresAt) := by
  unfold createAPIKey
  dsimp only
  split_ifs with hvalid hlevel
  · trivial
  · trivial
  refine safe_call trivial fun rawKey => ?_
  cases rawKey with
  | none => trivial
  | some rawKey =>
      refine safe_call trivial fun salt => ?_
      refine safe_call ⟨by simpa using hvalid, userRole,
        htold.mono ((suffix_remember _ _ _).trans (suffix_remember _ _ _)),
        Nat.le_of_not_lt hlevel⟩ ?_
      rintro (_ | _ | id) <;> trivial

theorem keeps_handleCreateAPIKey (credential : Credential) (param : WorkspaceParam)
    (name role : GoString) (expiresAt : Option Int) :
    Keeps op m (handleCreateAPIKey cfg credential param name role expiresAt) := by
  unfold handleCreateAPIKey
  apply (safe_authorize credential param _).bind
  rintro m' (message | ctx) hctx
  · trivial
  dsimp only
  split_ifs
  · trivial
  · trivial
  · trivial
  · trivial
  apply (keeps_checkExpiresAt expiresAt).grow.bind
  rintro m'' (_ | message) ⟨hm'', -⟩
  · exact keeps_createAPIKey ((hctx ctx rfl).mono hm'') _ _ _
  · trivial

theorem keeps_handleRevokeAPIKey (credential : Credential) (param : WorkspaceParam)
    (keyID : Nat) :
    Keeps (.revokeAPIKey credential param keyID) m
      (handleRevokeAPIKey cfg credential param keyID) := by
  unfold handleRevokeAPIKey
  apply (safe_authorize credential param _).bind
  rintro m' (message | ctx) -
  · trivial
  refine safe_call trivial ?_
  rintro (_ | _ | _)
  · trivial
  · trivial
  · exact ⟨(fun hop => nomatch hop), (fun _ _ heq => nomatch heq)⟩

/-! ### All operations -/

/-- Every operation keeps to its answers. -/
theorem safe_bodyOf (cfg : Config) (op : Op) : Keeps op [] (bodyOf cfg op) := by
  cases op with
  | setupInitialize email password firstName lastName workspaceName workspaceSlug =>
      exact keeps_setupInitialize _ _ _ _ _ _
  | createWorkspace userID name slug description => exact keeps_createWorkspace _ _ _ _
  | updateWorkspace workspaceID name slug description => exact keeps_updateWorkspace _ _ _ _
  | inviteMember workspaceID email roleID invitedBy => exact keeps_inviteMember _ _ _ _
  | acceptInvitation token userID userEmail => exact keeps_acceptInvitation _ _ _
  | acceptInvitationByID id userID userEmail => exact keeps_acceptInvitationByID _ _ _
  | declineInvitationByToken token userEmail => exact keeps_declineInvitationByToken _ _
  | declineInvitationByID id userEmail => exact keeps_declineInvitationByID _ _
  | revokeInvitation workspaceID id => exact keeps_revokeInvitation _ _
  | resendInvitation workspaceID id => exact keeps_resendInvitation _ _
  | removeMember workspaceID userID => exact keeps_removeMember _ _
  | updateMemberRole workspaceID userID newRoleID => exact keeps_updateMemberRole _ _ _
  | addUserToWorkspace workspaceID email firstName lastName roleID password =>
      exact keeps_addUserToWorkspace _ _ _ _ _ _
  | createAPIKey credential param name role expiresAt =>
      exact keeps_handleCreateAPIKey _ _ _ _ _
  | revokeAPIKey credential param keyID => exact keeps_handleRevokeAPIKey _ _ _

end Bodies

end Rbac
end Veilence
