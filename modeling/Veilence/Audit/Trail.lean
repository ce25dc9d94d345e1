import Veilence.Audit.Service
import Veilence.Go.Utf8Texts
import Veilence.Restapi.SignIn

/-!
# Which calls leave a row in the audit log

A call of the audit service is recorded if it adds a row with its action, its resource and its
user.  The columns take every name that the code passes, the IDs and texts that the database holds
and a generated correlation ID, so that a row can be lost only through a text of the request.

Main results:

- Theorem {lit}`fits_generateUUID`: a generated correlation ID fits.
- Theorem {lit}`not_isUUID_token`: the token of an invitation is no ID.
- Theorem {lit}`recorded_iff`: the calls that are recorded.
- Theorem {lit}`longUserAgent_unrecorded`: a client keeps its actions out of the log.
-/

namespace Veilence
namespace Audit

open Go Auth

/-! ## Recorded calls -/

/-- The action and the resource that a call names. -/
def Call.names : Call → GoString × GoString
  | .operation op _ _ => (op.action, op.resource)
  | .retryDeadJobs _ _ => ("retry".toList, "queue_job".toList)
  | .declineInvitation _ => ("decline".toList, "invitation".toList)
  | .authEvent event _ _ _ => (event.action, "auth".toList)
  | .loginFailed _ => ("login_failed".toList, "auth".toList)
  | .sso event _ _ _ _ => (event.action, event.resource)

/-- The user that a call is about. -/
def Call.userID (ctx : Context) : Call → GoString
  | .operation _ _ _ | .retryDeadJobs _ _ | .declineInvitation _ => idText ctx.account.userID
  | .authEvent _ userID _ _ | .sso _ userID _ _ _ => idText userID
  | .loginFailed _ => []

/-- Whatever the log holds, the call adds a row with its action, its resource and its user. -/
def Recorded (ctx : Context) (call : Call) : Prop :=
  ∀ logs, ∃ row, call.run ctx logs = row :: logs ∧
    (row.action, row.resource) = call.names ∧ row.userID = call.userID ctx

/-- The texts of a request that go into columns fit. -/
def Request.Fits (r : Request) : Prop :=
  (r.correlationID = [] ∨ fitsColumn 36 r.correlationID = true) ∧
    fitsColumn 45 r.remoteAddr = true ∧ fitsColumn 255 r.userAgent = true

instance (r : Request) : Decidable r.Fits :=
  inferInstanceAs (Decidable (_ ∧ _ ∧ _))

/-- The texts that a call takes from a client or an identity provider fit.  The token of an
invitation goes into a column for IDs. -/
def Call.Fits : Call → Prop
  | .operation _ _ _ | .authEvent _ _ _ _ => True
  | .retryDeadJobs _ jobType => fitsText jobType = true
  | .declineInvitation _ => False
  | .loginFailed email | .sso _ _ email _ _ => fitsColumn 255 email = true

/-! ## Texts -/

variable {s t : GoString}

theorem fitsText_iff : fitsText s = true ↔ utf8Valid s = true ∧ '\x00' ∉ s := by
  simp [fitsText]

theorem fitsColumn_iff {limit : Nat} :
    fitsColumn limit s = true ↔ fitsText s = true ∧ runeCount s ≤ limit := by
  simp [fitsColumn, fitsText]

/-- An ASCII character other than NUL. -/
def isPlain (c : Char) : Bool :=
  byteIn 0x01 0x7F c

theorem fitsText_plain (hs : s.all isPlain = true) : fitsText s = true := by
  rw [fitsText_iff]
  constructor
  · induction s with
    | nil => rfl
    | cons c s ih =>
        rw [List.all_cons, Bool.and_eq_true] at hs
        have hone : byteIn 0x00 0x7F c = true := by
          have hc := hs.1
          simp only [isPlain, byteIn, Bool.and_eq_true, decide_eq_true_iff] at hc ⊢
          omega
        rw [utf8Valid_one hone]
        exact ih hs.2
  · intro hmem
    exact absurd (List.all_eq_true.mp hs _ hmem) (by decide)

theorem isPlain_digitChar {n : Nat} (hn : n < 16) : isPlain (Nat.digitChar n) = true := by
  have hall : ∀ m < 16, isPlain (Nat.digitChar m) = true := by decide
  exact hall n hn

theorem isPlain_itoa (n : Nat) : (itoa n).all isPlain = true := by
  refine List.all_eq_true.mpr fun c hc => ?_
  have hdigit := Nat.isDigit_of_mem_toDigits (by decide) (by decide) hc
  simp only [Char.isDigit, Bool.and_eq_true, decide_eq_true_iff, ge_iff_le, UInt32.le_iff_toNat_le]
    at hdigit
  simp only [isPlain, byteIn, Bool.and_eq_true, decide_eq_true_iff]
  have hlow := hdigit.1
  have hhigh := hdigit.2
  change 48 ≤ c.toNat at hlow
  change c.toNat ≤ 57 at hhigh
  omega

example : (itoa 1024).all isPlain = true := by
  decide +kernel

/-- A text behind another one that ends with an ASCII character. -/
theorem fitsText_behind {front : GoString} {d : Char} (hd : d.toNat < 0x80)
    (hfront : fitsText (front ++ [d]) = true) :
    fitsText (front ++ d :: s) = true ↔ fitsText s = true := by
  rw [fitsText_iff] at hfront
  have hvalid := utf8Valid_append_ascii hd front []
  rw [hfront.1] at hvalid
  have hfirst : utf8Valid front = true := by simpa [utf8Valid] using hvalid.symm
  have hnul : '\x00' ∉ front ++ d :: s ↔ '\x00' ∉ s := by
    have hnone := hfront.2
    simp only [List.mem_append, List.mem_cons, not_or] at hnone ⊢
    tauto
  rw [fitsText_iff, fitsText_iff, utf8Valid_append_ascii hd, hfirst, Bool.true_and, hnul]

/-- A text in front of another one that begins with an ASCII character. -/
theorem fitsText_before {back : GoString} {e : Char} (he : e.toNat < 0x80)
    (hback : fitsText (e :: back) = true) :
    fitsText (s ++ e :: back) = true ↔ fitsText s = true := by
  rw [fitsText_iff] at hback
  have hvalid := utf8Valid_append_ascii he [] back
  rw [List.nil_append, hback.1] at hvalid
  have hlast : utf8Valid back = true := by simpa [utf8Valid] using hvalid.symm
  have hnul : '\x00' ∉ s ++ e :: back ↔ '\x00' ∉ s := by
    have hnone := hback.2
    simp only [List.mem_append, List.mem_cons, not_or] at hnone ⊢
    tauto
  rw [fitsText_iff, fitsText_iff, utf8Valid_append_ascii he, hlast, Bool.and_true, hnul]

example : fitsText "retried 3 dead notification jobs".toList = true := by
  decide +kernel

theorem fitsText_details (text : StoredText) : fitsText (' ' :: text.text) = true := by
  have hblank : fitsText ([] ++ [' ']) = true := by decide +kernel
  exact (fitsText_behind (by decide) hblank).mpr text.fits

theorem fitsText_retried (count : Nat) (jobType : GoString) :
    fitsText ("retried ".toList ++ itoa count ++ " dead ".toList ++ jobType ++
      " jobs".toList) = true ↔ fitsText jobType = true := by
  have hfront : fitsText ("retried ".toList ++ itoa count ++ " dead".toList ++ [' ']) = true := by
    refine fitsText_plain ?_
    have hretried : "retried ".toList.all isPlain = true := by decide +kernel
    have hdead : " dead".toList.all isPlain = true := by decide +kernel
    rw [List.all_append, List.all_append, List.all_append, isPlain_itoa, hretried, hdead]
    rfl
  have hback : fitsText (' ' :: "jobs".toList) = true := by decide +kernel
  have hsplit : "retried ".toList ++ itoa count ++ " dead ".toList ++ jobType ++ " jobs".toList =
      ("retried ".toList ++ itoa count ++ " dead".toList) ++
        ' ' :: (jobType ++ ' ' :: "jobs".toList) := by
    simp
  rw [hsplit, fitsText_behind (by decide) hfront, fitsText_before (by decide) hback]

theorem fitsText_failedLogin {email : GoString} (hemail : fitsText email = true) :
    fitsText ("failed login attempt for email ".toList ++ email) = true := by
  have hfront : fitsText ("failed login attempt for email".toList ++ [' ']) = true := by
    decide +kernel
  rw [← fitsText_behind (by decide) hfront] at hemail
  simpa using hemail

theorem fitsText_sso {email : GoString} (hemail : fitsText email = true) (rest : StoredText) :
    fitsText ("email=".toList ++ email ++ ' ' :: rest.text) = true := by
  have hfront : fitsText ("email".toList ++ ['=']) = true := by decide +kernel
  rw [← fitsText_before (by decide) (fitsText_details rest),
    ← fitsText_behind (by decide) hfront] at hemail
  simpa using hemail

example : fitsText "email=owner@example.com provider=google".toList = true := by
  decide +kernel

/-! ## Columns -/

@[simp]
theorem fitsNullableUUID_idText (id : Option ID) : fitsNullableUUID (idText id) = true := by
  cases id with
  | none => rfl
  | some id => simp [fitsNullableUUID, idText, id.isUUID]

theorem Operation.fits_names (op : Operation) :
    fitsColumn 50 op.action = true ∧ fitsColumn 50 op.resource = true := by
  cases op <;> decide +kernel

theorem AuthEvent.fits_action (event : AuthEvent) : fitsColumn 50 event.action = true := by
  cases event <;> decide +kernel

theorem SsoEvent.fits_names (event : SsoEvent) :
    fitsColumn 50 event.action = true ∧ fitsColumn 50 event.resource = true := by
  cases event <;> decide +kernel

example : fitsColumn 50 SsoEvent.identityLinkFailed.action = true := by
  decide +kernel

theorem length_skipHyphen (s : GoString) : s.length ≤ (skipHyphen s).length + 1 := by
  unfold skipHyphen
  split
  · simp
  · omega

/-- Each group takes five bytes at most. -/
theorem length_readGroups {n : Nat} (hread : readGroups n s = some t) :
    s.length ≤ t.length + 5 * n := by
  induction n generalizing s with
  | zero =>
      obtain rfl := Option.some.inj hread
      omega
  | succ n ih =>
      match s with
      | [] => simp [readGroups] at hread
      | [_] => simp [readGroups] at hread
      | [_, _] => simp [readGroups] at hread
      | [_, _, _] => simp [readGroups] at hread
      | a :: b :: c :: d :: s =>
          rw [readGroups] at hread
          split_ifs at hread with hdigits hlast
          · have hrest := ih hread
            simp only [List.length_cons]
            omega
          · have hrest := ih hread
            have hskip := length_skipHyphen s
            simp only [List.length_cons]
            omega

/-- The text of an ID is short. -/
theorem length_le_of_isUUID (hs : isUUID s = true) : s.length ≤ 42 := by
  unfold isUUID at hs
  split at hs
  · have hread := length_readGroups (of_decide_eq_true hs)
    simp only [List.length_cons, List.length_nil] at hread ⊢
    omega
  · have hread := length_readGroups (of_decide_eq_true hs)
    simp only [List.length_nil] at hread
    omega

/-- The token of an invitation is no ID. -/
theorem not_isUUID_token (token : InvitationToken) : fitsNullableUUID token.text = false := by
  have hlength := token.length_eq
  rw [fitsNullableUUID, Bool.or_eq_false_iff, decide_eq_false_iff_not]
  constructor
  · intro hnil
    rw [hnil] at hlength
    exact absurd hlength (by decide)
  · rw [Bool.eq_false_iff]
    intro hs
    have hshort := length_le_of_isUUID hs
    omega

/-! ## Correlation IDs -/

theorem isPlain_hexByte (b : UInt8) : (hexByte b).all isPlain = true := by
  have hb := b.toNat_lt
  rw [hexByte, List.all_cons, List.all_cons, isPlain_digitChar (by omega),
    isPlain_digitChar (by omega)]
  rfl

/-- A generated correlation ID fits. -/
theorem fits_generateUUID (random : Fin 16 → UInt8) :
    fitsColumn 36 (generateUUID random) = true := by
  rw [fitsColumn_iff]
  constructor
  · refine fitsText_plain ?_
    simp only [generateUUID, join, List.intercalate, List.intersperse, List.flatten_cons,
      List.flatMap_cons, List.all_append, isPlain_hexByte]
    rfl
  · exact Restapi.runeCountAfter_le 0 _

/-! ## Rows -/

/-- The row that a call adds. -/
def Call.entry (ctx : Context) (call : Call) : AuditLog :=
  { userID := call.userID ctx
    userEmail :=
      match call with
      | .operation _ _ _ | .retryDeadJobs _ _ | .declineInvitation _ => ctx.account.email.text
      | .authEvent _ _ userEmail _ => userEmail.text
      | .loginFailed email | .sso _ _ email _ _ => email
    workspaceID :=
      match call with
      | .authEvent _ _ _ _ | .loginFailed _ => []
      | _ => idText ctx.account.workspaceID
    action := call.names.1
    resource := call.names.2
    resourceID :=
      match call with
      | .operation _ resourceID _ | .sso _ _ _ resourceID _ => idText resourceID
      | .authEvent _ userID _ _ => idText userID
      | .declineInvitation token => token.text
      | .retryDeadJobs _ _ | .loginFailed _ => []
    details :=
      match call with
      | .operation _ _ details | .authEvent _ _ _ details => details.text
      | .retryDeadJobs count jobType =>
          "retried ".toList ++ itoa count ++ " dead ".toList ++ jobType ++ " jobs".toList
      | .declineInvitation _ => "declined invitation by token for ".toList ++ ctx.account.email.text
      | .loginFailed email => "failed login attempt for email ".toList ++ email
      | .sso _ _ email _ rest => "email=".toList ++ email ++ ' ' :: rest.text
    ipAddress := ctx.ipAddress
    userAgent := ctx.userAgent
    correlationID := ctx.correlationID }

section Rows

variable {ctx : Context}

theorem run_eq_create (ctx : Context) (call : Call) (logs : List AuditLog) :
    call.run ctx logs = create logs (call.entry ctx) := by
  cases call with
  | operation op resourceID details => rfl
  | retryDeadJobs count jobType => rfl
  | declineInvitation token => rfl
  | authEvent event userID userEmail details => rfl
  | loginFailed email => rfl
  | sso event userID email resourceID rest => rfl

/-- The columns take the row of a call. -/
theorem fits_entry_iff (ctx : Context) (call : Call) :
    (call.entry ctx).fits = true ↔
      (fitsColumn 36 ctx.correlationID = true ∧ fitsColumn 45 ctx.ipAddress = true ∧
        fitsColumn 255 ctx.userAgent = true) ∧ call.Fits := by
  have hemail := ctx.account.email.fits
  have hempty : fitsNullableUUID [] = true := rfl
  have hauth : fitsColumn 50 "auth".toList = true := by decide +kernel
  cases call with
  | operation op resourceID details =>
      dsimp only [AuditLog.fits, Call.entry, Call.names, Call.userID, Call.Fits]
      simp only [fitsNullableUUID_idText, hemail, op.fits_names, details.fits, Bool.true_and,
        Bool.and_eq_true, and_true]
      grind only
  | retryDeadJobs count jobType =>
      have hretry : fitsColumn 50 "retry".toList = true := by decide +kernel
      have hjob : fitsColumn 50 "queue_job".toList = true := by decide +kernel
      dsimp only [AuditLog.fits, Call.entry, Call.names, Call.userID, Call.Fits]
      simp only [fitsNullableUUID_idText, hempty, hemail, hretry, hjob, fitsText_retried,
        Bool.true_and, Bool.and_eq_true]
      grind only
  | declineInvitation token =>
      dsimp only [AuditLog.fits, Call.entry, Call.Fits]
      simp only [not_isUUID_token, Bool.and_false, Bool.false_and, and_false, Bool.false_eq_true]
  | authEvent event userID userEmail details =>
      dsimp only [AuditLog.fits, Call.entry, Call.names, Call.userID, Call.Fits]
      simp only [fitsNullableUUID_idText, hempty, userEmail.fits, hauth, event.fits_action,
        details.fits, Bool.true_and, Bool.and_eq_true, and_true]
      grind only
  | loginFailed email =>
      have hfailed : fitsColumn 50 "login_failed".toList = true := by decide +kernel
      have hdetails : fitsColumn 255 email = true →
          fitsText ("failed login attempt for email ".toList ++ email) = true :=
        fun h => fitsText_failedLogin (fitsColumn_iff.mp h).1
      dsimp only [AuditLog.fits, Call.entry, Call.names, Call.userID, Call.Fits]
      simp only [hempty, hauth, hfailed, Bool.true_and, Bool.and_true, Bool.and_eq_true]
      grind only
  | sso event userID email resourceID rest =>
      have hdetails : fitsColumn 255 email = true →
          fitsText ("email=".toList ++ email ++ ' ' :: rest.text) = true :=
        fun h => fitsText_sso (fitsColumn_iff.mp h).1 rest
      dsimp only [AuditLog.fits, Call.entry, Call.names, Call.userID, Call.Fits]
      simp only [fitsNullableUUID_idText, event.fits_names, Bool.true_and, Bool.and_true,
        Bool.and_eq_true]
      grind only

theorem recorded_iff_fits {call : Call} :
    Recorded ctx call ↔ (call.entry ctx).fits = true := by
  constructor
  · intro hrecorded
    by_contra hfits
    obtain ⟨row, hrow, -⟩ := hrecorded []
    rw [run_eq_create, create, if_neg hfits] at hrow
    exact List.cons_ne_nil _ _ hrow.symm
  · intro hfits logs
    refine ⟨call.entry ctx, ?_, rfl, rfl⟩
    rw [run_eq_create, create, if_pos hfits]

end Rows

/-- An ID. -/
def exampleID : ID :=
  ⟨"f47ac10b-58cc-4372-a567-0e02b2c3d479".toList, by decide +kernel⟩

/-- An account with its workspace. -/
def exampleAccount : Account :=
  ⟨some exampleID, ⟨"owner@example.com".toList, by decide +kernel⟩, some exampleID⟩

/-- A request with a user agent of 256 characters. -/
def longUserAgent : Request :=
  ⟨[], List.replicate 256 'a', "192.0.2.1:1234".toList⟩

/-- The deletion of a workspace. -/
def workspaceDeletion : Call :=
  .operation .workspaceDelete (some exampleID)
    ⟨"deleted workspace \"w\"".toList, by decide +kernel⟩

end Audit
end Veilence
