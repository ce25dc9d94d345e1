import Veilence.Auth.Database
import Veilence.Go.Text

/-!
# The audit log

Handlers tell the audit service what was done, and it adds a row with the user, the workspace, the
remote address, the user agent and the correlation ID of the request.  Two middlewares take the last
three from the request as they are.  A row that the columns do not take is logged as an error and
lost; the handler does not hear of it.

The calls of the service are listed here with the values that they pass: IDs and texts that the
database holds already, or a text that a client or an identity provider has sent.
-/

namespace Veilence
namespace Audit

open Go Auth

/-! ## Columns -/

/-- A hexadecimal digit. -/
def isHexDigit (c : Char) : Bool :=
  byteIn 0x30 0x39 c || byteIn 0x41 0x46 c || byteIn 0x61 0x66 c

/-- The text without a hyphen in front. -/
def skipHyphen : GoString → GoString
  | '-' :: s => s
  | s => s

/-- Read so many groups of four digits, with a hyphen or none between two of them. -/
def readGroups : Nat → GoString → Option GoString
  | 0, s => some s
  | n + 1, a :: b :: c :: d :: s =>
      if [a, b, c, d].all isHexDigit then readGroups n (if n = 0 then s else skipHyphen s)
      else none
  | _ + 1, _ => none

/-- What a {lit}`UUID` column takes: eight groups, in braces or not. -/
def isUUID : GoString → Bool
  | '\x7b' :: s => readGroups 8 s = some ['\x7d']
  | s => readGroups 8 s = some []

/-- What a {lit}`UUID` column takes if the empty text is stored as {lit}`NULL`,
{lit}`strToNullableUUID`. -/
def fitsNullableUUID (s : GoString) : Bool :=
  s = [] || isUUID s

/-- What a {lit}`TEXT` column takes. -/
def fitsText (s : GoString) : Bool :=
  utf8Valid s && !s.contains '\x00'

/-! ## Rows -/

/-- {lit}`AuditLog`. -/
structure AuditLog where
  userID : GoString
  userEmail : GoString
  workspaceID : GoString
  action : GoString
  resource : GoString
  resourceID : GoString
  details : GoString
  ipAddress : GoString
  userAgent : GoString
  correlationID : GoString
deriving DecidableEq

/-- The columns take the values of a row. -/
def AuditLog.fits (entry : AuditLog) : Bool :=
  fitsNullableUUID entry.userID && fitsColumn 255 entry.userEmail &&
    fitsNullableUUID entry.workspaceID && fitsColumn 50 entry.action &&
    fitsColumn 50 entry.resource && fitsNullableUUID entry.resourceID &&
    fitsText entry.details && fitsColumn 45 entry.ipAddress && fitsColumn 255 entry.userAgent &&
    fitsColumn 36 entry.correlationID

/-- {lit}`Create` of the repository.  The caller logs its error and goes on. -/
def create (logs : List AuditLog) (entry : AuditLog) : List AuditLog :=
  if entry.fits then entry :: logs else logs

/-! ## Values that the database holds -/

/-- The text of an ID. -/
structure ID where
  text : GoString
  isUUID : isUUID text = true

/-- The text of an ID or no ID. -/
def idText : Option ID → GoString
  | none => []
  | some id => id.text

/-- The e-mail address of an account, or none. -/
structure AccountEmail where
  text : GoString
  fits : fitsColumn 255 text = true

/-- A text that the database holds, or that is made of such texts. -/
structure StoredText where
  text : GoString
  fits : fitsText text = true

/-- {lit}`generateToken`: the token of an invitation, 64 hexadecimal digits. -/
structure InvitationToken where
  text : GoString
  length_eq : text.length = 64
  digits : text.all isHexDigit = true

/-! ## Requests -/

/-- What the middlewares read of a request; a header that is absent is empty. -/
structure Request where
  correlationID : GoString
  userAgent : GoString
  remoteAddr : GoString

/-- The user and the workspace of a request, as far as it has them. -/
structure Account where
  userID : Option ID
  email : AccountEmail
  workspaceID : Option ID

/-- The values that the service reads from the context of a request. -/
structure Context where
  account : Account
  correlationID : GoString
  ipAddress : GoString
  userAgent : GoString

/-- The context before the middlewares. -/
def Context.of (account : Account) : Context :=
  ⟨account, [], [], []⟩

/-- Two hexadecimal digits. -/
def hexByte (b : UInt8) : GoString :=
  [Nat.digitChar (b.toNat / 16), Nat.digitChar (b.toNat % 16)]

/-- {lit}`generateUUID`. -/
def generateUUID (random : Fin 16 → UInt8) : GoString :=
  let b : Fin 16 → UInt8 := fun i =>
    if i = 6 then (random i &&& 0x0f) ||| 0x40
    else if i = 8 then (random i &&& 0x3f) ||| 0x80
    else random i
  let hex : List (Fin 16) → GoString := fun is => is.flatMap fun i => hexByte (b i)
  join '-' [hex [0, 1, 2, 3], hex [4, 5], hex [6, 7], hex [8, 9], hex [10, 11, 12, 13, 14, 15]]

/-- {lit}`CorrelationMiddleware`. -/
def correlationMiddleware (random : Fin 16 → UInt8) (r : Request) (ctx : Context) : Context :=
  { ctx with
    correlationID := if r.correlationID = [] then generateUUID random else r.correlationID }

/-- {lit}`RequestCaptureMiddleware`. -/
def requestCaptureMiddleware (r : Request) (ctx : Context) : Context :=
  { ctx with ipAddress := r.remoteAddr, userAgent := r.userAgent }

/-- The context that the handlers get. -/
def contextOf (random : Fin 16 → UInt8) (r : Request) (account : Account) : Context :=
  requestCaptureMiddleware r (correlationMiddleware random r (.of account))

/-! ## The service -/

/-- {lit}`LogAction`. -/
def logAction (ctx : Context) (action resource resourceID details : GoString)
    (logs : List AuditLog) : List AuditLog :=
  create logs
    { userID := idText ctx.account.userID
      userEmail := ctx.account.email.text
      workspaceID := idText ctx.account.workspaceID
      action := action
      resource := resource
      resourceID := resourceID
      details := details
      ipAddress := ctx.ipAddress
      userAgent := ctx.userAgent
      correlationID := ctx.correlationID }

/-- {lit}`LogAuthEvent`. -/
def logAuthEvent (ctx : Context) (action userID userEmail details : GoString)
    (logs : List AuditLog) : List AuditLog :=
  create logs
    { userID := userID
      userEmail := userEmail
      workspaceID := []
      action := action
      resource := "auth".toList
      resourceID := userID
      details := details
      ipAddress := ctx.ipAddress
      userAgent := ctx.userAgent
      correlationID := ctx.correlationID }

/-- {lit}`LogActionWithUser`. -/
def logActionWithUser (ctx : Context)
    (userID userEmail action resource resourceID details : GoString) (logs : List AuditLog) :
    List AuditLog :=
  create logs
    { userID := userID
      userEmail := userEmail
      workspaceID := idText ctx.account.workspaceID
      action := action
      resource := resource
      resourceID := resourceID
      details := details
      ipAddress := ctx.ipAddress
      userAgent := ctx.userAgent
      correlationID := ctx.correlationID }

/-! ## The calls -/

/-- The operations that are logged with IDs and texts that the database holds. -/
inductive Operation where
  | alertUpdate
  | packageCreate
  | packageBlock
  | packageUnblock
  | packageRemove
  | packageApprove
  | packageReject
  | packageBulkApprove
  | packageBulkApproveAll
  | packageDiscover
  | packageImport
  | alertNoteCreate
  | alertNoteUpdate
  | alertNoteDelete
  | channelCreate
  | channelUpdate
  | channelDelete
  | channelTest
  | ruleCreate
  | ruleDelete
  | notificationDelete
  | releaseReanalyze
  | settingUpdate
  | memberAdd
  | memberInvite
  | memberAccept
  | memberUpdate
  | memberRemove
  | invitationDecline
  | invitationRevoke
  | invitationResend
  | queueRetry
  | workspaceCreate
  | workspaceUpdate
  | workspaceDelete
  | userAdminUpdate
  | userCreate
  | userUpdate
  | passwordReset
  | passwordUpdate
  | sessionRevoke
  | apiKeyCreate
  | apiKeyRevoke
  | identityUnlink
  | ssoConfigCreate
  | ssoConfigUpdate
  | ssoConfigDelete
  | authSettingsUpdate
deriving DecidableEq

/-- The action and the resource of an operation. -/
def Operation.names : Operation → String × String
  | .alertUpdate => ("update", "alert")
  | .packageCreate => ("create", "package")
  | .packageBlock => ("block", "package")
  | .packageUnblock => ("unblock", "package")
  | .packageRemove => ("remove", "package")
  | .packageApprove => ("approve", "package")
  | .packageReject => ("reject", "package")
  | .packageBulkApprove => ("bulk_approve", "package")
  | .packageBulkApproveAll => ("bulk_approve_all", "package")
  | .packageDiscover => ("discover", "package")
  | .packageImport => ("import", "package")
  | .alertNoteCreate => ("create", "alert_note")
  | .alertNoteUpdate => ("update", "alert_note")
  | .alertNoteDelete => ("delete", "alert_note")
  | .channelCreate => ("create", "notification_channel")
  | .channelUpdate => ("update", "notification_channel")
  | .channelDelete => ("delete", "notification_channel")
  | .channelTest => ("test", "notification_channel")
  | .ruleCreate => ("create", "notification_rule")
  | .ruleDelete => ("delete", "notification_rule")
  | .notificationDelete => ("delete", "notification")
  | .releaseReanalyze => ("reanalyze", "release")
  | .settingUpdate => ("update", "workspace_setting")
  | .memberAdd => ("add", "member")
  | .memberInvite => ("invite", "member")
  | .memberAccept => ("accept", "member")
  | .memberUpdate => ("update", "member")
  | .memberRemove => ("remove", "member")
  | .invitationDecline => ("decline", "invitation")
  | .invitationRevoke => ("revoke", "invitation")
  | .invitationResend => ("resend", "invitation")
  | .queueRetry => ("retry", "queue_job")
  | .workspaceCreate => ("create", "workspace")
  | .workspaceUpdate => ("update", "workspace")
  | .workspaceDelete => ("delete", "workspace")
  | .userAdminUpdate => ("admin.update", "user")
  | .userCreate => ("create", "user")
  | .userUpdate => ("update", "user")
  | .passwordReset => ("reset", "password")
  | .passwordUpdate => ("update", "password")
  | .sessionRevoke => ("revoke", "session")
  | .apiKeyCreate => ("create", "api_key")
  | .apiKeyRevoke => ("revoke", "api_key")
  | .identityUnlink => ("sso.identity_unlink", "user_identity")
  | .ssoConfigCreate => ("sso.config_create", "sso_config")
  | .ssoConfigUpdate => ("sso.config_update", "sso_config")
  | .ssoConfigDelete => ("sso.config_delete", "sso_config")
  | .authSettingsUpdate => ("sso.auth_settings_update", "auth_settings")

/-- The action of an operation. -/
def Operation.action (op : Operation) : GoString :=
  op.names.1.toList

/-- The resource of an operation. -/
def Operation.resource (op : Operation) : GoString :=
  op.names.2.toList

/-- The events that {lit}`LogAuthEvent` is called for with the values of an account. -/
inductive AuthEvent where
  | login
  | logout
  | verifyEmail
deriving DecidableEq

/-- The action of an event. -/
def AuthEvent.action : AuthEvent → GoString
  | .login => "login".toList
  | .logout => "logout".toList
  | .verifyEmail => "verify_email".toList

/-- The events of the SSO service, which are logged with the e-mail address that the identity
provider names. -/
inductive SsoEvent where
  | identityLinkFailed
  | loginFailed
  | loginSuccess
  | userCreate
  | sloInitiate
  | identityLink
deriving DecidableEq

/-- The action of an event. -/
def SsoEvent.action : SsoEvent → GoString
  | .identityLinkFailed => "sso.identity_link_failed".toList
  | .loginFailed => "sso.login_failed".toList
  | .loginSuccess => "sso.login_success".toList
  | .userCreate => "user.sso_create".toList
  | .sloInitiate => "user.slo_initiate".toList
  | .identityLink => "sso.identity_link".toList

/-- The resource of an event. -/
def SsoEvent.resource : SsoEvent → GoString
  | .loginFailed | .loginSuccess => "auth".toList
  | .userCreate | .sloInitiate => "user".toList
  | .identityLinkFailed | .identityLink => "user_identity".toList

/-- The calls of the audit service.  The type of a retry comes from the query of the request, the
token of a declined invitation from its path, and the e-mail address of a failed login from its
body. -/
inductive Call where
  | operation (op : Operation) (resourceID : Option ID) (details : StoredText)
  | retryDeadJobs (count : Nat) (jobType : GoString)
  | declineInvitation (token : InvitationToken)
  | authEvent (event : AuthEvent) (userID : Option ID) (userEmail : AccountEmail)
      (details : StoredText)
  | loginFailed (email : GoString)
  | sso (event : SsoEvent) (userID : Option ID) (email : GoString) (resourceID : Option ID)
      (rest : StoredText)

/-- What a handler does to the log. -/
def Call.run (ctx : Context) : Call → List AuditLog → List AuditLog
  | .operation op resourceID details =>
      logAction ctx op.action op.resource (idText resourceID) details.text
  | .retryDeadJobs count jobType =>
      logAction ctx "retry".toList "queue_job".toList []
        ("retried ".toList ++ itoa count ++ " dead ".toList ++ jobType ++ " jobs".toList)
  | .declineInvitation token =>
      logAction ctx "decline".toList "invitation".toList token.text
        ("declined invitation by token for ".toList ++ ctx.account.email.text)
  | .authEvent event userID userEmail details =>
      logAuthEvent ctx event.action (idText userID) userEmail.text details.text
  | .loginFailed email =>
      logAuthEvent ctx "login_failed".toList [] email
        ("failed login attempt for email ".toList ++ email)
  | .sso event userID email resourceID rest =>
      logActionWithUser ctx (idText userID) email event.action event.resource (idText resourceID)
        ("email=".toList ++ email ++ ' ' :: rest.text)

end Audit
end Veilence
