import Veilence.Go.Text
import Veilence.Mail.Headers

/-!
# The messages that are sent by e-mail

Three functions build the header section of a message by hand: two of the notifications, which
write the recipients without the name of the field, and the one of the system mailer, which writes
the first recipient.  None of them looks for ends of lines in what it is given.

Main results:

- Theorem {lit}`faithful_iff`: a message that is sent says what it was asked to say if and only if
  it is one of the system mailer with one recipient, and its addresses and its subject are clean.
- Theorem {lit}`notification_not_faithful`: a message of a notification.
-/

namespace Veilence
namespace Mail

open Go

/-! ## The senders -/

/-- {lit}`SMTPConfig`, of both packages. -/
structure SMTPConfig where
  host : GoString
  port : GoString
  username : GoString
  password : GoString
  sender : GoString
deriving DecidableEq

/-- {lit}`IsConfigured`. -/
def SMTPConfig.isConfigured (c : SMTPConfig) : Bool :=
  c.host ≠ [] ∧ c.port ≠ [] ∧ c.sender ≠ []

/-- {lit}`net.JoinHostPort`. -/
def joinHostPort (host port : GoString) : GoString :=
  if ':' ∈ host then '[' :: host ++ ']' :: ':' :: port else host ++ ':' :: port

/-- What is handed to the SMTP server. -/
structure Outgoing where
  addr : GoString
  auth : Option (GoString × GoString × GoString)
  implicitTLS : Bool
  sender : GoString
  recipients : List GoString
  msg : GoString
deriving DecidableEq

/-- {lit}`smtp.PlainAuth`, if there is a user name. -/
def plainAuth (host username password : GoString) : Option (GoString × GoString × GoString) :=
  if username ≠ [] then some (username, password, host) else none

/-- The lines of the subject and the content type, the empty line and the body. -/
def subjectAndBody (subject body : GoString) : GoString :=
  "Subject: ".toList ++ subject ++ "\r\n".toList ++ "MIME-Version: 1.0\r\n".toList ++
    "Content-Type: text/plain; charset=UTF-8\r\n".toList ++ "\r\n".toList ++ body

/-- The message of {lit}`SendNotificationEmail` and {lit}`SendChannelEmail`. -/
def notificationMessage (sender : GoString) (recipients : List GoString)
    (subject body : GoString) : GoString :=
  "From: ".toList ++ sender ++ "\r\n".toList ++ ", ".toList.intercalate recipients ++
    "\r\n".toList ++ subjectAndBody subject body

/-- {lit}`SendNotificationEmail`. -/
def sendNotificationEmail (config : SMTPConfig) (sender : GoString) (recipients : List GoString)
    (subject body : GoString) : Except GoString Outgoing :=
  if config.isConfigured = false then .error "SMTP not configured".toList
  else .ok {
    addr := joinHostPort config.host config.port
    auth := plainAuth config.host config.username config.password
    implicitTLS := config.port = "465".toList
    sender := sender
    recipients := recipients
    msg := notificationMessage sender recipients subject body }

/-- {lit}`SendChannelEmail`. -/
def sendChannelEmail (host port username password sender : GoString) (recipients : List GoString)
    (subject body : GoString) : Except GoString Outgoing :=
  if host = [] ∨ port = [] ∨ sender = [] then
    .error "channel SMTP config missing required fields (host, port, from)".toList
  else .ok {
    addr := joinHostPort host port
    auth := plainAuth host username password
    implicitTLS := port = "465".toList
    sender := sender
    recipients := recipients
    msg := notificationMessage sender recipients subject body }

/-- The message of {lit}`sendEmail` of the mailer. -/
def systemMessage (sender recipient subject body : GoString) : GoString :=
  "From: ".toList ++ sender ++ "\r\n".toList ++ "To: ".toList ++ recipient ++ "\r\n".toList ++
    subjectAndBody subject body

/-- {lit}`sendEmail` of the mailer, with at least one recipient. -/
def sendEmail (config : SMTPConfig) (recipient : GoString) (others : List GoString)
    (subject body : GoString) : Except GoString Outgoing :=
  if config.isConfigured = false then .error "mailer: SMTP not configured".toList
  else .ok {
    addr := joinHostPort config.host config.port
    auth := plainAuth config.host config.username config.password
    implicitTLS := config.port = "465".toList
    sender := config.sender
    recipients := recipient :: others
    msg := systemMessage config.sender recipient subject body }

/-- A call of one of the senders. -/
inductive SendCall where
  | notification (config : SMTPConfig) (sender : GoString)
  | channel (host port username password sender : GoString)
  | system (config : SMTPConfig)
deriving DecidableEq

/-- The sender that the caller has given. -/
def SendCall.sender : SendCall → GoString
  | .notification _ sender => sender
  | .channel _ _ _ _ sender => sender
  | .system config => config.sender

/-- A call of the system mailer. -/
def SendCall.isSystem : SendCall → Bool
  | .system _ => true
  | _ => false

/-- Carry out a call for at least one recipient. -/
def SendCall.send (recipient : GoString) (others : List GoString) (subject body : GoString) :
    SendCall → Except GoString Outgoing
  | .notification config sender =>
      sendNotificationEmail config sender (recipient :: others) subject body
  | .channel host port username password sender =>
      sendChannelEmail host port username password sender (recipient :: others) subject body
  | .system config => sendEmail config recipient others subject body

/-! ## What a message says -/

/-- The fields that a message is to have. -/
def expectedFields (sender : GoString) (recipients : List GoString) (subject : GoString) :
    List Field :=
  [⟨"From".toList, sender⟩, ⟨"To".toList, ", ".toList.intercalate recipients⟩,
    ⟨"Subject".toList, subject⟩, ⟨"MIME-Version".toList, "1.0".toList⟩,
    ⟨"Content-Type".toList, "text/plain; charset=UTF-8".toList⟩]

/-- A message is read as the fields and the body that it was to have. -/
def Faithful (msg sender : GoString) (recipients : List GoString) (subject body : GoString) :
    Prop :=
  parse msg = some ⟨expectedFields sender recipients subject, some body⟩

instance (msg sender : GoString) (recipients : List GoString) (subject body : GoString) :
    Decidable (Faithful msg sender recipients subject body) :=
  inferInstanceAs (Decidable (_ = _))

section Reading

variable {msg sender recipient subject body : GoString} {recipients others : List GoString}

/-- What a faithful message says is clean. -/
theorem clean_of_faithful (hfaithful : Faithful msg sender recipients subject body) :
    Clean sender ∧ Clean (", ".toList.intercalate recipients) ∧ Clean subject := by
  refine ⟨?_, ?_, ?_⟩
  · exact clean_of_parse hfaithful (f := ⟨"From".toList, sender⟩) (by simp [expectedFields])
  · exact clean_of_parse hfaithful
      (f := ⟨"To".toList, ", ".toList.intercalate recipients⟩) (by simp [expectedFields])
  · exact clean_of_parse hfaithful (f := ⟨"Subject".toList, subject⟩) (by simp [expectedFields])

/-- The names of the fields. -/
theorem isName_expected {f : Field} (hf : f ∈ expectedFields sender recipients subject) :
    IsName f.name := by
  have hnames : ∀ name ∈ ["From".toList, "To".toList, "Subject".toList, "MIME-Version".toList,
      "Content-Type".toList], IsName name := by
    simp only [List.forall_mem_cons]
    exact ⟨by decide, by decide, by decide, by decide, by decide, nofun⟩
  apply hnames
  exact List.mem_map_of_mem (f := Field.name) hf

/-- The values of the fields are clean if the given ones are. -/
theorem clean_expected (hsender : Clean sender)
    (hrecipients : Clean (", ".toList.intercalate recipients)) (hsubject : Clean subject)
    {f : Field} (hf : f ∈ expectedFields sender recipients subject) : Clean f.value := by
  simp only [expectedFields, List.mem_cons, List.not_mem_nil, or_false] at hf
  rcases hf with rfl | rfl | rfl | rfl | rfl
  · exact hsender
  · exact hrecipients
  · exact hsubject
  · exact (by decide : Clean "1.0".toList)
  · exact (by decide : Clean "text/plain; charset=UTF-8".toList)

/-- A message of the mailer with clean parts is read as its fields. -/
theorem parse_systemMessage (body : Text) (hsender : Clean sender) (hrecipient : Clean recipient)
    (hsubject : Clean subject) : parse (systemMessage sender recipient subject body) =
      some ⟨expectedFields sender [recipient] subject, some body⟩ := by
  have hrender : systemMessage sender recipient subject body =
      render ((expectedFields sender [recipient] subject).map Field.line) body := by
    unfold systemMessage subjectAndBody render expectedFields Field.line crlf
    simp [List.intercalate]
  rw [hrender]
  apply parse_lines
  intro f hf
  refine ⟨isName_expected hf, clean_expected hsender ?_ hsubject hf⟩
  simpa [List.intercalate] using hrecipient

/-- The first recipient is a part of all of them. -/
theorem recipient_subset :
    recipient ⊆ ", ".toList.intercalate (recipient :: others) := by
  cases others with
  | nil => simp [List.intercalate]
  | cons other others =>
      intro c hc
      simp [List.intercalate, List.intersperse, hc]

/-- The first recipient is all of them only if it is the only one. -/
theorem others_eq_nil (hall : recipient = ", ".toList.intercalate (recipient :: others)) :
    others = [] := by
  cases others with
  | nil => rfl
  | cons other others =>
      have hlength := congrArg List.length hall
      simp [List.intercalate, List.intersperse] at hlength

/-- A message of the mailer is faithful if it has one recipient and clean parts. -/
theorem faithful_system_iff :
    Faithful (systemMessage sender recipient subject body) sender (recipient :: others) subject
        body ↔
      others = [] ∧ Clean sender ∧ Clean recipient ∧ Clean subject := by
  constructor
  · intro hfaithful
    obtain ⟨hsender, hall, hsubject⟩ := clean_of_faithful hfaithful
    have hrecipient := hall.of_subset recipient_subset
    have hparse := parse_systemMessage body hsender hrecipient hsubject
    have hsame := Option.some.inj (hparse.symm.trans hfaithful)
    have hto : recipient = ", ".toList.intercalate (recipient :: others) := by
      simpa [expectedFields, List.intercalate] using hsame
    exact ⟨others_eq_nil hto, hsender, hrecipient, hsubject⟩
  · rintro ⟨rfl, hsender, hrecipient, hsubject⟩
    exact parse_systemMessage body hsender hrecipient hsubject

/-- The lines of a message of the notifications with clean parts.  Without a text for the
recipients the header section ends after the sender. -/
theorem splitHeader_notification (hsender : Clean sender)
    (hrecipients : Clean (", ".toList.intercalate recipients)) (hsubject : Clean subject) :
    splitHeader [] (notificationMessage sender recipients subject body) =
      if ", ".toList.intercalate recipients = [] then
        some ([Field.line ⟨"From".toList, sender⟩], some (subjectAndBody subject body))
      else some (Field.line ⟨"From".toList, sender⟩ :: ", ".toList.intercalate recipients ::
        (expectedFields sender recipients subject).tail.tail.map Field.line, some body) := by
  have hfrom := notMem_line (f := ⟨"From".toList, sender⟩)
    (by decide : IsName "From".toList) hsender
  have hmsg : notificationMessage sender recipients subject body =
      Field.line ⟨"From".toList, sender⟩ ++ crlf ++
        (", ".toList.intercalate recipients ++ crlf ++ subjectAndBody subject body) := by
    unfold notificationMessage Field.line crlf
    simp
  have hrest : subjectAndBody subject body =
      render ((expectedFields sender recipients subject).tail.tail.map Field.line) body := by
    unfold subjectAndBody render expectedFields Field.line crlf
    simp
  have hlines : splitHeader [] (subjectAndBody subject body) =
      some ((expectedFields sender recipients subject).tail.tail.map Field.line, some body) := by
    rw [hrest]
    apply splitHeader_render
    intro line hline
    obtain ⟨f, hf, rfl⟩ := List.mem_map.mp hline
    have hmem := List.mem_of_mem_tail (List.mem_of_mem_tail hf)
    exact notMem_line (isName_expected hmem)
      (clean_expected hsender hrecipients hsubject hmem)
  rw [hmsg, splitHeader_first hfrom.1 hfrom.2]
  by_cases hempty : ", ".toList.intercalate recipients = []
  · rw [if_pos hempty, hempty, List.nil_append, splitHeader_empty]
    rfl
  · rw [if_neg hempty, splitHeader_first hrecipients.notMem hempty, hlines]
    rfl

/-- The recipients in a line without a name are not read as the field of the recipients. -/
theorem not_faithful_notification :
    ¬Faithful (notificationMessage sender recipients subject body) sender recipients subject
      body := by
  intro hfaithful
  obtain ⟨hsender, hrecipients, hsubject⟩ := clean_of_faithful hfaithful
  obtain ⟨lines, fields, hsplit, hunfold, hfields⟩ := parse_eq_some hfaithful
  have hforall := forall₂_of_parseFields hfields
  have hcount : fields.length = 5 := hforall.length_eq
  rw [splitHeader_notification hsender hrecipients hsubject] at hsplit
  unfold expectedFields at hforall
  generalize ", ".toList.intercalate recipients = all at hrecipients hsplit hforall
  split_ifs at hsplit with hempty
  · -- the empty line ends the header section after the sender
    obtain ⟨rfl, -⟩ := Prod.mk.inj (Option.some.inj hsplit)
    have hfrom := unfoldLines_of_not_continues
      [Field.line ⟨"From".toList, sender⟩] (fun line hline => by
        rw [List.mem_singleton.mp hline]
        exact continues_line (by decide : IsName "From".toList))
    obtain rfl := Option.some.inj (hfrom.symm.trans hunfold)
    simp at hcount
  · obtain ⟨rfl, -⟩ := Prod.mk.inj (Option.some.inj hsplit)
    cases hcontinues : continues all with
    | true =>
        -- the recipients continue the line of the sender
        have hfewer := length_unfoldLines_lt hunfold
          (List.mem_cons_of_mem _ List.mem_cons_self) hcontinues
        rw [hcount] at hfewer
        simp [expectedFields] at hfewer
    | false =>
        -- the value of a field is shorter than its line
        have hall := unfoldLines_of_not_continues
          (Field.line ⟨"From".toList, sender⟩ :: all ::
            (expectedFields sender recipients subject).tail.tail.map Field.line) (fun line hline => by
            rcases List.mem_cons.mp hline with rfl | hrest
            · exact continues_line (by decide : IsName "From".toList)
            · rcases List.mem_cons.mp hrest with rfl | hlast
              · exact hcontinues
              · obtain ⟨f, hf, rfl⟩ := List.mem_map.mp hlast
                exact continues_line (isName_expected (List.mem_of_mem_tail
                  (List.mem_of_mem_tail hf))))
        obtain rfl := Option.some.inj (hall.symm.trans hunfold)
        cases hforall with
        | cons _ hrest =>
            cases hrest with
            | cons hline _ => exact absurd (of_parseField hline).2 (Nat.lt_irrefl _)

end Reading

/-- A message that a sender hands to the server for at least one recipient is read as what it was
to say if and only if it comes from the system mailer, there is one recipient, and the sender, the
recipient and the subject are printable ASCII. -/
theorem faithful_iff (call : SendCall) (recipient : GoString) (others : List GoString)
    (subject body : GoString) (out : Outgoing)
    (hsend : call.send recipient others subject body = .ok out) :
    Faithful out.msg call.sender (recipient :: others) subject body ↔
      call.isSystem = true ∧ others = [] ∧ Clean call.sender ∧ Clean recipient ∧
        Clean subject := by
  cases call with
  | notification config sender =>
      simp only [SendCall.send, sendNotificationEmail] at hsend
      split_ifs at hsend
      obtain rfl := Except.ok.inj hsend
      exact iff_of_false not_faithful_notification fun h => Bool.false_ne_true h.1
  | channel host port username password sender =>
      simp only [SendCall.send, sendChannelEmail] at hsend
      split_ifs at hsend
      obtain rfl := Except.ok.inj hsend
      exact iff_of_false not_faithful_notification fun h => Bool.false_ne_true h.1
  | system config =>
      simp only [SendCall.send, sendEmail] at hsend
      split_ifs at hsend
      obtain rfl := Except.ok.inj hsend
      exact faithful_system_iff.trans (and_iff_right rfl).symm

/-! ## A message of a notification -/

/-- A server. -/
def exampleConfig : SMTPConfig where
  host := "h".toList
  port := "25".toList
  username := []
  password := []
  sender := "a@x".toList

/-- A message of the mailer to one recipient. -/
theorem faithful_iff_system :
    Faithful (systemMessage "a@x".toList "b@x".toList "s".toList "t".toList) "a@x".toList
      ["b@x".toList] "s".toList "t".toList :=
  (faithful_iff (.system exampleConfig) "b@x".toList [] "s".toList "t".toList _ rfl).mpr
    (by decide)

/-- A message of a notification is no message: the line of the recipients is no field. -/
theorem notification_not_faithful :
    sendNotificationEmail exampleConfig "a@x".toList ["b@x".toList] "s".toList "t".toList =
        .ok ⟨"h:25".toList, none, false, "a@x".toList, ["b@x".toList],
          notificationMessage "a@x".toList ["b@x".toList] "s".toList "t".toList⟩ ∧
      parse (notificationMessage "a@x".toList ["b@x".toList] "s".toList "t".toList) = none ∧
      ¬Faithful (notificationMessage "a@x".toList ["b@x".toList] "s".toList "t".toList)
        "a@x".toList ["b@x".toList] "s".toList "t".toList :=
  ⟨rfl, by decide +kernel, by decide +kernel⟩

end Mail
end Veilence
