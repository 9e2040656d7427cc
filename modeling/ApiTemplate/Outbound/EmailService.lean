import ApiTemplate.Fallible.Results
import ApiTemplate.Identity.UserConfirmationService
import ApiTemplate.Stream.PosixPath

/-!
# Mail

`EmailService.send_email` builds the messages of all recipients first and then sends them together,
each on its own. What goes wrong at sending is logged; what goes wrong while a message is built is
raised, and no message is sent. The handlers of the identity events mail through it.
-/

namespace ApiTemplate.Outbound.EmailService

open Fallible Identity

/-! ## What the service uses -/

/-- `SmtpConfig` -/
structure SmtpConfig where
  host : Option String
  port : ℤ
  username : Option String
  password : Option String
  timeout : ℤ

/-- What can be raised: by what is used here, or by unpacking a type without `/`. -/
inductive Exn (E : Type)
  | raised (e : E)
  | valueError

/-- The arguments of `aiosmtplib.send`. -/
structure SendArgs (M : Type) where
  message : M
  hostname : Option String
  port : ℤ
  username : Option String
  password : Option String
  useTls : Bool
  startTls : Bool
  timeout : ℤ

/-- `email.message`, `mimetypes`, the files and the mail server. Files are read at the turn of a
recipient, and each message is sent on its own. -/
structure Host (M B E : Type) where
  emailMessage : M
  setHeader : M → String → String → Except (Exn E) M
  setContent : M → String → String → Except (Exn E) M
  addAttachment : M → B → String → String → String → Except (Exn E) M
  guessType : String → Option String × Option String
  readBytes : ℕ → PosixPath → Except (Exn E) B
  send : ℕ → SendArgs M → Except (Exn E) Unit

/-- `str | List[str]`, and the same of paths. -/
inductive OneOrMany
  | one (s : String)
  | many (ss : List String)

def OneOrMany.toList : OneOrMany → List String
  | one s => [s]
  | many ss => ss

variable {M B E : Type}

/-! ## `email_service.py` -/

structure LogRecord (E : Type) where
  message : String
  recipient : String
  subject : String
  excInfo : Exn E

/-- What was handed to the mail server and what was logged. -/
structure World (M E : Type) where
  attempted : List (SendArgs M) := []
  logs : List (LogRecord E) := []

abbrev Py (M E α : Type) : Type := EStateM (Exn E) (World M E) α

variable (config : SmtpConfig) (host : Host M B E)

/-- `ctype.split("/", 1)`, unpacked. -/
def splitType (ctype : String) : Except (Exn E) (String × String) :=
  let cs := ctype.toList
  if '/' ∈ cs then
    .ok (String.ofList (cs.takeWhile (· ≠ '/')),
      String.ofList ((cs.dropWhile (· ≠ '/')).drop 1))
  else .error .valueError

/-- One turn of the loop of `_add_attachments`. -/
def addAttachment (turn : ℕ) (msg : M) (attachment : String) : Except (Exn E) M := do
  let path := PosixPath.parse attachment.toList
  let guessed := host.guessType (String.ofList path.asPosix)
  let ctype := match guessed with
    | (some ctype, none) => ctype
    | _ => "application/octet-stream"
  let (maintype, subtype) ← splitType ctype
  let data ← host.readBytes turn path
  host.addAttachment msg data maintype subtype (String.ofList (path.parts.getLast?.getD []))

/-- `_add_attachments` -/
def addAttachments (turn : ℕ) (msg : M) (attachments : List String) : Except (Exn E) M :=
  attachments.foldlM (addAttachment host turn) msg

/-- What is asked for. -/
structure Mail where
  dest : OneOrMany
  subject : String
  content : String
  subtype : String
  attachments : Option OneOrMany := none

/-- The body of the loop over the recipients, for the one at `turn`. -/
def buildMessage (mail : Mail) (turn : ℕ) (d : String) : Except (Exn E) M := do
  let message := host.emailMessage
  let message ← host.setHeader message "From" ("Anbor <" ++ config.username.getD "None" ++ "> ")
  let message ← host.setHeader message "To" d
  let message ← host.setHeader message "Subject" mail.subject
  let message ← host.setContent message mail.content mail.subtype
  match mail.attachments with
  | none => pure message
  | some attachments => addAttachments host turn message attachments.toList

/-- What `_send_email` hands to `aiosmtplib`. -/
def sendArgs (message : M) : SendArgs M where
  message := message
  hostname := config.host
  port := config.port
  username := config.username
  password := config.password
  useTls := config.port = 465
  startTls := config.port = 587
  timeout := config.timeout

/-- `asyncio.gather(*tasks, return_exceptions=True)`: every message is sent, whatever becomes of
the others. -/
def gather (tasks : List M) : Py M E (List (Except (Exn E) Unit)) := do
  let args := tasks.map (sendArgs config)
  modify fun w => { w with attempted := w.attempted ++ args }
  return args.zipIdx.map fun task => host.send task.2 task.1

/-- The loop over the results. -/
def logFailures (subject : String) : List (String × Except (Exn E) Unit) → Py M E Unit
  | [] => pure ()
  | (d, result) :: rest => do
    match result with
    | .ok () => pure ()
    | .error e =>
      modify fun w => { w with logs := w.logs ++ [{
        message := "Email sent failed with error"
        recipient := d
        subject := subject
        excInfo := e }] }
    logFailures subject rest

/-- The messages of the recipients, in order. -/
def buildMessages (mail : Mail) : Except (Exn E) (List M) :=
  mail.dest.toList.zipIdx.mapM fun d => buildMessage config host mail d.2 d.1

def sendEmail (mail : Mail) : Py M E Unit := do
  match buildMessages config host mail with
  | .error e => throw e
  | .ok tasks =>
    let results ← gather config host tasks
    logFailures mail.subject (mail.dest.toList.zip results)

/-! ## `mail_templates.py` -/

/-- `html.escape` -/
def escape (text : String) : String :=
  String.ofList (text.toList.flatMap fun c =>
    if c = '&' then "&amp;".toList
    else if c = '<' then "&lt;".toList
    else if c = '>' then "&gt;".toList
    else if c = '"' then "&quot;".toList
    else if c = '\'' then "&#x27;".toList
    else [c])

def wrap (title body : String) : String :=
  "<html><body style=\"font-family:system-ui,sans-serif;line-height:1.5\">" ++
    "<h2>" ++ escape title ++ "</h2>" ++ body ++ "</body></html>"

def confirmationCodeEmail (fullName code : String) (ttlMinutes : ℤ) : String :=
  wrap "Confirm your email"
    ("<p>Hi " ++ escape fullName ++ ",</p>" ++
      "<p>Your confirmation code is <b style='font-size:20px'>" ++ escape code ++ "</b>.</p>" ++
      "<p>It expires in " ++ toString ttlMinutes ++ " minutes.</p>")

def passwordResetCodeEmail (code : String) (ttlMinutes : ℤ) : String :=
  wrap "Reset your password"
    ("<p>Your password reset code is <b style='font-size:20px'>" ++ escape code ++ "</b>.</p>" ++
      "<p>It expires in " ++ toString ttlMinutes ++
      " minutes. If you did not request it, ignore this email.</p>")

def passwordChangedEmail (fullName : String) : String :=
  wrap "Your password was changed"
    ("<p>Hi " ++ escape fullName ++ ",</p>" ++
      "<p>Your password has just been changed. If this was not you, contact support " ++
      "immediately.</p>")

/-! ## `user_event_handlers.py` -/

/-- The mail of an event; the confirmation of an address is only written to the log. -/
def mailOf : DomainEvent → Option Mail
  | .userRegistered _ recipient otpCode fullName => some {
      dest := .one recipient
      subject := "Confirm your email"
      content := confirmationCodeEmail fullName otpCode (otpTtlMinutes .emailConfirmation)
      subtype := "html" }
  | .userEmailConfirmed _ _ => none
  | .forgotPasswordStep1 _ recipient otpCode => some {
      dest := .one recipient
      subject := "Password reset code"
      content := passwordResetCodeEmail otpCode (otpTtlMinutes .forgotPassword)
      subtype := "html" }
  | .forgotPasswordStep2 _ recipient _ fullName => some {
      dest := .one recipient
      subject := "Your password was changed"
      content := passwordChangedEmail fullName
      subtype := "html" }

/-- The handler of the event. -/
def handle (event : DomainEvent) : Py M E Unit :=
  match mailOf event with
  | none => pure ()
  | some mail => sendEmail config host mail

/-! ## Isolation -/

/-- The record of a failed recipient. -/
def failure (subject : String) : String × Except (Exn E) Unit → Option (LogRecord E)
  | (_, .ok ()) => none
  | (d, .error e) => some {
      message := "Email sent failed with error"
      recipient := d
      subject := subject
      excInfo := e }

/-- What becomes of the recipient at a turn: its own message is built and sent. -/
def outcome (mail : Mail) (d : String × ℕ) : Except (Exn E) Unit := do
  let message ← buildMessage config host mail d.2 d.1
  host.send d.2 (sendArgs config message)

/-- `send_email` returns, hands on each message that can be built and logs each recipient that
failed. -/
def Isolated (mail : Mail) : Prop :=
  ∀ w, ∃ w', sendEmail config host mail w = .ok () w' ∧
    w'.attempted = w.attempted ++ mail.dest.toList.zipIdx.filterMap (fun d =>
      (buildMessage config host mail d.2 d.1).toOption.map (sendArgs config)) ∧
    w'.logs = w.logs ++ mail.dest.toList.zipIdx.filterMap (fun d =>
      failure mail.subject (d.1, outcome config host mail d))

/-- The messages of all recipients can be built. -/
def Buildable (mail : Mail) : Prop :=
  ∀ d ∈ mail.dest.toList.zipIdx, ∃ message, buildMessage config host mail d.2 d.1 = .ok message

section

variable {α β : Type}

theorem zipIdx_map_zipIdx (l : List α) (f : α × ℕ → β) (n : ℕ) :
    ((l.zipIdx n).map f).zipIdx n = (l.zipIdx n).map fun p => (f p, p.2) := by
  induction l generalizing n with
  | nil => rfl
  | cons a l ih => simp [List.zipIdx_cons, ih]

theorem zip_map_zipIdx (l : List α) (f : α × ℕ → β) (n : ℕ) :
    l.zip ((l.zipIdx n).map f) = (l.zipIdx n).map fun p => (p.1, f p) := by
  induction l generalizing n with
  | nil => rfl
  | cons a l ih => simp [List.zipIdx_cons, ih]

end

variable {config host} {mail : Mail}

theorem logFailures_ok (subject : String) (results : List (String × Except (Exn E) Unit))
    (w : World M E) :
    logFailures subject results w =
      .ok () { w with logs := w.logs ++ results.filterMap (failure subject) } := by
  induction results generalizing w with
  | nil => simp [logFailures, pure, EStateM.pure]
  | cons result results ih =>
    obtain ⟨d, result⟩ := result
    cases result with
    | ok =>
      exact ih w
    | error e =>
      refine (ih { w with logs := w.logs ++ [_] }).trans ?_
      simp [failure]

/-- The messages of a mail that can be built, each from the turn of its recipient. -/
theorem Buildable.messages (h : Buildable config host mail) :
    ∃ message : String × ℕ → M,
      (∀ d ∈ mail.dest.toList.zipIdx,
        buildMessage config host mail d.2 d.1 = .ok (message d)) ∧
      buildMessages config host mail = .ok (mail.dest.toList.zipIdx.map message) := by
  have hchoice : ∀ d : String × ℕ, ∃ message, d ∈ mail.dest.toList.zipIdx →
      buildMessage config host mail d.2 d.1 = .ok message := by
    intro d
    by_cases hd : d ∈ mail.dest.toList.zipIdx
    · exact (h d hd).imp fun _ hm _ => hm
    · exact ⟨host.emailMessage, fun hd' => absurd hd' hd⟩
  choose message hmessage using hchoice
  exact ⟨message, hmessage, mapM_ok hmessage⟩

theorem isolated_of_buildable (h : Buildable config host mail) :
    Isolated config host mail := by
  intro w
  obtain ⟨message, hmessage, hbuilt⟩ := h.messages
  have hresults : mail.dest.toList.zip
      (((mail.dest.toList.zipIdx.map message).map (sendArgs config)).zipIdx.map
        fun task => host.send task.2 task.1) =
      mail.dest.toList.zipIdx.map fun d => (d.1, host.send d.2 (sendArgs config (message d))) := by
    rw [List.map_map, zipIdx_map_zipIdx, List.map_map, zip_map_zipIdx]
    rfl
  have hrun : sendEmail config host mail w =
      logFailures mail.subject
        (mail.dest.toList.zipIdx.map fun d => (d.1, host.send d.2 (sendArgs config (message d))))
        { w with attempted := w.attempted ++
          (mail.dest.toList.zipIdx.map message).map (sendArgs config) } := by
    simp only [sendEmail, hbuilt]
    rw [← hresults]
    rfl
  refine ⟨_, hrun.trans (logFailures_ok ..), ?_, ?_⟩
  · refine congrArg (w.attempted ++ ·) ?_
    rw [List.map_map, ← List.filterMap_eq_map]
    refine List.filterMap_congr fun d hd => ?_
    rw [hmessage d hd]
    rfl
  · refine congrArg (w.logs ++ ·) ?_
    rw [List.filterMap_map]
    refine List.filterMap_congr fun d hd => ?_
    rw [Function.comp_apply, outcome, hmessage d hd]
    rfl

/-- A message that cannot be built is raised before anything is sent or logged. -/
theorem sendEmail_of_not_buildable (h : ¬Buildable config host mail) (w : World M E) :
    ∃ e, sendEmail config host mail w = .error e w := by
  cases hbuilt : buildMessages config host mail with
  | ok messages => exact absurd (exists_mapM_ok_iff.mp ⟨messages, hbuilt⟩) h
  | error e =>
    simp only [sendEmail, hbuilt]
    exact ⟨e, rfl⟩

def NeverRaises (x : Py M E Unit) : Prop := ∀ w, ∃ w', x w = .ok () w'

theorem sendEmail_neverRaises_iff :
    NeverRaises (sendEmail config host mail) ↔ Buildable config host mail := by
  constructor
  · intro hreturns
    by_contra hbuild
    obtain ⟨e, he⟩ := sendEmail_of_not_buildable hbuild {}
    obtain ⟨w', hw'⟩ := hreturns {}
    rw [he] at hw'
    cases hw'
  · intro hbuild w
    obtain ⟨w', hw', -⟩ := isolated_of_buildable hbuild w
    exact ⟨w', hw'⟩

theorem isolated_iff_buildable : Isolated config host mail ↔ Buildable config host mail := by
  refine ⟨fun hisolated => sendEmail_neverRaises_iff.mp fun w => ?_, isolated_of_buildable⟩
  obtain ⟨w', hw', -⟩ := hisolated w
  exact ⟨w', hw'⟩

/-! ## Events -/

theorem handle_neverRaises_iff (event : DomainEvent) :
    NeverRaises (handle config host event) ↔
      ∀ mail, mailOf event = some mail → Buildable config host mail := by
  unfold handle
  cases hmail : mailOf event with
  | none => exact iff_of_true (fun w => ⟨w, rfl⟩) (by rintro _ ⟨⟩)
  | some mail =>
    refine sendEmail_neverRaises_iff.trans ⟨?_, fun h => h mail rfl⟩
    rintro h _ ⟨⟩
    exact h

/-- Recipients are isolated exactly if all their messages can be built, and a handler never raises
exactly if its message can. -/
theorem sendEmail_isolated_iff (config : SmtpConfig) (host : Host M B E) (mail : Mail)
    (event : DomainEvent) :
    (Isolated config host mail ↔ Buildable config host mail) ∧
    (NeverRaises (handle config host event) ↔
      ∀ mail, mailOf event = some mail → Buildable config host mail) :=
  ⟨isolated_iff_buildable, handle_neverRaises_iff event⟩

/-- Messages are lists of headers; a header must not have line ends, and mail is always taken. -/
def strictHost : Host (List (String × String)) Unit String where
  emailMessage := []
  setHeader message name value :=
    if '\n' ∈ value.toList then .error (.raised "Header values may not contain linefeed")
    else .ok (message ++ [(name, value)])
  setContent message content _ := .ok (message ++ [("", content)])
  addAttachment message _ _ _ _ := .ok message
  guessType _ := (none, none)
  readBytes _ _ := .ok ()
  send _ _ := .ok ()

def smtpConfig : SmtpConfig := ⟨some "mail", 465, some "box@example.com", none, 5⟩

/-- The first recipient gets nothing because the second one's address has a line end. -/
theorem not_isolated :
    ¬Isolated smtpConfig strictHost
      { dest := .many ["a@example.com", "b\n@example.com"], subject := "s", content := "c",
        subtype := "html" } := by
  intro hisolated
  obtain ⟨w', hw', -⟩ := hisolated {}
  have hraises : sendEmail smtpConfig strictHost
      { dest := .many ["a@example.com", "b\n@example.com"], subject := "s", content := "c",
        subtype := "html" } {} =
      .error (.raised "Header values may not contain linefeed") {} := rfl
  rw [hraises] at hw'
  cases hw'

end ApiTemplate.Outbound.EmailService
