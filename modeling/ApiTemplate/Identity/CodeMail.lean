import ApiTemplate.Identity.Footprints
import ApiTemplate.TxStore.Faults

/-!
# Mailed codes and stored codes

Registration, the resend and the first step of a password reset mail a code and store it. They
publish inside the unit of work: the mail is out before the row of its code is flushed, and the
commit comes last. Under failures a mailed code is stored exactly when the commit has succeeded.
-/

namespace ApiTemplate.Identity

open TxStore

/-- A code with its owner and its kind. -/
structure MailedCode where
  contentId : Id
  kind : OtpKindEnum
  otp : String

/-- The code in the mail of an event, if there is one. -/
def DomainEvent.mailedCode : DomainEvent → Option MailedCode
  | .userRegistered aggregateId _ otpCode _ => some ⟨aggregateId, .emailConfirmation, otpCode⟩
  | .forgotPasswordStep1 aggregateId _ otpCode => some ⟨aggregateId, .forgotPassword, otpCode⟩
  | _ => none

/-- The row stores the code. -/
def OtpRow.Stores (o : OtpRow) (m : MailedCode) : Prop :=
  o.contentId = m.contentId ∧ o.kind = m.kind ∧ o.otp = m.otp

/-- Each code that was mailed is stored in a committed row that was not there before. -/
def CodesStored (db : Content) (st : Trial schema) : Prop :=
  ∀ event ∈ st.world.emitted, ∀ m ∈ event.mailedCode,
    ∃ o ∈ otps st.world.committed, db.row o.id = none ∧ o.Stores m

/-! ## The bodies -/

/-- Nothing is mailed, and no row of `db` is lost. -/
structure Mute (db : Content) (w : World schema) : Prop where
  emitted_eq : w.emitted = []
  stays : ∀ i r, db.row i = some r → ∃ r', w.view.row i = some r'

/-- Nothing is held back in the session either. -/
structure Silent (db : Content) (w : World schema) : Prop extends Mute db w where
  session_eq : w.session = {}

/-- Nothing is mailed; the session holds the row of a code. -/
structure Holds (db : Content) (m : MailedCode) (w : World schema) : Prop where
  emitted_eq : w.emitted = []
  session_eq : ∃ o : OtpRow, w.session = { new := [.otp o] } ∧ db.row o.id = none ∧ o.Stores m

/-- Each code that is mailed is the one the session holds. -/
def Covered (db : Content) (w : World schema) : Prop :=
  ∀ event ∈ w.emitted, ∀ m ∈ event.mailedCode,
    ∃ o : OtpRow, w.session = { new := [.otp o] } ∧ db.row o.id = none ∧ o.Stores m

variable {db : Content} {w : World schema}

theorem silent_ofDb (db : Content) : Silent db (World.ofDb db) :=
  ⟨⟨rfl, fun _ r h => ⟨r, h⟩⟩, rfl⟩

theorem Silent.covered (h : Silent db w) : Covered db w := by
  intro event hmem
  rw [h.emitted_eq] at hmem
  cases hmem

theorem Silent.update (h : Silent db w) (u : Update) :
    Silent db { w with view := Db.update (σ := schema) w.view u } where
  emitted_eq := h.emitted_eq
  session_eq := h.session_eq
  stays i r hr := by
    obtain ⟨r', hr'⟩ := h.stays i r hr
    refine ⟨Db.updated (σ := schema) u r', ?_⟩
    rw [Db.update_row, hr']
    rfl

/-- The next identifier of the open transaction is new to the database. -/
theorem Mute.fresh (h : Mute db w) : db.row w.view.next = none := by
  cases hr : db.row w.view.next with
  | none => rfl
  | some r =>
    obtain ⟨r', hr'⟩ := h.stays _ r hr
    rw [w.view.bound _ le_rfl] at hr'
    cases hr'

/-- An issued code is held in the session. -/
theorem body_issue (env : Env) (n : ℕ) (id : Id) (kind : OtpKindEnum) (target : String) :
    Body (fun st => Silent db st.world) (UserConfirmationService.issue env n id kind target)
      fun r st => match r with
        | .error _ => Silent db st.world
        | .ok code => Holds db ⟨id, kind, code⟩ st.world := by
  refine .bind (.reads (readsOnly_hasRecentIssue _ _ _ _ _)) fun recent => ?_
  split
  · exact .done fun _ h => h
  refine .bind (Q := fun _ st => Silent db st.world) ?_ fun _ => ?_
  · exact .bind (.lift rfl fun st _ h _ => h.update _) fun _ => .done fun _ h => h
  refine .bind (Q := fun _ st => Holds db ⟨id, kind, env.code⟩ st.world) ?_ fun _ => .done fun _ h => h
  refine .bind (.lift rfl fun st _ h _ => ?_) fun _ => .done fun _ h => h
  refine ⟨h.emitted_eq, issuedRow env n id kind target st.world.view.next, ?_, h.toMute.fresh, rfl, rfl,
    rfl⟩
  change TxStore.Session.mk (st.world.session.new ++ [_]) st.world.session.patches = _
  rw [h.session_eq]
  rfl

/-- The events mail one code, the one the session holds. -/
def Announces (db : Content) (events : List DomainEvent) (w : World schema) : Prop :=
  ∃ m event, events = [event] ∧ event.mailedCode = some m ∧ Holds db m w

/-- The event of a code that the session holds is published. -/
theorem body_publishMany (events : List DomainEvent) :
    Body (fun st => Announces db events st.world) (publishMany events)
      fun _ st => Covered db st.world := by
  refine ⟨noCommit_publishMany events, fun faults st u st' h hrun => ?_⟩
  obtain ⟨m, event, rfl, he, hholds⟩ := h
  have hpublish : Body (fun st => Holds db m st.world) (publishMany [event])
      fun _ st => Covered db st.world := by
    refine .bind (.lift rfl fun st _ h _ => ?_) fun _ => .done fun _ h => h
    intro event' hmem m' hm'
    change event' ∈ st.world.emitted ++ [event] at hmem
    rw [h.emitted_eq] at hmem
    obtain rfl := List.mem_singleton.mp hmem
    rw [he] at hm'
    obtain rfl := Option.some.inj hm'
    exact h.session_eq
  exact hpublish.ends faults st u st' hholds hrun

/-- A body that refuses rolls back, and nothing is mailed. -/
theorem body_refuse {α : Type} (e : List AppExceptionDetail) :
    Body (fun st => Silent db st.world) (do
      rollback
      pure (.error e) : Tx (ResultDetailed α)) fun _ st => Covered db st.world := by
  refine .bind (.lift rfl fun st _ h _ => ?_) fun _ => .done fun _ h => h
  intro event hmem
  change event ∈ st.world.emitted at hmem
  rw [h.emitted_eq] at hmem
  cases hmem

/-- A loaded user has raised no event. -/
theorem body_getUser (email : String) :
    Body (fun st => Silent db st.world) (UserOrmRepository.getAggregateForUpdateByEmail email)
      fun found st => (∀ user ∈ found, user.events = []) ∧ Silent db st.world := by
  refine .bind (.reads (readsOnly_select _)) fun rows => .bind (.ofExcept _) fun found => ?_
  refine .done fun st h => ⟨fun user hmem => ?_, h.2⟩
  obtain ⟨u, -, rfl⟩ := Option.map_eq_some_iff.mp hmem
  rfl

/-- A new user is added to the session. -/
theorem body_create (a : UserAggregate) :
    Body (fun st => a.events = [] ∧ Silent db st.world) (UserOrmRepository.create a)
      fun user st => user.events = [] ∧ Mute db st.world := by
  refine .bind (Q := fun _ st => a.events = [] ∧ Mute db st.world) ?_ fun id => .done fun _ h => h
  exact .lift rfl fun st _ h _ => ⟨h.1, h.2.emitted_eq, h.2.stays⟩

theorem body_flush :
    Body (fun st => Mute db st.world) flush fun _ st => Silent db st.world := by
  refine .lift rfl fun st _ h hok => ?_
  unfold Trial.effect
  rcases World.exec_flush_cases st.world with ⟨db', hf, hx⟩ | ⟨e, -, hx⟩
  · rw [hx]
    refine ⟨⟨h.emitted_eq, fun i r hr => ?_⟩, rfl⟩
    obtain ⟨r', hr'⟩ := h.stays i r hr
    exact ⟨_, Db.flush_row_of_some hf hr'⟩
  · rw [hx] at hok
    cases hok

/-- The event of a signup mails the code. -/
theorem markRegistered_eq_ok {a a' : UserAggregate} {code : String}
    (h : a.markRegistered code = .ok a') :
    ∃ event, a'.events = a.events ++ [event] ∧
      event.mailedCode = some ⟨a.source.id, .emailConfirmation, code⟩ := by
  unfold UserAggregate.markRegistered at h
  split at h
  · cases h
  · cases h
    exact ⟨_, rfl, rfl⟩

/-- What the service of a registration hands on: the event that mails the code in the session. -/
theorem body_register (b : Bcrypt) (userName : String → Option String) (env : Env)
    (message : RegisterCommand) :
    Body (fun st => Silent db st.world) (UserRegistrationService.register b userName env message)
      fun r st => match r with
        | .error _ => Silent db st.world
        | .ok user => Announces db user.events st.world := by
  unfold UserRegistrationService.register
  refine .bind (.ofExcept _) fun param => .bind (.ofExcept _) fun user => ?_
  refine .bind (.mono (fun _ h => ⟨UserAggregate.setPassword_events h.1, h.2.2⟩) (body_create user)
    fun _ _ h => h) fun user => ?_
  refine .bind (.frame body_flush) fun _ => .bind (.frame (body_issue _ _ _ _ _)) fun issued => ?_
  cases issued with
  | error e => exact .done fun _ h => h.2
  | ok code =>
    refine .bind (.ofExcept _) fun user' => .done fun st h => ?_
    obtain ⟨event, hevents, hm⟩ := markRegistered_eq_ok h.1
    rw [h.2.1] at hevents
    exact ⟨_, event, hevents, hm, h.2.2⟩

/-- The service of the first step hands on the same. -/
theorem body_issueResetCode (env : Env) (user : UserAggregate) :
    Body (fun st => user.events = [] ∧ Silent db st.world)
      (ForgotPasswordService.issueResetCode env user)
      fun r st => match r with
        | .error _ => Silent db st.world
        | .ok user => Announces db user.events st.world := by
  refine .bind (.frame (body_issue _ _ _ _ _)) fun issued => ?_
  cases issued with
  | error e => exact .done fun _ h => h.2
  | ok code =>
    refine .done fun st h =>
      ⟨_, .forgotPasswordStep1 user.source.id user.source.email code, ?_, rfl, h.2⟩
    change user.events ++ [_] = _
    rw [h.1]
    rfl

/-! ## The handlers -/

/-- Whatever fails, what a handler has mailed when its body ends is what the session holds. -/
abbrev Covers {α : Type} (db : Content) (body : Tx α) : Prop :=
  Body (fun st => Silent db st.world) body fun _ st => Covered db st.world

/-- After the commit of a unit of work of such a body, each mailed code is stored. -/
theorem codesStored_of_committed {α : Type} {body : Tx α} (h : Covers db body) {faults : Faults schema}
    {st st' : Trial schema} {r : Except Exn α} (hs : Silent db st.world) (hst : st.committed = false)
    (hrun : Trial.run faults (withUow body) st = (r, st')) (hc : st'.committed = true) :
    CodesStored db st' := by
  obtain ⟨a, st₁, db', hcov, hf, hrow, hemit, -⟩ := h.committed hs hst hrun hc
  intro event hmem m hm
  rw [hemit] at hmem
  obtain ⟨o, hsession, hnew, hstores⟩ := hcov event hmem m hm
  refine ⟨o, ?_, hnew, hstores⟩
  rw [hsession, Db.flush_new] at hf
  rw [mem_otps, hrow, (Db.insert_eq_ok hf).2, Db.put_row]
  exact Function.update_self _ _ _

theorem covers_register (b : Bcrypt) (userName : String → Option String) (env : Env)
    (message : RegisterCommand) :
    Covers db (do
      match ← UserRegistrationService.register b userName env message with
      | .error e => do
        rollback
        pure (.error e)
      | .ok user => do
        publishMany user.events
        pure (.ok ()) : Tx (ResultDetailed Unit)) := by
  refine .bind (body_register b userName env message) fun registered => ?_
  cases registered with
  | error e => exact body_refuse e
  | ok user => exact .bind (body_publishMany _) fun _ => .done fun _ h => h

theorem covers_resend (env : Env) (message : ResendEmailConfirmationCommand) :
    ∃ body, ResendEmailConfirmationCommandHandler.call env message = withUow body ∧
      Covers db body := by
  refine ⟨_, rfl, .bind (body_getUser _) fun found => ?_⟩
  cases found with
  | none => exact .done fun _ h => h.2.covered
  | some user =>
    dsimp only
    split
    · exact .done fun _ h => h.2.covered
    refine .bind (.frame (body_issue _ _ _ _ _)) fun issued => ?_
    cases issued with
    | error e => exact .mono (fun _ h => h.2) (body_refuse e) fun _ _ h => h
    | ok code =>
      refine .bind (.ofExcept _) fun user' => ?_
      refine .bind (.mono (fun st h => ?_) (body_publishMany _) fun _ _ h => h) fun _ =>
        .done fun _ h => h
      obtain ⟨event, hevents, hm⟩ := markRegistered_eq_ok h.1
      rw [h.2.1 user rfl] at hevents
      exact ⟨_, event, hevents, hm, h.2.2⟩

theorem covers_step1 (env : Env) (message : ForgotPasswordStep1Command) :
    ∃ body, ForgotPasswordStep1CommandHandler.call env message = withUow body ∧
      Covers db body := by
  refine ⟨_, rfl, .bind (body_getUser _) fun found => ?_⟩
  cases found with
  | none => exact .done fun _ h => h.2.covered
  | some user =>
    refine .bind (.mono (fun _ h => ⟨h.1 user rfl, h.2⟩) (body_issueResetCode env user)
      fun _ _ h => h) fun issued => ?_
    cases issued with
    | error e => exact body_refuse e
    | ok user => exact .bind (body_publishMany _) fun _ => .done fun _ h => h

/-! ## Runs -/

/-- The commands that mail a code. -/
inductive CodeSender
  | register (message : RegisterCommand)
  | resendEmailConfirmation (message : ResendEmailConfirmationCommand)
  | forgotPasswordStep1 (message : ForgotPasswordStep1Command)

def CodeSender.command : CodeSender → Command
  | register message => .register message
  | resendEmailConfirmation message => .resendEmailConfirmation message
  | forgotPasswordStep1 message => .forgotPasswordStep1 message

/-- How far the handler of a command comes on a database of its own, under failures. -/
def CodeSender.outcome (d : Deployment) (env : Env) (db : Content) (faults : Faults schema)
    (c : CodeSender) : Trial schema :=
  (Trial.run faults (c.command.handler d env) (.start db)).2

variable {d : Deployment} {env : Env} {faults : Faults schema}

theorem codesStored_register {message : RegisterCommand}
    (hc : ((CodeSender.register message).outcome d env db faults).committed = true) :
    CodesStored db ((CodeSender.register message).outcome d env db faults) := by
  have hvalidator := readsOnly_registerValidator message
  have hopen := Trial.committed_eq faults (.start db) _ (noCommit_of_readsOnly hvalidator)
  have hsilent : ∀ valid st, Trial.run faults (RegisterValidator.call message) (.start db) =
      (.ok valid, st) → Silent db st.world := fun valid st hrun =>
    (Body.reads (P := Silent db) hvalidator).ends faults _ valid st (silent_ofDb db) hrun
  unfold CodeSender.outcome CodeSender.command Command.handler RegisterCommandHandler.call at hc ⊢
  rw [Trial.run, Program.run_bind] at hc ⊢
  rw [Trial.run] at hopen
  rcases hrun : Program.run (Trial.exec faults) (RegisterValidator.call message) (.start db) with
    ⟨valid, st⟩
  rw [hrun] at hc hopen
  change st.committed = false at hopen
  cases valid with
  | error e =>
    rw [show st.committed = true from hc] at hopen
    cases hopen
  | ok valid =>
    cases valid with
    | error e =>
      rw [show st.committed = true from hc] at hopen
      cases hopen
    | ok u =>
      exact codesStored_of_committed (covers_register d.bcrypt d.userName env message)
        (hsilent _ _ hrun) hopen rfl hc

/-- **Mailed and stored.** Whatever fails in a registration, a resend or a request for a reset code,
each code that is mailed is stored if and only if no code is mailed or the commit succeeds. -/
theorem codesStored_iff (d : Deployment) (env : Env) (db : Content) (faults : Faults schema)
    (c : CodeSender) :
    CodesStored db (c.outcome d env db faults) ↔
      (∀ event ∈ (c.outcome d env db faults).world.emitted, event.mailedCode = none) ∨
        (c.outcome d env db faults).committed = true := by
  constructor
  · intro h
    by_contra hn
    obtain ⟨hmailed, hc⟩ := not_or.mp hn
    rw [Bool.not_eq_true] at hc
    have hrow : (c.outcome d env db faults).world.committed.row = db.row :=
      Trial.row_of_not_committed faults (.start db) (c.command.handler d env) hc
    refine hmailed fun event hevent => ?_
    cases hm : event.mailedCode with
    | none => rfl
    | some m =>
      obtain ⟨o, ho, hnew, -⟩ := h event hevent m hm
      rw [mem_otps, hrow, hnew] at ho
      cases ho
  · rintro (hnone | hc)
    · intro event hevent m hm
      rw [hnone event hevent] at hm
      cases hm
    · cases c with
      | register message => exact codesStored_register hc
      | resendEmailConfirmation message =>
        obtain ⟨body, hbody, hcovers⟩ := @covers_resend db env message
        have hrun : Trial.run faults (withUow body) (.start db) =
            Trial.run faults (ResendEmailConfirmationCommandHandler.call env message) (.start db) := by
          rw [hbody]
        exact codesStored_of_committed hcovers (silent_ofDb db) rfl hrun hc
      | forgotPasswordStep1 message =>
        obtain ⟨body, hbody, hcovers⟩ := @covers_step1 db env message
        have hrun : Trial.run faults (withUow body) (.start db) =
            Trial.run faults (ForgotPasswordStep1CommandHandler.call env message) (.start db) := by
          rw [hbody]
        exact codesStored_of_committed hcovers (silent_ofDb db) rfl hrun hc

/-- Ann asks for a reset code, and the sixth statement, the commit, is lost. -/
def lostCommit : Trial schema :=
  (CodeSender.forgotPasswordStep1 ⟨"ann@example.com"⟩).outcome .plain (.at 0) (contentOf [.user ann])
    fun n => if n = 5 then some ⟨.dbApiError, false⟩ else none

/-- The code is mailed, and no row of any code is stored. -/
theorem not_codesStored_lostCommit :
    lostCommit.world.emitted = [.forgotPasswordStep1 0 "ann@example.com" "000000"] ∧
      otps lostCommit.world.committed = [] ∧ ¬CodesStored (contentOf [.user ann]) lostCommit := by
  have hmail : lostCommit.world.emitted = [.forgotPasswordStep1 0 "ann@example.com" "000000"] := by
    decide
  have hrows : otps lostCommit.world.committed = [] := by decide
  refine ⟨hmail, hrows, fun h => ?_⟩
  obtain ⟨o, ho, -⟩ := h _ (by rw [hmail]; exact List.mem_cons_self) _ rfl
  rw [hrows] at ho
  cases ho

end ApiTemplate.Identity
