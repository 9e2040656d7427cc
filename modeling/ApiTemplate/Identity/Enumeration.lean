import ApiTemplate.Identity.HandlerRuns

/-!
# Enumeration of addresses

Whoever asks for a registration, a new confirmation code or a password reset should not learn
whether the address is registered. Two runs of one timed sequence of such requests are compared: in
one the address is not registered, in the other it is. The registration answers differently at once;
the two other requests answer differently when they meet the cooldown of a code.
-/

namespace ApiTemplate.Identity

open TxStore

/-- The requests that can be made for any address. -/
inductive ProbeCommand
  | register (message : RegisterCommand)
  | resend (message : ResendEmailConfirmationCommand)
  | forgotPasswordStep1 (message : ForgotPasswordStep1Command)

def ProbeCommand.email : ProbeCommand → String
  | register message => message.email
  | resend message => message.email
  | forgotPasswordStep1 message => message.email

/-- A request and the outside it meets, the time among it. -/
structure Visit where
  command : ProbeCommand
  env : Env

/-- What a handler returns or raises. -/
inductive Answer
  | registered (r : Except Exn (ResultDetailed Unit))
  | sent (r : Except Exn (ResultDetailed MessageResponseDTO))
  deriving DecidableEq

namespace Visit

variable (b : Bcrypt) (userName : String → Option String)

def answer (v : Visit) (db : Content) : Answer :=
  match v.command with
  | .register message =>
    .registered (db.result (RegisterCommandHandler.call b userName v.env message))
  | .resend message => .sent (db.result (ResendEmailConfirmationCommandHandler.call v.env message))
  | .forgotPasswordStep1 message =>
    .sent (db.result (ForgotPasswordStep1CommandHandler.call v.env message))

/-- The content after the request. -/
def after (v : Visit) (db : Content) : Content :=
  match v.command with
  | .register message => db.after (RegisterCommandHandler.call b userName v.env message)
  | .resend message => db.after (ResendEmailConfirmationCommandHandler.call v.env message)
  | .forgotPasswordStep1 message => db.after (ForgotPasswordStep1CommandHandler.call v.env message)

end Visit

/-- The answers of a run. -/
def answers (b : Bcrypt) (userName : String → Option String) : Content → List Visit → List Answer
  | _, [] => []
  | db, v :: vs => v.answer b userName db :: answers b userName (v.after b userName db) vs

theorem answers_cons (b : Bcrypt) (userName : String → Option String) (db : Content) (v : Visit)
    (vs : List Visit) :
    answers b userName db (v :: vs) =
      v.answer b userName db :: answers b userName (v.after b userName db) vs := rfl

/-- A sequence of requests for one address, and the two databases it may meet. -/
structure TwoRuns where
  email : String
  email_ne : email ≠ ""
  without : Content
  registered : Content
  user : UserRow
  absent : usersByEmail without email = []
  stored : usersByEmail registered email = [user]
  visits : List Visit
  forEmail : ∀ v ∈ visits, v.command.email = email

/-- When the codes of a user were issued. -/
def issueTimes (db : Content) (id : Id) (kind : OtpKindEnum) : List Micros :=
  ((otps db).filter fun o => o.contentId == id && o.contentType == .user && o.kind == kind).map
    OtpRow.createdAt

/-- The cooldown of every code issued so far has passed. -/
def CooledDown (issued : OtpKindEnum → List Micros) (kind : OtpKindEnum) (env : Env) : Prop :=
  ∀ t ∈ issued kind, t < env.now - otpCooldownMinutes kind * 60000000

/-- No request registers, and none that would issue a code comes within the cooldown of an earlier
one; `issued` are the stamps of the codes so far. A code is stamped when it is flushed, and the
cooldown reaches from there to the start of the transaction of the next request. -/
def Quiet (user : UserRow) : (OtpKindEnum → List Micros) → List Visit → Prop
  | _, [] => True
  | issued, v :: vs =>
    match v.command with
    | .register _ => False
    | .resend _ =>
      if user.emailConfirmed then Quiet user issued vs
      else CooledDown issued .emailConfirmation v.env ∧ Quiet user
        (Function.update issued .emailConfirmation (v.env.stamp :: issued .emailConfirmation)) vs
    | .forgotPasswordStep1 _ =>
      CooledDown issued .forgotPassword v.env ∧ Quiet user
        (Function.update issued .forgotPassword (v.env.stamp :: issued .forgotPassword)) vs

/-! ## The times of the codes -/

section

variable {db db' : Content} {id : Id} {kind : OtpKindEnum} {env : Env}

theorem mem_issueTimes {t : Micros} : t ∈ issueTimes db id kind ↔
    ∃ o, db.row o.id = some (.otp o) ∧ o.contentId = id ∧ o.kind = kind ∧ o.createdAt = t := by
  unfold issueTimes
  simp only [List.mem_map, List.mem_filter, mem_otps, Bool.and_eq_true, beq_iff_eq]
  constructor
  · rintro ⟨o, ⟨hrow, ⟨hid, -⟩, hkind⟩, ht⟩
    exact ⟨o, hrow, hid, hkind, ht⟩
  · rintro ⟨o, hrow, hid, hkind, ht⟩
    exact ⟨o, ⟨hrow, ⟨hid, trivial⟩, hkind⟩, ht⟩

/-- The cooldown check reads the times of the codes only. -/
theorem recentlyIssued_eq_false :
    recentlyIssued db env id kind = false ↔ CooledDown (issueTimes db id) kind env := by
  unfold recentlyIssued CooledDown issueTimes OtpOrmRepository.issuedSince
  simp only [Bool.not_eq_false', List.isEmpty_iff, List.filter_eq_nil_iff, List.mem_map,
    List.mem_filter, Bool.and_eq_true, beq_iff_eq, decide_eq_true_eq]
  constructor
  · rintro h t ⟨o, ⟨ho, ⟨hid, htype⟩, hkind⟩, rfl⟩
    by_contra hlt
    exact h o ho ⟨⟨⟨hid, htype⟩, hkind⟩, Int.not_lt.mp hlt⟩
  · rintro h o ho ⟨⟨⟨hid, htype⟩, hkind⟩, hge⟩
    exact Int.not_lt.mpr hge (h o.createdAt ⟨o, ⟨ho, ⟨hid, htype⟩, hkind⟩, rfl⟩)

theorem issueTimes_congr (h : db.row = db'.row) : issueTimes db = issueTimes db' := by
  unfold issueTimes otps
  rw [Db.rows_congr h]

theorem usersByEmail_congr (h : ∀ i, user? db i = user? db' i) (email : String) :
    usersByEmail db email = usersByEmail db' email := by
  unfold usersByEmail users
  rw [Db.filterMap_rows_congr h]

end

/-! ## A code issued in a unit of work -/

section

variable (db : Content) (env : Env) (n : ℕ) (id : Id) (kind : OtpKindEnum) (target : String)

/-- The content after a code was issued and committed. -/
def issuedContent : Content :=
  ((Db.update (σ := schema) db (.invalidatePending id .user kind (epoch (env.clock n)))).reserve
    (db.next + 1)).put (.otp (issuedRow env n id kind target db.next))

/-- The row of a new code can always be inserted. -/
theorem flush_issued :
    (((Db.update (σ := schema) db (.invalidatePending id .user kind (epoch (env.clock n)))).reserve
      (db.next + 1)).flush { new := [.otp (issuedRow env n id kind target db.next)] }) =
      .ok (issuedContent db env n id kind target) := by
  generalize hv : (Db.update (σ := schema) db
    (.invalidatePending id .user kind (epoch (env.clock n)))).reserve (db.next + 1) = v
  have hnone : v.row db.next = none := by
    rw [← hv, Db.reserve_row, Db.update_row, db.bound db.next le_rfl]
    rfl
  have hclash : v.clashes (σ := schema) (.otp (issuedRow env n id kind target db.next)) = false := by
    unfold Db.clashes
    rw [List.any_eq_false]
    intro r _ h
    cases (Bool.and_eq_true_iff.mp h).2
  have hinsert : v.insert (.otp (issuedRow env n id kind target db.next)) =
      .ok (v.put (.otp (issuedRow env n id kind target db.next))) := by
    refine if_neg ?_
    change ¬((v.row db.next).isSome || v.clashes _) = true
    rw [hnone, hclash]
    exact Bool.false_ne_true
  unfold issuedContent Db.flush
  rw [hv, List.foldlM_cons, hinsert]
  rfl

/-- The world after a code was issued and some events were announced. -/
def issuedWorld (emitted : List DomainEvent) : World schema where
  committed := db
  view := (Db.update (σ := schema) db (.invalidatePending id .user kind (epoch (env.clock n)))).reserve
    (db.next + 1)
  session := { new := [.otp (issuedRow env n id kind target db.next)] }
  emitted := emitted

theorem run_issue_of_recent (h : recentlyIssued db env id kind = true) :
    World.run (UserConfirmationService.issue env n id kind target) (World.ofDb db) =
      (.ok (.error [cooldown (otpCooldownMinutes kind)]), World.ofDb db) :=
  (run_issue _ env n id kind target).trans (if_pos h)

theorem run_issue_of_cool (h : recentlyIssued db env id kind = false) :
    World.run (UserConfirmationService.issue env n id kind target) (World.ofDb db) =
      (.ok (.ok env.code), issuedWorld db env n id kind target []) :=
  (run_issue _ env n id kind target).trans (if_neg (by simp [World.ofDb, h]))

variable {db env n id kind target} in
/-- A unit of work that issues a code and announces some events. -/
theorem withUow_of_issued {α : Type} {body : Tx α} {a : α} (emitted : List DomainEvent)
    (h : World.run body (World.ofDb db) = (.ok a, issuedWorld db env n id kind target emitted)) :
    db.result (withUow body) = .ok a ∧
      (db.after (withUow body)).row = (issuedContent db env n id kind target).row :=
  Db.withUow_of_flush h (flush_issued db env n id kind target)

theorem issuedContent_row (i : Id) : (issuedContent db env n id kind target).row i =
    if i = db.next then some (.otp (issuedRow env n id kind target db.next))
    else (db.row i).map (Db.updated (σ := schema)
      (.invalidatePending id .user kind (epoch (env.clock n)))) := by
  change Function.update _ db.next _ i = _
  by_cases hi : i = db.next
  · rw [if_pos hi, hi, Function.update_self]
  · rw [if_neg hi, Function.update_of_ne hi]
    rfl

/-- Issuing a code writes no user. -/
theorem user?_issuedContent (i : Id) : user? (issuedContent db env n id kind target) i =
    user? db i := by
  unfold user?
  rw [issuedContent_row]
  split
  · rename_i hi
    rw [hi, db.bound db.next le_rfl]
    rfl
  · cases hr : db.row i with
    | none => rfl
    | some r =>
      cases r with
      | otp o =>
        rw [Option.map_some, Db.updated]
        split <;> rfl
      | user u => rfl
      | apiKey k => rfl
      | blob b => rfl

theorem mem_issueTimes_issuedContent {kind' : OtpKindEnum} {t : Micros} :
    t ∈ issueTimes (issuedContent db env n id kind target) id kind' ↔
      kind' = kind ∧ t = env.stamp ∨ t ∈ issueTimes db id kind' := by
  rw [mem_issueTimes, mem_issueTimes]
  constructor
  · rintro ⟨o, hrow, hid, hkind, ht⟩
    rw [issuedContent_row] at hrow
    split at hrow
    · cases hrow
      exact Or.inl ⟨hkind.symm, ht.symm⟩
    · obtain ⟨r, hr, hset⟩ := Option.map_eq_some_iff.mp hrow
      refine Or.inr ?_
      unfold Db.updated at hset
      cases r with
      | otp o' =>
        split at hset
        · cases hset
          exact ⟨o', hr, hid, hkind, ht⟩
        · cases hset
          exact ⟨o, hr, hid, hkind, ht⟩
      | user u => cases hset
      | apiKey k => cases hset
      | blob b => cases hset
  · rintro (⟨rfl, rfl⟩ | ⟨o, hrow, hid, hkind, ht⟩)
    · refine ⟨issuedRow env n id kind' target db.next, ?_, rfl, rfl, rfl⟩
      rw [issuedContent_row]
      exact if_pos rfl
    · have hne : o.id ≠ db.next := Nat.ne_of_lt (db.lt_next hrow)
      have hrow' : (issuedContent db env n id kind target).row o.id = some (Db.updated (σ := schema)
          (.invalidatePending id .user kind (epoch (env.clock n))) (.otp o)) := by
        rw [issuedContent_row, if_neg hne, hrow]
        rfl
      unfold Db.updated at hrow'
      split at hrow'
      · exact ⟨{ o with usedAt := some (epoch (env.clock n)) }, hrow', hid, hkind, ht⟩
      · exact ⟨o, hrow', hid, hkind, ht⟩

end

/-! ## The answers to one request -/

section

variable {b : Bcrypt} {userName : String → Option String} {db : Content} (env : Env)
  {user : UserRow}

/-- What the handlers find for an address. -/
theorem run_get {email : String} {l : List UserRow} (h : usersByEmail db email = l) :
    World.run (UserOrmRepository.getAggregateForUpdateByEmail email) (World.ofDb db) =
      ((oneOrNone l).map (Option.map UserAggregate.ofRow), World.ofDb db) := by
  rw [run_getAggregateForUpdateByEmail, ← h]
  rfl

theorem resend_of_absent {message : ResendEmailConfirmationCommand}
    (h : usersByEmail db message.email = []) :
    db.result (ResendEmailConfirmationCommandHandler.call env message) = .ok (.ok ⟨neutralSent⟩) ∧
      (db.after (ResendEmailConfirmationCommandHandler.call env message)).row = db.row :=
  Db.withUow_of_flush ((Program.run_bind_ok (run_get h) _).trans rfl) rfl

theorem resend_of_confirmed {message : ResendEmailConfirmationCommand}
    (h : usersByEmail db message.email = [user]) (hc : user.emailConfirmed = true) :
    db.result (ResendEmailConfirmationCommandHandler.call env message) = .ok (.ok ⟨neutralSent⟩) ∧
      (db.after (ResendEmailConfirmationCommandHandler.call env message)).row = db.row := by
  refine Db.withUow_of_flush (w := World.ofDb db) ?_ rfl
  rw [World.run, Program.run_bind_ok (run_get h)]
  exact congrArg (fun p => Program.run World.exec p (World.ofDb db)) (if_pos hc)

theorem resend_of_recent {message : ResendEmailConfirmationCommand}
    (h : usersByEmail db message.email = [user]) (hc : user.emailConfirmed = false)
    (hrecent : recentlyIssued db env user.id .emailConfirmation = true) :
    db.result (ResendEmailConfirmationCommandHandler.call env message) =
      .ok (.error [cooldown (otpCooldownMinutes .emailConfirmation)]) := by
  have hissue := run_issue_of_recent db env 0 user.id .emailConfirmation user.email hrecent
  refine Db.result_withUow_of_session (w := (World.ofDb db).undo) ?_ rfl
  rw [World.run, Program.run_bind_ok (run_get h)]
  dsimp only [oneOrNone, Except.map, Option.map_some]
  rw [if_neg (show ¬(UserAggregate.ofRow user).source.emailConfirmed = true by simp [hc])]
  exact (Program.run_bind_ok hissue _).trans rfl

theorem resend_of_cool {message : ResendEmailConfirmationCommand}
    (h : usersByEmail db message.email = [user]) (hc : user.emailConfirmed = false)
    (hne : user.email ≠ "")
    (hrecent : recentlyIssued db env user.id .emailConfirmation = false) :
    db.result (ResendEmailConfirmationCommandHandler.call env message) = .ok (.ok ⟨neutralSent⟩) ∧
      (db.after (ResendEmailConfirmationCommandHandler.call env message)).row =
        (issuedContent db env 0 user.id .emailConfirmation user.email).row := by
  have hissue := run_issue_of_cool db env 0 user.id .emailConfirmation user.email hrecent
  have hmark : (UserAggregate.ofRow user).markRegistered env.code =
      .ok ((UserAggregate.ofRow user).addDomainEvent (.userRegistered user.id user.email env.code
        (fullName user.firstName user.lastName))) := if_neg hne
  refine withUow_of_issued [.userRegistered user.id user.email env.code
    (fullName user.firstName user.lastName)] ?_
  rw [World.run, Program.run_bind_ok (run_get h)]
  dsimp only [oneOrNone, Except.map, Option.map_some]
  rw [if_neg (show ¬(UserAggregate.ofRow user).source.emailConfirmed = true by simp [hc])]
  refine (Program.run_bind_ok hissue _).trans ?_
  dsimp only
  rw [hmark]
  rfl

theorem step1_of_absent {message : ForgotPasswordStep1Command}
    (h : usersByEmail db message.email = []) :
    db.result (ForgotPasswordStep1CommandHandler.call env message) = .ok (.ok ⟨neutralResetSent⟩) ∧
      (db.after (ForgotPasswordStep1CommandHandler.call env message)).row = db.row :=
  Db.withUow_of_flush ((Program.run_bind_ok (run_get h) _).trans rfl) rfl

theorem step1_of_recent {message : ForgotPasswordStep1Command}
    (h : usersByEmail db message.email = [user])
    (hrecent : recentlyIssued db env user.id .forgotPassword = true) :
    db.result (ForgotPasswordStep1CommandHandler.call env message) =
      .ok (.error [cooldown (otpCooldownMinutes .forgotPassword)]) := by
  have hissue := run_issue_of_recent db env 0 user.id .forgotPassword user.email hrecent
  have hservice : World.run (ForgotPasswordService.issueResetCode env (.ofRow user))
      (World.ofDb db) = (.ok (.error [cooldown (otpCooldownMinutes .forgotPassword)]),
        World.ofDb db) := (Program.run_bind_ok hissue _).trans rfl
  refine Db.result_withUow_of_session (w := (World.ofDb db).undo) ?_ rfl
  exact (Program.run_bind_ok (run_get h) _).trans ((Program.run_bind_ok hservice _).trans rfl)

theorem step1_of_cool {message : ForgotPasswordStep1Command}
    (h : usersByEmail db message.email = [user])
    (hrecent : recentlyIssued db env user.id .forgotPassword = false) :
    db.result (ForgotPasswordStep1CommandHandler.call env message) = .ok (.ok ⟨neutralResetSent⟩) ∧
      (db.after (ForgotPasswordStep1CommandHandler.call env message)).row =
        (issuedContent db env 0 user.id .forgotPassword user.email).row := by
  have hissue := run_issue_of_cool db env 0 user.id .forgotPassword user.email hrecent
  have hservice : World.run (ForgotPasswordService.issueResetCode env (.ofRow user))
      (World.ofDb db) = (.ok (.ok ((UserAggregate.ofRow user).addDomainEvent
        (.forgotPasswordStep1 user.id user.email env.code))),
        issuedWorld db env 0 user.id .forgotPassword user.email []) :=
    (Program.run_bind_ok hissue _).trans rfl
  refine withUow_of_issued [.forgotPasswordStep1 user.id user.email env.code] ?_
  exact (Program.run_bind_ok (run_get h) _).trans ((Program.run_bind_ok hservice _).trans rfl)

/-- The detail of `RegisterValidator`. -/
def alreadyRegistered : AppExceptionDetail where
  status := .uniqueConstraint
  field := some "email"
  message := some "This email address is already registered"

theorem run_registerValidator (w : World schema) (message : RegisterCommand) :
    World.run (RegisterValidator.call message) w =
      (.ok (if (usersByEmail w.view message.email).isEmpty then .ok ()
        else .error [alreadyRegistered]), w) := by
  have hexists := run_existsByEmail w message.email
  unfold RegisterValidator.call
  rw [World.run, Program.run_bind_ok hexists]
  cases (usersByEmail w.view message.email).isEmpty <;> rfl

/-- The only detail a signup can be refused with once it has passed the validator. -/
theorem run_register_error {w w' : World schema} {message : RegisterCommand}
    {e : List AppExceptionDetail}
    (h : World.run (UserRegistrationService.register b userName env message) w =
      (.ok (.error e), w')) :
    e = [cooldown (otpCooldownMinutes .emailConfirmation)] := by
  unfold UserRegistrationService.register at h
  generalize UserCreateParams.ofCommand userName message = param at h
  cases param with
  | error e => cases h
  | ok param => ?_
  rw [show (Program.ofExcept (.ok param) : Tx UserCreateParams) = .done (.ok param) from rfl,
    Program.done_ok_bind] at h
  dsimp only at h
  generalize UserAggregate.setPassword b _ message.password env.salt = user at h
  cases user with
  | error e => cases h
  | ok user =>
    rw [show (Program.ofExcept (.ok user) : Tx UserAggregate) = .done (.ok user) from rfl,
      Program.done_ok_bind, World.run, Program.run_bind_ok (run_create _ user)] at h
    rcases World.exec_flush_cases (σ := schema) { w with
        view := w.view.reserve (w.view.next + 1)
        session := { w.session with
          new := w.session.new ++ [.user { user.source with id := w.view.next }] } } with
      ⟨db', -, hflush⟩ | ⟨e', -, hflush⟩
    · rw [Program.run_bind_ok (show World.run flush _ = _ from hflush)] at h
      dsimp only at h
      have hissue := run_issue { w with view := db', session := {} } env 1 w.view.next
        .emailConfirmation user.source.email
      split at hissue
      · rw [Program.run_bind_ok hissue] at h
        cases h
        rfl
      · rw [Program.run_bind_ok hissue] at h
        dsimp only at h
        generalize UserAggregate.markRegistered _ env.code = marked at h
        cases marked <;> cases h
    · rw [Program.run_bind_error (show World.run flush _ = _ from hflush)] at h
      cases h

theorem register_of_stored {message : RegisterCommand}
    (h : usersByEmail db message.email = [user]) :
    db.result (RegisterCommandHandler.call b userName env message) =
      .ok (.error [alreadyRegistered]) := by
  have hvalid := run_registerValidator (World.ofDb db) message
  rw [show usersByEmail (World.ofDb db).view message.email = [user] from h] at hvalid
  exact congrArg Prod.fst ((Program.run_bind_ok hvalid _).trans rfl)

theorem run_publishMany (events : List DomainEvent) (w : World schema) :
    World.run (publishMany events) w = (.ok (), { w with emitted := w.emitted ++ events }) := by
  induction events generalizing w with
  | nil => rw [List.append_nil]; rfl
  | cons event events ih =>
    have hfirst : World.run (publish event) w = (.ok (), { w with emitted := w.emitted ++ [event] }) :=
      rfl
    unfold publishMany
    rw [World.run, Program.run_bind_ok hfirst]
    refine (ih _).trans ?_
    rw [List.append_assoc]
    rfl

theorem register_of_absent {message : RegisterCommand} (h : usersByEmail db message.email = []) :
    db.result (RegisterCommandHandler.call b userName env message) ≠
      .ok (.error [alreadyRegistered]) := by
  have hvalid := run_registerValidator (World.ofDb db) message
  rw [show usersByEmail (World.ofDb db).view message.email = [] from h, List.isEmpty_nil,
    if_pos rfl] at hvalid
  unfold Db.result RegisterCommandHandler.call
  rw [World.run, Program.run_bind_ok hvalid]
  dsimp only
  change (World.run (withUow _) _).1 ≠ _
  rw [World.run_withUow]
  rcases hservice : World.run (UserRegistrationService.register b userName env message)
    (World.ofDb db) with ⟨r, w⟩
  cases r with
  | error e =>
    rw [World.run, Program.run_bind_error hservice]
    intro h
    cases h
  | ok r =>
    rw [World.run, Program.run_bind_ok hservice]
    cases r with
    | error e =>
      obtain rfl := run_register_error env hservice
      change (.ok (.error [cooldown _]) : Except Exn (ResultDetailed Unit)) ≠ _
      intro h
      cases h
    | ok user =>
      dsimp only
      rw [Program.run_bind_ok (run_publishMany user.events w)]
      dsimp only [Program.pure_eq, Program.run_done]
      split
      · intro h
        cases h
      · intro h
        cases h

end

/-! ## Two runs -/

section

variable {b : Bcrypt} {userName : String → Option String} {d₁ d₂ : Content} {email : String}
  {user : UserRow} {issued : OtpKindEnum → List Micros}

theorem usersByEmail_of_row {db db' : Content} (h : db'.row = db.row) :
    usersByEmail db' email = usersByEmail db email :=
  usersByEmail_congr (fun i => by unfold user?; rw [h]) email

/-- The recorded times after a code was issued are those of the content after it. -/
theorem mem_update_issued {db' : Content} {env : Env} {n : ℕ} {kind : OtpKindEnum} {target : String}
    (hissued : ∀ kind t, t ∈ issued kind ↔ t ∈ issueTimes d₂ user.id kind)
    (hrow : db'.row = (issuedContent d₂ env n user.id kind target).row) (kind' : OtpKindEnum)
    (t : Micros) : t ∈ Function.update issued kind (env.stamp :: issued kind) kind' ↔
      t ∈ issueTimes db' user.id kind' := by
  rw [issueTimes_congr hrow, mem_issueTimes_issuedContent, ← hissued]
  by_cases hk : kind' = kind
  · subst hk
    simp
  · simp [hk]

theorem stored_of_issued {db' : Content} {env : Env} {n : ℕ} {kind : OtpKindEnum} {target : String}
    (stored : usersByEmail d₂ email = [user])
    (hrow : db'.row = (issuedContent d₂ env n user.id kind target).row) :
    usersByEmail db' email = [user] := by
  rw [usersByEmail_of_row hrow, usersByEmail_congr (user?_issuedContent d₂ env n user.id kind target)]
  exact stored

theorem cooledDown_iff {env : Env} {kind : OtpKindEnum}
    (hissued : ∀ kind t, t ∈ issued kind ↔ t ∈ issueTimes d₂ user.id kind) :
    CooledDown issued kind env ↔ recentlyIssued d₂ env user.id kind = false := by
  rw [recentlyIssued_eq_false]
  unfold CooledDown
  simp only [hissued]

/-- A request that mails a code to the user: its answers agree when it is not refused. -/
theorem answers_cons_iff {v : Visit} {vs : List Visit} {kind : OtpKindEnum} {neutral : Answer}
    {rest : Prop} (hissued : ∀ kind t, t ∈ issued kind ↔ t ∈ issueTimes d₂ user.id kind)
    (h₁ : v.answer b userName d₁ = neutral)
    (hrecent : recentlyIssued d₂ v.env user.id kind = true → v.answer b userName d₂ ≠ neutral)
    (hcool : recentlyIssued d₂ v.env user.id kind = false → v.answer b userName d₂ = neutral ∧
      (answers b userName (v.after b userName d₁) vs =
        answers b userName (v.after b userName d₂) vs ↔ rest)) :
    answers b userName d₁ (v :: vs) = answers b userName d₂ (v :: vs) ↔
      CooledDown issued kind v.env ∧ rest := by
  rw [answers_cons, answers_cons, List.cons.injEq, cooledDown_iff hissued, h₁]
  cases hr : recentlyIssued d₂ v.env user.id kind with
  | true => exact iff_of_false (fun h => hrecent hr h.1.symm) (fun h => nomatch h.1)
  | false =>
    obtain ⟨h₂, hrest⟩ := hcool hr
    rw [h₂, hrest]
    exact and_congr_left' (iff_of_true rfl rfl)

/-- The answers agree along a quiet sequence, and differ at the first request that is not. -/
theorem answers_eq_iff_quiet (hne : email ≠ "") (vs : List Visit)
    (hvs : ∀ v ∈ vs, v.command.email = email) (absent : usersByEmail d₁ email = [])
    (stored : usersByEmail d₂ email = [user])
    (hissued : ∀ kind t, t ∈ issued kind ↔ t ∈ issueTimes d₂ user.id kind) :
    answers b userName d₁ vs = answers b userName d₂ vs ↔ Quiet user issued vs := by
  induction vs generalizing d₁ d₂ issued with
  | nil => exact ⟨fun _ => trivial, fun _ => rfl⟩
  | cons v vs ih =>
    have hrest := fun w hw => hvs w (List.mem_cons_of_mem v hw)
    have hemail := hvs v List.mem_cons_self
    have huser : user.email ≠ "" := by
      have hmem : user ∈ usersByEmail d₂ email := stored ▸ List.mem_singleton_self user
      rw [beq_iff_eq.mp (List.mem_filter.mp hmem).2]
      exact hne
    obtain ⟨command, env⟩ := v
    cases command with
    | register message =>
      obtain rfl : message.email = email := hemail
      refine ⟨fun h => ?_, fun h => h.elim⟩
      have heq := Answer.registered.inj (List.cons.inj h).1
      rw [register_of_stored env stored] at heq
      exact absurd heq (register_of_absent env absent)
    | resend message =>
      obtain rfl : message.email = email := hemail
      obtain ⟨hr₁, hrow₁⟩ := resend_of_absent env absent
      have habsent := (usersByEmail_of_row hrow₁).trans absent
      by_cases hc : user.emailConfirmed = true
      · -- a confirmed user gets no code, and the content stays
        obtain ⟨hr₂, hrow₂⟩ := resend_of_confirmed env stored hc
        have hquiet : Quiet user issued (⟨.resend message, env⟩ :: vs) ↔ Quiet user issued vs := by
          rw [Quiet, if_pos hc]
        rw [hquiet, ← ih hrest habsent ((usersByEmail_of_row hrow₂).trans stored) fun kind t => by
          rw [issueTimes_congr hrow₂]
          exact hissued kind t]
        rw [answers_cons, answers_cons, List.cons.injEq]
        exact and_iff_right (congrArg Answer.sent (hr₁.trans hr₂.symm))
      · rw [Quiet, if_neg hc]
        rw [Bool.not_eq_true] at hc
        refine answers_cons_iff hissued (congrArg Answer.sent hr₁) (fun hr h => ?_) fun hr => ?_
        · have hr₂ := Answer.sent.inj h
          rw [resend_of_recent env stored hc hr] at hr₂
          cases hr₂
        · obtain ⟨hr₂, hrow₂⟩ := resend_of_cool env stored hc huser hr
          exact ⟨congrArg Answer.sent hr₂, ih hrest habsent (stored_of_issued stored hrow₂)
            (mem_update_issued hissued hrow₂)⟩
    | forgotPasswordStep1 message =>
      obtain rfl : message.email = email := hemail
      obtain ⟨hr₁, hrow₁⟩ := step1_of_absent env absent
      have habsent := (usersByEmail_of_row hrow₁).trans absent
      refine answers_cons_iff hissued (congrArg Answer.sent hr₁) (fun hr h => ?_) fun hr => ?_
      · have hr₂ := Answer.sent.inj h
        rw [step1_of_recent env stored hr] at hr₂
        cases hr₂
      · obtain ⟨hr₂, hrow₂⟩ := step1_of_cool env stored hr
        exact ⟨congrArg Answer.sent hr₂, ih hrest habsent (stored_of_issued stored hrow₂)
          (mem_update_issued hissued hrow₂)⟩

/-- **When nothing is revealed.** The two runs give the same answers if and only if no request of
the sequence registers and none that would issue a code comes within the cooldown of an earlier
one. -/
theorem answers_eq_iff (r : TwoRuns) :
    answers b userName r.without r.visits = answers b userName r.registered r.visits ↔
      Quiet r.user (issueTimes r.registered r.user.id) r.visits :=
  answers_eq_iff_quiet r.email_ne r.visits r.forEmail r.absent r.stored fun _ _ => Iff.rfl

end

/-! ## A repeated request -/

/-- Two password resets for Ann within a second, in a database with Ann and in one without. -/
def repeatedReset : TwoRuns where
  email := "ann@example.com"
  email_ne := by decide
  without := contentOf []
  registered := contentOf [.user ann]
  user := ann
  absent := by decide
  stored := by decide
  visits := [⟨.forgotPasswordStep1 ⟨"ann@example.com"⟩, .at 0⟩,
    ⟨.forgotPasswordStep1 ⟨"ann@example.com"⟩, .at 1000000⟩]
  forEmail := by decide

/-- A second reset request meets the cooldown only where the address is registered. -/
theorem answers_ne_repeatedReset :
    answers .plain some repeatedReset.without repeatedReset.visits ≠
      answers .plain some repeatedReset.registered repeatedReset.visits := by
  decide

end ApiTemplate.Identity
