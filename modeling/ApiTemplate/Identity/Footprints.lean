import ApiTemplate.Identity.Commands

/-!
# What the handlers issue

Which statements the programs of the handlers can issue, whatever the database answers.
-/

namespace ApiTemplate.Identity

open TxStore

/-! ## Reading, and leaving the commit to others -/

/-- The program only reads. -/
abbrev ReadsOnly {α : Type} (p : Tx α) : Prop := p.Only fun s => s.isQuery = true

/-- The program leaves the commit to its unit of work. -/
abbrev NoCommit {α : Type} (p : Tx α) : Prop := p.Only fun s => s.isCommit = false

theorem readsOnly_select (q : Select) : ReadsOnly (select q) := .lift rfl

/-- The common shape of the methods that read one user. -/
theorem readsOnly_selectOne {β : Type} (cond : UserRow → Bool) (g : UserRow → β) :
    ReadsOnly (do
      let rows ← select (.users cond)
      let found ← Program.ofExcept (oneOrNone rows)
      pure (found.map g)) :=
  (readsOnly_select _).bind fun rows => by
    cases oneOrNone rows <;> trivial

theorem readsOnly_existsByEmail (email : String) :
    ReadsOnly (UserOrmRepository.existsByEmail email) :=
  (readsOnly_select _).bind fun _ => trivial

theorem readsOnly_registerValidator (cmd : RegisterCommand) :
    ReadsOnly (RegisterValidator.call cmd) := by
  refine (readsOnly_existsByEmail _).bind fun found => ?_
  split <;> trivial

theorem readsOnly_existsById (id : Id) : ReadsOnly (UserOrmRepository.existsById id) :=
  (readsOnly_select _).bind fun _ => trivial

theorem readsOnly_getAggregateForUpdate (id : Id) :
    ReadsOnly (UserOrmRepository.getAggregateForUpdate id) :=
  readsOnly_selectOne _ UserAggregate.ofRow

theorem readsOnly_getAggregateForUpdateByEmail (email : String) :
    ReadsOnly (UserOrmRepository.getAggregateForUpdateByEmail email) :=
  readsOnly_selectOne _ UserAggregate.ofRow

theorem readsOnly_findActiveForContent (env : Env) (otp : String) (id : Id) (kind : OtpKindEnum)
    (contentType : ContentTypeEnum) :
    ReadsOnly (OtpOrmRepository.findActiveForContent env otp id kind contentType) :=
  (readsOnly_select _).bind fun _ => trivial

theorem readsOnly_hasRecentIssue (env : Env) (id : Id) (contentType : ContentTypeEnum)
    (kind : OtpKindEnum) (minutes : ℤ) :
    ReadsOnly (OtpOrmRepository.hasRecentIssue env id contentType kind minutes) :=
  (readsOnly_select _).bind fun _ => trivial

theorem readsOnly_getByEmailForPasswordRecovery (baseUrl email : String) :
    ReadsOnly (UserOrmRepository.getByEmailForPasswordRecovery baseUrl email) :=
  (readsOnly_select _).bind fun rows => by
    cases oneOrNone rows <;> trivial

theorem readsOnly_login (b : Bcrypt) (jwt : PyJwt) (config : JwtConfig) (env : Env)
    (email password : String) : ReadsOnly (AuthService.login b jwt config env email password) := by
  refine (readsOnly_selectOne _ UserOrmRepository.toAuth).bind fun found => ?_
  cases found with
  | none => trivial
  | some found =>
    dsimp only
    split
    · trivial
    split
    · trivial
    · exact .ofExcept fun _ _ => trivial

theorem readsOnly_refresh (jwt : PyJwt) (config : JwtConfig) (env : Env) (token : String) :
    ReadsOnly (AuthService.refresh jwt config env token) := by
  refine .ofExcept fun payload _ => ?_
  cases payload with
  | none => trivial
  | some payload =>
    dsimp only
    split
    · trivial
    split
    · trivial
    refine (readsOnly_selectOne _ UserOrmRepository.toContext).bind fun found => ?_
    cases found with
    | none => trivial
    | some user =>
      dsimp only
      split
      · trivial
      · exact .ofExcept fun _ _ => trivial

theorem readsOnly_step2 (baseUrl : String) (env : Env) (message : ForgotPasswordStep2Command) :
    ∃ body, ForgotPasswordStep2CommandHandler.call baseUrl env message = withUow body ∧
      ReadsOnly body := by
  refine ⟨_, rfl, (readsOnly_getByEmailForPasswordRecovery _ _).bind fun found => ?_⟩
  cases found with
  | none => trivial
  | some found =>
    refine (readsOnly_findActiveForContent _ _ _ _ _).bind fun otp => ?_
    cases otp with
    | none => trivial
    | some otp =>
      dsimp only
      split
      · trivial
      split
      · trivial
      · trivial

theorem noCommit_of_readsOnly {α : Type} {p : Tx α} (h : ReadsOnly p) : NoCommit p :=
  h.mono fun _ => Stmt.isCommit_of_isQuery

/-! ## The statements of the handlers -/

section

variable {A : Stmt schema → Prop}

theorem only_publishMany (hemit : ∀ event, A (.emit event)) (events : List DomainEvent) :
    (publishMany events).Only A := by
  induction events with
  | nil => trivial
  | cons event events ih => exact .bind (.lift (hemit event)) fun _ => ih

theorem only_issue (hquery : ∀ q, A (.query q)) (hadd : ∀ row keyed, A (.add row keyed))
    (hretire : ∀ id kind now, A (.update (.invalidatePending id .user kind now))) (env : Env) (n : ℕ)
    (id : Id) (kind : OtpKindEnum) (target : String) :
    (UserConfirmationService.issue env n id kind target).Only A := by
  refine .bind (.bind (.lift (hquery _)) fun _ => trivial) fun recent => ?_
  split
  · trivial
  · refine .bind (.bind (.lift (hretire _ _ _)) fun _ => trivial) fun _ => ?_
    exact .bind (.bind (.lift (hadd _ _)) fun _ => trivial) fun _ => trivial

theorem only_register (hquery : ∀ q, A (.query q)) (hadd : ∀ row keyed, A (.add row keyed))
    (hretire : ∀ id kind now, A (.update (.invalidatePending id .user kind now))) (hflush : A .flush)
    (b : Bcrypt) (userName : String → Option String) (env : Env) (cmd : RegisterCommand) :
    (UserRegistrationService.register b userName env cmd).Only A := by
  refine .ofExcept fun param _ => .ofExcept fun user _ => ?_
  refine .bind (.bind (.lift (hadd _ _)) fun _ => trivial) fun user => .bind (.lift hflush) fun _ => ?_
  refine (only_issue hquery hadd hretire _ _ _ _ _).bind fun issued => ?_
  cases issued with
  | error e => trivial
  | ok code => exact .ofExcept fun _ _ => trivial

theorem only_consumeById (hconsume : ∀ id now, A (.update (.consumeById id now))) (id : Id)
    (nowEpoch : ℤ) : (OtpOrmRepository.consumeById id nowEpoch).Only A :=
  .bind (.lift (hconsume _ _)) fun _ => trivial

theorem only_toggleStatus {id : Id} (htoggle : A (.update (.toggleStatus id))) :
    (UserOrmRepository.toggleStatus id).Only A :=
  .bind (.lift htoggle) fun _ => trivial

theorem only_confirm (hquery : ∀ q, A (.query q))
    (hconsume : ∀ id now, A (.update (.consumeById id now))) (hemit : ∀ event, A (.emit event))
    (env : Env) (n : ℕ) (id : Id) (otp : String) (kind : OtpKindEnum) :
    (UserConfirmationService.confirm env n id otp kind).Only A := by
  unfold UserConfirmationService.confirm
  cases UserConfirmationService.eventByKind kind with
  | none => trivial
  | some eventType =>
    refine .bind (.bind (.lift (hquery _)) fun _ => trivial) fun found => ?_
    cases found with
    | none => trivial
    | some o =>
      dsimp only
      split
      · trivial
      split
      · trivial
      refine (only_consumeById hconsume _ _).bind fun won => ?_
      split
      · exact .bind (.lift (hemit _)) fun _ => trivial
      · trivial

/-- The statements that a handler may issue whatever its command does. -/
structure Common (A : Stmt schema → Prop) : Prop where
  query : ∀ q, A (.query q)
  emit : ∀ event, A (.emit event)
  commit : A .commit
  rollback : A .rollback

namespace Common

variable (h : Common A)
include h

theorem reads {α : Type} {p : Tx α} (hp : ReadsOnly p) : p.Only A :=
  hp.mono fun s hs => by
    cases s with
    | query q => exact h.query q
    | update | add | assign | emit | flush | commit | rollback => cases hs

theorem uow {α : Type} {body : Tx α} (hbody : body.Only A) : (withUow body).Only A :=
  hbody.withUow h.commit h.rollback

/-- A refusal after a rollback. -/
theorem refuse {α : Type} (e : List AppExceptionDetail) : (do
    Identity.rollback
    pure (.error e) : Tx (ResultDetailed α)).Only A :=
  .bind (.lift h.rollback) fun _ => trivial

theorem announce {α : Type} (events : List DomainEvent) (a : α) : (do
    publishMany events
    pure a : Tx α).Only A :=
  (only_publishMany h.emit events).bind fun _ => trivial

variable (d : Deployment) (env : Env)

theorem only_register (hadd : ∀ row keyed, A (.add row keyed))
    (hretire : ∀ id kind now, A (.update (.invalidatePending id .user kind now))) (hflush : A .flush)
    (message : RegisterCommand) :
    (RegisterCommandHandler.call d.bcrypt d.userName env message).Only A := by
  refine (h.reads (readsOnly_registerValidator _)).bind fun valid => ?_
  cases valid with
  | error e => trivial
  | ok u =>
    refine h.uow (.bind (Identity.only_register h.query hadd hretire hflush _ _ _ _)
      fun registered => ?_)
    cases registered with
    | error e => exact h.refuse e
    | ok user => exact h.announce _ _

theorem only_confirmEmail (hconsume : ∀ id now, A (.update (.consumeById id now)))
    (hassign : ∀ p, A (.assign p)) (message : ConfirmEmailCommand) :
    (ConfirmEmailCommandHandler.call env message).Only A := by
  refine h.uow ((h.reads (readsOnly_getAggregateForUpdateByEmail _)).bind fun found => ?_)
  cases found with
  | none => trivial
  | some user =>
    refine (only_confirm h.query hconsume h.emit _ _ _ _ _).bind fun confirmed => ?_
    cases confirmed with
    | error e => exact h.refuse e
    | ok id => exact .bind (.lift (hassign _)) fun _ => trivial

theorem only_resend (hadd : ∀ row keyed, A (.add row keyed))
    (hretire : ∀ id kind now, A (.update (.invalidatePending id .user kind now)))
    (message : ResendEmailConfirmationCommand) :
    (ResendEmailConfirmationCommandHandler.call env message).Only A := by
  refine h.uow ((h.reads (readsOnly_getAggregateForUpdateByEmail _)).bind fun found => ?_)
  cases found with
  | none => trivial
  | some user =>
    dsimp only
    split
    · trivial
    refine (only_issue h.query hadd hretire _ _ _ _ _).bind fun issued => ?_
    cases issued with
    | error e => exact h.refuse e
    | ok code => exact .ofExcept fun user _ => h.announce _ _

theorem only_step1 (hadd : ∀ row keyed, A (.add row keyed))
    (hretire : ∀ id kind now, A (.update (.invalidatePending id .user kind now)))
    (message : ForgotPasswordStep1Command) :
    (ForgotPasswordStep1CommandHandler.call env message).Only A := by
  refine h.uow ((h.reads (readsOnly_getAggregateForUpdateByEmail _)).bind fun found => ?_)
  cases found with
  | none => trivial
  | some user =>
    refine .bind ((only_issue h.query hadd hretire _ _ _ _ _).bind fun issued => ?_) fun issued => ?_
    · cases issued <;> trivial
    cases issued with
    | error e => exact h.refuse e
    | ok user => exact h.announce _ _

theorem only_step2 (message : ForgotPasswordStep2Command) :
    (ForgotPasswordStep2CommandHandler.call d.baseUrl env message).Only A := by
  obtain ⟨body, hbody, hreads⟩ := readsOnly_step2 d.baseUrl env message
  rw [hbody]
  exact h.uow (h.reads hreads)

variable (hsave : ∀ p : UserPatch, p.current.isActive = p.loaded.isActive → A (.assign p))
include hsave

theorem only_step3 (hconsume : ∀ id now, A (.update (.consumeById id now)))
    (message : ForgotPasswordStep3Command) :
    (ForgotPasswordStep3CommandHandler.call d.bcrypt env message).Only A := by
  refine h.uow ((h.reads (readsOnly_getAggregateForUpdateByEmail _)).bind fun found => ?_)
  cases found with
  | none => trivial
  | some loaded =>
    refine (h.reads (readsOnly_findActiveForContent _ _ _ _ _)).bind fun otp => ?_
    cases otp with
    | none => trivial
    | some otp =>
      dsimp only
      split
      · trivial
      refine (only_consumeById hconsume _ _).bind fun won => ?_
      split
      · refine .ofExcept fun user hset => ?_
        obtain ⟨hash, -, rfl⟩ := UserAggregate.setPassword_eq_ok hset
        exact .bind (.lift (hsave _ rfl)) fun _ => h.announce _ _
      · exact h.refuse _

theorem only_changePassword (userId : Id) (message : ChangePasswordCommand) :
    (ChangePasswordCommandHandler.call d.bcrypt env userId message).Only A := by
  refine h.uow ((h.reads (readsOnly_getAggregateForUpdate _)).bind fun found => ?_)
  cases found with
  | none => trivial
  | some loaded =>
    dsimp only
    split
    · trivial
    split
    · exact h.refuse _
    refine .ofExcept fun user hset => ?_
    obtain ⟨hash, -, rfl⟩ := UserAggregate.setPassword_eq_ok hset
    exact .bind (.lift (hsave _ rfl)) fun _ => trivial

theorem only_userUpdateMe (userId : Id) (message : UserUpdateMeCommand) :
    (UserUpdateMeCommandHandler.call d.updateParams userId message).Only A := by
  refine .ofExcept fun param _ => h.uow ?_
  refine (h.reads (readsOnly_getAggregateForUpdate _)).bind fun found => ?_
  cases found with
  | none => trivial
  | some user => exact .bind (.lift (hsave _ rfl)) fun _ => trivial

omit hsave

theorem only_userToggleStatus {message : UserToggleStatusCommand}
    (htoggle : A (.update (.toggleStatus message.id))) :
    (UserToggleStatusCommandHandler.call message).Only A := by
  refine h.uow ((h.reads (readsOnly_existsById _)).bind fun found => ?_)
  cases found with
  | false => trivial
  | true => exact (only_toggleStatus htoggle).bind fun _ => trivial

end Common

end

theorem noCommit_publishMany (events : List DomainEvent) : NoCommit (publishMany events) :=
  only_publishMany (fun _ => rfl) events

theorem noCommit_consumeById (id : Id) (nowEpoch : ℤ) :
    NoCommit (OtpOrmRepository.consumeById id nowEpoch) :=
  only_consumeById (A := fun s => s.isCommit = false) (fun _ _ => rfl) id nowEpoch

theorem noCommit_toggleStatus (id : Id) : NoCommit (UserOrmRepository.toggleStatus id) :=
  only_toggleStatus (A := fun s => s.isCommit = false) rfl

theorem noCommit_issue (env : Env) (n : ℕ) (id : Id) (kind : OtpKindEnum) (target : String) :
    NoCommit (UserConfirmationService.issue env n id kind target) :=
  only_issue (fun _ => rfl) (fun _ _ => rfl) (fun _ _ _ => rfl) env n id kind target

theorem noCommit_confirm (env : Env) (n : ℕ) (id : Id) (otp : String) (kind : OtpKindEnum) :
    NoCommit (UserConfirmationService.confirm env n id otp kind) :=
  only_confirm (A := fun s => s.isCommit = false) (fun _ => rfl) (fun _ _ => rfl) (fun _ => rfl) env n
    id otp kind

theorem noCommit_register (b : Bcrypt) (userName : String → Option String) (env : Env)
    (cmd : RegisterCommand) : NoCommit (UserRegistrationService.register b userName env cmd) :=
  only_register (A := fun s => s.isCommit = false) (fun _ => rfl) (fun _ _ => rfl) (fun _ _ _ => rfl)
    rfl b userName env cmd

/-! ## Leaving the flag of a user -/

/-- The `is_active` of the user `id`, in a row that is his. -/
def activeAt (id : Id) (r : Row) : Option Bool :=
  if r.id = id then r.user?.map UserRow.isActive else none

/-- The program leaves the `is_active` of the user `id`. -/
abbrev KeepsActive {α : Type} (id : Id) (p : Tx α) : Prop :=
  p.Only (Stmt.Keeps (σ := schema) (activeAt id))

section

variable (id : Id)

theorem common_keeps : Common (Stmt.Keeps (σ := schema) (activeAt id)) :=
  ⟨fun _ => trivial, fun _ => trivial, trivial, trivial⟩

/-- Writes to the codes leave the users. -/
theorem keeps_consumeById (otpId : Id) (nowEpoch : ℤ) :
    (Stmt.update (.consumeById otpId nowEpoch) : Stmt schema).Keeps (activeAt id) := by
  intro r _
  cases r <;> rfl

theorem keeps_invalidatePending (contentId : Id) (kind : OtpKindEnum) (nowEpoch : ℤ) :
    (Stmt.update (.invalidatePending contentId .user kind nowEpoch) : Stmt schema).Keeps
      (activeAt id) := by
  intro r _
  cases r <;> rfl

/-- So does the toggle of another user. -/
theorem keeps_toggleStatus {other : Id} (h : other ≠ id) :
    (Stmt.update (.toggleStatus other) : Stmt schema).Keeps (activeAt id) := by
  intro r hg
  cases r with
  | user u =>
    have hu : u.id = other := beq_iff_eq.mp hg
    have hne : u.id ≠ id := hu ▸ h
    exact (if_neg hne).trans (if_neg hne).symm
  | otp o => rfl
  | apiKey k => rfl
  | blob b => rfl

/-- So does a write of other columns. -/
theorem keeps_assign (p : UserPatch) (h : p.current.isActive = p.loaded.isActive) :
    (Stmt.assign p : Stmt schema).Keeps (activeAt id) := by
  intro r
  cases r with
  | user u =>
    have hcolumn : (p.apply u).isActive = u.isActive := if_pos h
    change (if u.id = id then some (p.apply u).isActive else none) =
      if u.id = id then some u.isActive else none
    rw [hcolumn]
  | otp o => rfl
  | apiKey k => rfl
  | blob b => rfl

end

/-- The commands that can change the `is_active` of the user `id`. -/
def Command.TouchesActive (id : Id) : Command → Prop
  | .confirmEmail _ => True
  | .userToggleStatus message => message.id = id
  | _ => False

theorem Command.TouchesActive.confirms_or_toggles {id : Id} {c : Command} (h : c.TouchesActive id) :
    (∃ message, c = .confirmEmail message) ∨ c = .userToggleStatus ⟨id⟩ := by
  cases c with
  | confirmEmail message => exact Or.inl ⟨message, rfl⟩
  | userToggleStatus message =>
    obtain rfl : message.id = id := h
    exact Or.inr rfl
  | register | resendEmailConfirmation | login | refreshToken | forgotPasswordStep1
  | forgotPasswordStep2 | forgotPasswordStep3 | changePassword | userUpdateMe => cases h

/-- **What can change the flag.** Only a confirmation, and the toggle of this user. -/
theorem keepsActive_handler (d : Deployment) (env : Env) (id : Id) {c : Command}
    (hc : ¬c.TouchesActive id) : KeepsActive id (c.handler d env) := by
  have h := common_keeps id
  cases c with
  | register message =>
    exact h.only_register d env (fun _ _ => trivial) (keeps_invalidatePending id) trivial message
  | confirmEmail message => exact absurd trivial hc
  | resendEmailConfirmation message =>
    exact h.only_resend env (fun _ _ => trivial) (keeps_invalidatePending id) message
  | login message => exact h.uow (h.reads (readsOnly_login _ _ _ _ _ _))
  | refreshToken message => exact h.uow (h.reads (readsOnly_refresh _ _ _ _))
  | forgotPasswordStep1 message =>
    exact h.only_step1 env (fun _ _ => trivial) (keeps_invalidatePending id) message
  | forgotPasswordStep2 message => exact h.only_step2 d env message
  | forgotPasswordStep3 message =>
    exact h.only_step3 d env (keeps_assign id) (keeps_consumeById id) message
  | changePassword userId message => exact h.only_changePassword d env (keeps_assign id) userId message
  | userUpdateMe userId message => exact h.only_userUpdateMe d (keeps_assign id) userId message
  | userToggleStatus message => exact h.only_userToggleStatus (keeps_toggleStatus id hc)

end ApiTemplate.Identity
