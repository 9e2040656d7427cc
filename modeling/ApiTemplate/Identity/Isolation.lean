import ApiTemplate.Identity.Footprints
import ApiTemplate.TxStore.Lineage

/-!
# Isolation of accounts

Any number of the handlers run concurrently against one database, any statement may fail. What can
become of an account then: nobody changes its address, makes it a superuser or deletes it, and the
rest of it changes only by the commands that name its identifier or its address.
-/

namespace ApiTemplate.Identity

open TxStore

/-! ## The rights of a command -/

/-- What a command may make of a user. A flush writes the columns that were changed over whatever
row stands there by then, so that the row need not be the one that was loaded. -/
inductive Command.Rewrites : Command → UserRow → UserRow → Prop
  | confirms {message : ConfirmEmailCommand} {u : UserRow} (isActive emailConfirmed : Bool)
      (hemail : u.email = message.email)
      (hconfirmed : u.emailConfirmed = true → emailConfirmed = true) :
      Rewrites (.confirmEmail message) u
        { u with isActive := isActive, emailConfirmed := emailConfirmed }
  | resets {message : ForgotPasswordStep3Command} {u : UserRow} (password : Option String)
      (hemail : u.email = message.email) :
      Rewrites (.forgotPasswordStep3 message) u { u with password := password }
  | changes {message : ChangePasswordCommand} {u : UserRow} (password : Option String) :
      Rewrites (.changePassword u.id message) u { u with password := password }
  | edits {message : UserUpdateMeCommand} {u : UserRow} (firstName lastName : String)
      (phone address description information : Option String) (avatarId : Option Id) :
      Rewrites (.userUpdateMe u.id message) u
        { u with
          firstName := firstName
          lastName := lastName
          phone := phone
          address := address
          description := description
          information := information
          avatarId := avatarId }
  | toggles {u : UserRow} (status : ℤ) (isActive : Bool) :
      Rewrites (.userToggleStatus ⟨u.id⟩) u { u with status := status, isActive := isActive }

/-- The rows a command adds: codes, and accounts that nobody has confirmed or logged in to and that
have no privileges. -/
def Command.Adds (c : Command) : Row → Prop
  | .user u => ∃ message, c = .register message ∧ u.email = message.email ∧
    u.isSuperuser = false ∧ u.isActive = false ∧ u.emailConfirmed = false ∧ u.lastLoginTime = none
  | .otp _ => True
  | .apiKey _ | .blob _ => False

/-- What a command makes of a row: API keys and blobs it leaves. -/
def Command.Writes (c : Command) : Row → Row → Prop
  | .user u, .user v => c.Rewrites u v ∨ v = u
  | .otp _, .otp _ => True
  | r, r' => r' = r

def Command.rights (c : Command) : Rights schema := ⟨c.Adds, c.Writes⟩

/-- The address of a user. No command changes it. -/
def addressPart (r : Row) : Option String := r.user?.map UserRow.email

theorem Command.Writes.refl (c : Command) (r : Row) : c.Writes r r := by
  cases r with
  | user u => exact Or.inr rfl
  | otp o => trivial
  | apiKey k => rfl
  | blob b => rfl

theorem Command.Rewrites.email_eq {c : Command} {u v : UserRow} (h : c.Rewrites u v) :
    v.email = u.email := by
  cases h <;> rfl

theorem addressPart_of_writes {c : Command} {r r' : Row} (h : c.Writes r r') :
    addressPart r' = addressPart r := by
  cases r with
  | user u =>
    cases r' with
    | user v =>
      rcases h with h | rfl
      · exact congrArg some h.email_eq
      · rfl
    | otp | apiKey | blob => cases h
  | otp o =>
    cases r' with
    | otp o' => rfl
    | user | apiKey | blob => cases h
  | apiKey | blob =>
    obtain rfl : r' = _ := h
    rfl

/-! ## The handlers keep to their rights -/

section

variable {a : Rights schema} {F : Facts (Option String)}

/-- The common shape of the methods that read one user: the row has been seen. -/
theorem entitled_selectOne {β : Type} (cond : UserRow → Bool) (g : UserRow → β) :
    Entitled addressPart a (do
      let rows ← select (.users cond)
      let found ← Program.ofExcept (oneOrNone rows)
      pure (found.map g) : Tx (Option β)) F fun found G =>
        ∀ x, found = some x → ∃ u, x = g u ∧ cond u = true ∧ (u.id, some u.email) ∈ G := by
  have hread : Entitled addressPart a (select (.users cond)) F fun x G =>
      ∃ H, Shows (σ := schema) addressPart (.query (.users cond)) x H ∧ G = F ∪ H :=
    Entitled.lift (s := (.query (.users cond) : Stmt schema)) trivial
  refine hread.bind fun rows G _ hrows => ?_
  obtain ⟨H, ⟨seen, rfl, rfl⟩, rfl⟩ := hrows
  refine Entitled.ofExcept fun found hone => ?_
  intro x hx
  obtain ⟨u, rfl, rfl⟩ := Option.map_eq_some_iff.mp hx
  have hu : u ∈ (seen.filterMap Row.user?).filter cond := by
    rw [show (seen.filterMap Row.user?).filter cond = [u] from mem_of_oneOrNone hone]
    exact List.mem_singleton_self u
  obtain ⟨hmem, hcond⟩ := List.mem_filter.mp hu
  obtain ⟨r, hr, hru⟩ := List.mem_filterMap.mp hmem
  obtain rfl := Row.user?_eq_some.mp hru
  exact ⟨u, rfl, hcond, Or.inr ⟨_, hr, rfl⟩⟩

theorem entitled_getAggregateForUpdate (id : Id) :
    Entitled addressPart a (UserOrmRepository.getAggregateForUpdate id) F fun found _ =>
      ∀ user, found = some user → user.source.id = id :=
  (entitled_selectOne _ UserAggregate.ofRow).mono fun found G _ h user huser => by
    obtain ⟨u, rfl, hcond, -⟩ := h user huser
    exact beq_iff_eq.mp hcond

theorem entitled_getAggregateForUpdateByEmail (email : String) :
    Entitled addressPart a (UserOrmRepository.getAggregateForUpdateByEmail email) F fun found G =>
      ∀ user, found = some user → (user.source.id, some email) ∈ G :=
  (entitled_selectOne _ UserAggregate.ofRow).mono fun found G _ h user huser => by
    obtain ⟨u, rfl, hcond, hfact⟩ := h user huser
    rw [beq_iff_eq.mp hcond] at hfact
    exact hfact

/-- Statements that no rights are needed for. -/
theorem common_covers (a : Rights schema) : Common (a.Covers addressPart ∅) :=
  ⟨fun _ => trivial, fun _ => trivial, trivial, trivial⟩

theorem entitled_reads {α : Type} {p : Tx α} (hp : ReadsOnly p) :
    Entitled addressPart a p F fun _ _ => True :=
  .of_only ((common_covers a).reads hp)

theorem entitled_refuse {α : Type} (e : List AppExceptionDetail) :
    Entitled addressPart a (do
      Identity.rollback
      pure (.error e) : Tx (ResultDetailed α)) F fun _ _ => True :=
  .of_only ((common_covers a).refuse e)

theorem entitled_announce {α : Type} (events : List DomainEvent) (x : α) :
    Entitled addressPart a (do
      publishMany events
      pure x : Tx α) F fun _ _ => True :=
  .of_only ((common_covers a).announce events x)

variable {c : Command}

theorem covers_invalidatePending (contentId : Id) (kind : OtpKindEnum) (nowEpoch : ℤ) :
    c.rights.Covers addressPart F (.update (.invalidatePending contentId .user kind nowEpoch)) := by
  intro r hg
  cases r with
  | otp o => trivial
  | user | apiKey | blob => cases hg

theorem covers_consumeById (otpId : Id) (nowEpoch : ℤ) :
    c.rights.Covers addressPart F (.update (.consumeById otpId nowEpoch)) := by
  intro r hg
  cases r with
  | otp o => trivial
  | user | apiKey | blob => cases hg

/-- A write to a loaded user, as far as users go. -/
theorem entitled_save {loaded : UserRow} {user : UserAggregate}
    (h : ∀ u : UserRow, u.id = loaded.id → Fits (σ := schema) addressPart F (Row.user u) →
      c.Rewrites u ((⟨loaded, user.source⟩ : UserPatch).apply u)) :
    Entitled addressPart c.rights (UserOrmRepository.save loaded user) F fun _ _ => True := by
  refine (Entitled.lift (s := (.assign ⟨loaded, user.source⟩ : Stmt schema)) ?_).mono
    fun _ _ _ _ => trivial
  intro r hid hfit
  cases r with
  | user u => exact Or.inl (h u hid hfit)
  | otp o => exact Command.Writes.refl c (.otp o)
  | apiKey k => exact Command.Writes.refl c (.apiKey k)
  | blob b => exact Command.Writes.refl c (.blob b)

theorem entitled_invalidatePending (contentId : Id) (kind : OtpKindEnum) (nowEpoch : ℤ) :
    Entitled addressPart c.rights
      (OtpOrmRepository.invalidatePending contentId .user kind nowEpoch) F fun _ _ => True :=
  Entitled.lift_bind (covers_invalidatePending contentId kind nowEpoch) fun _ _ _ => trivial

/-- Any command may add a code. -/
theorem entitled_create (env : Env) (data : OtpCreateDTO) :
    Entitled addressPart c.rights (OtpOrmRepository.create env data) F fun _ _ => True :=
  Entitled.lift_bind
    (s := (.add (fun id => .otp (OtpOrmRepository.row env data id)) fun _ => rfl : Stmt schema))
    (fun _ => trivial) fun _ _ _ => trivial

theorem entitled_addUser {user : UserAggregate}
    (h : ∀ id, c.Adds (.user { user.source with id := id })) :
    Entitled addressPart c.rights (UserOrmRepository.create user) F fun _ _ => True :=
  Entitled.lift_bind (a := c.rights)
    (s := (.add (fun id => .user { user.source with id := id }) fun _ => rfl : Stmt schema)) h
    fun _ _ _ => trivial

theorem entitled_flush : Entitled addressPart a flush F fun _ _ => True :=
  .of_only ⟨trivial, fun _ => trivial⟩

theorem entitled_issue (env : Env) (n : ℕ) (id : Id) (kind : OtpKindEnum) (target : String) :
    Entitled addressPart c.rights (UserConfirmationService.issue env n id kind target) F
      fun _ _ => True := by
  refine (entitled_reads (readsOnly_hasRecentIssue _ _ _ _ _)).bind fun recent _ _ _ => ?_
  split
  · trivial
  · refine (entitled_invalidatePending _ _ _).bind fun _ _ _ _ => ?_
    exact (entitled_create _ _).bind fun _ _ _ _ => trivial

theorem entitled_register (d : Deployment) (env : Env) (message : RegisterCommand) :
    Entitled addressPart (Command.rights (.register message))
      (RegisterCommandHandler.call d.bcrypt d.userName env message) F fun _ _ => True := by
  refine (entitled_reads (readsOnly_registerValidator _)).bind fun valid G _ _ => ?_
  cases valid with
  | error e => trivial
  | ok valid =>
    refine Entitled.withUow (Entitled.bind (Q := fun _ _ => True) ?_ fun registered _ _ _ => ?_)
    · refine .ofExcept fun param hparam => .ofExcept fun user hset => ?_
      obtain ⟨firstName, lastName, -, -, rfl⟩ := UserCreateParams.ofCommand_eq_ok.mp hparam
      obtain ⟨hash, -, rfl⟩ := UserAggregate.setPassword_eq_ok hset
      refine (entitled_addUser fun id => ?_).bind fun user _ _ _ => ?_
      · exact ⟨message, rfl, rfl, rfl, rfl, rfl, rfl⟩
      refine entitled_flush.bind fun _ _ _ _ => ?_
      refine (entitled_issue _ _ _ _ _).bind fun issued _ _ _ => ?_
      cases issued with
      | error e => trivial
      | ok code => exact .ofExcept fun _ _ => trivial
    · cases registered with
      | error e => exact entitled_refuse e
      | ok user => exact entitled_announce _ _

theorem entitled_confirmEmail (env : Env) (message : ConfirmEmailCommand) :
    Entitled addressPart (Command.rights (.confirmEmail message))
      (ConfirmEmailCommandHandler.call env message) F fun _ _ => True := by
  refine .withUow ((entitled_getAggregateForUpdateByEmail _).bind fun found G _ hfound => ?_)
  cases found with
  | none => trivial
  | some user =>
    have hfact := hfound user rfl
    refine (Entitled.of_only (only_confirm (fun _ => trivial) covers_consumeById
      (fun _ => trivial) _ _ _ _ _)).bind fun confirmed H hGH _ => ?_
    cases confirmed with
    | error e => exact entitled_refuse e
    | ok id =>
      refine (entitled_save fun u hid hfit => ?_).bind fun _ _ _ _ => trivial
      rw [← hid] at hfact
      have hemail : some u.email = some message.email := hfit _ (hGH hfact)
      have heq : (⟨user.source, user.confirmEmail.source⟩ : UserPatch).apply u =
          { u with
            isActive := UserPatch.column user.source.isActive true u.isActive
            emailConfirmed :=
              UserPatch.column user.source.emailConfirmed true u.emailConfirmed } := by
        unfold UserPatch.apply UserPatch.column UserAggregate.confirmEmail
        simp
      rw [heq]
      refine .confirms _ _ (Option.some.inj hemail) fun hconfirmed => ?_
      unfold UserPatch.column
      rw [hconfirmed, ite_self]

theorem entitled_resend (env : Env) (message : ResendEmailConfirmationCommand) :
    Entitled addressPart (Command.rights (.resendEmailConfirmation message))
      (ResendEmailConfirmationCommandHandler.call env message) F fun _ _ => True := by
  refine .withUow ((entitled_reads (readsOnly_getAggregateForUpdateByEmail _)).bind
    fun found _ _ _ => ?_)
  cases found with
  | none => trivial
  | some user =>
    dsimp only
    split
    · trivial
    refine (entitled_issue _ _ _ _ _).bind fun issued _ _ _ => ?_
    cases issued with
    | error e => exact entitled_refuse e
    | ok code => exact .ofExcept fun user _ => entitled_announce _ _

theorem entitled_step1 (env : Env) (message : ForgotPasswordStep1Command) :
    Entitled addressPart (Command.rights (.forgotPasswordStep1 message))
      (ForgotPasswordStep1CommandHandler.call env message) F fun _ _ => True := by
  refine .withUow ((entitled_reads (readsOnly_getAggregateForUpdateByEmail _)).bind
    fun found _ _ _ => ?_)
  cases found with
  | none => trivial
  | some user =>
    refine ((entitled_issue _ _ _ _ _).bind (R := fun _ _ => True)
      fun issued _ _ _ => ?_).bind fun issued _ _ _ => ?_
    · cases issued <;> trivial
    cases issued with
    | error e => exact entitled_refuse e
    | ok user => exact entitled_announce _ _

/-- A patch that sets the password, over any row. -/
theorem apply_password (loaded u : UserRow) (password : Option String) :
    (⟨loaded, { loaded with password := password }⟩ : UserPatch).apply u =
      { u with password := UserPatch.column loaded.password password u.password } := by
  unfold UserPatch.apply UserPatch.column
  simp

theorem entitled_step3 (d : Deployment) (env : Env) (message : ForgotPasswordStep3Command) :
    Entitled addressPart (Command.rights (.forgotPasswordStep3 message))
      (ForgotPasswordStep3CommandHandler.call d.bcrypt env message) F fun _ _ => True := by
  refine .withUow ((entitled_getAggregateForUpdateByEmail _).bind fun found G _ hfound => ?_)
  cases found with
  | none => trivial
  | some loaded =>
    have hfact := hfound loaded rfl
    refine (entitled_reads (readsOnly_findActiveForContent _ _ _ _ _)).bind fun otp H hGH _ => ?_
    cases otp with
    | none => trivial
    | some otp =>
      dsimp only
      split
      · trivial
      refine (Entitled.of_only (only_consumeById covers_consumeById _ _)).bind
        fun won I hHI _ => ?_
      split
      · refine .ofExcept fun user hset => ?_
        obtain ⟨hash, -, rfl⟩ := UserAggregate.setPassword_eq_ok hset
        refine (entitled_save fun u hid hfit => ?_).bind fun _ _ _ _ =>
          entitled_announce _ _
        rw [← hid] at hfact
        have hemail : some u.email = some message.email := hfit _ (hHI (hGH hfact))
        rw [apply_password]
        exact .resets _ (Option.some.inj hemail)
      · exact entitled_refuse _

theorem entitled_changePassword (d : Deployment) (env : Env) (userId : Id)
    (message : ChangePasswordCommand) :
    Entitled addressPart (Command.rights (.changePassword userId message))
      (ChangePasswordCommandHandler.call d.bcrypt env userId message) F fun _ _ => True := by
  refine .withUow ((entitled_getAggregateForUpdate _).bind fun found G _ hfound => ?_)
  cases found with
  | none => trivial
  | some loaded =>
    have hloaded := hfound loaded rfl
    dsimp only
    split
    · trivial
    split
    · exact entitled_refuse _
    refine .ofExcept fun user hset => ?_
    obtain ⟨hash, -, rfl⟩ := UserAggregate.setPassword_eq_ok hset
    refine (entitled_save fun u hid hfit => ?_).bind fun _ _ _ _ => trivial
    rw [apply_password, ← hloaded, ← show u.id = loaded.source.id from hid]
    exact .changes _

theorem entitled_userUpdateMe (d : Deployment) (userId : Id) (message : UserUpdateMeCommand) :
    Entitled addressPart (Command.rights (.userUpdateMe userId message))
      (UserUpdateMeCommandHandler.call d.updateParams userId message) F fun _ _ => True := by
  refine .ofExcept fun param _ => .withUow ?_
  refine (entitled_getAggregateForUpdate _).bind fun found G _ hfound => ?_
  cases found with
  | none => trivial
  | some user =>
    have hloaded := hfound user rfl
    refine (entitled_save fun u hid hfit => ?_).bind fun _ _ _ _ => trivial
    have heq : (⟨user.source, (user.update param).source⟩ : UserPatch).apply u =
        { u with
          firstName := UserPatch.column user.source.firstName param.firstName u.firstName
          lastName := UserPatch.column user.source.lastName param.lastName u.lastName
          phone := UserPatch.column user.source.phone param.phone u.phone
          address := UserPatch.column user.source.address param.address u.address
          description := UserPatch.column user.source.description param.description u.description
          information := UserPatch.column user.source.information param.information u.information
          avatarId := UserPatch.column user.source.avatarId param.avatarId u.avatarId } := by
      unfold UserPatch.apply UserPatch.column UserAggregate.update
      simp
    rw [heq, ← hloaded, ← show u.id = user.source.id from hid]
    exact .edits _ _ _ _ _ _ _

theorem covers_toggleStatus (id : Id) :
    (Command.rights (.userToggleStatus ⟨id⟩)).Covers addressPart ∅
      (.update (.toggleStatus id)) := by
  intro r hg
  cases r with
  | user u =>
    obtain rfl : u.id = id := beq_iff_eq.mp hg
    exact Or.inl (.toggles _ _)
  | otp | apiKey | blob => cases hg

end

/-- **The handlers keep to their rights.** -/
theorem entitled_handler (d : Deployment) (env : Env) (c : Command) :
    Entitled addressPart c.rights (c.handler d env) ∅ fun _ _ => True := by
  have h := common_covers c.rights
  cases c with
  | register message => exact entitled_register d env message
  | confirmEmail message => exact entitled_confirmEmail env message
  | resendEmailConfirmation message => exact entitled_resend env message
  | login message => exact .of_only (h.uow (h.reads (readsOnly_login _ _ _ _ _ _)))
  | refreshToken message => exact .of_only (h.uow (h.reads (readsOnly_refresh _ _ _ _)))
  | forgotPasswordStep1 message => exact entitled_step1 env message
  | forgotPasswordStep2 message => exact .of_only (h.only_step2 d env message)
  | forgotPasswordStep3 message => exact entitled_step3 d env message
  | changePassword userId message => exact entitled_changePassword d env userId message
  | userUpdateMe userId message => exact entitled_userUpdateMe d userId message
  | userToggleStatus message =>
    exact .of_only (h.only_userToggleStatus (covers_toggleStatus message.id))

/-! ## What is left of an account -/

namespace UserRow

/-- The columns a user edits himself. -/
def profile (u : UserRow) : List (Option String) × Option Id :=
  ([some u.firstName, some u.lastName, u.phone, u.address, u.description, u.information], u.avatarId)

/-- The columns that say whether the account can be used. -/
def standing (u : UserRow) : ℤ × Bool × Bool := (u.status, u.isActive, u.emailConfirmed)

end UserRow

namespace Command

/-- The command may set the password of this user. -/
def SetsPassword (u : UserRow) : Command → Prop
  | .changePassword userId _ => userId = u.id
  | .forgotPasswordStep3 message => message.email = u.email
  | _ => False

/-- It may edit his profile. -/
def EditsProfile (u : UserRow) : Command → Prop
  | .userUpdateMe userId _ => userId = u.id
  | _ => False

/-- It may change the standing of his account. -/
def ChangesStanding (u : UserRow) : Command → Prop
  | .confirmEmail message => message.email = u.email
  | .userToggleStatus message => message.id = u.id
  | _ => False

end Command

/-- What commands of a set leave of an account. -/
structure Kept (commands : Set Command) (u v : UserRow) : Prop where
  id : v.id = u.id
  email : v.email = u.email
  isSuperuser : v.isSuperuser = u.isSuperuser
  dateJoined : v.dateJoined = u.dateJoined
  lastLoginTime : v.lastLoginTime = u.lastLoginTime
  emailConfirmed : u.emailConfirmed = true → v.emailConfirmed = true
  password : v.password ≠ u.password → ∃ c ∈ commands, c.SetsPassword u
  profile : v.profile ≠ u.profile → ∃ c ∈ commands, c.EditsProfile u
  standing : v.standing ≠ u.standing → ∃ c ∈ commands, c.ChangesStanding u

namespace Kept

variable {commands : Set Command} {u v w : UserRow}

theorem refl (commands : Set Command) (u : UserRow) : Kept commands u u where
  id := rfl
  email := rfl
  isSuperuser := rfl
  dateJoined := rfl
  lastLoginTime := rfl
  emailConfirmed h := h
  password h := absurd rfl h
  profile h := absurd rfl h
  standing h := absurd rfl h

/-- Who may change an account is told by what never changes of it. -/
theorem sets_iff (h : Kept commands u v) (c : Command) :
    (c.SetsPassword v ↔ c.SetsPassword u) ∧ (c.EditsProfile v ↔ c.EditsProfile u) ∧
      (c.ChangesStanding v ↔ c.ChangesStanding u) := by
  cases c <;> simp only [Command.SetsPassword, Command.EditsProfile, Command.ChangesStanding, h.id,
    h.email, and_self]

theorem trans (h : Kept commands u v) (h' : Kept commands v w) : Kept commands u w where
  id := h'.id.trans h.id
  email := h'.email.trans h.email
  isSuperuser := h'.isSuperuser.trans h.isSuperuser
  dateJoined := h'.dateJoined.trans h.dateJoined
  lastLoginTime := h'.lastLoginTime.trans h.lastLoginTime
  emailConfirmed hu := h'.emailConfirmed (h.emailConfirmed hu)
  password hne := by
    by_cases hv : v.password = u.password
    · obtain ⟨c, hc, hsets⟩ := h'.password (hv ▸ hne)
      exact ⟨c, hc, (h.sets_iff c).1.mp hsets⟩
    · exact h.password hv
  profile hne := by
    by_cases hv : v.profile = u.profile
    · obtain ⟨c, hc, hedits⟩ := h'.profile (hv ▸ hne)
      exact ⟨c, hc, (h.sets_iff c).2.1.mp hedits⟩
    · exact h.profile hv
  standing hne := by
    by_cases hv : v.standing = u.standing
    · obtain ⟨c, hc, hchanges⟩ := h'.standing (hv ▸ hne)
      exact ⟨c, hc, (h.sets_iff c).2.2.mp hchanges⟩
    · exact h.standing hv

end Kept

/-- What one write leaves. -/
theorem Command.Rewrites.kept {commands : Set Command} {c : Command} {u v : UserRow}
    (h : c.Rewrites u v) (hc : c ∈ commands) : Kept commands u v := by
  have hstays := Kept.refl commands u
  cases h with
  | confirms isActive emailConfirmed hemail hconfirmed =>
    exact { hstays with
      emailConfirmed := hconfirmed
      password := fun h => absurd rfl h
      profile := fun h => absurd rfl h
      standing := fun _ => ⟨_, hc, hemail.symm⟩ }
  | resets password hemail =>
    exact { hstays with
      password := fun _ => ⟨_, hc, hemail.symm⟩
      profile := fun h => absurd rfl h
      standing := fun h => absurd rfl h }
  | changes password =>
    exact { hstays with
      password := fun _ => ⟨_, hc, rfl⟩
      profile := fun h => absurd rfl h
      standing := fun h => absurd rfl h }
  | edits =>
    exact { hstays with
      password := fun h => absurd rfl h
      profile := fun _ => ⟨_, hc, rfl⟩
      standing := fun h => absurd rfl h }
  | toggles status isActive =>
    exact { hstays with
      password := fun h => absurd rfl h
      profile := fun h => absurd rfl h
      standing := fun _ => ⟨_, hc, rfl⟩ }

/-! ## Any schedule -/

/-- The program of a call, its answer apart. -/
def HandlerCall.program (d : Deployment) (q : HandlerCall) : Tx Unit := do
  let _ ← q.command.handler d q.env
  pure ()

section

variable {τ : Type} {calls : τ → HandlerCall}

/-- The rights of concurrent calls. -/
def callRights (calls : τ → HandlerCall) (t : τ) : Rights schema := (calls t).command.rights

/-- The commands among the calls. -/
def commandsOf (calls : τ → HandlerCall) : Set Command := Set.range fun t => (calls t).command

theorem preserves_address : Preserves (callRights calls) addressPart :=
  fun _ _ _ h => addressPart_of_writes h

theorem entitled_program (d : Deployment) (q : HandlerCall) :
    Entitled addressPart q.command.rights (q.program d) ∅ fun _ _ => True :=
  (entitled_handler d q.env q.command).bind fun _ _ _ _ => trivial

/-- What comes of a user. -/
theorem kept_of_descends {u : UserRow} {r : Row}
    (h : Descends (callRights calls) (Row.user u : schema.Row) r) :
    ∃ v, r = .user v ∧ Kept (commandsOf calls) u v := by
  induction h with
  | refl => exact ⟨u, rfl, .refl _ u⟩
  | @tail r r' _ hw ih =>
    obtain ⟨v, rfl, hv⟩ := ih
    obtain ⟨t, hw⟩ := hw
    cases r' with
    | user w =>
      rcases hw with hw | rfl
      · exact ⟨w, rfl, hv.trans (hw.kept ⟨t, rfl⟩)⟩
      · exact ⟨_, rfl, hv⟩
    | otp | apiKey | blob => cases hw

/-- A user that appears was registered. -/
theorem registered_of_descends {t : τ} {n : Row} {v : UserRow} (hn : (callRights calls t).adds n)
    (h : Descends (callRights calls) (n : schema.Row) (Row.user v)) :
    (∃ t message, (calls t).command = .register message ∧ v.email = message.email ∧
      v.isSuperuser = false) ∧ v.lastLoginTime = none := by
  have haddress : addressPart (Row.user v) = addressPart n := h.part_eq preserves_address
  cases n with
  | user u =>
    obtain ⟨message, hcommand, hemail, hsuper, -, -, hlogin⟩ := hn
    obtain ⟨w, hw, hkept⟩ := kept_of_descends h
    cases hw
    exact ⟨⟨t, message, hcommand, hkept.email.trans hemail, hkept.isSuperuser.trans hsuper⟩,
      hkept.lastLoginTime.trans hlogin⟩
  | otp | apiKey | blob => cases haddress

/-- API keys have no descendants but themselves, and no ancestors. -/
theorem writes_apiKey_iff {c : Command} {r r' : Row} {k : ApiKeyRow}
    (h : r = .apiKey k ∨ r' = .apiKey k) : c.Writes r r' ↔ r' = r := by
  rcases h with rfl | rfl
  · rfl
  · constructor
    · intro hw
      cases r with
      | user | otp => cases hw
      | apiKey | blob => exact hw
    · rintro rfl
      exact Command.Writes.refl c _

theorem eq_of_descends_apiKey {r r' : Row} {k : ApiKeyRow} (h : r = .apiKey k ∨ r' = .apiKey k)
    (hd : Descends (callRights calls) (r : schema.Row) r') : r' = r := by
  induction hd with
  | refl => rfl
  | @tail r₁ r₂ _ hw ih =>
    obtain ⟨t, hw⟩ := hw
    change (calls t).command.Writes r₁ r₂ at hw
    rcases h with rfl | rfl
    · obtain rfl := ih (Or.inl rfl)
      exact (writes_apiKey_iff (Or.inl rfl)).mp hw
    · obtain rfl := (writes_apiKey_iff (Or.inr rfl)).mp hw
      exact ih (Or.inr rfl)

variable {db db' : Content}

/-- Accounts that were there are there. -/
theorem exists_kept (hf : Follows (callRights calls) db db') {u : UserRow} (hu : u ∈ users db) :
    ∃ v ∈ users db', Kept (commandsOf calls) u v := by
  obtain ⟨r, hr, hd⟩ := hf.stays u.id _ (mem_users.mp hu)
  obtain ⟨v, rfl, hkept⟩ := kept_of_descends hd
  refine ⟨v, mem_users.mpr ?_, hkept⟩
  rw [hkept.id]
  exact hr

/-- Accounts that were not there were registered. -/
theorem exists_registered (hf : Follows (callRights calls) db db') {v : UserRow}
    (hv : v ∈ users db') (hnew : ∀ u ∈ users db, u.id ≠ v.id) :
    (∃ t message, (calls t).command = .register message ∧ v.email = message.email ∧
      v.isSuperuser = false) ∧ v.lastLoginTime = none := by
  have hrow := mem_users.mp hv
  cases hold : db.row v.id with
  | none =>
    obtain ⟨t, n, hn, hd⟩ := hf.appears v.id _ hold hrow
    exact registered_of_descends hn hd
  | some r =>
    obtain ⟨r', hr', hd⟩ := hf.stays v.id r hold
    rw [hrow] at hr'
    cases hr'
    have haddress : addressPart (Row.user v) = addressPart r := hd.part_eq preserves_address
    cases r with
    | user u =>
      have hid : u.id = v.id := id_of_row hold
      rw [← hid] at hold
      exact absurd hid (hnew u (mem_users.mpr hold))
    | otp | apiKey | blob => cases haddress

/-- The API keys are the ones that were there. -/
theorem apiKey_row_iff (hf : Follows (callRights calls) db db') {i : Id} {k : ApiKeyRow} :
    db'.row i = some (.apiKey k) ↔ db.row i = some (.apiKey k) := by
  constructor
  · intro h'
    cases hr : db.row i with
    | none =>
      obtain ⟨t, n, hn, hd⟩ := hf.appears i _ hr h'
      obtain rfl : Row.apiKey k = n := eq_of_descends_apiKey (Or.inr rfl) hd
      exact hn.elim
    | some r =>
      obtain ⟨r', hr', hd⟩ := hf.stays i r hr
      rw [h'] at hr'
      cases hr'
      rw [eq_of_descends_apiKey (Or.inr rfl) hd]
  · intro h
    obtain ⟨r', hr', hd⟩ := hf.stays i _ h
    obtain rfl : r' = .apiKey k := eq_of_descends_apiKey (Or.inl rfl) hd
    exact hr'

variable [DecidableEq τ] {d : Deployment} {s s' : Sys schema τ Unit}
  {ok ok' : Sys schema τ Unit → Action τ → Prop}

/-- **Runs.** The handlers leave descendants of what was committed. -/
theorem follows_calls (hs : Reach Sys.step ok (Sys.start db fun t => (calls t).program d) s)
    (hs' : Reach Sys.step ok' s s') : Follows (callRights calls) s.store.base s'.store.base :=
  Sys.follows_of_reach preserves_address (fun t => entitled_program d (calls t)) hs hs'

variable (calls d) in
/-- **Isolation.** Between two moments of any run of concurrent handlers, failures included: every
account is still there, with its address and its privileges; its password, its profile and its
standing have changed only if a command ran that names this account for it; and every new account
has the address of a registration, and no privileges. -/
theorem accounts_isolated
    (hs : Reach Sys.step ok (Sys.start db fun t => (calls t).program d) s)
    (hs' : Reach Sys.step ok' s s') :
    (∀ u ∈ users s.store.base, ∃ v ∈ users s'.store.base, Kept (commandsOf calls) u v) ∧
      ∀ v ∈ users s'.store.base, (∀ u ∈ users s.store.base, u.id ≠ v.id) →
        ∃ t message, (calls t).command = .register message ∧ v.email = message.email ∧
          v.isSuperuser = false := by
  have hf := follows_calls hs hs'
  exact ⟨fun u hu => exists_kept hf hu, fun v hv hnew => (exists_registered hf hv hnew).1⟩

end

/-- Ann edits her profile while somebody signs up as Bob. -/
def annAndBob : Bool → HandlerCall
  | true => ⟨.at 0, .userUpdateMe 0 { firstName := "Anne", lastName := "Lee" }⟩
  | false => ⟨.at 0, .register
    { email := "bob@example.com", password := "secret123", firstName := "Bob", lastName := "Ray" }⟩

def annAndBobStart : Sys schema Bool Unit :=
  .start (contentOf [.user ann]) fun t => (annAndBob t).program .plain

/-- Ann's flush comes between the registration and the code that goes with it. -/
def annAndBobRun : Option (Sys schema Bool Unit) :=
  runActions Sys.step (fun _ _ => True) annAndBobStart
    ([true, false, false, false, true, true, true, false, false, false, false, false, false, false].map
      .exec)

theorem isSome_annAndBobRun : annAndBobRun.isSome := by decide +kernel

theorem accounts_isolated_annAndBob :
    (∃ v ∈ users (annAndBobRun.get isSome_annAndBobRun).store.base,
      v.firstName = "Anne" ∧ Kept (commandsOf annAndBob) ann v) ∧
    ∃ v ∈ users (annAndBobRun.get isSome_annAndBobRun).store.base, v.email = "bob@example.com" ∧
      ∃ t message, (annAndBob t).command = .register message ∧ v.email = message.email ∧
        v.isSuperuser = false := by
  have hann : ann ∈ users annAndBobStart.store.base := by decide +kernel
  have honly : ∀ u ∈ users annAndBobStart.store.base, u.id = 0 := by decide +kernel
  have hnames : ∀ v ∈ users (annAndBobRun.get isSome_annAndBobRun).store.base,
      v.id = 0 → v.firstName = "Anne" := by decide +kernel
  have hbob : ∃ v ∈ users (annAndBobRun.get isSome_annAndBobRun).store.base,
      v.email = "bob@example.com" ∧ v.id ≠ 0 := by decide +kernel
  have hrun : Reach Sys.step (fun _ _ => True) annAndBobStart
      (annAndBobRun.get isSome_annAndBobRun) := Reach.of_runActions (Option.some_get _).symm
  have hstart : Reach Sys.step (fun _ _ => True) annAndBobStart annAndBobStart := .refl
  generalize annAndBobRun.get isSome_annAndBobRun = s at hnames hbob hrun ⊢
  obtain ⟨hkept, hnew⟩ := accounts_isolated annAndBob .plain hstart hrun
  obtain ⟨v, hv, hkept⟩ := hkept ann hann
  refine ⟨⟨v, hv, hnames v hv hkept.id, hkept⟩, ?_⟩
  obtain ⟨v, hv, hemail, hid⟩ := hbob
  refine ⟨v, hv, hemail, hnew v hv fun u hu hvu => hid ?_⟩
  rw [← hvu, honly u hu]

end ApiTemplate.Identity
