import ApiTemplate.Identity.UserConfirmationService

/-!
# Command handlers of the identity module

Registration, email confirmation, the resend of its code, the three steps of a password reset, and
the account commands, with the services they go through. A handler owns its unit of work.
-/

namespace ApiTemplate.Identity

open TxStore

/-! ## Commands -/

structure RegisterCommand where
  email : String
  password : String
  firstName : String
  lastName : String
  phone : Option String := none
  address : Option String := none

structure ConfirmEmailCommand where
  email : String
  otp : String

structure ResendEmailConfirmationCommand where
  email : String

structure ForgotPasswordStep1Command where
  email : String

structure ForgotPasswordStep2Command where
  email : String
  otp : String

structure ForgotPasswordStep3Command where
  email : String
  otp : String
  newPassword : String

structure ChangePasswordCommand where
  oldPassword : String
  newPassword : String

structure UserUpdateMeCommand where
  firstName : String
  lastName : String
  phone : Option String := none
  address : Option String := none
  description : Option String := none
  information : Option String := none
  avatarId : Option Id := none

structure UserToggleStatusCommand where
  id : Id

/-- `MessageResponseDTO` and its subclasses. -/
structure MessageResponseDTO where
  data : String
  deriving DecidableEq, Repr

/-! ## Services -/

/-- The arguments that `UserRegistrationService.register` takes from the command. -/
def RegisterCommand.params (cmd : RegisterCommand) : UserCreateParams where
  email := cmd.email
  firstName := cmd.firstName
  lastName := cmd.lastName
  phone := cmd.phone
  address := cmd.address

/-- The constructor of `UserCreateParams` on a validated command: the names pass `ATUserName` a
second time, the other fields are accepted as they are. -/
def UserCreateParams.ofCommand (userName : String → Option String) (cmd : RegisterCommand) :
    Except Exn UserCreateParams :=
  match userName cmd.firstName, userName cmd.lastName with
  | some firstName, some lastName => .ok { cmd.params with firstName, lastName }
  | _, _ => .error .validationError

theorem UserCreateParams.ofCommand_eq_ok {userName : String → Option String} {cmd : RegisterCommand}
    {param : UserCreateParams} : ofCommand userName cmd = .ok param ↔
      ∃ firstName lastName, userName cmd.firstName = some firstName ∧
        userName cmd.lastName = some lastName ∧
        { cmd.params with firstName, lastName } = param := by
  unfold ofCommand
  cases userName cmd.firstName with
  | none => simp
  | some firstName => cases userName cmd.lastName <;> simp

/-- Builds the user of a signup and issues its code. The clock is read once before `issue`. -/
def UserRegistrationService.register (b : Bcrypt) (userName : String → Option String) (env : Env)
    (cmd : RegisterCommand) : Tx (ResultDetailed UserAggregate) := do
  let param ← Program.ofExcept (UserCreateParams.ofCommand userName cmd)
  let user := UserAggregate.register param (env.clock 0)
  let user ← Program.ofExcept (user.setPassword b cmd.password env.salt)
  let user ← UserOrmRepository.create user
  flush
  match ← UserConfirmationService.issue env 1 user.source.id .emailConfirmation user.source.email with
  | .error e => pure (.error e)
  | .ok code =>
    let user ← Program.ofExcept (user.markRegistered code)
    pure (.ok user)

namespace ForgotPasswordService

def issueResetCode (env : Env) (userAggr : UserAggregate) : Tx (ResultDetailed UserAggregate) := do
  match ← UserConfirmationService.issue env 0 userAggr.source.id .forgotPassword
      userAggr.source.email with
  | .error e => pure (.error e)
  | .ok code =>
    pure (.ok (userAggr.addDomainEvent
      (.forgotPasswordStep1 userAggr.source.id userAggr.source.email code)))

def announcePasswordChanged (userAggr : UserAggregate) (newPassword : String) : UserAggregate :=
  userAggr.addDomainEvent (.forgotPasswordStep2 userAggr.source.id userAggr.source.email newPassword
    (fullName userAggr.source.firstName userAggr.source.lastName))

end ForgotPasswordService

/-- The email is the login, so it must be unique. -/
def RegisterValidator.call (cmd : RegisterCommand) : Tx (ResultDetailed Unit) := do
  if ← UserOrmRepository.existsByEmail cmd.email then
    pure (.error [{
      status := .uniqueConstraint
      field := some "email"
      message := some "This email address is already registered" }])
  else pure (.ok ())

/-! ## Registration and confirmation -/

/-- `_NEUTRAL_SENT` of the auth handlers. -/
def neutralSent : String := "If the address is registered, a code has been sent to it"

def RegisterCommandHandler.call (b : Bcrypt) (userName : String → Option String) (env : Env)
    (message : RegisterCommand) : Tx (ResultDetailed Unit) := do
  match ← RegisterValidator.call message with
  | .error e => pure (.error e)
  | .ok () => withUow do
    match ← UserRegistrationService.register b userName env message with
    | .error e => do
      rollback
      pure (.error e)
    | .ok user => do
      publishMany user.events
      pure (.ok ())

def ConfirmEmailCommandHandler.call (env : Env) (message : ConfirmEmailCommand) :
    Tx (ResultDetailed Unit) := withUow do
  match ← UserOrmRepository.getAggregateForUpdateByEmail message.email with
  | none => pure (.error [{
      status := .invalidOtp
      field := some "otp"
      message := some "Invalid confirmation code" }])
  | some user =>
    match ← UserConfirmationService.confirm env 0 user.source.id message.otp .emailConfirmation with
    | .error e => do
      rollback
      pure (.error e)
    | .ok _ => do
      UserOrmRepository.save user.source user.confirmEmail
      pure (.ok ())

def ResendEmailConfirmationCommandHandler.call (env : Env) (message : ResendEmailConfirmationCommand) :
    Tx (ResultDetailed MessageResponseDTO) := withUow do
  match ← UserOrmRepository.getAggregateForUpdateByEmail message.email with
  | none => pure (.ok ⟨neutralSent⟩)
  | some user =>
    if user.source.emailConfirmed then pure (.ok ⟨neutralSent⟩)
    else
      match ← UserConfirmationService.issue env 0 user.source.id .emailConfirmation
          user.source.email with
      | .error e => do
        rollback
        pure (.error e)
      | .ok code => do
        let user ← Program.ofExcept (user.markRegistered code)
        publishMany user.events
        pure (.ok ⟨neutralSent⟩)

/-! ## Password reset -/

/-- `_NEUTRAL_SENT` of the forgot-password handlers. -/
def neutralResetSent : String := "If the address is registered, a reset code has been sent to it"

def ForgotPasswordStep1CommandHandler.call (env : Env) (message : ForgotPasswordStep1Command) :
    Tx (ResultDetailed MessageResponseDTO) := withUow do
  match ← UserOrmRepository.getForPasswordReset message.email with
  | none => pure (.ok ⟨neutralResetSent⟩)
  | some userAggr =>
    match ← ForgotPasswordService.issueResetCode env userAggr with
    | .error e => do
      rollback
      pure (.error e)
    | .ok userAggr => do
      publishMany userAggr.events
      pure (.ok ⟨neutralResetSent⟩)

/-- Check the code without spending it. -/
def ForgotPasswordStep2CommandHandler.call (baseUrl : String) (env : Env)
    (message : ForgotPasswordStep2Command) :
    Tx (ResultDetailed ForgotPasswordStep2ResponseDTO) := withUow do
  match ← UserOrmRepository.getByEmailForPasswordRecovery baseUrl message.email with
  | none => pure (.error [invalidOtp])
  | some found =>
    match ← OtpOrmRepository.findActiveForContent env message.otp found.id .forgotPassword .user with
    | none => pure (.error [invalidOtp])
    | some otp =>
      if otp.usedAt.isSome then pure (.error [invalidOtp])
      else if otp.expiresAt < epoch (env.clock 0) then pure (.error [expired])
      else pure (.ok found)

/-- Spend the code and set the new password. -/
def ForgotPasswordStep3CommandHandler.call (b : Bcrypt) (env : Env)
    (message : ForgotPasswordStep3Command) : Tx (ResultDetailed MessageResponseDTO) := withUow do
  match ← UserOrmRepository.getForPasswordReset message.email with
  | none => pure (.error [invalidOtp])
  | some loaded =>
    match ← OtpOrmRepository.findActiveForContent env message.otp loaded.source.id .forgotPassword
        .user with
    | none => pure (.error [invalidOtp])
    | some otp =>
      if otp.expiresAt < epoch (env.clock 0) then pure (.error [expired])
      else if ← OtpOrmRepository.consumeById otp.id (epoch (env.clock 1)) then do
        let userAggr ← Program.ofExcept (loaded.setPassword b message.newPassword env.salt)
        UserOrmRepository.save loaded.source userAggr
        let userAggr := ForgotPasswordService.announcePasswordChanged userAggr message.newPassword
        publishMany userAggr.events
        pure (.ok ⟨"Password updated"⟩)
      else do
        rollback
        pure (.error [invalidOtp])

/-! ## Account commands -/

/-- `_not_found`. -/
def notFound : AppExceptionDetail where
  status := .objectNotFound
  message := some (AppExceptionMessage.notFound.addPrefix "User")

/-- `userId` is that of the execution context. -/
def ChangePasswordCommandHandler.call (b : Bcrypt) (env : Env) (userId : Id)
    (message : ChangePasswordCommand) : Tx (ResultDetailed Unit) := withUow do
  match ← UserOrmRepository.getAggregateForUpdate userId with
  | none => pure (.error [notFound])
  | some loaded =>
    match loaded.source.password with
    | none => Program.raise .attributeError
    | some password =>
      if !PasswordService.verifyPassword b message.oldPassword password then do
        rollback
        pure (.error [{
          status := .invalidPassword
          field := some "old_password"
          message := some "Current password is incorrect" }])
      else do
        let user ← Program.ofExcept (loaded.setPassword b message.newPassword env.salt)
        UserOrmRepository.save loaded.source user
        pure (.ok ())

def UserToggleStatusCommandHandler.call (message : UserToggleStatusCommand) :
    Tx (ResultDetailed Unit) := withUow do
  if !(← UserOrmRepository.existsById message.id) then pure (.error [notFound])
  else do
    let _ ← UserOrmRepository.toggleStatus message.id
    pure (.ok ())

/-- `param` is the constructor of the params, which pydantic runs: it may raise, and it does so
before the transaction opens. `userId` is that of the execution context. -/
def UserUpdateMeCommandHandler.call (param : UserUpdateMeCommand → Except Exn UserUpdateParams)
    (userId : Id) (message : UserUpdateMeCommand) : Tx (ResultDetailed Unit) := do
  let param ← Program.ofExcept (param message)
  withUow do
    match ← UserOrmRepository.getAggregateForUpdate userId with
    | none => pure (.error [notFound])
    | some user => do
      UserOrmRepository.save user.source (user.update param)
      pure (.ok ())

end ApiTemplate.Identity
