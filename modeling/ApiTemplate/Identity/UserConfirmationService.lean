import ApiTemplate.Identity.Repositories

/-!
# The user confirmation service

`issue` mints a code and `confirm` spends one; neither opens a unit of work. The application clock
is read in the order of the source: a caller that has read it `n` times before hands on `n`.
-/

namespace ApiTemplate.Identity

open TxStore

def otpTtlMinutes : OtpKindEnum → ℤ
  | .emailConfirmation => 15
  | .forgotPassword => 15

def otpCooldownMinutes : OtpKindEnum → ℤ
  | .emailConfirmation => 1
  | .forgotPassword => 1

/-- `_invalid_otp`, in the confirmation service and in the forgot-password handlers. -/
def invalidOtp : AppExceptionDetail where
  status := .invalidOtp
  field := some "otp"
  message := some AppExceptionMessage.invalidOtp.value

def alreadyUsed : AppExceptionDetail where
  status := .otpAlreadyVerified
  field := some "otp"
  message := some AppExceptionMessage.otpAlreadyVerified.value

/-- `_expired`, and the detail the forgot-password handlers spell out. -/
def expired : AppExceptionDetail where
  status := .otpExpired
  field := some "otp"
  message := some AppExceptionMessage.otpExpired.value

def cooldown (minutes : ℤ) : AppExceptionDetail where
  status := .otpResendCooldown
  message := some ("A new code can be requested once every " ++ toString minutes ++ " min.")

namespace UserConfirmationService

/-- `_CONTENT_TYPE`. -/
def contentType : ContentTypeEnum := .user

/-- `_EVENT_BY_KIND`: the event of each kind this service confirms. -/
def eventByKind : OtpKindEnum → Option (Id → String → DomainEvent)
  | .emailConfirmation => some .userEmailConfirmed
  | .forgotPassword => none

def issue (env : Env) (n : ℕ) (contentId : Id) (kind : OtpKindEnum) (targetValue : String) :
    Tx (ResultDetailed String) := do
  let minutes := otpCooldownMinutes kind
  if ← OtpOrmRepository.hasRecentIssue env contentId contentType kind minutes then
    pure (.error [cooldown minutes])
  else
    let now := epoch (env.clock n)
    OtpOrmRepository.invalidatePending contentId contentType kind now
    OtpOrmRepository.create env
      { otp := env.code
        contentId := contentId
        contentType := contentType
        kind := kind
        expiresAt := now + otpTtlMinutes kind * 60
        targetValue := targetValue
        verified := false }
    pure (.ok env.code)

def confirm (env : Env) (n : ℕ) (contentId : Id) (otp : String) (kind : OtpKindEnum) :
    Tx (ResultDetailed Id) :=
  match eventByKind kind with
  | none => Program.raise .runtimeError
  | some eventType => do
    match ← OtpOrmRepository.findActiveForContent env otp contentId kind contentType with
    | none => pure (.error [invalidOtp])
    | some found =>
      if found.usedAt.isSome || found.verified then pure (.error [alreadyUsed])
      else if found.expiresAt < epoch (env.clock n) then pure (.error [expired])
      else if ← OtpOrmRepository.consumeById found.id (epoch (env.clock (n + 1))) then
        publish (eventType found.contentId found.targetValue)
        pure (.ok found.contentId)
      else pure (.error [alreadyUsed])

end UserConfirmationService

end ApiTemplate.Identity
