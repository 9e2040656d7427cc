import ApiTemplate.Identity.AuthService
import ApiTemplate.Identity.HandlerRuns

/-!
# The identity commands

Every command that the identity module handles, as one type, with the program its handler runs.
`Deployment` holds what is the same for all of them: the third-party packages and the settings.
-/

namespace ApiTemplate.Identity

open TxStore

structure LoginCommand where
  email : String
  password : String

structure RefreshTokenCommand where
  refreshToken : String

def LoginCommandHandler.call (b : Bcrypt) (jwt : PyJwt) (config : JwtConfig) (env : Env)
    (message : LoginCommand) : Tx (ResultDetailed JwtTokenDTO) :=
  withUow (AuthService.login b jwt config env message.email message.password)

def RefreshTokenCommandHandler.call (jwt : PyJwt) (config : JwtConfig) (env : Env)
    (message : RefreshTokenCommand) : Tx (ResultDetailed JwtTokenDTO) :=
  withUow (AuthService.refresh jwt config env message.refreshToken)

/-- The packages and the settings that the handlers use. -/
structure Deployment where
  bcrypt : Bcrypt
  jwt : PyJwt
  config : JwtConfig
  baseUrl : String
  /-- `ATUserName`. -/
  userName : String → Option String
  /-- The constructor of `UserUpdateParams`. -/
  updateParams : UserUpdateMeCommand → Except Exn UserUpdateParams

/-- Transparent packages, for runs on concrete inputs. -/
def Deployment.plain : Deployment where
  bcrypt := .plain
  jwt := .plain
  config := { secretKey := "key" }
  baseUrl := "http://localhost"
  userName := some
  updateParams message := .ok
    { firstName := message.firstName
      lastName := message.lastName
      phone := message.phone
      address := message.address
      description := message.description
      information := message.information
      avatarId := message.avatarId }

/-- The commands; the two that act on the caller come with the user of the execution context. -/
inductive Command
  | register (message : RegisterCommand)
  | confirmEmail (message : ConfirmEmailCommand)
  | resendEmailConfirmation (message : ResendEmailConfirmationCommand)
  | login (message : LoginCommand)
  | refreshToken (message : RefreshTokenCommand)
  | forgotPasswordStep1 (message : ForgotPasswordStep1Command)
  | forgotPasswordStep2 (message : ForgotPasswordStep2Command)
  | forgotPasswordStep3 (message : ForgotPasswordStep3Command)
  | changePassword (userId : Id) (message : ChangePasswordCommand)
  | userUpdateMe (userId : Id) (message : UserUpdateMeCommand)
  | userToggleStatus (message : UserToggleStatusCommand)

namespace Command

/-- What the command answers with when it is not refused. -/
@[reducible] def Answer : Command → Type
  | resendEmailConfirmation _ | forgotPasswordStep1 _ | forgotPasswordStep3 _ => MessageResponseDTO
  | forgotPasswordStep2 _ => ForgotPasswordStep2ResponseDTO
  | login _ | refreshToken _ => JwtTokenDTO
  | _ => Unit

/-- The handler of the command. -/
def handler (d : Deployment) (env : Env) : (c : Command) → Tx (ResultDetailed c.Answer)
  | register message => RegisterCommandHandler.call d.bcrypt d.userName env message
  | confirmEmail message => ConfirmEmailCommandHandler.call env message
  | resendEmailConfirmation message => ResendEmailConfirmationCommandHandler.call env message
  | login message => LoginCommandHandler.call d.bcrypt d.jwt d.config env message
  | refreshToken message => RefreshTokenCommandHandler.call d.jwt d.config env message
  | forgotPasswordStep1 message => ForgotPasswordStep1CommandHandler.call env message
  | forgotPasswordStep2 message => ForgotPasswordStep2CommandHandler.call d.baseUrl env message
  | forgotPasswordStep3 message => ForgotPasswordStep3CommandHandler.call d.bcrypt env message
  | changePassword userId message => ChangePasswordCommandHandler.call d.bcrypt env userId message
  | userUpdateMe userId message => UserUpdateMeCommandHandler.call d.updateParams userId message
  | userToggleStatus message => UserToggleStatusCommandHandler.call message

end Command

/-! ## Runs -/

/-- A command and what its handler reads from outside. -/
structure HandlerCall where
  env : Env
  command : Command

/-- What a call leaves committed. -/
def HandlerCall.after (d : Deployment) (db : Content) (q : HandlerCall) : Content :=
  db.after (q.command.handler d q.env)

/-- What a sequence of calls leaves committed. -/
def afterAll (d : Deployment) (db : Content) (qs : List HandlerCall) : Content :=
  qs.foldl (HandlerCall.after d) db

section

variable {d : Deployment} {db : Content}

theorem afterAll_snoc (run : List HandlerCall) (q : HandlerCall) :
    afterAll d db (run ++ [q]) = q.after d (afterAll d db run) :=
  List.foldl_append.trans rfl

theorem distinct_afterAll (h : emailKey.Distinct db) (run : List HandlerCall) :
    emailKey.Distinct (afterAll d db run) := by
  induction run generalizing db with
  | nil => exact h
  | cons q qs ih => exact ih (h.after _)

end

end ApiTemplate.Identity
