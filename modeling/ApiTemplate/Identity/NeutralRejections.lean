import ApiTemplate.Identity.AuthService
import ApiTemplate.Identity.HandlerRuns

/-!
# Rejections of a guessed secret

A guess is a command with a secret for an email address, and two databases: in one the address is
not registered, in the other it is, but the secret is not one of its user. The rejections should
not tell the two apart.
-/

namespace ApiTemplate.Identity

open TxStore

/-- The commands that carry a secret. -/
inductive SecretCommand
  | confirmEmail (message : ConfirmEmailCommand)
  | forgotPasswordStep2 (message : ForgotPasswordStep2Command)
  | forgotPasswordStep3 (message : ForgotPasswordStep3Command)
  | login (email password : String)

namespace SecretCommand

def email : SecretCommand → String
  | confirmEmail message => message.email
  | forgotPasswordStep2 message => message.email
  | forgotPasswordStep3 message => message.email
  | login email _ => email

/-- The code was never issued to the user as one of this kind. -/
def Unissued (db : Content) (user : UserRow) (kind : OtpKindEnum) (otp : String) : Prop :=
  ∀ o ∈ otps db, o.contentId = user.id → o.kind = kind → o.otp ≠ otp

/-- The secret is not one of the user. -/
def Unguessed (b : Bcrypt) (db : Content) (user : UserRow) : SecretCommand → Prop
  | confirmEmail message => Unissued db user .emailConfirmation message.otp
  | forgotPasswordStep2 message => Unissued db user .forgotPassword message.otp
  | forgotPasswordStep3 message => Unissued db user .forgotPassword message.otp
  | login _ password =>
    PasswordService.verifyPassword b password (user.password.getD "") = false ∨
      user.isActive = false ∨ user.emailConfirmed = false

end SecretCommand

/-- A command with a wrong secret, and the two databases it may meet. -/
structure Guess (b : Bcrypt) where
  command : SecretCommand
  without : Content
  registered : Content
  user : UserRow
  absent : usersByEmail without command.email = []
  stored : usersByEmail registered command.email = [user]
  unguessed : command.Unguessed b registered user

/-- Both databases give the same result: status, field and message of the rejection, or the same
exception. -/
def Guess.SameAnswer {b : Bcrypt} (g : Guess b) (jwt : PyJwt) (config : JwtConfig)
    (baseUrl : String) (env : Env) : Prop :=
  match g.command with
  | .confirmEmail message =>
    g.without.result (ConfirmEmailCommandHandler.call env message) =
      g.registered.result (ConfirmEmailCommandHandler.call env message)
  | .forgotPasswordStep2 message =>
    g.without.result (ForgotPasswordStep2CommandHandler.call baseUrl env message) =
      g.registered.result (ForgotPasswordStep2CommandHandler.call baseUrl env message)
  | .forgotPasswordStep3 message =>
    g.without.result (ForgotPasswordStep3CommandHandler.call b env message) =
      g.registered.result (ForgotPasswordStep3CommandHandler.call b env message)
  | .login email password =>
    g.without.result (AuthService.login b jwt config env email password) =
      g.registered.result (AuthService.login b jwt config env email password)

section

variable {b : Bcrypt} {jwt : PyJwt} {config : JwtConfig} {baseUrl : String} {env : Env}
  {db : Content} {user : UserRow}

open SecretCommand

/-- A code that was never issued is not found. -/
theorem newestCode_of_unissued {kind : OtpKindEnum} {otp : String}
    (h : Unissued db user kind otp) : newestCode db env otp user.id kind = none := by
  cases hnew : newestCode db env otp user.id kind with
  | none => rfl
  | some o =>
    obtain ⟨hmem, hotp, hid, hkind⟩ := newestCode_eq_some hnew
    exact absurd hotp (h o hmem hid hkind)

theorem run_findActive_of_unissued {kind : OtpKindEnum} {otp : String}
    (h : Unissued db user kind otp) :
    World.run (OtpOrmRepository.findActiveForContent env otp user.id kind .user) (World.ofDb db) =
      (.ok none, World.ofDb db) := by
  have hfind := run_findActiveForContent (World.ofDb db) env user.id otp kind
  rwa [show (World.ofDb db).view = db from rfl, newestCode_of_unissued h] at hfind

/-! ## Answers to an unknown address -/

theorem result_confirmEmail_of_absent {message : ConfirmEmailCommand}
    (h : usersByEmail db message.email = []) :
    db.result (ConfirmEmailCommandHandler.call env message) = .ok (.error [{
      status := .invalidOtp
      field := some "otp"
      message := some "Invalid confirmation code" }]) := by
  have hget := run_getAggregateForUpdateByEmail (World.ofDb db) message.email
  rw [show usersByEmail (World.ofDb db).view message.email = [] from h] at hget
  refine Db.result_withUow_of_session ((Program.run_bind_ok hget _).trans rfl) rfl

theorem result_step2_of_absent {message : ForgotPasswordStep2Command}
    (h : usersByEmail db message.email = []) :
    db.result (ForgotPasswordStep2CommandHandler.call baseUrl env message) =
      .ok (.error [invalidOtp]) := by
  have hget := run_getByEmailForPasswordRecovery (World.ofDb db) baseUrl message.email
  rw [show usersByEmail (World.ofDb db).view message.email = [] from h] at hget
  refine Db.result_withUow_of_session ((Program.run_bind_ok hget _).trans rfl) rfl

theorem result_step3_of_absent {message : ForgotPasswordStep3Command}
    (h : usersByEmail db message.email = []) :
    db.result (ForgotPasswordStep3CommandHandler.call b env message) =
      .ok (.error [invalidOtp]) := by
  have hget := run_getForPasswordReset (World.ofDb db) message.email
  rw [show usersByEmail (World.ofDb db).view message.email = [] from h] at hget
  refine Db.result_withUow_of_session ((Program.run_bind_ok hget _).trans rfl) rfl

/-! ## Answers to a wrong secret -/

theorem result_confirmEmail_of_unissued {message : ConfirmEmailCommand}
    (h : usersByEmail db message.email = [user])
    (hotp : Unissued db user .emailConfirmation message.otp) :
    db.result (ConfirmEmailCommandHandler.call env message) = .ok (.error [invalidOtp]) := by
  have hget := run_getAggregateForUpdateByEmail (World.ofDb db) message.email
  rw [show usersByEmail (World.ofDb db).view message.email = [user] from h] at hget
  have hconfirm := run_confirm (World.ofDb db) env 0 user.id message.otp
  rw [show (World.ofDb db).view = db from rfl, newestCode_of_unissued hotp] at hconfirm
  refine Db.result_withUow_of_session (w := (World.ofDb db).undo) ?_ rfl
  rw [World.run, Program.run_bind_ok hget]
  exact (Program.run_bind_ok hconfirm _).trans rfl

theorem result_step2_of_unissued {message : ForgotPasswordStep2Command}
    (h : usersByEmail db message.email = [user])
    (hotp : Unissued db user .forgotPassword message.otp) :
    db.result (ForgotPasswordStep2CommandHandler.call baseUrl env message) =
      .ok (.error [invalidOtp]) := by
  have hget := run_getByEmailForPasswordRecovery (World.ofDb db) baseUrl message.email
  rw [show usersByEmail (World.ofDb db).view message.email = [user] from h] at hget
  refine Db.result_withUow_of_session (w := World.ofDb db) ?_ rfl
  rw [World.run, Program.run_bind_ok hget]
  exact (Program.run_bind_ok (run_findActive_of_unissued hotp) _).trans rfl

theorem result_step3_of_unissued {message : ForgotPasswordStep3Command}
    (h : usersByEmail db message.email = [user])
    (hotp : Unissued db user .forgotPassword message.otp) :
    db.result (ForgotPasswordStep3CommandHandler.call b env message) =
      .ok (.error [invalidOtp]) := by
  have hget := run_getForPasswordReset (World.ofDb db) message.email
  rw [show usersByEmail (World.ofDb db).view message.email = [user] from h] at hget
  refine Db.result_withUow_of_session (w := World.ofDb db) ?_ rfl
  rw [World.run, Program.run_bind_ok hget]
  exact (Program.run_bind_ok (run_findActive_of_unissued hotp) _).trans rfl

theorem loginAnswer_of_unguessed {password : String}
    (h : PasswordService.verifyPassword b password (user.password.getD "") = false ∨
      user.isActive = false ∨ user.emailConfirmed = false) :
    loginAnswer b jwt config env password user = .ok (.error [invalidCredentials]) := by
  unfold loginAnswer
  refine if_neg ?_
  rw [Bool.and_eq_true, Bool.and_eq_true]
  rintro ⟨⟨hp, ha⟩, hc⟩
  rcases h with h | h | h
  · rw [h] at hp
    cases hp
  · rw [h] at ha
    cases ha
  · rw [h] at hc
    cases hc

/-- **When a rejection is neutral.** The two databases give the same answer to a wrong secret if and
only if the command is not a confirmation of an email address. -/
theorem sameAnswer_iff (g : Guess b) :
    g.SameAnswer jwt config baseUrl env ↔ ∀ message, g.command ≠ .confirmEmail message := by
  obtain ⟨command, without, registered, user, absent, stored, unguessed⟩ := g
  unfold Guess.SameAnswer
  cases command with
  | confirmEmail message =>
    dsimp only
    rw [result_confirmEmail_of_absent absent, result_confirmEmail_of_unissued stored unguessed]
    exact ⟨fun h => absurd h (by decide), fun h => absurd rfl (h message)⟩
  | forgotPasswordStep2 message =>
    dsimp only
    rw [result_step2_of_absent absent, result_step2_of_unissued stored unguessed]
    exact ⟨fun _ _ => nofun, fun _ => rfl⟩
  | forgotPasswordStep3 message =>
    dsimp only
    rw [result_step3_of_absent absent, result_step3_of_unissued stored unguessed]
    exact ⟨fun _ _ => nofun, fun _ => rfl⟩
  | login email password =>
    have hnone : oneOrNone (usersByEmail without email) = .ok none := by
      rw [show usersByEmail without email = [] from absent]
      rfl
    have hsome : oneOrNone (usersByEmail registered email) = .ok (some user) := by
      rw [show usersByEmail registered email = [user] from stored]
      rfl
    dsimp only
    rw [result_login, result_login, hnone, hsome]
    dsimp only
    rw [loginAnswer_of_unguessed unguessed]
    exact ⟨fun _ _ => nofun, fun _ => rfl⟩

end

/-! ## A guessed confirmation code -/

/-- A code for Ann that was never issued, in a database with Ann and in one without. -/
def guessedCode : Guess .plain where
  command := .confirmEmail ⟨"ann@example.com", "123456"⟩
  without := contentOf []
  registered := contentOf [.user ann]
  user := ann
  absent := by decide
  stored := by decide
  unguessed := fun o ho => by cases ho

/-- The two databases give different messages. -/
theorem not_sameAnswer_guessedCode :
    ¬guessedCode.SameAnswer .plain { secretKey := "key" } "http://localhost" (.at 0) := by
  intro h
  have hanswers := (result_confirmEmail_of_absent guessedCode.absent).symm.trans
    (h.trans (result_confirmEmail_of_unissued guessedCode.stored guessedCode.unguessed))
  exact absurd hanswers (by decide)

end ApiTemplate.Identity
