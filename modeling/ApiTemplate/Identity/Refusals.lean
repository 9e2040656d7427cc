import ApiTemplate.Identity.Footprints
import ApiTemplate.TxStore.Faults

/-!
# Refused commands

A unit of work commits on every normal exit of its body, an early `return` of an error included, so
a handler that refuses must have written nothing by then, or have rolled back. Any statement may
fail, before or after it has taken effect: a command that is refused, or that raises before its
commit has succeeded, leaves the user and OTP tables as they were.
-/

namespace ApiTemplate.Identity

open TxStore

/-! ## Where the handlers refuse -/

/-- `is_err`. -/
def IsErr {α : Type} (r : ResultDetailed α) : Prop := ∃ e, r = .error e

/-- Wherever the body of a unit of work refuses, nothing is left to commit. -/
abbrev RefusesClean {α : Type} (db : Content) (P : Trial schema → Prop)
    (body : Tx (ResultDetailed α)) : Prop :=
  Body P body fun r st => IsErr r → st.Kept db

/-- A handler that refuses leaves the committed rows. -/
abbrev RefusesUnchanged {α : Type} (db : Content) (p : Tx (ResultDetailed α)) : Prop :=
  Ends (Trial.Kept db) p fun r st => IsErr r → st.world.committed.row = db.row

section

variable {db : Content} {P : Trial schema → Prop} {α : Type}

theorem refusesClean_error (e : List AppExceptionDetail) :
    RefusesClean (α := α) db (Trial.Kept db) (pure (.error e)) :=
  .done fun _ h _ => h

theorem refusesClean_ok (a : α) : RefusesClean db P (pure (.ok a)) :=
  .done fun _ _ h => by
    obtain ⟨e, he⟩ := h
    cases he

theorem refusesClean_rollback (e : List AppExceptionDetail) :
    RefusesClean (α := α) db (Trial.Open db) (do
      rollback
      pure (.error e)) :=
  .bind .rollback fun _ => refusesClean_error e

/-- Once nothing but an answer can come, the statements before it do not matter. -/
theorem refusesClean_after {β : Type} {p : Tx β} (hp : NoCommit p) (a : α) :
    RefusesClean db P (p >>= fun _ => pure (.ok a)) :=
  .bind (.any hp) fun _ => refusesClean_ok a

/-- Statements that write, and what may follow them. -/
theorem refusesClean_writes {β : Type} {p : Tx β} {f : β → Tx (ResultDetailed α)} (hp : NoCommit p)
    (hf : ∀ b, RefusesClean db (Trial.Open db) (f b)) :
    RefusesClean db (Trial.Kept db) (p >>= f) :=
  .bind (.mono (fun _ h => h.isOpen) (.stays hp) fun _ _ h => h) hf

end

variable (db : Content) (d : Deployment) (env : Env)

theorem refuses_register (message : RegisterCommand) :
    RefusesUnchanged db (RegisterCommandHandler.call d.bcrypt d.userName env message) := by
  refine .bind (Body.keeps (readsOnly_registerValidator _)).ends fun valid => ?_
  cases valid with
  | error e => exact .done fun _ h _ => h.row_eq
  | ok u =>
    refine Body.refuses (refusesClean_writes (noCommit_register _ _ _ _) fun registered => ?_)
    cases registered with
    | error e => exact refusesClean_rollback e
    | ok user => exact refusesClean_after (noCommit_publishMany _) ()

theorem refuses_confirmEmail (message : ConfirmEmailCommand) :
    RefusesUnchanged db (ConfirmEmailCommandHandler.call env message) := by
  refine Body.refuses (.bind (.keeps (readsOnly_getAggregateForUpdateByEmail _)) fun found => ?_)
  cases found with
  | none => exact refusesClean_error _
  | some user =>
    refine refusesClean_writes (noCommit_confirm _ _ _ _ _) fun confirmed => ?_
    cases confirmed with
    | error e => exact refusesClean_rollback e
    | ok id => exact refusesClean_after (.lift rfl) ()

theorem refuses_resend (message : ResendEmailConfirmationCommand) :
    RefusesUnchanged db (ResendEmailConfirmationCommandHandler.call env message) := by
  refine Body.refuses (.bind (.keeps (readsOnly_getAggregateForUpdateByEmail _)) fun found => ?_)
  cases found with
  | none => exact refusesClean_ok _
  | some user =>
    dsimp only
    split
    · exact refusesClean_ok _
    refine refusesClean_writes (noCommit_issue _ _ _ _ _) fun issued => ?_
    cases issued with
    | error e => exact refusesClean_rollback e
    | ok code =>
      exact .bind (.ofExcept _) fun user => refusesClean_after (noCommit_publishMany _) _

theorem refuses_step1 (message : ForgotPasswordStep1Command) :
    RefusesUnchanged db (ForgotPasswordStep1CommandHandler.call env message) := by
  refine Body.refuses (.bind (.keeps (readsOnly_getAggregateForUpdateByEmail _)) fun found => ?_)
  cases found with
  | none => exact refusesClean_ok _
  | some user =>
    refine refusesClean_writes ((noCommit_issue _ _ _ _ _).bind fun issued => ?_) fun issued => ?_
    · cases issued <;> trivial
    cases issued with
    | error e => exact refusesClean_rollback e
    | ok user => exact refusesClean_after (noCommit_publishMany _) _

/-- The body has claimed the code by the time the new password can be refused, and a refused
password raises: the claim is rolled back with the rest. -/
theorem refuses_step3 (message : ForgotPasswordStep3Command) :
    RefusesUnchanged db (ForgotPasswordStep3CommandHandler.call d.bcrypt env message) := by
  refine Body.refuses (.bind (.keeps (readsOnly_getAggregateForUpdateByEmail _)) fun found => ?_)
  cases found with
  | none => exact refusesClean_error _
  | some loaded =>
    refine .bind (.keeps (readsOnly_findActiveForContent _ _ _ _ _)) fun found => ?_
    cases found with
    | none => exact refusesClean_error _
    | some otp =>
      dsimp only
      split
      · exact refusesClean_error _
      refine refusesClean_writes (noCommit_consumeById _ _) fun won => ?_
      cases won with
      | false => exact refusesClean_rollback _
      | true =>
        refine .bind (.ofExcept _) fun user => .bind (.any (.lift rfl)) fun _ => ?_
        exact refusesClean_after (noCommit_publishMany _) _

theorem refuses_changePassword (userId : Id) (message : ChangePasswordCommand) :
    RefusesUnchanged db (ChangePasswordCommandHandler.call d.bcrypt env userId message) := by
  refine Body.refuses (.bind (.keeps (readsOnly_getAggregateForUpdate _)) fun found => ?_)
  cases found with
  | none => exact refusesClean_error _
  | some loaded =>
    dsimp only
    split
    · exact .raise _
    split
    · exact .mono (fun _ h => h.isOpen) (refusesClean_rollback _) fun _ _ h => h
    · exact .bind (.ofExcept _) fun user => refusesClean_after (.lift rfl) ()

theorem refuses_userUpdateMe (userId : Id) (message : UserUpdateMeCommand) :
    RefusesUnchanged db (UserUpdateMeCommandHandler.call d.updateParams userId message) := by
  refine .bind (Ends.ofExcept _) fun param => .mono (fun _ h => h.2) (Body.refuses ?_) fun _ _ h => h
  refine .bind (.keeps (readsOnly_getAggregateForUpdate _)) fun found => ?_
  cases found with
  | none => exact refusesClean_error _
  | some user => exact refusesClean_after (.lift rfl) ()

theorem refuses_userToggleStatus (message : UserToggleStatusCommand) :
    RefusesUnchanged db (UserToggleStatusCommandHandler.call message) := by
  refine Body.refuses (.bind (.keeps (readsOnly_existsById _)) fun found => ?_)
  cases found with
  | false => exact refusesClean_error _
  | true => exact refusesClean_after (noCommit_toggleStatus _) ()

theorem refuses_step2 (message : ForgotPasswordStep2Command) :
    RefusesUnchanged db (ForgotPasswordStep2CommandHandler.call d.baseUrl env message) := by
  obtain ⟨body, hbody, hreads⟩ := readsOnly_step2 d.baseUrl env message
  rw [hbody]
  exact Body.refuses (.mono (fun _ h => h) (.keeps hreads) fun _ _ h _ => h)

theorem refuses_login (message : LoginCommand) :
    RefusesUnchanged db (LoginCommandHandler.call d.bcrypt d.jwt d.config env message) :=
  Body.refuses (.mono (fun _ h => h) (.keeps (readsOnly_login _ _ _ _ _ _)) fun _ _ h _ => h)

theorem refuses_refresh (message : RefreshTokenCommand) :
    RefusesUnchanged db (RefreshTokenCommandHandler.call d.jwt d.config env message) :=
  Body.refuses (.mono (fun _ h => h) (.keeps (readsOnly_refresh _ _ _ _)) fun _ _ h _ => h)

theorem refuses_handler (c : Command) : RefusesUnchanged db (c.handler d env) := by
  cases c with
  | register message => exact refuses_register db d env message
  | confirmEmail message => exact refuses_confirmEmail db env message
  | resendEmailConfirmation message => exact refuses_resend db env message
  | login message => exact refuses_login db d env message
  | refreshToken message => exact refuses_refresh db d env message
  | forgotPasswordStep1 message => exact refuses_step1 db env message
  | forgotPasswordStep2 message => exact refuses_step2 db d env message
  | forgotPasswordStep3 message => exact refuses_step3 db d env message
  | changePassword userId message => exact refuses_changePassword db d env userId message
  | userUpdateMe userId message => exact refuses_userUpdateMe db d userId message
  | userToggleStatus message => exact refuses_userToggleStatus db message

/-- **A refused command changes nothing.** Whatever the database holds and whatever fails, a command
that is refused, or that raises before its commit has succeeded, leaves the user table and the OTP
table as they were. -/
theorem tables_unchanged (c : Command) (faults : Faults schema)
    {r : Except Exn (ResultDetailed c.Answer)} {st : Trial schema}
    (hrun : Trial.run faults (c.handler d env) (.start db) = (r, st))
    (h : (∃ e, r = .ok (.error e)) ∨ (∃ e, r = .error e) ∧ st.committed = false) :
    users st.world.committed = users db ∧ otps st.world.committed = otps db := by
  have hrow : st.world.committed.row = db.row := by
    rcases h with ⟨e, rfl⟩ | ⟨-, hc⟩
    · exact refuses_handler db d env c faults _ _ st (Trial.kept_start db) hrun ⟨e, rfl⟩
    · have hkept := Trial.row_of_not_committed faults (.start db) (c.handler d env)
        (by rw [hrun]; exact hc)
      rwa [hrun] at hkept
  unfold users otps
  rw [Db.rows_congr hrow]
  exact ⟨rfl, rfl⟩

/-- Ann, with a reset code that is not used. -/
def annResetting : Content := contentOf [.user ann, .otp
  { id := 1
    otp := "123456"
    contentId := 0
    contentType := .user
    kind := .forgotPassword
    usedAt := none
    expiresAt := 900
    targetValue := "ann@example.com"
    verified := false
    createdAt := 0 }]

/-- The fifth statement, the publish of a reset, raises when the mail is out. -/
def brokenMail : Faults schema := fun n => if n = 4 then some ⟨.runtimeError, true⟩ else none

/-- The new password of Ann, with the code that was mailed to her. -/
def annReset : Command :=
  .forgotPasswordStep3 { email := "ann@example.com", otp := "123456", newPassword := "new secret" }

/-- The code is claimed, the publish raises: the code is not spent and the password stays. -/
theorem tables_unchanged_brokenMail :
    (users (Trial.run brokenMail (annReset.handler .plain (.at 1000000))
        (.start annResetting)).2.world.committed = users annResetting ∧
      otps (Trial.run brokenMail (annReset.handler .plain (.at 1000000))
        (.start annResetting)).2.world.committed = otps annResetting) ∧
      (Trial.run brokenMail (annReset.handler .plain (.at 1000000))
        (.start annResetting)).2.world.emitted.length = 1 :=
  ⟨tables_unchanged annResetting .plain (.at 1000000) annReset brokenMail rfl
    (Or.inr ⟨⟨.runtimeError, by rfl⟩, by decide⟩), by decide⟩

end ApiTemplate.Identity
