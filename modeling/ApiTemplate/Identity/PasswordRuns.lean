import ApiTemplate.Identity.HandlerRuns
import ApiTemplate.TxStore.Serial

/-!
# Runs that write one user's password

The runs of `ChangePasswordCommandHandler` and `ForgotPasswordStep3CommandHandler` on one user, and
what each of them does to a content when it runs alone, told in terms of the password that the
content stores (`answer`, `set`) and of the codes that are spent.
-/

namespace ApiTemplate.Identity

open TxStore

/-- A user of a database with unique addresses, whose stored password, if any, was hashed. -/
structure Account (b : Bcrypt) where
  db : Content
  user : UserRow
  stored : user? db user.id = some user
  distinct : emailKey.Distinct db
  hashed : ∀ hash, user.password = some hash →
    ∃ password salt, PasswordService.hashPassword b password salt = .ok hash

/-- The detail of a wrong current password. -/
def wrongPassword : AppExceptionDetail where
  status := .invalidPassword
  field := some "old_password"
  message := some "Current password is incorrect"

/-! ## The runs -/

/-- A run of one of the two handlers for a user. -/
inductive PasswordRun
  | change (env : Env) (message : ChangePasswordCommand)
  | reset (env : Env) (otp newPassword : String)

namespace PasswordRun

variable (b : Bcrypt) (u : UserRow)

/-- The statements of a run for the user `u`. -/
def program : PasswordRun → Tx (ResultDetailed Unit)
  | change env message => ChangePasswordCommandHandler.call b env u.id message
  | reset env otp newPassword => do
    let response ← ForgotPasswordStep3CommandHandler.call b env ⟨u.email, otp, newPassword⟩
    pure (response.map fun _ => ())

def newPassword : PasswordRun → String
  | change _ message => message.newPassword
  | reset _ _ newPassword => newPassword

/-- The password a run checks against the stored one. -/
def checked : PasswordRun → Option String
  | change _ message => some message.oldPassword
  | reset _ _ _ => none

/-- The hash a run makes of the new password. -/
def hash : PasswordRun → Except Exn String
  | change env message => PasswordService.hashPassword b message.newPassword env.salt
  | reset env _ newPassword => PasswordService.hashPassword b newPassword env.salt

/-- What a run answers if the password `p` is stored and it is free to claim its code. -/
def answer : PasswordRun → Option String → Except Exn (ResultDetailed Unit)
  | change _ _, none => .error .attributeError
  | change env message, some p =>
    if message.oldPassword = p then ((change env message).hash b).map fun _ => .ok ()
    else .ok (.error [wrongPassword])
  | reset _ _ _, _ => .ok (.ok ())

/-- The password that is stored after a run that was free to claim its code. -/
def set : PasswordRun → Option String → Option String
  | change env message, p =>
    if p = some message.oldPassword ∧ ((change env message).hash b).isOk then
      some message.newPassword
    else p
  | reset _ _ newPassword, _ => some newPassword

section

variable {b} {env : Env} {message : ChangePasswordCommand} {q z : String} {e : Exn}

theorem change_of_none : (change env message).answer b none = .error .attributeError ∧
    (change env message).set b none = none := by
  refine ⟨rfl, ?_⟩
  unfold set
  exact if_neg fun hc => nomatch hc.1

theorem change_of_wrong (h : message.oldPassword ≠ q) :
    (change env message).answer b (some q) = .ok (.error [wrongPassword]) ∧
      (change env message).set b (some q) = some q :=
  ⟨if_neg h, if_neg fun hc => h (Option.some.inj hc.1).symm⟩

theorem change_of_error (hh : (change env message).hash b = .error e) :
    (change env message).answer b (some message.oldPassword) = .error e ∧
      (change env message).set b (some message.oldPassword) = some message.oldPassword := by
  refine ⟨(if_pos rfl).trans ?_, if_neg fun hc => ?_⟩
  · rw [hh]
    rfl
  · rw [hh] at hc
    exact Bool.false_ne_true hc.2

theorem change_of_right (hh : (change env message).hash b = .ok z) :
    (change env message).answer b (some message.oldPassword) = .ok (.ok ()) ∧
      (change env message).set b (some message.oldPassword) = some message.newPassword := by
  refine ⟨(if_pos rfl).trans ?_, if_pos ⟨rfl, ?_⟩⟩
  · rw [hh]
    rfl
  · rw [hh]
    rfl

/-- A change that succeeds has been given the stored password. -/
theorem eq_of_change_ok {p : Option String}
    (h : (change env message).answer b p = .ok (.ok ())) :
    p = some message.oldPassword ∧ (change env message).set b p = some message.newPassword := by
  cases p with
  | none => cases h
  | some p =>
    by_cases hold : message.oldPassword = p
    · subst hold
      cases hh : (change env message).hash b with
      | error e =>
        rw [(change_of_error hh).1] at h
        cases h
      | ok z => exact ⟨rfl, (change_of_right hh).2⟩
    · rw [(change_of_wrong hold).1] at h
      cases h

end

/-- The code a reset claims, or the details of its refusal. -/
def code (c : Content) (env : Env) (otp : String) : Except (List AppExceptionDetail) Id :=
  match newestCode c env otp u.id .forgotPassword with
  | none => .error [invalidOtp]
  | some o =>
    if o.expiresAt < epoch (env.clock 0) then .error [expired]
    else if epoch (env.clock 1) ≤ o.expiresAt then .ok o.id
    else .error [invalidOtp]

section

variable {u} {c : Content} {env : Env} {otp : String} {o : OtpRow}

theorem code_of_none (hnew : newestCode c env otp u.id .forgotPassword = none) :
    code u c env otp = .error [invalidOtp] := by
  unfold code
  rw [hnew]

theorem code_of_expired (hnew : newestCode c env otp u.id .forgotPassword = some o)
    (hexp : o.expiresAt < epoch (env.clock 0)) : code u c env otp = .error [expired] := by
  unfold code
  rw [hnew]
  exact if_pos hexp

theorem code_of_fresh (hnew : newestCode c env otp u.id .forgotPassword = some o)
    (hexp : ¬o.expiresAt < epoch (env.clock 0)) :
    code u c env otp =
      if epoch (env.clock 1) ≤ o.expiresAt then .ok o.id else .error [invalidOtp] := by
  unfold code
  rw [hnew]
  exact if_neg hexp

end

/-- The ways in which a reset looks for its code. -/
theorem code_cases (c : Content) (env : Env) (otp : String) :
    (newestCode c env otp u.id .forgotPassword = none ∧
        code u c env otp = .error [invalidOtp]) ∨
      ∃ o, newestCode c env otp u.id .forgotPassword = some o ∧
        ((o.expiresAt < epoch (env.clock 0) ∧ code u c env otp = .error [expired]) ∨
          (¬o.expiresAt < epoch (env.clock 0) ∧ epoch (env.clock 1) ≤ o.expiresAt ∧
            code u c env otp = .ok o.id) ∨
          (¬o.expiresAt < epoch (env.clock 0) ∧ ¬epoch (env.clock 1) ≤ o.expiresAt ∧
            code u c env otp = .error [invalidOtp])) := by
  cases hnew : newestCode c env otp u.id .forgotPassword with
  | none => exact Or.inl ⟨rfl, code_of_none hnew⟩
  | some o =>
    refine Or.inr ⟨o, rfl, ?_⟩
    by_cases h₀ : o.expiresAt < epoch (env.clock 0)
    · exact Or.inl ⟨h₀, code_of_expired hnew h₀⟩
    · rw [code_of_fresh hnew h₀]
      by_cases h₁ : epoch (env.clock 1) ≤ o.expiresAt
      · exact Or.inr (Or.inl ⟨h₀, h₁, if_pos h₁⟩)
      · exact Or.inr (Or.inr ⟨h₀, h₁, if_neg h₁⟩)

end PasswordRun

/-! ## What the runs leave alone -/

/-- A code without its use. -/
def unspent (o : OtpRow) : OtpRow := { o with usedAt := none, verified := false }

/-- A row without what the runs write. -/
def bare : Row → Row
  | .user u => .user { u with password := none }
  | .otp o => .otp (unspent o)
  | r => r

/-- Contents that differ at most in passwords and in the use of codes. -/
def Alike (c c' : Content) : Prop := ∀ i, (c.row i).map bare = (c'.row i).map bare

/-- The code `i` is used. -/
def CodeUsed (c : Content) (i : Id) : Prop := ∃ o, c.row i = some (.otp o) ∧ o.usedAt ≠ none

section

variable {c c' : Content} {u v : UserRow} {i : Id} {r : Row}

theorem Alike.exists_row (h : Alike c c') (hr : c.row i = some r) :
    ∃ r', c'.row i = some r' ∧ bare r' = bare r := by
  have hi := h i
  rw [hr] at hi
  exact Option.map_eq_some_iff.mp hi.symm

theorem Alike.distinct (h : Alike c c') (hc : emailKey.Distinct c') : emailKey.Distinct c := by
  have hkey : ∀ {r r' : Row}, bare r' = bare r → emailKey.key r' = emailKey.key r := by
    intro r r' hbare
    have hkeep : ∀ r, emailKey.key (bare r) = emailKey.key r := by
      intro r
      cases r <;> rfl
    rw [← hkeep r', hbare, hkeep]
  intro i j r r' k hr hr' hk hk'
  obtain ⟨r₀, hr₀, hbare⟩ := h.exists_row hr
  obtain ⟨r₀', hr₀', hbare'⟩ := h.exists_row hr'
  exact hc i j r₀ r₀' k hr₀ hr₀' ((hkey hbare).trans hk) ((hkey hbare').trans hk')

theorem newest_map {f : OtpRow → OtpRow} (hf : ∀ o, (f o).createdAt = o.createdAt) (tie : ℕ)
    (rows : List OtpRow) : newest tie (rows.map f) = (newest tie rows).map f := by
  unfold newest
  dsimp only
  have hfilter : ((rows.map f).filter fun o => (rows.map f).all fun o' =>
      decide (o'.createdAt ≤ o.createdAt)) =
      (rows.filter fun o => rows.all fun o' => decide (o'.createdAt ≤ o.createdAt)).map f := by
    rw [List.filter_map]
    simp only [Function.comp_def, List.all_map, hf]
  rw [hfilter, List.length_map, List.getElem?_map]

/-- The newest code of a value is the same row, up to its use. -/
theorem Alike.map_newestCode (h : Alike c c') (env : Env) (otp : String) (id : Id)
    (kind : OtpKindEnum) :
    (newestCode c env otp id kind).map unspent = (newestCode c' env otp id kind).map unspent := by
  have hotps : (otps c).map unspent = (otps c').map unspent := by
    have hpart : ∀ x : Option Row,
        (x.bind fun r => r.otp?.map unspent) = (x.map bare).bind Row.otp? := by
      intro x
      cases x with
      | none => rfl
      | some r => cases r <;> rfl
    unfold otps
    rw [List.map_filterMap, List.map_filterMap]
    refine Db.filterMap_rows_congr (σ := schema) fun i => ?_
    rw [hpart, hpart, h i]
  have hmatch : ∀ rows : List OtpRow,
      (rows.filter (OtpOrmRepository.matchesCode otp id kind .user)).map unspent =
        (rows.map unspent).filter (OtpOrmRepository.matchesCode otp id kind .user) := by
    intro rows
    rw [List.filter_map]
    rfl
  unfold newestCode
  rw [← newest_map (f := unspent) fun _ => rfl, ← newest_map (f := unspent) fun _ => rfl, hmatch,
    hmatch, hotps]

theorem eq_of_unspent {o o' : OtpRow} (h : unspent o = unspent o') :
    o.id = o'.id ∧ o.expiresAt = o'.expiresAt := by
  have hid := congrArg OtpRow.id h
  have hexp := congrArg OtpRow.expiresAt h
  exact ⟨hid, hexp⟩

theorem Alike.code (h : Alike c c') (u : UserRow) (env : Env) (otp : String) :
    PasswordRun.code u c env otp = PasswordRun.code u c' env otp := by
  have hnewest := h.map_newestCode env otp u.id .forgotPassword
  unfold PasswordRun.code
  cases hc : newestCode c env otp u.id .forgotPassword with
  | none =>
    rw [hc] at hnewest
    rw [Option.map_eq_none_iff.mp hnewest.symm]
  | some o =>
    rw [hc] at hnewest
    obtain ⟨o', ho', heq⟩ := Option.map_eq_some_iff.mp hnewest.symm
    rw [ho']
    obtain ⟨hid, hexp⟩ := eq_of_unspent heq
    dsimp only
    rw [hid, hexp]

end

/-! ## Contents that store a password -/

/-- The row of a user with another password column. -/
def UserRow.withPassword (u : UserRow) (x : Option String) : UserRow := { u with password := x }

@[simp] theorem UserRow.withPassword_id (u : UserRow) (x : Option String) :
    (u.withPassword x).id = u.id := rfl

@[simp] theorem UserRow.withPassword_email (u : UserRow) (x : Option String) :
    (u.withPassword x).email = u.email := rfl

/-- The password column `x` stores the password `p`. -/
inductive Stores (b : Bcrypt) : Option String → Option String → Prop
  | absent : Stores b none none
  | hashed {p h : String} {salt : ℕ} (hash : PasswordService.hashPassword b p salt = .ok h) :
      Stores b (some h) (some p)

/-- The content of an account, but for its password, which is now `p`, and the use of codes. -/
structure Represents {b : Bcrypt} (a : Account b) (c : Content) (p : Option String) : Prop where
  alike : Alike c a.db
  stored : ∃ x, user? c a.user.id = some (a.user.withPassword x) ∧ Stores b x p

/-- What a run that has loaded the password `y` writes when it sets `z`. -/
def passwordPatch (u : UserRow) (y z : Option String) : UserPatch :=
  ⟨u.withPassword y, u.withPassword z⟩

section

variable {b : Bcrypt} {a : Account b} {c c' : Content} {p p' : Option String}

theorem Account.represents (a : Account b) : ∃ p, Represents a a.db p := by
  have hstored := a.stored
  have halike : Alike a.db a.db := fun _ => rfl
  cases hp : a.user.password with
  | none =>
    refine ⟨none, halike, none, ?_, .absent⟩
    rw [hstored, ← hp]
    rfl
  | some h =>
    obtain ⟨q, salt, hhash⟩ := a.hashed h hp
    refine ⟨some q, halike, some h, ?_, .hashed hhash⟩
    rw [hstored, ← hp]
    rfl

theorem Represents.congr (h : Represents a c p) (hrow : c'.row = c.row) : Represents a c' p := by
  refine ⟨fun i => hrow ▸ h.alike i, ?_⟩
  unfold user?
  rw [hrow]
  exact h.stored

theorem Represents.usersByEmail {x : Option String} (h : Represents a c p)
    (hx : user? c a.user.id = some (a.user.withPassword x)) :
    usersByEmail c a.user.email = [a.user.withPassword x] :=
  usersByEmail_of_mem (u := a.user.withPassword x) (h.alike.distinct a.distinct)
    (mem_users.mpr (user?_eq_some.mp hx))

theorem apply_passwordPatch (u : UserRow) (x y z : Option String) :
    (passwordPatch u y z).apply (u.withPassword x) =
      u.withPassword (UserPatch.column y z x) := by
  unfold UserPatch.apply passwordPatch UserPatch.column UserRow.withPassword
  simp only [if_true]

/-- The password write of a run, whatever password it has loaded. -/
theorem Represents.write {x : Option String} (h : Represents a c p)
    (hx : user? c a.user.id = some (a.user.withPassword x)) (y z : Option String) :
    ∃ c', c.write (passwordPatch a.user y z) = .ok c' ∧ ∀ i, c'.row i =
      if i = a.user.id then some (.user (a.user.withPassword (UserPatch.column y z x)))
      else c.row i := by
  have hrow := user?_eq_some.mp hx
  have hpatch : (passwordPatch a.user y z).applyRow (.user (a.user.withPassword x)) =
      .user (a.user.withPassword (UserPatch.column y z x)) :=
    congrArg Row.user (apply_passwordPatch a.user x y z)
  have hclash : c.clashes (σ := schema)
      (.user (a.user.withPassword (UserPatch.column y z x))) = false :=
    clashes_eq_false (u := a.user.withPassword x) (h.alike.distinct a.distinct) hrow rfl rfl
  have hany : (c.row a.user.id).any (fun r =>
      c.clashes (σ := schema) ((passwordPatch a.user y z).applyRow r)) = false := by
    rw [hrow, Option.any_some, hpatch, hclash]
  refine ⟨_, if_neg ((Bool.not_eq_true _).mpr hany), fun i => ?_⟩
  change (c.row i).map (Db.patched (σ := schema) (passwordPatch a.user y z)) = _
  by_cases hi : i = a.user.id
  · rw [if_pos hi, hi, hrow]
    exact congrArg some ((if_pos rfl).trans hpatch)
  · rw [if_neg hi]
    cases hr : c.row i with
    | none => rfl
    | some r =>
      refine congrArg some (patched_of_ne ?_)
      rw [id_of_row hr]
      exact hi

/-- A content with another password. -/
theorem Represents.of_write {x : Option String} (h : Represents a c p)
    (hrow : ∀ i, c'.row i =
      if i = a.user.id then some (.user (a.user.withPassword x)) else c.row i)
    (hs : Stores b x p') : Represents a c' p' := by
  refine ⟨fun i => ?_, x, ?_, hs⟩
  · rw [hrow, ← h.alike i]
    by_cases hi : i = a.user.id
    · obtain ⟨y, hy, -⟩ := h.stored
      rw [if_pos hi, hi, user?_eq_some.mp hy]
      rfl
    · rw [if_neg hi]
  · rw [user?_eq_some, hrow, if_pos rfl]

theorem bare_updated (id : Id) (nowEpoch : ℤ) (r : Row) :
    bare (Db.updated (σ := schema) (.consumeById id nowEpoch) r) = bare r := by
  unfold Db.updated
  split
  · cases r <;> rfl
  · rfl

/-- A content in which a code has been claimed. -/
theorem Represents.update (h : Represents a c p) (id : Id) (nowEpoch : ℤ) :
    Represents a (Db.update (σ := schema) c (.consumeById id nowEpoch)) p := by
  refine ⟨fun i => ?_, ?_⟩
  · rw [← h.alike i, Db.update_row]
    cases c.row i with
    | none => rfl
    | some r => exact congrArg some (bare_updated id nowEpoch r)
  · obtain ⟨x, hx, hs⟩ := h.stored
    refine ⟨x, ?_, hs⟩
    rw [user?_eq_some, Db.update_row, user?_eq_some.mp hx]
    exact congrArg some (if_neg Bool.false_ne_true)

end

/-! ## The bodies of the handlers -/

/-- `ChangePasswordCommandHandler` after it has read the user. -/
def ChangePasswordCommandHandler.afterRead (b : Bcrypt) (env : Env)
    (message : ChangePasswordCommand) : Option UserAggregate → Tx (ResultDetailed Unit)
  | none => pure (.error [notFound])
  | some loaded =>
    match loaded.source.password with
    | none => Program.raise .attributeError
    | some password =>
      if !PasswordService.verifyPassword b message.oldPassword password then do
        rollback
        pure (.error [wrongPassword])
      else do
        let user ← Program.ofExcept (loaded.setPassword b message.newPassword env.salt)
        UserOrmRepository.save loaded.source user
        pure (.ok ())

/-- `ForgotPasswordStep3CommandHandler` after it has looked for the code. -/
def ForgotPasswordStep3CommandHandler.afterFind (b : Bcrypt) (env : Env) (newPassword : String)
    (loaded : UserAggregate) : Option OTPDetailedDTO → Tx (ResultDetailed MessageResponseDTO)
  | none => pure (.error [invalidOtp])
  | some otp =>
    if otp.expiresAt < epoch (env.clock 0) then pure (.error [expired])
    else do
      if ← OtpOrmRepository.consumeById otp.id (epoch (env.clock 1)) then do
        let userAggr ← Program.ofExcept (loaded.setPassword b newPassword env.salt)
        UserOrmRepository.save loaded.source userAggr
        let userAggr := ForgotPasswordService.announcePasswordChanged userAggr newPassword
        publishMany userAggr.events
        pure (.ok ⟨"Password updated"⟩)
      else do
        rollback
        pure (.error [invalidOtp])

/-- `ForgotPasswordStep3CommandHandler` after it has read the user. -/
def ForgotPasswordStep3CommandHandler.afterRead (b : Bcrypt) (env : Env)
    (otp newPassword : String) : Option UserAggregate → Tx (ResultDetailed MessageResponseDTO)
  | none => pure (.error [invalidOtp])
  | some loaded => do
    let found ← OtpOrmRepository.findActiveForContent env otp loaded.source.id .forgotPassword .user
    afterFind b env newPassword loaded found

namespace PasswordRun

variable (b : Bcrypt) (u : UserRow)

theorem program_reset (env : Env) (otp newPassword : String) :
    (reset env otp newPassword).program b u =
      (withUow (UserOrmRepository.getForPasswordReset u.email >>=
        ForgotPasswordStep3CommandHandler.afterRead b env otp newPassword) >>=
          fun response => .done (.ok (response.map fun _ => ()))) := rfl

end PasswordRun

section

variable {b : Bcrypt} {a : Account b} {c c' : Content} {p p' x : Option String} {h : String}
  {env : Env} {w : World schema}

/-! ### A change, after it has read the user -/

section

variable (message : ChangePasswordCommand) (u : UserRow)

theorem run_change_of_wrong
    (hv : PasswordService.verifyPassword b message.oldPassword h = false) :
    World.run (ChangePasswordCommandHandler.afterRead b env message
        (some (.ofRow (u.withPassword (some h))))) w =
      (.ok (.error [wrongPassword]), w.undo) := by
  change World.run (if !PasswordService.verifyPassword b message.oldPassword h then _ else _) w = _
  rw [hv]
  rfl

theorem run_change_of_error {e : Exn}
    (hv : PasswordService.verifyPassword b message.oldPassword h = true)
    (hh : (PasswordRun.change env message).hash b = .error e) :
    World.run (ChangePasswordCommandHandler.afterRead b env message
        (some (.ofRow (u.withPassword (some h))))) w = (.error e, w) := by
  change World.run (if !PasswordService.verifyPassword b message.oldPassword h then _ else
    Program.ofExcept ((PasswordService.hashPassword b message.newPassword env.salt).map _) >>= _) w = _
  rw [hv, show PasswordService.hashPassword b message.newPassword env.salt = .error e from hh]
  rfl

theorem run_change_of_right {z : String}
    (hv : PasswordService.verifyPassword b message.oldPassword h = true)
    (hh : (PasswordRun.change env message).hash b = .ok z) :
    World.run (ChangePasswordCommandHandler.afterRead b env message
        (some (.ofRow (u.withPassword (some h))))) w =
      (.ok (.ok ()), { w with session := { w.session with
        patches := w.session.patches ++ [passwordPatch u (some h) (some z)] } }) := by
  change World.run (if !PasswordService.verifyPassword b message.oldPassword h then _ else
    Program.ofExcept ((PasswordService.hashPassword b message.newPassword env.salt).map _) >>= _) w = _
  rw [hv, show PasswordService.hashPassword b message.newPassword env.salt = .ok z from hh]
  rfl

end

/-! ### A reset, after it has read the user -/

section

variable {o : OtpRow} (otp newPassword : String) (u : UserRow)

theorem run_reset_of_none (hnew : newestCode w.view env otp u.id .forgotPassword = none) :
    World.run (ForgotPasswordStep3CommandHandler.afterRead b env otp newPassword
        (some (.ofRow (u.withPassword x)))) w = (.ok (.error [invalidOtp]), w) := by
  have hfind := run_findActiveForContent w env u.id otp .forgotPassword
  rw [hnew] at hfind
  exact (Program.run_bind_ok hfind _).trans rfl

theorem run_reset_of_some (hnew : newestCode w.view env otp u.id .forgotPassword = some o) :
    World.run (ForgotPasswordStep3CommandHandler.afterRead b env otp newPassword
        (some (.ofRow (u.withPassword x)))) w =
      World.run (ForgotPasswordStep3CommandHandler.afterFind b env newPassword
        (.ofRow (u.withPassword x)) (some (toDetailed o))) w := by
  have hfind := run_findActiveForContent w env u.id otp .forgotPassword
  rw [hnew] at hfind
  exact Program.run_bind_ok hfind _

theorem run_reset_of_expired (hexp : o.expiresAt < epoch (env.clock 0)) :
    World.run (ForgotPasswordStep3CommandHandler.afterFind b env newPassword
        (.ofRow (u.withPassword x)) (some (toDetailed o))) w = (.ok (.error [expired]), w) := by
  change World.run (if o.expiresAt < epoch (env.clock 0) then _ else _) w = _
  rw [if_pos hexp]
  rfl

/-- The world after a reset has tried to claim its code. -/
def claimed (w : World schema) (env : Env) (o : OtpRow) : World schema :=
  { w with view := w.view.update (.consumeById o.id (epoch (env.clock 1))) }

theorem run_reset_of_used (ho : o ∈ otps w.view) (hexp : ¬o.expiresAt < epoch (env.clock 0))
    (hused : ¬(o.usedAt = none ∧ epoch (env.clock 1) ≤ o.expiresAt)) :
    World.run (ForgotPasswordStep3CommandHandler.afterFind b env newPassword
        (.ofRow (u.withPassword x)) (some (toDetailed o))) w =
      (.ok (.error [invalidOtp]), (claimed w env o).undo) := by
  have hconsume := run_consumeById w ho (epoch (env.clock 1))
  rw [decide_eq_false hused] at hconsume
  change World.run (if o.expiresAt < epoch (env.clock 0) then _ else _) w = _
  rw [if_neg hexp]
  exact (Program.run_bind_ok hconsume _).trans rfl

/-- A reset that has claimed its code sets the password. -/
theorem run_reset_of_claimed (loaded : UserAggregate) (ho : o ∈ otps w.view)
    (hexp : ¬o.expiresAt < epoch (env.clock 0))
    (hfree : o.usedAt = none ∧ epoch (env.clock 1) ≤ o.expiresAt) :
    World.run (ForgotPasswordStep3CommandHandler.afterFind b env newPassword loaded
        (some (toDetailed o))) w =
      World.run (Program.ofExcept (loaded.setPassword b newPassword env.salt) >>= fun user => do
        UserOrmRepository.save loaded.source user
        publishMany (ForgotPasswordService.announcePasswordChanged user newPassword).events
        pure (.ok ⟨"Password updated"⟩)) (claimed w env o) := by
  have hconsume := run_consumeById w ho (epoch (env.clock 1))
  rw [decide_eq_true hfree] at hconsume
  change World.run (if o.expiresAt < epoch (env.clock 0) then _ else _) w = _
  rw [if_neg hexp]
  refine (Program.run_bind_ok hconsume _).trans ?_
  rw [if_pos rfl]
  rfl

theorem run_reset_of_error {e : Exn} (ho : o ∈ otps w.view)
    (hexp : ¬o.expiresAt < epoch (env.clock 0))
    (hfree : o.usedAt = none ∧ epoch (env.clock 1) ≤ o.expiresAt)
    (hh : (PasswordRun.reset env otp newPassword).hash b = .error e) :
    World.run (ForgotPasswordStep3CommandHandler.afterFind b env newPassword
        (.ofRow (u.withPassword x)) (some (toDetailed o))) w = (.error e, claimed w env o) := by
  rw [run_reset_of_claimed _ _ ho hexp hfree]
  unfold UserAggregate.setPassword
  rw [show PasswordService.hashPassword b newPassword env.salt = .error e from hh]
  rfl

theorem run_reset_of_free {z : String} (ho : o ∈ otps w.view)
    (hexp : ¬o.expiresAt < epoch (env.clock 0))
    (hfree : o.usedAt = none ∧ epoch (env.clock 1) ≤ o.expiresAt)
    (hh : (PasswordRun.reset env otp newPassword).hash b = .ok z) :
    World.run (ForgotPasswordStep3CommandHandler.afterFind b env newPassword
        (.ofRow (u.withPassword x)) (some (toDetailed o))) w =
      (.ok (.ok ⟨"Password updated"⟩), { claimed w env o with
        session := { w.session with
          patches := w.session.patches ++ [passwordPatch u x (some z)] }
        emitted := w.emitted ++ [.forgotPasswordStep2 u.id u.email newPassword
          (fullName u.firstName u.lastName)] }) := by
  rw [run_reset_of_claimed _ _ ho hexp hfree]
  unfold UserAggregate.setPassword
  rw [show PasswordService.hashPassword b newPassword env.salt = .ok z from hh]
  rfl

end

/-! ## The runs alone -/

/-- What a run gives when it runs alone on `c`: its result, the password it leaves and the codes it
uses. -/
structure Gives (a : Account b) (c : Content) (run : PasswordRun)
    (r : Except Exn (ResultDetailed Unit)) (p : Option String) (used : Id → Prop) : Prop where
  result : c.result (run.program b a.user) = r
  after : Represents a (c.after (run.program b a.user)) p
  used : ∀ i, CodeUsed (c.after (run.program b a.user)) i ↔ CodeUsed c i ∨ used i

theorem codeUsed_congr (hrow : c'.row = c.row) (i : Id) : CodeUsed c' i ↔ CodeUsed c i := by
  unfold CodeUsed
  rw [hrow]

/-- A password write uses no code. -/
theorem Represents.codeUsed_write (hc : Represents a c p)
    (hrow : ∀ i, c'.row i =
      if i = a.user.id then some (.user (a.user.withPassword x)) else c.row i) (i : Id) :
    CodeUsed c' i ↔ CodeUsed c i := by
  unfold CodeUsed
  rw [hrow]
  by_cases hi : i = a.user.id
  · obtain ⟨y, hy, -⟩ := hc.stored
    rw [if_pos hi, hi, user?_eq_some.mp hy]
    simp
  · rw [if_neg hi]

/-- A run that leaves the rows alone. -/
theorem Represents.gives_quiet {run : PasswordRun} {r : Except Exn (ResultDetailed Unit)}
    (hc : Represents a c p) (hr : c.result (run.program b a.user) = r)
    (hrow : (c.after (run.program b a.user)).row = c.row) : Gives a c run r p fun _ => False :=
  ⟨hr, hc.congr hrow, fun i => by rw [codeUsed_congr hrow, or_false]⟩

/-- A run that leaves the rows alone but for the password of the user. -/
theorem Represents.gives_write {run : PasswordRun} {r : Except Exn (ResultDetailed Unit)}
    (hc : Represents a c p) (hr : c.result (run.program b a.user) = r)
    (hrow : ∀ i, (c.after (run.program b a.user)).row i =
      if i = a.user.id then some (.user (a.user.withPassword x)) else c.row i)
    (hs : Stores b x p') : Gives a c run r p' fun _ => False := by
  refine ⟨hr, hc.of_write hrow hs, fun i => ?_⟩
  rw [or_false]
  exact hc.codeUsed_write hrow i

/-- **A change alone** answers and leaves what its specification says. -/
theorem Represents.gives_change (hc : Represents a c p) (env : Env)
    (message : ChangePasswordCommand) :
    Gives a c (.change env message) ((PasswordRun.change env message).answer b p)
      ((PasswordRun.change env message).set b p) fun _ => False := by
  obtain ⟨x, hx, hs⟩ := hc.stored
  have hget := run_getAggregateForUpdate (World.ofDb c) a.user.id
  rw [show (World.ofDb c).view = c from rfl, hx] at hget
  have hbody := Program.run_bind_ok hget (ChangePasswordCommandHandler.afterRead b env message)
  cases hs with
  | absent =>
    rw [PasswordRun.change_of_none.1, PasswordRun.change_of_none.2]
    obtain ⟨hresult, hrow⟩ := Db.withUow_of_quiet (hbody.trans rfl) rfl rfl rfl
    exact hc.gives_quiet hresult hrow
  | @hashed q h salt hhash =>
    have hverify := PasswordService.verifyPassword_hashPassword b hhash message.oldPassword
    by_cases hold : message.oldPassword = q
    · rw [decide_eq_true hold] at hverify
      subst hold
      cases hh : (PasswordRun.change env message).hash b with
      | error e =>
        have hrun := hbody.trans (run_change_of_error message a.user hverify hh)
        obtain ⟨hresult, hrow⟩ := Db.withUow_of_quiet hrun rfl rfl rfl
        rw [(PasswordRun.change_of_error hh).1, (PasswordRun.change_of_error hh).2]
        exact hc.gives_quiet hresult hrow
      | ok z =>
        have hrun := hbody.trans (run_change_of_right message a.user hverify hh)
        obtain ⟨c', hw, hrow⟩ := hc.write hx (some h) (some z)
        obtain ⟨hresult, hafter⟩ := Db.withUow_of_flush hrun ((Db.flush_patch _ _).trans hw)
        rw [(PasswordRun.change_of_right hh).1, (PasswordRun.change_of_right hh).2]
        refine hc.gives_write hresult (fun i => ?_) (.hashed hh)
        rw [UserPatch.column_self] at hrow
        exact (congrFun hafter i).trans (hrow i)
    · rw [decide_eq_false hold] at hverify
      have hrun := hbody.trans (run_change_of_wrong message a.user hverify)
      obtain ⟨hresult, hrow⟩ := Db.withUow_of_quiet hrun rfl rfl rfl
      rw [(PasswordRun.change_of_wrong hold).1, (PasswordRun.change_of_wrong hold).2]
      exact hc.gives_quiet hresult hrow

section

variable {o : OtpRow} {otp newPassword : String} {i : Id}

theorem codeUsed_iff (ho : o ∈ otps c) : CodeUsed c o.id ↔ o.usedAt ≠ none := by
  constructor
  · rintro ⟨o', hrow, hused⟩
    rw [mem_otps.mp ho] at hrow
    cases hrow
    exact hused
  · intro hused
    exact ⟨o, mem_otps.mp ho, hused⟩

/-- A reset alone, from what its body does. -/
theorem Represents.run_reset (hc : Represents a c p) (env : Env) (otp newPassword : String) :
    ∃ x body, user? c a.user.id = some (a.user.withPassword x) ∧ Stores b x p ∧
      c.result ((PasswordRun.reset env otp newPassword).program b a.user) =
        (c.result (withUow body)).map (fun response => response.map fun _ => ()) ∧
      c.after ((PasswordRun.reset env otp newPassword).program b a.user) = c.after (withUow body) ∧
      World.run body (World.ofDb c) = World.run (ForgotPasswordStep3CommandHandler.afterRead b env
        otp newPassword (some (.ofRow (a.user.withPassword x)))) (World.ofDb c) := by
  obtain ⟨x, hx, hs⟩ := hc.stored
  have hget := run_getForPasswordReset (World.ofDb c) a.user.email
  rw [show (World.ofDb c).view = c from rfl, hc.usersByEmail hx] at hget
  rw [PasswordRun.program_reset]
  exact ⟨x, _, hx, hs, (Db.alone_map _ _ _).1, (Db.alone_map _ _ _).2, Program.run_bind_ok hget _⟩

/-- A reset that ends without effect. -/
theorem Represents.gives_reset_quiet {r : Except Exn (ResultDetailed MessageResponseDTO)}
    (hc : Represents a c p)
    (hrun : ∀ x, ∃ w, World.run (ForgotPasswordStep3CommandHandler.afterRead b env otp newPassword
      (some (.ofRow (a.user.withPassword x)))) (World.ofDb c) = (r, w) ∧ w.session = {} ∧
        (w.view.row = c.row ∨ ∃ e, r = .error e) ∧ w.committed.row = c.row) :
    Gives a c (.reset env otp newPassword) (r.map fun response => response.map fun _ => ()) p
      fun _ => False := by
  obtain ⟨x, body, -, -, hresult, hafter, hbody⟩ := hc.run_reset env otp newPassword
  obtain ⟨w, hw, hs, hv, hcommitted⟩ := hrun x
  rw [hw] at hbody
  refine hc.gives_quiet ?_ ?_
  · rw [hresult, Db.result_withUow_of_session hbody hs]
  · rw [hafter, Db.after_withUow_row, hbody]
    cases r with
    | error e => exact hcommitted
    | ok a =>
      rcases hv with hv | ⟨e, he⟩
      · dsimp only
        rw [hs, Db.flush_empty]
        exact hv
      · cases he

/-- **A reset alone** whose code cannot be claimed. -/
theorem Represents.gives_reset_refused {d : List AppExceptionDetail} (hc : Represents a c p)
    (hcode : PasswordRun.code a.user a.db env otp = .error d) :
    Gives a c (.reset env otp newPassword) (.ok (.error d)) p fun _ => False := by
  rw [← hc.alike.code] at hcode
  rcases PasswordRun.code_cases a.user c env otp with ⟨hnew, hd⟩ |
    ⟨o, hnew, ⟨hexp, hd⟩ | ⟨-, -, hd⟩ | ⟨hexp₀, hexp₁, hd⟩⟩
  · rw [hcode] at hd
    cases hd
    exact hc.gives_reset_quiet fun x => ⟨_, run_reset_of_none otp newPassword a.user hnew, rfl,
      Or.inl rfl, rfl⟩
  · rw [hcode] at hd
    cases hd
    exact hc.gives_reset_quiet fun x => ⟨_, (run_reset_of_some otp newPassword a.user hnew).trans
      (run_reset_of_expired newPassword a.user hexp), rfl, Or.inl rfl, rfl⟩
  · rw [hcode] at hd
    cases hd
  · rw [hcode] at hd
    cases hd
    exact hc.gives_reset_quiet fun x => ⟨_, (run_reset_of_some otp newPassword a.user hnew).trans
      (run_reset_of_used newPassword a.user (newestCode_eq_some hnew).1 hexp₀
        fun hfree => hexp₁ hfree.2), rfl, Or.inl rfl, rfl⟩

/-- The code that a reset can claim. -/
theorem Represents.exists_code (hc : Represents a c p)
    (hcode : PasswordRun.code a.user a.db env otp = .ok i) :
    ∃ o, newestCode c env otp a.user.id .forgotPassword = some o ∧ o.id = i ∧
      ¬o.expiresAt < epoch (env.clock 0) ∧ epoch (env.clock 1) ≤ o.expiresAt := by
  rw [← hc.alike.code] at hcode
  rcases PasswordRun.code_cases a.user c env otp with ⟨-, hd⟩ |
    ⟨o, hnew, ⟨-, hd⟩ | ⟨hexp₀, hexp₁, hd⟩ | ⟨-, -, hd⟩⟩
  · rw [hcode] at hd
    cases hd
  · rw [hcode] at hd
    cases hd
  · rw [hcode] at hd
    cases hd
    exact ⟨o, hnew, rfl, hexp₀, hexp₁⟩
  · rw [hcode] at hd
    cases hd

/-- **A reset alone** whose code has been used. -/
theorem Represents.gives_reset_used (hc : Represents a c p)
    (hcode : PasswordRun.code a.user a.db env otp = .ok i) (hused : CodeUsed c i) :
    Gives a c (.reset env otp newPassword) (.ok (.error [invalidOtp])) p fun _ => False := by
  obtain ⟨o, hnew, rfl, hexp₀, -⟩ := hc.exists_code hcode
  have ho := (newestCode_eq_some hnew).1
  exact hc.gives_reset_quiet fun x => ⟨_, (run_reset_of_some otp newPassword a.user hnew).trans
    (run_reset_of_used newPassword a.user ho hexp₀
      fun hfree => (codeUsed_iff ho).mp hused hfree.1), rfl, Or.inl rfl, rfl⟩

/-- **A reset alone** with a password that cannot be hashed. -/
theorem Represents.gives_reset_error {e : Exn} (hc : Represents a c p)
    (hcode : PasswordRun.code a.user a.db env otp = .ok i) (hused : ¬CodeUsed c i)
    (hh : (PasswordRun.reset env otp newPassword).hash b = .error e) :
    Gives a c (.reset env otp newPassword) (.error e) p fun _ => False := by
  obtain ⟨o, hnew, rfl, hexp₀, hexp₁⟩ := hc.exists_code hcode
  have ho := (newestCode_eq_some hnew).1
  rw [codeUsed_iff ho, not_not] at hused
  exact hc.gives_reset_quiet fun x => ⟨_, (run_reset_of_some otp newPassword a.user hnew).trans
    (run_reset_of_error otp newPassword a.user ho hexp₀ ⟨hused, hexp₁⟩ hh), rfl,
    Or.inr ⟨e, rfl⟩, rfl⟩

/-- **A reset alone** that succeeds. -/
theorem Represents.gives_reset_free {z : String} (hc : Represents a c p)
    (hcode : PasswordRun.code a.user a.db env otp = .ok i) (hused : ¬CodeUsed c i)
    (hh : (PasswordRun.reset env otp newPassword).hash b = .ok z) :
    Gives a c (.reset env otp newPassword) (.ok (.ok ())) (some newPassword) (· = i) := by
  obtain ⟨o, hnew, rfl, hexp₀, hexp₁⟩ := hc.exists_code hcode
  have ho := (newestCode_eq_some hnew).1
  rw [codeUsed_iff ho, not_not] at hused
  obtain ⟨x, body, hx, -, hresult, hafter, hbody⟩ := hc.run_reset env otp newPassword
  have hrun := hbody.trans ((run_reset_of_some otp newPassword a.user hnew).trans
    (run_reset_of_free otp newPassword a.user ho hexp₀ ⟨hused, hexp₁⟩ hh))
  -- the password is written over the content in which the code is claimed
  have hclaimed := hc.update o.id (epoch (env.clock 1))
  have hrow := update_consumeById_row ho hused hexp₁
  have hne : a.user.id ≠ o.id := by
    intro hid
    have huser := user?_eq_some.mp hx
    rw [hid, mem_otps.mp ho] at huser
    cases huser
  have hx' : user? (Db.update (σ := schema) c (.consumeById o.id (epoch (env.clock 1)))) a.user.id =
      some (a.user.withPassword x) := by
    rw [user?_eq_some, hrow, if_neg hne]
    exact user?_eq_some.mp hx
  obtain ⟨c', hw, hrow'⟩ := hclaimed.write hx' x (some z)
  rw [UserPatch.column_self] at hrow'
  obtain ⟨hres, haft⟩ := Db.withUow_of_flush hrun ((Db.flush_patch _ _).trans hw)
  have hfinal : (c.after ((PasswordRun.reset env otp newPassword).program b a.user)).row = c'.row :=
    hafter ▸ haft
  refine ⟨?_, (hclaimed.of_write hrow' (.hashed hh)).congr hfinal, fun i => ?_⟩
  · rw [hresult, hres]
    rfl
  · rw [codeUsed_congr hfinal, hclaimed.codeUsed_write hrow']
    unfold CodeUsed
    rw [hrow]
    by_cases hio : i = o.id
    · rw [if_pos hio]
      exact ⟨fun _ => Or.inr hio, fun _ => ⟨_, rfl, nofun⟩⟩
    · rw [if_neg hio]
      exact (or_iff_left hio).symm

/-- **A run alone** leaves the password as it is or sets its own. -/
theorem Represents.exists_gives (hc : Represents a c p) (run : PasswordRun) :
    ∃ r p' used, Gives a c run r p' used ∧ (p' = p ∨ p' = some run.newPassword) := by
  cases run with
  | change env message =>
    refine ⟨_, _, _, hc.gives_change env message, ?_⟩
    by_cases hset : p = some message.oldPassword ∧ ((PasswordRun.change env message).hash b).isOk
    · exact Or.inr (if_pos hset)
    · exact Or.inl (if_neg hset)
  | reset env otp newPassword =>
    cases hcode : PasswordRun.code a.user a.db env otp with
    | error d => exact ⟨_, _, _, hc.gives_reset_refused hcode, Or.inl rfl⟩
    | ok i =>
      by_cases hused : CodeUsed c i
      · exact ⟨_, _, _, hc.gives_reset_used hcode hused, Or.inl rfl⟩
      · cases hh : (PasswordRun.reset env otp newPassword).hash b with
        | error e => exact ⟨_, _, _, hc.gives_reset_error hcode hused hh, Or.inl rfl⟩
        | ok z => exact ⟨_, _, _, hc.gives_reset_free hcode hused hh, Or.inr rfl⟩

end

end

end ApiTemplate.Identity
