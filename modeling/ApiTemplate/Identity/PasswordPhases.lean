import ApiTemplate.Identity.PasswordSerial

/-!
# The phases of a password run

Where the process of a run can be (`Phase`) while a ledger explains what is committed, what the
steps of the other processes leave of that, and the programs of the runs, statement by statement.
-/

namespace ApiTemplate.Identity

open TxStore

section

variable {b : Bcrypt} (a : Account b) {τ : Type} (runs : τ → PasswordRun)

variable {a runs} {c : Content} {p : Option String}
  {g g' : Ledger τ} {base base' : Content} {p₀ p' : Option String} {t : τ} {r : Outcome}

/-! ## The phases of a run -/

/-- A unit of work around the body of `ForgotPasswordStep3CommandHandler`. -/
def resetUow (body : Tx (ResultDetailed MessageResponseDTO)) : Tx (ResultDetailed Unit) :=
  withUow body >>= fun response => .done (.ok (response.map fun _ => ()))

/-- The only uncommitted row of `t` is the code `x`, if any, which nobody has used. -/
structure Holding (st : Store schema τ) (t : τ) (x : Option Id) : Prop where
  only : ∀ i r, st.pending i = some (t, r) → x = some i
  row : ∀ i, x = some i → ∃ o o', st.base.row i = some (.otp o) ∧ o.usedAt = none ∧
    st.pending i = some (t, .otp o') ∧ unspent o' = unspent o ∧ o'.usedAt ≠ none

variable (a runs p₀) in
/-- The password `q` in the column `x` that `t` has loaded: a change has checked it, and a reset has
found it stored. -/
def Loaded (g : Ledger τ) (t : τ) (x q : Option String) : Prop :=
  Stores b x q ∧
    match runs t with
    | .change _ message => q = some message.oldPassword
    | .reset env otp _ => Visits (fun t => (runs t).set b) q p₀ g.mid ∧
        ∃ i, PasswordRun.code a.user a.db env otp = .ok i

/-- How a run that has loaded the password column `x` goes on after it has tried to claim a code. -/
structure Claiming (a : Account b) (run : PasswordRun) (x : Option String)
    (k : Except Exn ℕ → Tx (ResultDetailed Unit)) : Prop where
  refused : Ending (.ok (.error [invalidOtp])) (k (.ok 0))
  writing : ∀ z, run.hash b = .ok z →
    ∃ k', k (.ok 1) = .step (.assign (passwordPatch a.user x (some z))) k' ∧
      Committing (.ok (.ok ())) (k' (.ok ()))
  raising : ∀ e, run.hash b = .error e →
    ∃ k', k (.ok 1) = .step .rollback k' ∧ Ending (.error e) (k' (.ok ()))

variable (a runs p₀) in
/-- Where the process of the run `t` can be. -/
inductive Phase (g : Ledger τ) (st : Store schema τ) (t : τ) :
    Proc schema (ResultDetailed Unit) → Prop
  | start (hold : Holding st t none) (out : t ∉ g.order) :
      Phase g st t { prog := programs a runs t }
  | looking {env otp newPassword x q} (run : runs t = .reset env otp newPassword)
      (stores : Stores b x q) (visits : Visits (fun t => (runs t).set b) q p₀ g.mid)
      (hold : Holding st t none) (out : t ∉ g.order) :
      Phase g st t { prog := resetUow (ForgotPasswordStep3CommandHandler.afterRead b env otp
        newPassword (some (.ofRow (a.user.withPassword x)))) }
  | claiming {env otp newPassword x q o k} (run : runs t = .reset env otp newPassword)
      (code : newestCode a.db env otp a.user.id .forgotPassword = some o)
      (fresh : ¬o.expiresAt < epoch (env.clock 0)) (stores : Stores b x q)
      (visits : Visits (fun t => (runs t).set b) q p₀ g.mid) (cont : Claiming a (runs t) x k)
      (hold : Holding st t none) (out : t ∉ g.order) :
      Phase g st t { prog := .step (.update (.consumeById o.id (epoch (env.clock 1)))) k }
  | visiting {env otp newPassword x q i k} (run : runs t = .reset env otp newPassword)
      (code : PasswordRun.code a.user a.db env otp = .ok i) (stores : Stores b x q)
      (visits : Visits (fun t => (runs t).set b) q p₀ g.mid) (cont : Claiming a (runs t) x k)
      (hold : Holding st t none) (out : t ∉ g.order) :
      Phase g st t { prog := .step (.update (.consumeById i (epoch (env.clock 1)))) k
                     cursor := some ([i], 0) }
  | claimed {env otp newPassword x q u i k} (run : runs t = .reset env otp newPassword)
      (code : PasswordRun.code a.user a.db env otp = .ok i) (stores : Stores b x q)
      (visits : Visits (fun t => (runs t).set b) q p₀ g.mid) (cont : Claiming a (runs t) x k)
      (hold : Holding st t (some i)) (out : t ∉ g.order) :
      Phase g st t { prog := .step (.update u) k, cursor := some ([], 1) }
  | refused {u k r} (refused : Refused a (CodeUsed st.base) (runs t) r)
      (rest : Ending r (k (.ok 0))) (hold : Holding st t none) (out : t ∉ g.order) :
      Phase g st t { prog := .step (.update u) k, cursor := some ([], 0) }
  | raising {k r} (raises : Raises a (runs t) r) (rest : Ending r (k (.ok ())))
      (hold : Holding st t ((runs t).claim a)) (out : t ∉ g.order) :
      Phase g st t { prog := .step .rollback k }
  | writing {x q z k} (loaded : Loaded a runs p₀ g t x q) (hash : (runs t).hash b = .ok z)
      (rest : Committing (.ok (.ok ())) (k (.ok ()))) (hold : Holding st t ((runs t).claim a))
      (out : t ∉ g.order) :
      Phase g st t { prog := .step (.assign (passwordPatch a.user x (some z))) k }
  | committing {x q z prog} (loaded : Loaded a runs p₀ g t x q) (hash : (runs t).hash b = .ok z)
      (rest : Committing (.ok (.ok ())) prog) (hold : Holding st t ((runs t).claim a))
      (out : t ∉ g.order) :
      Phase g st t { prog := prog, session := { patches := [passwordPatch a.user x (some z)] } }
  | settled {r prog} (mem : (t, r) ∈ g.entries) (rest : Ending r prog)
      (hold : Holding st t none) : Phase g st t { prog := prog }

/-! ### What the others do to a phase -/

section

variable {st st' : Store schema τ} {w : τ} {x y q : Option String}

theorem Holding.frame {x : Option Id} (h : Holding st w x)
    (hpend : ∀ i r, st'.pending i = some (w, r) ↔ st.pending i = some (w, r))
    (hbase : ∀ i r, st.pending i = some (w, r) → st'.base.row i = st.base.row i) :
    Holding st' w x where
  only i r hr := h.only i r ((hpend i r).mp hr)
  row i hi := by
    obtain ⟨o, o', hrow, hused, hp, heq, hused'⟩ := h.row i hi
    exact ⟨o, o', (hbase i _ hp).trans hrow, hused, (hpend i _).mpr hp, heq, hused'⟩

theorem Loaded.frame (h : Loaded a runs p₀ g w x q) (hg : Grows b runs p₀ t g g') :
    Loaded a runs p₀ g' w x q := by
  obtain ⟨hs, hq⟩ := h
  refine ⟨hs, ?_⟩
  cases hrun : runs w with
  | change env message =>
    rw [hrun] at hq
    exact hq
  | reset env otp newPassword =>
    rw [hrun] at hq
    exact ⟨hg.visits q hq.1, hq.2⟩

theorem Phase.frame {pr : Proc schema (ResultDetailed Unit)} (h : Phase a runs p₀ g st w pr)
    (hw : w ≠ t) (hg : Grows b runs p₀ t g g')
    (hpend : ∀ i r, st'.pending i = some (w, r) ↔ st.pending i = some (w, r))
    (hbase : ∀ i r, st.pending i = some (w, r) → st'.base.row i = st.base.row i)
    (hused : ∀ i, CodeUsed st.base i → CodeUsed st'.base i) : Phase a runs p₀ g' st' w pr := by
  cases h with
  | start hold out => exact .start (hold.frame hpend hbase) (hg.out w hw out)
  | looking run stores visits hold out =>
    exact .looking run stores (hg.visits _ visits) (hold.frame hpend hbase) (hg.out w hw out)
  | claiming run code fresh stores visits cont hold out =>
    exact .claiming run code fresh stores (hg.visits _ visits) cont (hold.frame hpend hbase)
      (hg.out w hw out)
  | visiting run code stores visits cont hold out =>
    exact .visiting run code stores (hg.visits _ visits) cont (hold.frame hpend hbase)
      (hg.out w hw out)
  | claimed run code stores visits cont hold out =>
    exact .claimed run code stores (hg.visits _ visits) cont (hold.frame hpend hbase)
      (hg.out w hw out)
  | refused refused rest hold out =>
    exact .refused (refused.mono hused) rest (hold.frame hpend hbase) (hg.out w hw out)
  | raising raises rest hold out =>
    exact .raising raises rest (hold.frame hpend hbase) (hg.out w hw out)
  | writing loaded hash rest hold out =>
    exact .writing (loaded.frame hg) hash rest (hold.frame hpend hbase) (hg.out w hw out)
  | committing loaded hash rest hold out =>
    exact .committing (loaded.frame hg) hash rest (hold.frame hpend hbase) (hg.out w hw out)
  | settled mem rest hold => exact .settled (hg.mem _ mem) rest (hold.frame hpend hbase)

/-- One column stores one password. -/
theorem Stores.unique (h : Stores b x q) (h' : Stores b x y) : q = y := by
  cases h with
  | absent =>
    cases h'
    rfl
  | @hashed p h salt hash =>
    cases h' with
    | @hashed p' _ salt' hash' =>
      have hp := PasswordService.verifyPassword_hashPassword b hash p
      rw [PasswordService.verifyPassword_hashPassword b hash' p] at hp
      rw [of_decide_eq_true (hp.trans (decide_eq_true rfl))]

end

/-! ### The programs, statement by statement -/

section

variable {env : Env} {message : ChangePasswordCommand} {otp newPassword h z : String} {e : Exn}
  {x : Option String} (u : UserRow)

variable (b env message) in
theorem program_change_step :
    ∃ k, (PasswordRun.change env message).program b u =
        .step (.query (.users fun v => v.id == u.id)) k ∧
      ∀ v, k (.ok [v]) = withUow (ChangePasswordCommandHandler.afterRead b env message
        (some (.ofRow v))) := ⟨_, rfl, fun _ => rfl⟩

variable (b env otp newPassword) in
theorem program_reset_step :
    ∃ k, (PasswordRun.reset env otp newPassword).program b u =
        .step (.query (.users fun v => v.email == u.email)) k ∧
      ∀ v, k (.ok [v]) = resetUow (ForgotPasswordStep3CommandHandler.afterRead b env otp newPassword
        (some (.ofRow v))) := ⟨_, rfl, fun _ => rfl⟩

variable (b env otp newPassword x) in
theorem afterRead_reset_step :
    ∃ k, resetUow (ForgotPasswordStep3CommandHandler.afterRead b env otp newPassword
        (some (.ofRow (u.withPassword x)))) =
        .step (.query (.otps (OtpOrmRepository.matchesCode otp u.id .forgotPassword .user))) k ∧
      ∀ rows, k (.ok rows) = resetUow (ForgotPasswordStep3CommandHandler.afterFind b env newPassword
        (.ofRow (u.withPassword x)) ((newest env.tie rows).map toDetailed)) :=
  ⟨_, rfl, fun _ => rfl⟩

theorem ending_change_of_none : Ending (σ := schema) (.error Exn.attributeError)
    (withUow (ChangePasswordCommandHandler.afterRead b env message
      (some (.ofRow (u.withPassword none))))) := rfl

theorem ending_change_of_wrong
    (hv : PasswordService.verifyPassword b message.oldPassword h = false) :
    Ending (.ok (.error [wrongPassword])) (withUow (ChangePasswordCommandHandler.afterRead b env
      message (some (.ofRow (u.withPassword (some h)))))) := by
  change Ending _ (withUow (if !PasswordService.verifyPassword b message.oldPassword h then _ else _))
  rw [hv]
  exact rfl

theorem ending_change_of_error
    (hv : PasswordService.verifyPassword b message.oldPassword h = true)
    (hh : (PasswordRun.change env message).hash b = .error e) :
    Ending (σ := schema) (.error e) (withUow (ChangePasswordCommandHandler.afterRead b env
      message (some (.ofRow (u.withPassword (some h)))))) := by
  change Ending _ (withUow (if !PasswordService.verifyPassword b message.oldPassword h then _ else
    (Program.ofExcept ((PasswordService.hashPassword b message.newPassword env.salt).map _) :
      Tx UserAggregate) >>= _))
  rw [hv, show PasswordService.hashPassword b message.newPassword env.salt = .error e from hh]
  exact rfl

theorem writing_change (hv : PasswordService.verifyPassword b message.oldPassword h = true)
    (hh : (PasswordRun.change env message).hash b = .ok z) :
    ∃ k, withUow (ChangePasswordCommandHandler.afterRead b env message
        (some (.ofRow (u.withPassword (some h))))) =
        .step (.assign (passwordPatch u (some h) (some z))) k ∧
      Committing (.ok (.ok ())) (k (.ok ())) := by
  change ∃ k, withUow (if !PasswordService.verifyPassword b message.oldPassword h then _ else
    (Program.ofExcept ((PasswordService.hashPassword b message.newPassword env.salt).map _) :
      Tx UserAggregate) >>= _) = _ ∧ _
  rw [hv, show PasswordService.hashPassword b message.newPassword env.salt = .ok z from hh]
  exact ⟨_, rfl, rfl⟩

theorem ending_reset_of_none (loaded : UserAggregate) : Ending (.ok (.error [invalidOtp]))
    (resetUow (ForgotPasswordStep3CommandHandler.afterFind b env newPassword loaded none)) := rfl

theorem ending_reset_of_expired (loaded : UserAggregate) {o : OtpRow}
    (hexp : o.expiresAt < epoch (env.clock 0)) : Ending (.ok (.error [expired]))
    (resetUow (ForgotPasswordStep3CommandHandler.afterFind b env newPassword loaded
      (some (toDetailed o)))) := by
  change Ending _ (resetUow (if o.expiresAt < epoch (env.clock 0) then _ else _))
  rw [if_pos hexp]
  exact rfl

variable (a otp newPassword x) in
/-- A reset that has found a code which is not expired goes on to claim it. -/
theorem claiming_reset {o : OtpRow} (hexp : ¬o.expiresAt < epoch (env.clock 0)) :
    ∃ k, resetUow (ForgotPasswordStep3CommandHandler.afterFind b env newPassword
        (.ofRow (a.user.withPassword x)) (some (toDetailed o))) =
        .step (.update (.consumeById o.id (epoch (env.clock 1)))) k ∧
      Claiming a (.reset env otp newPassword) x k := by
  change ∃ k, resetUow (if o.expiresAt < epoch (env.clock 0) then _ else _) = _ ∧ _
  rw [if_neg hexp]
  refine ⟨_, rfl, rfl, fun z hz => ?_, fun e he => ?_⟩
  · change ∃ k', resetUow ((Program.ofExcept ((PasswordService.hashPassword b newPassword
      env.salt).map _) : Tx UserAggregate) >>= _) = _ ∧ _
    rw [show PasswordService.hashPassword b newPassword env.salt = .ok z from hz]
    exact ⟨_, rfl, rfl⟩
  · change ∃ k', resetUow ((Program.ofExcept ((PasswordService.hashPassword b newPassword
      env.salt).map _) : Tx UserAggregate) >>= _) = _ ∧ _
    rw [show PasswordService.hashPassword b newPassword env.salt = .error e from he]
    exact ⟨_, rfl, rfl⟩

end

end

end ApiTemplate.Identity
