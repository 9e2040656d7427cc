import ApiTemplate.Identity.CodeLog

/-!
# Accepted codes

The confirmation and the second and third step of a password reset check a code each in a way of its
own: by the flags of its row, by an expiry compared in the program, and by the `WHERE` of
`consume_by_id`. In every state that the handlers reach they accept the same codes: the one issued
last, while it is unconsumed and up to its last second. Which one that is the rows tell by their
stamps, which must not fall and must differ.
-/

namespace ApiTemplate.Identity

open TxStore

/-! ## Runs -/

/-- A handler call and what fails in it. -/
structure Attempt extends HandlerCall where
  faults : Faults schema

/-- The committed rows, and the log of the codes. -/
structure CodeState where
  db : Content
  log : CodeLog

namespace CodeState

/-- One call. The log is written from its committed statements. -/
def next (d : Deployment) (s : CodeState) (q : Attempt) : CodeState :=
  let st := (Trial.run q.faults (q.command.handler d q.env) (.start s.db)).2
  { db := st.world.committed
    log := (logs (epoch (q.env.clock q.command.issueReading)) s.log st).committed }

/-- Calls one after another. -/
def after (d : Deployment) (s : CodeState) (run : List Attempt) : CodeState := run.foldl (next d) s

/-- A state that calls have led to, from a database without codes. From call to call the clock that
stamps the codes does not fall. -/
def Reachable (d : Deployment) (s : CodeState) : Prop :=
  ∃ db run, emailKey.Distinct db ∧ otps db = [] ∧
    run.Pairwise (fun q q' : Attempt => q.env.stamp ≤ q'.env.stamp) ∧ s = after d ⟨db, .empty⟩ run

/-- Addresses are unique, and the codes agree with the log. -/
structure Sound (last : Micros) (s : CodeState) : Prop where
  distinct : emailKey.Distinct s.db
  agrees : Agrees last s.log s.db

variable {d : Deployment} {s : CodeState} {last : Micros}

theorem Sound.next (h : s.Sound last) (d : Deployment) {q : Attempt} (hlast : last ≤ q.env.stamp) :
    (s.next d q).Sound q.env.stamp where
  distinct := h.distinct.trial q.faults _
  agrees := logged_handler q.command rfl (blank_start (h.agrees.mono hlast))

/-- The stamp of each call bounds those of the codes so far. -/
theorem Sound.after (h : s.Sound last) (d : Deployment) {run : List Attempt}
    (hrun : run.Pairwise fun q q' : Attempt => q.env.stamp ≤ q'.env.stamp)
    (hlast : ∀ q ∈ run, last ≤ q.env.stamp) : ∃ last, (s.after d run).Sound last := by
  induction run generalizing s last with
  | nil => exact ⟨last, h⟩
  | cons q qs ih =>
    obtain ⟨hq, hqs⟩ := List.pairwise_cons.mp hrun
    exact ih (h.next d (hlast q List.mem_cons_self)) hqs hq

/-- **Every reachable state is sound.** -/
theorem Reachable.sound (h : s.Reachable d) : ∃ last, s.Sound last := by
  obtain ⟨db, run, hdb, hcodes, hrun, rfl⟩ := h
  have hempty : ∀ last, Agrees last .empty db := fun last owner kind o ho => by
    have hmem := mem_otps.mpr ho.row_eq
    rw [hcodes] at hmem
    cases hmem
  cases run with
  | nil => exact ⟨0, hdb, hempty 0⟩
  | cons q qs =>
    -- the first call brings the first bound
    refine Sound.after (s := ⟨db, .empty⟩) ⟨hdb, hempty q.env.stamp⟩ d hrun fun q' hq' => ?_
    rcases List.mem_cons.mp hq' with rfl | hq'
    · exact Int.le_refl _
    · exact (List.pairwise_cons.mp hrun).1 q' hq'

end CodeState

/-! ## Claims -/

/-- `consume_by_id` claimed a row. -/
def isClaim : Answered schema → Bool
  | ⟨.update (.consumeById _ _), rowcount⟩ => rowcount == 1
  | _ => false

/-- Nothing fails. -/
def noFaults : Faults schema := fun _ => none

/-- A statement of the trial has claimed a row. -/
def hasClaimed (st : Trial schema) : Bool := st.trace.any isClaim

/-- Run alone and without failures, the program gets to `consume_by_id` and wins. -/
def Wins {α : Type} (db : Content) (p : Tx α) : Prop :=
  hasClaimed (Trial.run noFaults p (.start db)).2 = true

/-- The statement is no `consume_by_id`. -/
def ClaimsNothing : Stmt schema → Prop
  | .update (.consumeById _ _) => False
  | _ => True

section

variable {st : Trial schema} {α : Type}

theorem hasClaimed_effect {s : Stmt schema} (hs : ClaimsNothing s) :
    hasClaimed (st.effect s) = hasClaimed st := by
  unfold hasClaimed Trial.effect
  dsimp only
  split
  · rename_i a _
    have hno : isClaim ⟨s, a⟩ = false := by
      cases s with
      | update u =>
        cases u with
        | consumeById i now => exact hs.elim
        | invalidatePending | toggleStatus | activate => rfl
      | query | add | assign | emit | flush | commit | rollback => rfl
    rw [List.any_append, List.any_cons, List.any_nil, hno, Bool.or_false, Bool.or_false]
  · rfl

theorem hasClaimed_of_only {p : Tx α} (hp : p.Only ClaimsNothing) :
    hasClaimed (Trial.run noFaults p st).2 = hasClaimed st :=
  hp.run_invariant (P := fun st' : Trial schema => hasClaimed st' = hasClaimed st)
    (fun _ _ hs h => (hasClaimed_effect hs).trans h) rfl

theorem hasClaimed_withUow (body : Tx α) :
    hasClaimed (Trial.run noFaults (withUow body) st).2 =
      hasClaimed (Trial.run noFaults body st).2 := by
  have hexec : ∀ s st, ClaimsNothing s → hasClaimed (Trial.exec noFaults s st).2 = hasClaimed st :=
    fun s st hs => hasClaimed_effect (s := s) hs
  unfold withUow
  rw [Trial.run, Program.run_onExit]
  rcases hb : Program.run (Trial.exec noFaults) body st with ⟨r, st₁⟩
  rw [Trial.run, hb]
  cases r with
  | ok a => exact (hexec .rollback _ trivial).trans (hexec .commit _ trivial)
  | error e => exact (hexec .rollback _ trivial).trans (hexec .rollback _ trivial)

/-- `consume_by_id` on a row of the content, and what comes after it. -/
theorem hasClaimed_consumeById {o : OtpRow} (ho : o ∈ otps st.world.view) (now : ℤ) {f : Bool → Tx α}
    (hf : ∀ won, (f won).Only ClaimsNothing) :
    hasClaimed (Trial.run noFaults (OtpOrmRepository.consumeById o.id now >>= f) st).2 =
      (hasClaimed st || decide (o.usedAt = none ∧ now ≤ o.expiresAt)) := by
  let u : Update := .consumeById o.id now
  have hcount : ((Db.matching (σ := schema) st.world.view u).length == 1) =
      decide (o.usedAt = none ∧ now ≤ o.expiresAt) := by
    rw [matching_consumeById ho]
    by_cases hc : o.usedAt = none ∧ now ≤ o.expiresAt <;> simp [hc]
  have hrun : Trial.run noFaults (OtpOrmRepository.consumeById o.id now) st =
      (.ok ((Db.matching (σ := schema) st.world.view u).length == 1), st.effect (.update u)) := rfl
  have hclaim : hasClaimed (st.effect (.update u)) =
      (hasClaimed st || ((Db.matching (σ := schema) st.world.view u).length == 1)) := by
    change (st.trace ++ [_]).any isClaim = _
    rw [List.any_append, List.any_cons, List.any_nil, Bool.or_false]
    rfl
  rw [← hcount, ← hclaim, Trial.run, Program.run_bind_ok hrun]
  exact hasClaimed_of_only (hf _)

end

/-! ## The codes of a state -/

section

variable {db : Content} {last : Micros} {log : CodeLog} {env : Env} {otp : String} {owner : Id}
  {kind : OtpKindEnum} {o : OtpRow}

/-- The codes of one owner and kind were created at different times. -/
def StampsDiffer (db : Content) : Prop :=
  ∀ o ∈ otps db, ∀ o' ∈ otps db, o'.contentId = o.contentId → o'.kind = o.kind →
    o'.createdAt = o.createdAt → o' = o

/-- A row that is newer than all others is the newest, whichever way ties are broken. -/
theorem newest_eq_some {tie : ℕ} {rows : List OtpRow} (hmem : o ∈ rows)
    (hnewest : ∀ o' ∈ rows, o' = o ∨ o'.createdAt < o.createdAt) : newest tie rows = some o := by
  unfold newest
  dsimp only
  generalize hc : (rows.filter fun o => rows.all fun o' => decide (o'.createdAt ≤ o.createdAt)) =
    candidates
  have hself : o ∈ candidates := by
    rw [← hc, List.mem_filter, List.all_eq_true]
    refine ⟨hmem, fun o' ho' => decide_eq_true ?_⟩
    rcases hnewest o' ho' with rfl | hlt
    · exact Int.le_refl _
    · exact Int.le_of_lt hlt
  have hall : ∀ o' ∈ candidates, o' = o := by
    intro o' ho'
    rw [← hc, List.mem_filter, List.all_eq_true] at ho'
    rcases hnewest o' ho'.1 with rfl | hlt
    · rfl
    · exact absurd (of_decide_eq_true (ho'.2 o hmem)) (Int.not_le.mpr hlt)
  have hlt := Nat.mod_lt tie (List.length_pos_of_mem hself)
  rw [List.getElem?_eq_getElem hlt]
  exact congrArg some (hall _ (List.getElem_mem hlt))

/-- The digits are those of the code that was issued last, which is unconsumed and has not run out
at `t`. -/
def CodeLog.Live (log : CodeLog) (owner : Id) (kind : OtpKindEnum) (otp : String) (t : Micros) :
    Prop :=
  ∃ c, log owner kind = some c ∧ c.otp = otp ∧ c.consumed = false ∧
    epoch t ≤ c.second + otpTtlMinutes kind * 60

/-- An open row that a flow finds is that of the code issued last. -/
theorem Agrees.row_of_newest (h : Agrees last log db)
    (hnew : newestCode db env otp owner kind = some o) (hused : o.usedAt = none) :
    ∃ c, log owner kind = some c ∧ c.RowIs o := by
  obtain ⟨hmem, -, howner, hkind⟩ := newestCode_eq_some hnew
  have ho : CodeOf db owner kind o := ⟨mem_otps.mp hmem, howner, hkind⟩
  have hagree := h owner kind
  cases hlog : log owner kind with
  | none =>
    rw [hlog] at hagree
    exact absurd ho (hagree o)
  | some c =>
    rw [hlog] at hagree
    obtain ⟨oc, -, hrow, -, hothers⟩ := hagree
    rcases hothers o ho with rfl | ⟨hused', -⟩
    · exact ⟨c, rfl, hrow⟩
    · exact absurd hused hused'

/-- **The row that decides.** The flows find an open row that has not run out exactly when the code
is live. -/
theorem Agrees.live_iff (h : Agrees last log db) (hdiffer : StampsDiffer db) (env : Env)
    (t : Micros) :
    log.Live owner kind otp t ↔ ∃ o, newestCode db env otp owner kind = some o ∧ o.usedAt = none ∧
      epoch t ≤ o.expiresAt := by
  constructor
  · rintro ⟨c, hlog, rfl, hopen, hexp⟩
    have hagree := h owner kind
    rw [hlog] at hagree
    obtain ⟨o, ho, hrow, -, hothers⟩ := hagree
    refine ⟨o, newest_eq_some ?_ fun o' ho' => ?_, hrow.unused_iff.mpr hopen, ?_⟩
    · refine List.mem_filter.mpr ⟨mem_otps.mpr ho.row_eq, ?_⟩
      simp [OtpOrmRepository.matchesCode, hrow.otp_eq, ho.owner_eq, ho.kind_eq]
    · obtain ⟨hmem, hmatch⟩ := List.mem_filter.mp ho'
      simp only [OtpOrmRepository.matchesCode, Bool.and_eq_true, beq_iff_eq] at hmatch
      rcases hothers o' ⟨mem_otps.mp hmem, hmatch.1.1.2, hmatch.1.2⟩ with heq | ⟨-, hle⟩
      · exact Or.inl heq
      by_cases hstamp : o'.createdAt = o.createdAt
      · exact Or.inl (hdiffer o (mem_otps.mpr ho.row_eq) o' hmem
          (hmatch.1.1.2.trans ho.owner_eq.symm) (hmatch.1.2.trans ho.kind_eq.symm) hstamp)
      · exact Or.inr (Int.lt_iff_le_and_ne.mpr ⟨hle, hstamp⟩)
    · rw [hrow.expiresAt_eq, ho.kind_eq]
      exact hexp
  · rintro ⟨o, hnew, hused, hexp⟩
    obtain ⟨c, hlog, hrow⟩ := h.row_of_newest hnew hused
    obtain ⟨-, hotp, -, hkind⟩ := newestCode_eq_some hnew
    refine ⟨c, hlog, hrow.otp_eq.symm.trans hotp, hrow.unused_iff.mp hused, ?_⟩
    rw [hrow.expiresAt_eq, hkind] at hexp
    exact hexp

/-- A later second is a later second. -/
theorem epoch_mono {t t' : Micros} (h : t ≤ t') : epoch t ≤ epoch t' :=
  Int.tdiv_le_tdiv (by decide) h

end

/-! ## The three flows -/

section

variable {db : Content} {env : Env} {otp : String} {owner : Id} {u : UserRow}

/-- A confirmation claims the newest row with the digits if it is open and unverified. -/
theorem wins_confirm :
    Wins db (UserConfirmationService.confirm env 0 owner otp .emailConfirmation) ↔
      ∃ o, spendable db env otp owner = some o := by
  have hfind : Trial.run noFaults (OtpOrmRepository.findActiveForContent env otp owner
      .emailConfirmation .user) (.start db) =
      (.ok ((newestCode db env otp owner .emailConfirmation).map toDetailed),
        (Trial.start db).effect (.query (Select.otps
          (OtpOrmRepository.matchesCode otp owner .emailConfirmation .user)))) := rfl
  unfold Wins UserConfirmationService.confirm UserConfirmationService.eventByKind
  dsimp only
  rw [show UserConfirmationService.contentType = .user from rfl, Trial.run, Program.run_bind_ok hfind]
  simp only [spendable_eq_some]
  cases hnew : newestCode db env otp owner .emailConfirmation with
  | none =>
    refine ⟨(fun h => by cases h), ?_⟩
    rintro ⟨o, h, -⟩
    cases h
  | some o =>
    have hmem := (newestCode_eq_some hnew).1
    dsimp only [Option.map_some, toDetailed]
    by_cases hflags : (o.usedAt.isSome || o.verified) = true
    · rw [if_pos hflags]
      refine ⟨(fun h => by cases h), ?_⟩
      rintro ⟨o', ho', hused, hver, -⟩
      cases ho'
      rw [hused, hver] at hflags
      cases hflags
    rw [if_neg hflags]
    rw [Bool.or_eq_true, not_or, Option.not_isSome_iff_eq_none, Bool.not_eq_true] at hflags
    by_cases hexp : o.expiresAt < epoch (env.clock 0)
    · rw [if_pos hexp]
      refine ⟨(fun h => by cases h), ?_⟩
      rintro ⟨o', ho', -, -, hexp', -⟩
      cases ho'
      omega
    rw [if_neg hexp, hasClaimed_consumeById (o := o) hmem]
    · change (false || decide _) = true ↔ _
      rw [Bool.false_or, decide_eq_true_eq]
      constructor
      · rintro ⟨hused, hexp'⟩
        exact ⟨o, rfl, hused, hflags.2, Int.not_lt.mp hexp, hexp'⟩
      · rintro ⟨o', ho', hused, -, -, hexp'⟩
        cases ho'
        exact ⟨hused, hexp'⟩
    · intro won
      cases won
      · trivial
      · exact .bind (.lift trivial) fun _ => trivial

theorem step2_ok {baseUrl : String} (hu : usersByEmail db u.email = [u]) :
    (∃ found, db.result (ForgotPasswordStep2CommandHandler.call baseUrl env ⟨u.email, otp⟩) =
        .ok (.ok found)) ↔
      ∃ o, newestCode db env otp u.id .forgotPassword = some o ∧ o.usedAt = none ∧
        epoch (env.clock 0) ≤ o.expiresAt := by
  have hget := run_getByEmailForPasswordRecovery (World.ofDb db) baseUrl u.email
  rw [show usersByEmail (World.ofDb db).view u.email = [u] from hu] at hget
  have hfind := run_findActiveForContent (World.ofDb db) env u.id otp .forgotPassword
  rw [show (World.ofDb db).view = db from rfl] at hfind
  have hresult : db.result (ForgotPasswordStep2CommandHandler.call baseUrl env ⟨u.email, otp⟩) =
      .ok ((newestCode db env otp u.id .forgotPassword).elim (.error [invalidOtp]) fun o =>
        if o.usedAt.isSome then .error [invalidOtp]
        else if o.expiresAt < epoch (env.clock 0) then .error [expired]
        else .ok (UserOrmRepository.toRecovery baseUrl (u, avatar db u))) := by
    refine Db.result_withUow_of_session (w := World.ofDb db) ?_ rfl
    rw [World.run, Program.run_bind_ok hget]
    refine (Program.run_bind_ok hfind _).trans ?_
    cases newestCode db env otp u.id .forgotPassword with
    | none => rfl
    | some o =>
      dsimp only [Option.map_some, Option.elim_some, toDetailed]
      split
      · rfl
      split
      · rfl
      · rfl
  rw [hresult]
  cases hnew : newestCode db env otp u.id .forgotPassword with
  | none =>
    constructor
    · rintro ⟨found, h⟩
      cases h
    · rintro ⟨o, h, -⟩
      cases h
  | some o =>
    dsimp only [Option.elim_some]
    constructor
    · rintro ⟨found, h⟩
      split at h
      · cases h
      rename_i hused
      split at h
      · cases h
      rename_i hexp
      exact ⟨o, rfl, Option.not_isSome_iff_eq_none.mp hused, Int.not_lt.mp hexp⟩
    · rintro ⟨o', ho', hused, hexp⟩
      cases ho'
      rw [hused, if_neg (by simp), if_neg (Int.not_lt.mpr hexp)]
      exact ⟨_, rfl⟩

theorem wins_step3 {b : Bcrypt} {newPassword : String} (hu : usersByEmail db u.email = [u]) :
    Wins db (ForgotPasswordStep3CommandHandler.call b env ⟨u.email, otp, newPassword⟩) ↔
      ∃ o, newestCode db env otp u.id .forgotPassword = some o ∧ o.usedAt = none ∧
        epoch (env.clock 0) ≤ o.expiresAt ∧ epoch (env.clock 1) ≤ o.expiresAt := by
  let st : Trial schema := (Trial.start db).effect (.query (Select.users fun v => v.email == u.email))
  have hget : Trial.run noFaults (UserOrmRepository.getForPasswordReset u.email) (.start db) =
      (.ok (some (.ofRow u)), st) := by
    have hrun : Trial.run noFaults (UserOrmRepository.getForPasswordReset u.email) (.start db) =
        Trial.run noFaults (Program.ofExcept (oneOrNone (usersByEmail db u.email)) >>= fun found =>
          (pure (found.map UserAggregate.ofRow) : Tx (Option UserAggregate))) st := rfl
    rw [hrun, hu]
    rfl
  have hfind : Trial.run noFaults (OtpOrmRepository.findActiveForContent env otp u.id
      .forgotPassword .user) st =
      (.ok ((newestCode db env otp u.id .forgotPassword).map toDetailed),
        st.effect (.query (Select.otps
          (OtpOrmRepository.matchesCode otp u.id .forgotPassword .user)))) := rfl
  unfold Wins ForgotPasswordStep3CommandHandler.call
  rw [hasClaimed_withUow, Trial.run, Program.run_bind_ok hget]
  dsimp only [UserAggregate.ofRow_source]
  rw [Program.run_bind_ok hfind]
  cases hnew : newestCode db env otp u.id .forgotPassword with
  | none =>
    refine ⟨(fun h => by cases h), ?_⟩
    rintro ⟨o, h, -⟩
    cases h
  | some o =>
    have hmem := (newestCode_eq_some hnew).1
    dsimp only [Option.map_some, toDetailed]
    by_cases hexp : o.expiresAt < epoch (env.clock 0)
    · rw [if_pos hexp]
      refine ⟨(fun h => by cases h), ?_⟩
      rintro ⟨o', ho', -, hexp', -⟩
      cases ho'
      omega
    rw [if_neg hexp, hasClaimed_consumeById (o := o) hmem]
    · change (false || decide _) = true ↔ _
      rw [Bool.false_or, decide_eq_true_eq]
      constructor
      · rintro ⟨hused, hexp'⟩
        exact ⟨o, rfl, hused, Int.not_lt.mp hexp, hexp'⟩
      · rintro ⟨o', ho', hused, -, hexp'⟩
        cases ho'
        exact ⟨hused, hexp'⟩
    · intro won
      cases won with
      | false => exact .bind (.lift trivial) fun _ => trivial
      | true =>
        refine .ofExcept fun user _ => .bind (.lift trivial) fun _ => ?_
        exact (only_publishMany (fun _ => trivial) _).bind fun _ => trivial

end

/-! ## Every run -/

/-- **Accepted codes.** In every state that calls have led to, whatever failed in them, if successive
codes got different stamps, the confirmation wins a row, the second step of a reset answers and the
third step wins a row exactly when the digits are those of the code issued last, unconsumed and not
run out at that second; so at one second the second step accepts what the third would spend. -/
theorem accepts_iff {d : Deployment} {s : CodeState} (hs : s.Reachable d)
    (hdiffer : StampsDiffer s.db) {u : UserRow} (hu : u ∈ users s.db) {env : Env}
    (hclock : env.clock 0 ≤ env.clock 1) (otp newPassword : String) :
    (Wins s.db (UserConfirmationService.confirm env 0 u.id otp .emailConfirmation) ↔
      s.log.Live u.id .emailConfirmation otp (env.clock 1)) ∧
    ((∃ found, s.db.result (ForgotPasswordStep2CommandHandler.call d.baseUrl env ⟨u.email, otp⟩) =
        .ok (.ok found)) ↔
      s.log.Live u.id .forgotPassword otp (env.clock 0)) ∧
    (Wins s.db (ForgotPasswordStep3CommandHandler.call d.bcrypt env ⟨u.email, otp, newPassword⟩) ↔
      s.log.Live u.id .forgotPassword otp (env.clock 1)) ∧
    (epoch (env.clock 0) = epoch (env.clock 1) →
      ((∃ found, s.db.result (ForgotPasswordStep2CommandHandler.call d.baseUrl env ⟨u.email, otp⟩) =
          .ok (.ok found)) ↔
        Wins s.db (ForgotPasswordStep3CommandHandler.call d.bcrypt env
          ⟨u.email, otp, newPassword⟩))) := by
  obtain ⟨last, hsound⟩ := hs.sound
  have hagrees := hsound.agrees
  have hemail := usersByEmail_of_mem hsound.distinct hu
  have hmono := epoch_mono hclock
  have hstep2 := @step2_ok s.db env otp u d.baseUrl hemail
  have hstep3 := @wins_step3 s.db env otp u d.bcrypt newPassword hemail
  rw [wins_confirm, hstep2, hstep3, hagrees.live_iff hdiffer env,
    hagrees.live_iff hdiffer env, hagrees.live_iff hdiffer env]
  refine ⟨?_, Iff.rfl, ?_, ?_⟩
  · simp only [spendable_eq_some]
    constructor
    · rintro ⟨o, hnew, hused, -, -, hexp⟩
      exact ⟨o, hnew, hused, hexp⟩
    · rintro ⟨o, hnew, hused, hexp⟩
      obtain ⟨c, -, hrow⟩ := hagrees.row_of_newest hnew hused
      exact ⟨o, hnew, hused, hrow.unverified hused, Int.le_trans hmono hexp, hexp⟩
  · constructor
    · rintro ⟨o, hnew, hused, -, hexp⟩
      exact ⟨o, hnew, hused, hexp⟩
    · rintro ⟨o, hnew, hused, hexp⟩
      exact ⟨o, hnew, hused, Int.le_trans hmono hexp, hexp⟩
  · intro hsame
    rw [← hsame]
    constructor
    · rintro ⟨o, hnew, hused, hexp⟩
      exact ⟨o, hnew, hused, hexp, hexp⟩
    · rintro ⟨o, hnew, hused, hexp, -⟩
      exact ⟨o, hnew, hused, hexp⟩

/-- Ann has signed up in second 0 and was mailed a code; in second 70 she was mailed another one,
with the same digits. -/
def annMailedTwice : CodeState :=
  CodeState.after .plain ⟨Db.empty, .empty⟩ [
    { env := .at 0 0 "123456"
      command := .register
        { email := "ann@example.com", password := "secret", firstName := "Ann", lastName := "Lee" }
      faults := noFaults },
    { env := .at 70000000 0 "123456"
      command := .resendEmailConfirmation ⟨"ann@example.com"⟩
      faults := noFaults }]

/-- The newer code is accepted in the second in which it runs out, and not in the next one. -/
theorem accepts_iff_lastSecond :
    Wins annMailedTwice.db
        (UserConfirmationService.confirm (.at 970000000) 0 0 "123456" .emailConfirmation) ∧
      ¬Wins annMailedTwice.db
        (UserConfirmationService.confirm (.at 971000000) 0 0 "123456" .emailConfirmation) := by
  have hs : annMailedTwice.Reachable .plain :=
    ⟨_, _, emailKey.distinct_empty, rfl, by simp [Env.at], rfl⟩
  have hdiffer : StampsDiffer annMailedTwice.db := by unfold StampsDiffer; decide +kernel
  obtain ⟨u, hu, hid⟩ : ∃ u ∈ users annMailedTwice.db, u.id = 0 := by decide +kernel
  have hlast := (accepts_iff hs hdiffer hu (show (Env.at 970000000).clock 0 ≤
    (Env.at 970000000).clock 1 from Int.le_refl _) "123456" "").1
  have hnext := (accepts_iff hs hdiffer hu (show (Env.at 971000000).clock 0 ≤
    (Env.at 971000000).clock 1 from Int.le_refl _) "123456" "").1
  rw [hid] at hlast hnext
  rw [hlast, hnext]
  constructor
  · exact ⟨⟨2, "123456", 70, false⟩, rfl, rfl, rfl, by decide⟩
  · rintro ⟨c, hc, -, -, hexp⟩
    cases hc
    exact absurd hexp (by decide)

end ApiTemplate.Identity
