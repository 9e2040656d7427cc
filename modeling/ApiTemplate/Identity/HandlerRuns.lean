import ApiTemplate.Identity.UserWrites

/-!
# The handlers on a database of their own

What `confirm` and the handlers over it answer, and the rows they leave, when they run alone.
-/

namespace ApiTemplate.Identity

open TxStore

section

variable (w : World schema) (env : Env) (n : ℕ) (contentId : Id) (otp : String)

theorem run_confirm :
    World.run (UserConfirmationService.confirm env n contentId otp .emailConfirmation) w =
      match newestCode w.view env otp contentId .emailConfirmation with
      | none => (.ok (.error [invalidOtp]), w)
      | some o =>
        if o.usedAt.isSome || o.verified then (.ok (.error [alreadyUsed]), w)
        else if o.expiresAt < epoch (env.clock n) then (.ok (.error [expired]), w)
        else if epoch (env.clock (n + 1)) ≤ o.expiresAt then
          (.ok (.ok o.contentId), { w with
            view := w.view.update (.consumeById o.id (epoch (env.clock (n + 1))))
            emitted := w.emitted ++ [.userEmailConfirmed o.contentId o.targetValue] })
        else
          (.ok (.error [alreadyUsed]), { w with
            view := w.view.update (.consumeById o.id (epoch (env.clock (n + 1)))) }) := by
  have hfind := run_findActiveForContent w env contentId otp .emailConfirmation
  unfold UserConfirmationService.confirm UserConfirmationService.eventByKind
  dsimp only
  rw [World.run, show UserConfirmationService.contentType = .user from rfl,
    Program.run_bind_ok hfind]
  cases hnew : newestCode w.view env otp contentId .emailConfirmation with
  | none => rfl
  | some o =>
    have hmem := (newestCode_eq_some hnew).1
    have hconsume := run_consumeById w hmem (epoch (env.clock (n + 1)))
    dsimp only [Option.map_some, toDetailed]
    split
    · rfl
    · rename_i hused
      split
      · rfl
      · rw [Program.run_bind_ok hconsume]
        rw [Bool.or_eq_true, not_or, Option.not_isSome_iff_eq_none] at hused
        by_cases hexp : epoch (env.clock (n + 1)) ≤ o.expiresAt
        · rw [decide_eq_true ⟨hused.1, hexp⟩, if_pos hexp]
          rfl
        · rw [decide_eq_false (fun hc => hexp hc.2), if_neg hexp]
          rfl

end

/-- The code that a confirmation with `otp` spends, if it spends one. -/
def spendable (db : Content) (env : Env) (otp : String) (contentId : Id) : Option OtpRow :=
  (newestCode db env otp contentId .emailConfirmation).filter fun o =>
    o.usedAt.isNone && !o.verified && decide (epoch (env.clock 0) ≤ o.expiresAt) &&
      decide (epoch (env.clock 1) ≤ o.expiresAt)

theorem spendable_eq_some {db : Content} {env : Env} {otp : String} {id : Id} {o : OtpRow} :
    spendable db env otp id = some o ↔
      newestCode db env otp id .emailConfirmation = some o ∧ o.usedAt = none ∧
        o.verified = false ∧ epoch (env.clock 0) ≤ o.expiresAt ∧ epoch (env.clock 1) ≤ o.expiresAt := by
  unfold spendable
  rw [Option.filter_eq_some_iff]
  simp [and_assoc]

variable {db : Content} {u : UserRow}

theorem mem_of_oneOrNone {α : Type} {l : List α} {a : α} (h : oneOrNone l = .ok (some a)) :
    l = [a] := by
  match l, h with
  | [_], h =>
    cases h
    rfl

/-- The rows `consume_by_id` leaves. -/
theorem update_consumeById_row {o : OtpRow} (h : o ∈ otps db) (hused : o.usedAt = none)
    {nowEpoch : ℤ} (hexp : nowEpoch ≤ o.expiresAt) (i : Id) :
    (Db.update (σ := schema) db (.consumeById o.id nowEpoch)).row i =
      if i = o.id then some (.otp { o with usedAt := some nowEpoch, verified := true })
      else db.row i := by
  rw [Db.update_row]
  by_cases hi : i = o.id
  · rw [if_pos hi, hi, mem_otps.mp h]
    refine congrArg some (if_pos ?_)
    simp [Update.guard, hused, hexp]
  · rw [if_neg hi]
    cases hr : db.row i with
    | none => rfl
    | some r =>
      refine congrArg some (if_neg ?_)
      have hid := id_of_row hr
      cases r with
      | otp o' =>
        have hne : o'.id ≠ o.id := fun hc => hi (hid.symm.trans hc)
        simp [Update.guard, hne]
      | user u => simp [Update.guard]
      | apiKey k => simp [Update.guard]
      | blob b => simp [Update.guard]

/-- Where the code is not one that is spent, the service refuses and commits nothing. -/
theorem run_confirm_refused {contentId : Id} {otp : String}
    (h : spendable db env otp contentId = none) :
    ∃ e w, World.run (UserConfirmationService.confirm env 0 contentId otp .emailConfirmation)
      (World.ofDb db) = (.ok (.error e), w) ∧ w.committed.row = db.row := by
  have hconfirm := run_confirm (World.ofDb db) env 0 contentId otp
  rw [show (World.ofDb db).view = db from rfl, Nat.zero_add] at hconfirm
  split at hconfirm
  · exact ⟨_, _, hconfirm, rfl⟩
  rename_i o hnew
  split at hconfirm
  · exact ⟨_, _, hconfirm, rfl⟩
  rename_i hused
  split at hconfirm
  · exact ⟨_, _, hconfirm, rfl⟩
  rename_i hexp₀
  split at hconfirm
  · rename_i hexp₁
    rw [Bool.or_eq_true, not_or, Option.not_isSome_iff_eq_none, Bool.not_eq_true] at hused
    have hsome := spendable_eq_some.mpr ⟨hnew, hused.1, hused.2, by omega, hexp₁⟩
    rw [h] at hsome
    cases hsome
  · exact ⟨_, _, hconfirm, rfl⟩

/-- The rows a confirmation leaves: those of before, unless the address has one user and the code is
one that it spends. -/
theorem after_confirmEmail_row (env : Env) (message : ConfirmEmailCommand) (db : Content) :
    (db.after (ConfirmEmailCommandHandler.call env message)).row =
      match oneOrNone (usersByEmail db message.email) with
      | .error _ | .ok none => db.row
      | .ok (some u) =>
        match spendable db env message.otp u.id with
        | none => db.row
        | some o =>
          match (Db.update (σ := schema) db (.consumeById o.id (epoch (env.clock 1)))).write
              ⟨u, (UserAggregate.ofRow u).confirmEmail.source⟩ with
          | .error _ => db.row
          | .ok db' => db'.row := by
  unfold ConfirmEmailCommandHandler.call
  rw [Db.after_withUow_row]
  have hget := run_getAggregateForUpdateByEmail (World.ofDb db) message.email
  rw [show (World.ofDb db).view = db from rfl] at hget
  cases hone : oneOrNone (usersByEmail db message.email) with
  | error e =>
    rw [hone] at hget
    rw [World.run, Program.run_bind_error hget]
    rfl
  | ok found =>
    rw [hone] at hget
    rw [World.run, Program.run_bind_ok hget]
    cases found with
    | none => rfl
    | some u =>
      dsimp only [Except.map, Option.map_some, UserAggregate.ofRow_source]
      cases hspend : spendable db env message.otp u.id with
      | none =>
        -- the service answers with an error, and the handler rolls back
        obtain ⟨e, w, hrun, hw⟩ := run_confirm_refused hspend
        rw [Program.run_bind_ok hrun]
        exact hw
      | some o =>
        obtain ⟨hnew, hused, hver, hexp₀, hexp₁⟩ := spendable_eq_some.mp hspend
        have hconfirm := run_confirm (World.ofDb db) env 0 u.id message.otp
        rw [show (World.ofDb db).view = db from rfl, Nat.zero_add, hnew] at hconfirm
        dsimp only at hconfirm
        rw [hused, hver, if_neg (by simp), if_neg (by omega), if_pos hexp₁] at hconfirm
        rw [Program.run_bind_ok hconfirm]
        dsimp only
        rw [Program.run_bind_ok (run_save _ _ _)]
        dsimp only [Program.pure_eq, Program.run_done]
        rw [show (World.ofDb db []).session.patches ++ [_] = [_] from rfl,
          show (World.ofDb db []).session.new = [] from rfl, Db.flush_patch]
        cases (Db.update (σ := schema) db (.consumeById o.id (epoch (env.clock 1)))).write
          ⟨u, (UserAggregate.ofRow u).confirmEmail.source⟩ <;> rfl

/-- Spending a code leaves the users. -/
theorem user?_update_consumeById (hu : u ∈ users db) {o : OtpRow} (nowEpoch : ℤ) :
    user? (Db.update (σ := schema) db (.consumeById o.id nowEpoch)) u.id = some u := by
  rw [user?_eq_some, Db.update_row, mem_users.mp hu]
  rfl

/-- The rows of a confirmation that spends a code. -/
theorem write_confirmed_row {env : Env} {o : OtpRow} {otp : String} {db' : Content}
    (hu : u ∈ users db) (hspend : spendable db env otp u.id = some o)
    (hw : (Db.update (σ := schema) db (.consumeById o.id (epoch (env.clock 1)))).write
      ⟨u, (UserAggregate.ofRow u).confirmEmail.source⟩ = .ok db') (i : Id) :
    db'.row i =
      if i = u.id then some (.user (UserAggregate.ofRow u).confirmEmail.source)
      else if i = o.id then
        some (.otp { o with usedAt := some (epoch (env.clock 1)), verified := true })
      else db.row i := by
  obtain ⟨hnew, hused, -, -, hexp₁⟩ := spendable_eq_some.mp hspend
  have ho := (newestCode_eq_some hnew).1
  have hrow := update_consumeById_row ho hused hexp₁
  rw [← hrow i]
  exact write_row (user?_update_consumeById hu _) rfl hw

/-- **Confirmation.** A confirmation leaves the rows as they were, or spends the code and confirms
the user of the address. -/
theorem after_confirmEmail (env : Env) (message : ConfirmEmailCommand) (db : Content) :
    (db.after (ConfirmEmailCommandHandler.call env message)).row = db.row ∨
      ∃ u o, u ∈ users db ∧ u.email = message.email ∧
        spendable db env message.otp u.id = some o ∧
        ∀ i, (db.after (ConfirmEmailCommandHandler.call env message)).row i =
          if i = u.id then some (.user (UserAggregate.ofRow u).confirmEmail.source)
          else if i = o.id then
            some (.otp { o with usedAt := some (epoch (env.clock 1)), verified := true })
          else db.row i := by
  rw [after_confirmEmail_row]
  split
  · exact Or.inl rfl
  · exact Or.inl rfl
  rename_i u hone
  have hu : u ∈ usersByEmail db message.email := by
    rw [mem_of_oneOrNone hone]
    exact List.mem_singleton_self u
  obtain ⟨hmem, hemail⟩ := List.mem_filter.mp hu
  split
  · exact Or.inl rfl
  rename_i o hspend
  split
  · exact Or.inl rfl
  · rename_i db' hw
    exact Or.inr ⟨u, o, hmem, beq_iff_eq.mp hemail, hspend, write_confirmed_row hmem hspend hw⟩

/-- With unique addresses, a confirmation with a code that it can spend makes its user active. -/
theorem after_confirmEmail_of_spendable {env : Env} {message : ConfirmEmailCommand} {o : OtpRow}
     (hdb : emailKey.Distinct db) (hu : u ∈ users db) (hemail : u.email = message.email)
    (hspend : spendable db env message.otp u.id = some o) :
    (db.after (ConfirmEmailCommandHandler.call env message)).row u.id =
      some (.user (UserAggregate.ofRow u).confirmEmail.source) := by
  have hupdated := hdb.update (.consumeById o.id (epoch (env.clock 1)))
  obtain ⟨db', hw⟩ := write_ok (c := (UserAggregate.ofRow u).confirmEmail.source) hupdated
    (user?_update_consumeById hu _) rfl rfl
  rw [after_confirmEmail_row, ← hemail, usersByEmail_of_mem hdb hu]
  dsimp only [oneOrNone]
  rw [hspend]
  dsimp only
  rw [hw]
  exact (write_confirmed_row hu hspend hw u.id).trans (if_pos rfl)

end ApiTemplate.Identity
