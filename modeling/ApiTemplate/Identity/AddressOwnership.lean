import ApiTemplate.Identity.HandlerRuns
import ApiTemplate.TxStore.Transition

/-!
# Proof of an email address

A confirmed address should be one whose code was consumed, unless the trusted factory was given it.
A run is a sequence of registrations, changes of address, issued codes and confirmations; `trusted`
collects the users whose address is still the one that `UserAggregate.create` was given. The
confirmation never compares the target of the code with the address of the user, so the law holds
along the runs in which every code that is spent was issued for the current address.
-/

namespace ApiTemplate.Identity

open TxStore

/-- Issue a confirmation code the way the callers do: for the user's address at that time. -/
def issueConfirmation (env : Env) (id : Id) : Tx Unit := withUow do
  match ← UserOrmRepository.getAggregateForUpdate id with
  | none => pure ()
  | some user => do
    let _ ← UserConfirmationService.issue env 0 user.source.id .emailConfirmation user.source.email
    pure ()

/-- The operations on addresses and their codes. -/
inductive AddressOp
  | register (param : UserCreateParams) (now : Micros)
  | create (param : UserCreateParams) (now : Micros) (isSuperuser : Bool)
  | changeEmail (id : Id) (email : String)
  | issue (env : Env) (id : Id)
  | confirmEmail (env : Env) (message : ConfirmEmailCommand)

namespace AddressOp

/-- What an operation leaves committed. -/
def after (db : Content) : AddressOp → Content
  | register param now => db.after (addUser (.register param now))
  | create param now isSuperuser => db.after (addUser (.create param now isSuperuser))
  | changeEmail id email => db.after (withUser id fun a => .ok (a.changeEmail email))
  | issue env id => db.after (issueConfirmation env id)
  | confirmEmail env message => db.after (ConfirmEmailCommandHandler.call env message)

/-- The user the trusted factory makes. -/
def trusts (db : Content) : AddressOp → List Id
  | create _ _ _ => [db.next]
  | _ => []

end AddressOp

/-- The database, and the users whose address is the one the trusted factory was given and has
never changed since. -/
structure AddressState where
  db : Content
  trusted : List Id

def AddressState.empty : AddressState := ⟨Db.empty, []⟩

/-- The address of a user. -/
def addressOf (db : Content) (id : Id) : Option String := (user? db id).map UserRow.email

/-- The state after an operation. -/
def AddressState.next (s : AddressState) (op : AddressOp) : AddressState where
  db := op.after s.db
  trusted := op.trusts s.db ++
    s.trusted.filter fun id => addressOf (op.after s.db) id == addressOf s.db id

/-- Every operation can be taken in every state. -/
def AddressState.step (s : AddressState) (op : AddressOp) : Option AddressState := some (s.next op)

/-- `consume_by_id` has claimed the code. -/
def OtpRow.Consumed (o : OtpRow) : Prop := o.usedAt.isSome = true ∧ o.verified = true

/-- A confirmation code for the current address of `u` has been consumed for `u`. -/
def AddressProven (db : Content) (u : UserRow) : Prop :=
  ∃ o ∈ otps db, o.contentId = u.id ∧ o.kind = .emailConfirmation ∧ o.targetValue = u.email ∧
    o.Consumed

/-- Every confirmed address is proven, or trusted and unchanged. -/
def AddressState.Proven (s : AddressState) : Prop :=
  ∀ u ∈ users s.db, u.emailConfirmed = true → u.id ∉ s.trusted → AddressProven s.db u

/-- The code a confirmation spends was issued for the current address of the user. -/
def SpendsCurrent (s : AddressState) : AddressOp → Prop
  | .confirmEmail env message => ∀ u ∈ users s.db, u.email = message.email →
      ∀ o ∈ spendable s.db env message.otp u.id, o.targetValue = u.email
  | _ => True

/-! ## What the operations do to users and codes -/

variable {db : Content}

/-- A consumed code stays. -/
theorem otp_after_of_consumed {α : Type} {o : OtpRow} (h : o ∈ otps db) (hc : o.Consumed)
    (p : Tx α) : o ∈ otps (db.after p) := by
  rw [mem_otps] at h ⊢
  refine Db.after_row_of_frozen h (fun u => ?_) (fun p => rfl) p
  have hused : (o.usedAt == none) = false := by
    rw [beq_eq_false_iff_ne]
    intro hn
    have := hc.1
    rw [hn] at this
    cases this
  cases u <;> simp [Update.guard, hused]

theorem AddressProven.after {α : Type} {u : UserRow} (h : AddressProven db u) (p : Tx α) :
    AddressProven (db.after p) u := by
  obtain ⟨o, ho, hid, hkind, htarget, hc⟩ := h
  exact ⟨o, otp_after_of_consumed ho hc p, hid, hkind, htarget, hc⟩

/-- Issuing a code writes no user. -/
theorem user_of_after_issueConfirmation {env : Env} {id : Id} {v : UserRow}
    (h : v ∈ users (db.after (issueConfirmation env id))) : v ∈ users db := by
  rw [mem_users] at h ⊢
  unfold issueConfirmation at h
  rw [Db.after_withUow_row, World.run, Program.run_bind_ok (run_getAggregateForUpdate _ id),
    show (World.ofDb db).view = db from rfl] at h
  cases hu : user? db id with
  | none =>
    rw [hu] at h
    exact h
  | some u =>
    rw [hu] at h
    dsimp only [Option.map_some, UserAggregate.ofRow_source] at h
    have hissue := run_issue (World.ofDb db) env 0 u.id .emailConfirmation u.email
    split at hissue
    · rw [Program.run_bind_ok hissue] at h
      exact h
    · rw [Program.run_bind_ok hissue] at h
      dsimp only [Program.pure_eq, Program.run_done] at h
      split at h
      · rename_i db' hf
        cases hr : (Db.update (σ := schema) db (.invalidatePending u.id .user .emailConfirmation
            (epoch (env.clock 0)))).row v.id with
        | none =>
          obtain ⟨r, hmem, -, happly⟩ := Db.flush_row_of_none hf hr h
          obtain rfl := List.mem_singleton.mp hmem
          cases happly
        | some r =>
          rw [Db.flush_row_of_some hf hr] at h
          cases h
          obtain ⟨r₀, hr₀, hset⟩ := Option.map_eq_some_iff.mp hr
          unfold Db.updated at hset
          split at hset
          · cases r₀ <;> cases hset
            exact hr₀
          · rw [hr₀, hset]
      · exact h

/-! ## Runs -/

variable {s s' : AddressState} {op : AddressOp}

theorem not_mem_trusted_step {v : UserRow} (hs : s.step op = some s') (hv : v.id ∉ s'.trusted)
    (haddr : addressOf s'.db v.id = addressOf s.db v.id) : v.id ∉ s.trusted := by
  intro hmem
  cases hs
  refine hv (List.mem_append_right _ (List.mem_filter.mpr ⟨hmem, ?_⟩))
  exact beq_iff_eq.mpr haddr

theorem addressOf_of_mem {u : UserRow} (h : u ∈ users db) : addressOf db u.id = some u.email := by
  unfold addressOf
  rw [user?_eq_some.mpr (mem_users.mp h)]
  rfl

/-- A user that was there before and kept its address keeps its proof. -/
theorem AddressState.Proven.kept {v u : UserRow} {α : Type} {p : Tx α} (h : s.Proven)
    (hs : s.step op = some s') (hdb : s'.db = s.db.after p) (hv : v ∈ users s'.db)
    (hu : u ∈ users s.db) (hid : v.id = u.id) (hemail : v.email = u.email)
    (hconf : u.emailConfirmed = true) (htrust : v.id ∉ s'.trusted) : AddressProven s'.db v := by
  have haddr : addressOf s'.db v.id = addressOf s.db v.id := by
    rw [addressOf_of_mem hv, hid, addressOf_of_mem hu, hemail]
  have hnot := not_mem_trusted_step hs htrust haddr
  rw [hid] at hnot
  rw [hdb]
  obtain ⟨o, ho, hc, hkind, htarget, hcons⟩ := (h u hu hconf hnot).after p
  exact ⟨o, ho, hc.trans hid.symm, hkind, htarget.trans hemail.symm, hcons⟩

theorem db_of_step (hs : s.step op = some s') : s'.db = op.after s.db := by
  cases hs
  rfl

/-- A changed address is no confirmed one. -/
theorem proven_changeEmail {id : Id} {email : String} (h : s.Proven)
    (hs : s.step (.changeEmail id email) = some s') : s'.Proven := by
  intro v hv hconf htrust
  have hdb := db_of_step hs
  have hv' := hv
  rw [hdb] at hv'
  have hkeepsId : ∀ a a' : UserAggregate,
      (.ok (a.changeEmail email) : Except Exn UserAggregate) = .ok a' →
        a'.source.id = a.source.id := by
    intro a a' ha
    cases ha
    unfold UserAggregate.changeEmail
    split <;> rfl
  rcases row_after_withUser hkeepsId (mem_users.mp hv') with hrow | ⟨u, a, hu, ha, hrow⟩
  · exact h.kept hs hdb hv (mem_users.mpr hrow) rfl rfl hconf htrust
  · cases hrow
    cases ha
    have hmem : u ∈ users s.db := by
      have hur := user?_eq_some.mp hu
      have hid : u.id = id := id_of_row hur
      rw [mem_users, hid]
      exact hur
    unfold UserAggregate.changeEmail at hconf hv htrust ⊢
    split at hconf
    · rename_i he
      rw [if_pos he] at hv htrust ⊢
      exact h.kept hs hdb hv hmem rfl rfl hconf htrust
    · cases hconf

/-- The code that confirms was issued for the address. -/
theorem proven_confirmEmail {env : Env} {message : ConfirmEmailCommand} (h : s.Proven)
    (hok : SpendsCurrent s (.confirmEmail env message))
    (hs : s.step (.confirmEmail env message) = some s') : s'.Proven := by
  intro v hv hconf htrust
  have hdb := db_of_step hs
  have hv' := mem_users.mp hv
  rw [hdb] at hv'
  have hafter := after_confirmEmail env message s.db
  rcases hafter with hrow | ⟨u, o, hu, hemail, hspend, hrow⟩
  · change (s.db.after _).row v.id = _ at hv'
    rw [hrow] at hv'
    exact h.kept hs hdb hv (mem_users.mpr hv') rfl rfl hconf htrust
  · change (s.db.after _).row v.id = _ at hv'
    rw [hrow] at hv'
    split at hv'
    · -- the user who confirms: the code spent was issued for this address
      rename_i hid
      cases hv'
      have htarget := hok u hu hemail o hspend
      obtain ⟨ho, -, hcontent, hkind⟩ :=
        newestCode_eq_some (Option.filter_eq_some_iff.mp hspend).1
      refine ⟨{ o with usedAt := some (epoch (env.clock 1)), verified := true }, ?_, hcontent,
        hkind, htarget, rfl, rfl⟩
      rw [hdb, mem_otps]
      change (s.db.after _).row o.id = _
      rw [hrow, if_neg, if_pos rfl]
      intro hc
      have hur := mem_users.mp hu
      rw [← hc, mem_otps.mp ho] at hur
      cases hur
    · split at hv'
      · cases hv'
      · exact h.kept hs hdb hv (mem_users.mpr hv') rfl rfl hconf htrust

theorem proven_step (h : s.Proven) (hok : SpendsCurrent s op) (hs : s.step op = some s') :
    s'.Proven := by
  intro v hv hconf htrust
  have hdb := db_of_step hs
  cases op with
  | register param now =>
    have hv' := hv
    rw [hdb] at hv'
    rcases row_after_addUser (mem_users.mp hv') with hrow | ⟨-, hrow⟩
    · exact h.kept hs hdb hv (mem_users.mpr hrow) rfl rfl hconf htrust
    · cases hrow
      cases hconf
  | create param now isSuperuser =>
    have hv' := hv
    rw [hdb] at hv'
    rcases row_after_addUser (mem_users.mp hv') with hrow | ⟨hid, -⟩
    · exact h.kept hs hdb hv (mem_users.mpr hrow) rfl rfl hconf htrust
    · refine absurd ?_ htrust
      cases hs
      rw [hid]
      exact List.mem_cons_self
  | changeEmail id email => exact proven_changeEmail h hs v hv hconf htrust
  | issue env id =>
    have hv' := hv
    rw [hdb] at hv'
    exact h.kept hs hdb hv (user_of_after_issueConfirmation hv') rfl rfl hconf htrust
  | confirmEmail env message => exact proven_confirmEmail h hok hs v hv hconf htrust

/-- **Proof of address.** Along a run in which every confirmation spends a code that was issued for
the current address, every confirmed address is proven by a consumed code, or is the one the trusted
factory was given. -/
theorem address_proven (h : Reach AddressState.step SpendsCurrent .empty s) : s.Proven :=
  h.invariant (fun u hu => by cases hu) fun _ _ _ hp hok hs => proven_step hp hok hs

/-! ## Two runs -/

instance (o : OtpRow) : Decidable o.Consumed := inferInstanceAs (Decidable (_ ∧ _))

instance (db : Content) (u : UserRow) : Decidable (AddressProven db u) :=
  inferInstanceAs (Decidable (∃ o ∈ otps db, _))

instance (s : AddressState) : Decidable s.Proven :=
  inferInstanceAs (Decidable (∀ u ∈ users s.db, _))

instance (s : AddressState) : (op : AddressOp) → Decidable (SpendsCurrent s op)
  | .confirmEmail env message => inferInstanceAs (Decidable (∀ u ∈ users s.db,
      u.email = message.email → ∀ o ∈ spendable s.db env message.otp u.id, _))
  | .register _ _ | .create _ _ _ | .changeEmail _ _ | .issue _ _ =>
      inferInstanceAs (Decidable True)

/-- Register under an address and have a code sent to it. -/
def signUp (email : String) : AddressState :=
  (AddressState.empty.next (.register { email := email, firstName := "Ann", lastName := "Lee" } 0)).next
    (.issue (.at 0) 0)

/-- Ann confirms the address the code was sent to. -/
def confirmedByOwner : AddressState :=
  (signUp "ann@example.com").next (.confirmEmail (.at 1000000) ⟨"ann@example.com", "000000"⟩)

/-- The run of Ann meets the condition, and her address is proven. -/
theorem address_proven_confirmedByOwner :
    confirmedByOwner.Proven ∧
      ∃ u ∈ users confirmedByOwner.db, u.emailConfirmed = true ∧ u.id ∉ confirmedByOwner.trusted :=
  ⟨address_proven (((Reach.refl.tail trivial rfl).tail trivial rfl).tail (by decide) rfl), by decide⟩

/-- The user moves to another address and confirms that one with the code sent to the first. -/
def confirmedByStranger : AddressState :=
  ((signUp "mallory@example.com").next (.changeEmail 0 "ann@example.com")).next
    (.confirmEmail (.at 1000000) ⟨"ann@example.com", "000000"⟩)

/-- A code for the old address confirms the new one. -/
theorem not_proven_confirmedByStranger :
    Reachable AddressState.step .empty confirmedByStranger ∧ ¬confirmedByStranger.Proven :=
  ⟨(((Reach.refl.tail trivial rfl).tail trivial rfl).tail trivial rfl).tail trivial rfl, by decide⟩

end ApiTemplate.Identity
