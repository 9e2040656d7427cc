import ApiTemplate.Identity.Runs

/-!
# Units of work that write one user

`addUser` stores a new aggregate and `withUser` loads one, applies a method of the aggregate to it
and commits; both are what the callers of `UserAggregate` do around its methods. The lemmas say
which rows these leave, and which a bulk update leaves.
-/

namespace ApiTemplate.Identity

open TxStore

/-- Store a new aggregate. -/
def addUser (a : UserAggregate) : Tx Unit := withUow do
  let _ ← UserOrmRepository.create a
  pure ()

/-- Load a user, apply `f` to the aggregate and commit what it wrote. -/
def withUser (id : Id) (f : UserAggregate → Except Exn UserAggregate) : Tx Unit := withUow do
  match ← UserOrmRepository.getAggregateForUpdate id with
  | none => pure ()
  | some a => do
    let a' ← Program.ofExcept (f a)
    UserOrmRepository.save a.source a'

/-- `email` is the unique key. -/
def emailKey : UniqueKey schema String where
  key r := r.user?.map UserRow.email
  clash_of_key r r' k h h' := by
    obtain ⟨u, hu, rfl⟩ := Option.map_eq_some_iff.mp h
    obtain ⟨v, hv, he⟩ := Option.map_eq_some_iff.mp h'
    rw [Row.user?_eq_some.mp hu, Row.user?_eq_some.mp hv]
    exact beq_iff_eq.mpr he.symm
  key_set u r := by cases u <;> cases r <;> rfl

variable {db db' : Content} {u c : UserRow} {id i : Id} {r : Row}

theorem users_eq_of_email (h : emailKey.Distinct db) {u v : UserRow} (hu : u ∈ users db)
    (hv : v ∈ users db) (he : u.email = v.email) : u = v := by
  have hu' := mem_users.mp hu
  have hv' := mem_users.mp hv
  have hid : u.id = v.id := h u.id v.id _ _ v.email hu' hv' (congrArg some he) rfl
  rw [hid, hv'] at hu'
  cases hu'
  rfl

/-- With unique addresses, a user is the only one of its address. -/
theorem usersByEmail_of_mem (h : emailKey.Distinct db) (hu : u ∈ users db) :
    usersByEmail db u.email = [u] := by
  have hfilter : usersByEmail db u.email = (users db).filter fun v => v.id == u.id := by
    refine List.filter_congr fun v hv => ?_
    rw [Bool.eq_iff_iff, beq_iff_eq, beq_iff_eq]
    constructor
    · intro he
      rw [users_eq_of_email h hv hu he]
    · intro hid
      have hrow := mem_users.mp hv
      rw [hid, mem_users.mp hu] at hrow
      cases hrow
      rfl
  rw [hfilter, users_filter_id, user?_eq_some.mpr (mem_users.mp hu)]
  rfl

/-! ## Column writes of one user -/

theorem patched_of_ne (h : r.id ≠ u.id) : Db.patched (σ := schema) ⟨u, c⟩ r = r := if_neg h

theorem patched_loaded (hid : c.id = u.id) :
    Db.patched (σ := schema) ⟨u, c⟩ (.user u) = .user c :=
  (if_pos rfl).trans (congrArg Row.user (UserPatch.apply_loaded ⟨u, c⟩ hid))

/-- The rows after the column writes of a row that was loaded from this content. -/
theorem write_row (hu : user? db id = some u) (hid : c.id = u.id)
    (hw : db.write ⟨u, c⟩ = .ok db') :
    db'.row i = if i = id then some (.user c) else db.row i := by
  have hrow := user?_eq_some.mp hu
  have hui : u.id = id := id_of_row hrow
  rw [Db.write_eq_ok hw]
  change (db.row i).map _ = _
  by_cases hi : i = id
  · rw [if_pos hi, hi, hrow]
    exact congrArg some (patched_loaded hid)
  · rw [if_neg hi]
    cases hr : db.row i with
    | none => rfl
    | some r =>
      refine congrArg some (patched_of_ne ?_)
      rw [id_of_row hr, hui]
      exact hi

/-- A user with the identifier and the email address of a stored one stands against no row. -/
theorem clashes_eq_false (h : emailKey.Distinct db) (hrow : db.row u.id = some (.user u))
    (hid : c.id = u.id) (he : c.email = u.email) : db.clashes (σ := schema) (.user c) = false := by
  unfold Db.clashes
  rw [List.any_eq_false]
  intro r hr hc
  obtain ⟨hne, hsame⟩ := Bool.and_eq_true_iff.mp hc
  cases r with
  | user v =>
    have hv : v.email = u.email := (beq_iff_eq.mp hsame).symm.trans he
    have huv : u = v := users_eq_of_email h (mem_users.mpr hrow)
      (mem_users.mpr (Db.mem_rows.mp hr)) hv.symm
    refine of_decide_eq_true hne ?_
    change v.id = c.id
    rw [hid, huv]
  | otp o => cases hsame
  | apiKey k => cases hsame
  | blob b => cases hsame

/-- Writes that leave the email address alone are never refused. -/
theorem write_ok (h : emailKey.Distinct db) (hu : user? db id = some u) (hid : c.id = u.id)
    (he : c.email = u.email) : ∃ db', db.write ⟨u, c⟩ = .ok db' := by
  have hrow := user?_eq_some.mp hu
  obtain rfl : u.id = id := id_of_row hrow
  refine ⟨_, if_neg ?_⟩
  change ¬(db.row u.id).any (fun r => db.clashes (σ := schema) (UserPatch.applyRow ⟨u, c⟩ r)) = true
  rw [hrow, Option.any_some, show UserPatch.applyRow ⟨u, c⟩ (.user u) = .user c from
    congrArg Row.user (UserPatch.apply_loaded ⟨u, c⟩ hid), clashes_eq_false h hrow hid he]
  exact Bool.false_ne_true

/-! ## The units of work -/

variable {f : UserAggregate → Except Exn UserAggregate} {a : UserAggregate}

/-- `withUser` commits the column writes of the aggregate, or leaves the rows as they were. -/
theorem after_withUser_row :
    (db.after (withUser id f)).row =
      match user? db id with
      | none => db.row
      | some u =>
        match f (.ofRow u) with
        | .error _ => db.row
        | .ok a =>
          match db.write ⟨u, a.source⟩ with
          | .ok db' => db'.row
          | .error _ => db.row := by
  unfold withUser
  rw [Db.after_withUow_row, World.run, Program.run_bind_ok (run_getAggregateForUpdate _ id),
    show (World.ofDb db).view = db from rfl]
  cases user? db id with
  | none => rfl
  | some u =>
    dsimp only [Option.map_some]
    cases f (.ofRow u) with
    | error e => rfl
    | ok a =>
      have hrun : Program.run World.exec (Program.ofExcept (.ok a) >>= fun a' =>
          UserOrmRepository.save (UserAggregate.ofRow u).source a') (World.ofDb db) =
          (.ok (), { World.ofDb db with session := { patches := [⟨u, a.source⟩] } }) := rfl
      rw [hrun]
      dsimp only
      rw [Db.flush_patch, show (World.ofDb db []).view = db from rfl]
      cases db.write ⟨u, a.source⟩ <;> rfl

/-- A row after `withUser` is a row from before, or the user as the aggregate left it. -/
theorem row_after_withUser (hid : ∀ a a', f a = .ok a' → a'.source.id = a.source.id)
    (h : (db.after (withUser id f)).row i = some r) :
    db.row i = some r ∨
      ∃ u a, user? db id = some u ∧ f (.ofRow u) = .ok a ∧ r = .user a.source := by
  rw [after_withUser_row] at h
  cases hu : user? db id with
  | none =>
    rw [hu] at h
    exact Or.inl h
  | some u =>
    rw [hu] at h
    dsimp only at h
    cases hf : f (.ofRow u) with
    | error e =>
      rw [hf] at h
      exact Or.inl h
    | ok a =>
      rw [hf] at h
      dsimp only at h
      cases hw : db.write ⟨u, a.source⟩ with
      | error e =>
        rw [hw] at h
        exact Or.inl h
      | ok db' =>
        rw [hw] at h
        dsimp only at h
        rw [write_row hu (hid _ _ hf) hw] at h
        split at h
        · cases h
          exact Or.inr ⟨u, a, rfl, hf, rfl⟩
        · exact Or.inl h

/-- Without a change of the email address, `withUser` leaves the user as the aggregate did. -/
theorem user_after_withUser (hdb : emailKey.Distinct db) (hu : user? db id = some u)
    (hf : f (.ofRow u) = .ok a) (hid : a.source.id = u.id) (he : a.source.email = u.email) :
    user? (db.after (withUser id f)) id = some a.source := by
  obtain ⟨db', hw⟩ := write_ok hdb hu hid he
  rw [user?_eq_some, after_withUser_row, hu]
  dsimp only
  rw [hf]
  dsimp only
  rw [hw]
  dsimp only
  rw [write_row hu hid hw, if_pos rfl]

/-- A row after `addUser` is a row from before, or that of the new user. -/
theorem row_after_addUser (h : (db.after (addUser a)).row i = some r) :
    db.row i = some r ∨ i = db.next ∧ r = .user { a.source with id := db.next } := by
  unfold addUser at h
  rw [Db.after_withUow_row, World.run, Program.run_bind_ok (run_create _ a)] at h
  dsimp only [Program.pure_eq, Program.run_done] at h
  split at h
  · rename_i db' hf
    cases hr : (db.reserve (db.next + 1)).row i with
    | none =>
      obtain ⟨n, hn, hid, rfl⟩ := Db.flush_row_of_none hf hr h
      obtain rfl := List.mem_singleton.mp hn
      exact Or.inr ⟨hid.symm, rfl⟩
    | some r₀ =>
      rw [Db.flush_row_of_some hf hr] at h
      cases h
      exact Or.inl hr
  · exact Or.inl h

/-- The rows after a unit of work that issues one bulk update. -/
theorem row_after_update {α : Type} {body : Tx α} {x : α} {u : Update}
    (h : World.run body (World.ofDb db) =
      (.ok x, { World.ofDb db with view := Db.update (σ := schema) db u })) :
    (db.after (withUow body)).row i = (db.row i).map (Db.updated (σ := schema) u) := by
  rw [Db.after_withUow_row, h]
  rfl

end ApiTemplate.Identity
