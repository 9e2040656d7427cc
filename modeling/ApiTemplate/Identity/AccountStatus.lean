import ApiTemplate.Identity.UserWrites

/-!
# The two columns of the account state

`is_active` and `status` are meant to be two views of one fact. Every operation that writes users is
one unit of work, and `after` runs a sequence of them from an empty table. The columns agree along a
run exactly when `confirm_email` is only ever applied to users that are active already: it sets
`is_active` and leaves `status`, and every other operation keeps an agreement it finds.
-/

namespace ApiTemplate.Identity

open TxStore

/-- The operations that write users. -/
inductive UserOp
  | register (param : UserCreateParams) (now : Micros)
  | create (param : UserCreateParams) (now : Micros) (isSuperuser : Bool)
  | confirmEmail (id : Id)
  | changeEmail (id : Id) (email : String)
  | setPassword (id : Id) (rawPassword : String) (salt : ℕ)
  | update (id : Id) (param : UserUpdateParams)
  | touchLogin (id : Id) (now : Micros)
  | toggleStatus (id : Id)
  | activate (id : Id)

namespace UserOp

/-- The operation in a unit of work of its own. -/
def program (b : Bcrypt) : UserOp → Tx Unit
  | register param now => addUser (.register param now)
  | create param now isSuperuser => addUser (.create param now isSuperuser)
  | confirmEmail id => withUser id fun a => .ok a.confirmEmail
  | changeEmail id email => withUser id fun a => .ok (a.changeEmail email)
  | setPassword id rawPassword salt => withUser id fun a => a.setPassword b rawPassword salt
  | update id param => withUser id fun a => .ok (a.update param)
  | touchLogin id now => withUser id fun a => .ok (a.touchLogin now)
  | toggleStatus id => withUow do
    let _ ← UserOrmRepository.toggleStatus id
    pure ()
  | activate id => withUow do
    let _ ← UserOrmRepository.activate id
    pure ()

/-- The content after a sequence of operations on an empty user table. -/
def after (b : Bcrypt) (ops : List UserOp) : Content :=
  ops.foldl (fun db op => db.after (op.program b)) Db.empty

theorem after_append_singleton (b : Bcrypt) (ops : List UserOp) (op : UserOp) :
    after b (ops ++ [op]) = (after b ops).after (op.program b) :=
  List.foldl_append.trans rfl

end UserOp

/-! ## Agreement -/

/-- The columns of one user agree. -/
def UserRow.StatusAgrees (u : UserRow) : Prop := u.isActive = true ↔ u.status = StatusEnum.active

instance (u : UserRow) : Decidable u.StatusAgrees :=
  inferInstanceAs (Decidable (_ ↔ _))

/-- Every user row satisfies `is_active = true` if and only if `status = ACTIVE`. -/
def StatusAgrees (db : Content) : Prop := ∀ u ∈ users db, u.StatusAgrees

instance (db : Content) : Decidable (StatusAgrees db) :=
  inferInstanceAs (Decidable (∀ u ∈ users db, u.StatusAgrees))

/-- `status` holds a value of `StatusEnum`. -/
def UserRow.StatusInRange (u : UserRow) : Prop :=
  u.status = StatusEnum.inactive ∨ u.status = StatusEnum.active

/-- What holds of every reachable user table. -/
structure UserTable (db : Content) : Prop where
  distinct : emailKey.Distinct db
  inRange : ∀ u ∈ users db, u.StatusInRange

/-- How a user row comes out of an operation. -/
inductive Wrote (db : Content) (op : UserOp) (v : UserRow) : Prop
  | kept (h : v ∈ users db)
  | inactive (ha : v.isActive = false) (hs : v.status = StatusEnum.inactive)
  | active (ha : v.isActive = true) (hs : v.status = StatusEnum.active)
  | copied {u : UserRow} (hu : u ∈ users db) (ha : v.isActive = u.isActive)
      (hs : v.status = u.status)
  | toggled {u : UserRow} (hu : u ∈ users db) (ha : v.isActive = !u.isActive)
      (hs : v.status = ((u.status - StatusEnum.active).natAbs : ℤ))
  | confirmed {u : UserRow} (hop : op = .confirmEmail u.id) (hu : u ∈ users db)
      (ha : v.isActive = true) (hs : v.status = u.status)

section

variable {b : Bcrypt} {db : Content} {id : Id} {v : UserRow}

theorem wrote_of_addUser {op : UserOp} {a : UserAggregate} (hv : v ∈ users (db.after (addUser a)))
    (ha : ∀ id, Wrote db op { a.source with id := id }) : Wrote db op v := by
  rcases row_after_addUser (mem_users.mp hv) with h | ⟨-, h⟩
  · exact .kept (mem_users.mpr h)
  · cases h
    exact ha db.next

theorem wrote_of_withUser {op : UserOp} {f : UserAggregate → Except Exn UserAggregate}
    (hid : ∀ a a', f a = .ok a' → a'.source.id = a.source.id)
    (hv : v ∈ users (db.after (withUser id f)))
    (hf : ∀ u a, u ∈ users db → u.id = id → f (.ofRow u) = .ok a → Wrote db op a.source) :
    Wrote db op v := by
  rcases row_after_withUser hid (mem_users.mp hv) with h | ⟨u, a, hu, hfu, h⟩
  · exact .kept (mem_users.mpr h)
  · cases h
    have hrow := user?_eq_some.mp hu
    have hui : u.id = id := id_of_row hrow
    exact hf u a (mem_users.mpr (hui ▸ hrow)) hui hfu

/-- An action that keeps the identifier and both columns. -/
theorem wrote_of_copied {op : UserOp} {f : UserAggregate → Except Exn UserAggregate}
    (hsame : ∀ a a', f a = .ok a' → a'.source.id = a.source.id ∧
      a'.source.isActive = a.source.isActive ∧ a'.source.status = a.source.status)
    (hv : v ∈ users (db.after (withUser id f))) : Wrote db op v := by
  refine wrote_of_withUser (fun a a' h => (hsame a a' h).1) hv fun u a hu _ h => ?_
  obtain ⟨-, hactive, hstatus⟩ := hsame _ _ h
  exact .copied hu hactive hstatus

theorem wrote_of_bulk {op : UserOp} {u : Update}
    (hv : (Row.user v) ∈ (db.row v.id).map (Db.updated (σ := schema) u))
    (h : ∀ w ∈ users db, schema.guard u (.user w) = true → schema.set u (.user w) = .user v →
      Wrote db op v) : Wrote db op v := by
  obtain ⟨r, hr, hset⟩ := Option.map_eq_some_iff.mp hv
  unfold Db.updated at hset
  split at hset
  · rename_i hg
    cases r with
    | user w =>
      have hid : w.id = v.id := id_of_row hr
      rw [← hid] at hr
      exact h w (mem_users.mpr hr) hg hset
    | otp o => cases u <;> cases hset
    | apiKey k => cases u <;> cases hset
    | blob k => cases u <;> cases hset
  · rw [hset] at hr
    exact .kept (mem_users.mpr hr)

/-- **What an operation does to the user rows.** -/
theorem wrote_of_after {op : UserOp} (hv : v ∈ users (db.after (op.program b))) :
    Wrote db op v := by
  cases op with
  | register param now => exact wrote_of_addUser hv fun _ => .inactive rfl rfl
  | create param now isSuperuser => exact wrote_of_addUser hv fun _ => .active rfl rfl
  | confirmEmail id =>
    refine wrote_of_withUser (fun a a' h => ?_) hv fun u a hu hid h => ?_
    · cases h
      rfl
    · cases h
      exact .confirmed (by rw [hid]) hu rfl rfl
  | changeEmail id email =>
    have hsame : ∀ a : UserAggregate, (a.changeEmail email).source.id = a.source.id ∧
        (a.changeEmail email).source.isActive = a.source.isActive ∧
        (a.changeEmail email).source.status = a.source.status := by
      intro a
      unfold UserAggregate.changeEmail
      split <;> exact ⟨rfl, rfl, rfl⟩
    refine wrote_of_copied (fun a a' h => ?_) hv
    cases h
    exact hsame a
  | setPassword id rawPassword salt =>
    refine wrote_of_copied (fun a a' h => ?_) hv
    obtain ⟨hash, -, rfl⟩ := UserAggregate.setPassword_eq_ok h
    exact ⟨rfl, rfl, rfl⟩
  | update id param =>
    refine wrote_of_copied (fun a a' h => ?_) hv
    cases h
    exact ⟨rfl, rfl, rfl⟩
  | touchLogin id now =>
    refine wrote_of_copied (fun a a' h => ?_) hv
    cases h
    exact ⟨rfl, rfl, rfl⟩
  | toggleStatus id =>
    have hrow : (db.after ((UserOp.toggleStatus id).program b)).row v.id =
        (db.row v.id).map (Db.updated (σ := schema) (.toggleStatus id)) :=
      row_after_update (x := ()) rfl
    refine wrote_of_bulk (u := .toggleStatus id) (hrow ▸ mem_users.mp hv) fun w hw hg hset => ?_
    cases hset
    exact .toggled hw rfl rfl
  | activate id =>
    have hrow : (db.after ((UserOp.activate id).program b)).row v.id =
        (db.row v.id).map (Db.updated (σ := schema) (.activate id)) :=
      row_after_update (x := ()) ((Program.run_bind_ok (run_activate _ id) _).trans rfl)
    refine wrote_of_bulk (u := .activate id) (hrow ▸ mem_users.mp hv) fun w hw hg hset => ?_
    cases hset
    exact .active rfl rfl

end

/-! ## Runs -/

theorem UserTable.after {b : Bcrypt} {db : Content} (h : UserTable db) (op : UserOp) :
    UserTable (db.after (op.program b)) := by
  refine ⟨h.distinct.after _, fun v hv => ?_⟩
  unfold UserRow.StatusInRange
  cases wrote_of_after hv with
  | kept hv => exact h.inRange v hv
  | inactive ha hs => exact Or.inl hs
  | active ha hs => exact Or.inr hs
  | copied hu ha hs | confirmed hop hu ha hs =>
    rw [hs]
    exact h.inRange _ hu
  | toggled hu ha hs =>
    rw [hs]
    rcases h.inRange _ hu with hu | hu
    · rw [hu]
      exact Or.inr rfl
    · rw [hu]
      exact Or.inl rfl

theorem userTable_after (b : Bcrypt) (ops : List UserOp) : UserTable (UserOp.after b ops) := by
  induction ops using List.reverseRecOn with
  | nil => exact ⟨emailKey.distinct_empty, fun u hu => by cases hu⟩
  | append_singleton ops op ih =>
    rw [UserOp.after_append_singleton]
    exact ih.after op

/-- An operation keeps the agreement, unless it confirms the email of an inactive user. -/
theorem StatusAgrees.after {b : Bcrypt} {db : Content} {op : UserOp} (h : StatusAgrees db)
    (ht : UserTable db)
    (hop : ∀ u, op = .confirmEmail u.id → u ∈ users db → u.isActive = true) :
    StatusAgrees (db.after (op.program b)) := by
  intro v hv
  unfold UserRow.StatusAgrees
  cases wrote_of_after hv with
  | kept hv => exact h v hv
  | inactive ha hs =>
    rw [ha, hs]
    decide
  | active ha hs =>
    rw [ha, hs]
    decide
  | copied hu ha hs =>
    rw [ha, hs]
    exact h _ hu
  | @toggled u hu ha hs =>
    rw [ha, hs]
    have hagree := h u hu
    rcases ht.inRange u hu with hs' | hs'
    · have hfalse : u.isActive = false := by
        rw [← Bool.not_eq_true]
        intro hc
        have := hagree.mp hc
        rw [hs'] at this
        cases this
      rw [hs', hfalse]
      decide
    · rw [hs', hagree.mpr hs']
      decide
  | @confirmed u hop' hu ha hs =>
    have hagree := h u hu
    unfold UserRow.StatusAgrees at hagree
    rw [hop u hop' hu] at hagree
    rw [hs, ha]
    exact hagree

/-- Confirming the email of an inactive user breaks the agreement. -/
theorem not_statusAgrees_confirmEmail {b : Bcrypt} {db : Content} {u : UserRow}
    (h : StatusAgrees db) (ht : UserTable db) (hu : u ∈ users db) (ha : u.isActive = false) :
    ¬StatusAgrees (db.after ((UserOp.confirmEmail u.id).program b)) := by
  intro h'
  have hafter : user? (db.after ((UserOp.confirmEmail u.id).program b)) u.id =
      some (UserAggregate.ofRow u).confirmEmail.source :=
    user_after_withUser ht.distinct (user?_eq_some.mpr (mem_users.mp hu)) rfl rfl rfl
  have hmem : (UserAggregate.ofRow u).confirmEmail.source ∈ users _ :=
    mem_users.mpr (user?_eq_some.mp hafter)
  have hagree := h' _ hmem
  have hstatus : u.status = StatusEnum.active := hagree.mp rfl
  have := (h u hu).mpr hstatus
  rw [ha] at this
  cases this

/-- **When the two columns agree.** They agree in every state of a run from an empty user table if
and only if each `confirm_email` of the run finds its user active. -/
theorem statusAgrees_run_iff (b : Bcrypt) (ops : List UserOp) :
    (∀ pre post, ops = pre ++ post → StatusAgrees (UserOp.after b pre)) ↔
      ∀ pre u post, ops = pre ++ .confirmEmail u.id :: post → u ∈ users (UserOp.after b pre) →
        u.isActive = true := by
  constructor
  · intro h pre u post hops hu
    by_contra ha
    rw [Bool.not_eq_true] at ha
    have hnext := h (pre ++ [.confirmEmail u.id]) post (by rw [hops, List.append_assoc]; rfl)
    rw [UserOp.after_append_singleton] at hnext
    exact not_statusAgrees_confirmEmail (h pre _ hops) (userTable_after b pre) hu ha hnext
  · intro h pre
    induction pre using List.reverseRecOn with
    | nil => exact fun _ _ u hu => by cases hu
    | append_singleton pre op ih =>
      intro post hops
      rw [List.append_assoc] at hops
      rw [UserOp.after_append_singleton]
      refine (ih _ hops).after (userTable_after b pre) fun u hop hu => ?_
      exact h pre u post (hop ▸ hops) hu

/-- A self-registered user who confirms the mailed code is active with status INACTIVE. -/
theorem not_statusAgrees_register_confirm :
    ¬StatusAgrees (UserOp.after .plain
      [.register { email := "ann@example.com", firstName := "Ann", lastName := "Lee" } 0,
        .confirmEmail 0]) := by
  decide

end ApiTemplate.Identity
