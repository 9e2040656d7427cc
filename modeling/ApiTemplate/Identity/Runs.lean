import ApiTemplate.Identity.Handlers
import ApiTemplate.TxStore.Unique

/-!
# The repositories on a database of their own

What each repository method answers when its program runs alone, in terms of the rows it sees.
-/

namespace ApiTemplate.Identity

open TxStore

/-- Contents of the database. -/
abbrev Content := Db schema

/-! ## Tables of a content -/

def users (db : Content) : List UserRow := db.rows.filterMap Row.user?

def otps (db : Content) : List OtpRow := db.rows.filterMap Row.otp?

def user? (db : Content) (id : Id) : Option UserRow := (db.row id).bind Row.user?

theorem user?_eq_some {db : Content} {id : Id} {u : UserRow} :
    user? db id = some u ↔ db.row id = some (.user u) := by
  unfold user?
  rw [Option.bind_eq_some_iff]
  constructor
  · rintro ⟨r, hr, hu⟩
    rw [hr, Row.user?_eq_some.mp hu]
  · intro h
    exact ⟨_, h, rfl⟩

theorem id_of_row {db : Content} {id : Id} {r : Row} (h : db.row id = some r) : r.id = id :=
  db.keyed id r h

theorem mem_users {db : Content} {u : UserRow} : u ∈ users db ↔ db.row u.id = some (.user u) := by
  unfold users
  rw [List.mem_filterMap]
  constructor
  · rintro ⟨r, hr, hu⟩
    obtain rfl := Row.user?_eq_some.mp hu
    exact Db.mem_rows.mp hr
  · intro h
    exact ⟨_, Db.mem_rows_of_row h, rfl⟩

theorem mem_otps {db : Content} {o : OtpRow} : o ∈ otps db ↔ db.row o.id = some (.otp o) := by
  unfold otps
  rw [List.mem_filterMap]
  constructor
  · rintro ⟨r, hr, ho⟩
    obtain rfl := Row.otp?_eq_some.mp ho
    exact Db.mem_rows.mp hr
  · intro h
    exact ⟨_, Db.mem_rows_of_row h, rfl⟩

/-- The rows a `SELECT` by primary key returns. -/
theorem users_filter_id (db : Content) (id : Id) :
    ((users db).filter fun u => u.id == id) = (user? db id).toList := by
  have hfilter : ((users db).filter fun u => u.id == id) =
      (db.rows.filter fun r => decide (schema.rowId r = id)).filterMap Row.user? := by
    unfold users
    rw [List.filter_filterMap, List.filterMap_filter]
    congr 1
    funext r
    cases r with
    | user u => by_cases hu : u.id = id <;> simp [Row.user?, Row.id, hu]
    | otp o => simp [Row.user?]
    | apiKey k => simp [Row.user?]
    | blob b => simp [Row.user?]
  rw [hfilter, Db.rows_filter_rowId]
  unfold user?
  cases db.row id with
  | none => rfl
  | some r => cases r <;> rfl

/-! ## Methods -/

section Methods

variable {β : Type} (w : World schema)

/-- The users with an email address. -/
def usersByEmail (db : Content) (email : String) : List UserRow :=
  (users db).filter fun u => u.email == email

/-- The blob of a user's avatar. -/
def avatar (db : Content) (u : UserRow) : Option BlobRow :=
  u.avatarId.bind fun id => (db.rows.filterMap Row.blob?).find? fun b => b.id == id

theorem run_ofExcept_map {α : Type} (r : Except Exn (Option α)) (g : α → β) :
    World.run (Program.ofExcept r >>= fun found => (pure (found.map g) : Tx (Option β))) w =
      (r.map (Option.map g), w) := by
  cases r <;> rfl

/-- The common shape of the methods that read one user. -/
theorem run_selectOne (cond : UserRow → Bool) (g : UserRow → β) :
    World.run (do
      let rows ← select (.users cond)
      let found ← Program.ofExcept (oneOrNone rows)
      pure (found.map g)) w =
    ((oneOrNone ((users w.view).filter cond)).map (Option.map g), w) :=
  run_ofExcept_map w (oneOrNone ((users w.view).filter cond)) g

theorem run_getAggregateForUpdate (id : Id) :
    World.run (UserOrmRepository.getAggregateForUpdate id) w =
      (.ok ((user? w.view id).map UserAggregate.ofRow), w) := by
  refine (run_selectOne w _ UserAggregate.ofRow).trans ?_
  rw [users_filter_id]
  cases user? w.view id <;> rfl

theorem run_save (loaded : UserRow) (a : UserAggregate) :
    World.run (UserOrmRepository.save loaded a) w = (.ok (), { w with
      session := { w.session with patches := w.session.patches ++ [⟨loaded, a.source⟩] } }) := rfl

theorem run_create (a : UserAggregate) :
    World.run (UserOrmRepository.create a) w =
      (.ok { a with source := { a.source with id := w.view.next } }, { w with
        view := w.view.reserve (w.view.next + 1)
        session := { w.session with
          new := w.session.new ++ [.user { a.source with id := w.view.next }] } }) := rfl

theorem run_activate (id : Id) :
    World.run (UserOrmRepository.activate id) w =
      (.ok ((user? (w.view.update (.activate id)) id).map UserOrmRepository.toCredentials),
        { w with view := w.view.update (.activate id) }) := by
  have h := run_selectOne { w with view := w.view.update (.activate id) } (fun u => u.id == id)
    UserOrmRepository.toCredentials
  rw [users_filter_id] at h
  refine Eq.trans rfl (h.trans ?_)
  dsimp only
  cases user? (w.view.update (.activate id)) id <;> rfl

theorem run_getForContext (id : Id) :
    World.run (UserOrmRepository.getForContext id) w =
      (.ok ((user? w.view id).map UserOrmRepository.toContext), w) := by
  refine (run_selectOne w _ UserOrmRepository.toContext).trans ?_
  rw [users_filter_id]
  cases user? w.view id <;> rfl

theorem run_getAggregateForUpdateByEmail (email : String) :
    World.run (UserOrmRepository.getAggregateForUpdateByEmail email) w =
      ((oneOrNone (usersByEmail w.view email)).map (Option.map UserAggregate.ofRow), w) :=
  run_selectOne w _ UserAggregate.ofRow

theorem run_getForPasswordReset (email : String) :
    World.run (UserOrmRepository.getForPasswordReset email) w =
      ((oneOrNone (usersByEmail w.view email)).map (Option.map UserAggregate.ofRow), w) :=
  run_getAggregateForUpdateByEmail w email

theorem run_getCredentialsByEmail (email : String) :
    World.run (UserOrmRepository.getCredentialsByEmail email) w =
      ((oneOrNone (usersByEmail w.view email)).map (Option.map UserOrmRepository.toAuth), w) :=
  run_selectOne w _ UserOrmRepository.toAuth

theorem run_existsByEmail (email : String) :
    World.run (UserOrmRepository.existsByEmail email) w =
      (.ok (!(usersByEmail w.view email).isEmpty), w) := by
  change (Except.ok (!((users w.view).filter fun u => u.email == email && true).isEmpty), w) = _
  simp only [Bool.and_true]
  rfl

theorem run_getByEmailForPasswordRecovery (baseUrl email : String) :
    World.run (UserOrmRepository.getByEmailForPasswordRecovery baseUrl email) w =
      ((oneOrNone ((usersByEmail w.view email).map fun u => (u, avatar w.view u))).map
        (Option.map (UserOrmRepository.toRecovery baseUrl)), w) :=
  run_ofExcept_map w (oneOrNone ((usersByEmail w.view email).map fun u => (u, avatar w.view u)))
    (UserOrmRepository.toRecovery baseUrl)

end Methods

/-! ## The confirmation service -/

section Confirmation

variable (w : World schema) (env : Env) (n : ℕ) (contentId : Id)

/-- A code of this kind was issued to this owner within the cooldown. -/
def recentlyIssued (db : Content) (env : Env) (contentId : Id) (kind : OtpKindEnum) : Bool :=
  !((otps db).filter (OtpOrmRepository.issuedSince env contentId .user kind
    (otpCooldownMinutes kind))).isEmpty

/-- The row `issue` creates. -/
def issuedRow (env : Env) (n : ℕ) (contentId : Id) (kind : OtpKindEnum) (targetValue : String)
    (id : Id) : OtpRow where
  id := id
  otp := env.code
  contentId := contentId
  contentType := .user
  kind := kind
  usedAt := none
  expiresAt := epoch (env.clock n) + otpTtlMinutes kind * 60
  targetValue := targetValue
  verified := false
  createdAt := env.stamp

theorem run_issue (kind : OtpKindEnum) (targetValue : String) :
    World.run (UserConfirmationService.issue env n contentId kind targetValue) w =
      if recentlyIssued w.view env contentId kind then
        (.ok (.error [cooldown (otpCooldownMinutes kind)]), w)
      else
        (.ok (.ok env.code), { w with
          view := (w.view.update (.invalidatePending contentId .user kind
            (epoch (env.clock n)))).reserve (w.view.next + 1)
          session := { w.session with new := w.session.new ++
            [.otp (issuedRow env n contentId kind targetValue w.view.next)] } }) := by
  have hrecent : World.run (OtpOrmRepository.hasRecentIssue env contentId
      UserConfirmationService.contentType kind (otpCooldownMinutes kind)) w =
      (.ok (recentlyIssued w.view env contentId kind), w) := rfl
  unfold UserConfirmationService.issue
  rw [World.run, Program.run_bind_ok hrecent]
  cases recentlyIssued w.view env contentId kind <;> rfl

/-- The newest code of a value, an owner and a kind. -/
def newestCode (db : Content) (env : Env) (otp : String) (contentId : Id) (kind : OtpKindEnum) :
    Option OtpRow :=
  newest env.tie ((otps db).filter (OtpOrmRepository.matchesCode otp contentId kind .user))

theorem mem_of_newest {tie : ℕ} {rows : List OtpRow} {o : OtpRow} (h : newest tie rows = some o) :
    o ∈ rows :=
  (List.mem_filter.mp (List.mem_of_getElem? h)).1

theorem newestCode_eq_some {db : Content} {env : Env} {otp : String} {kind : OtpKindEnum}
    {contentId : Id} {o : OtpRow} (h : newestCode db env otp contentId kind = some o) :
    o ∈ otps db ∧ o.otp = otp ∧ o.contentId = contentId ∧ o.kind = kind := by
  obtain ⟨hmem, hmatch⟩ := List.mem_filter.mp (mem_of_newest h)
  unfold OtpOrmRepository.matchesCode at hmatch
  simp only [Bool.and_eq_true, beq_iff_eq] at hmatch
  exact ⟨hmem, hmatch.1.1.1, hmatch.1.1.2, hmatch.1.2⟩

theorem run_findActiveForContent (otp : String) (kind : OtpKindEnum) :
    World.run (OtpOrmRepository.findActiveForContent env otp contentId kind .user) w =
      (.ok ((newestCode w.view env otp contentId kind).map toDetailed), w) := rfl

/-- `consume_by_id` on a row of the content. -/
theorem matching_consumeById {db : Content} {o : OtpRow} (h : o ∈ otps db) (nowEpoch : ℤ) :
    db.matching (σ := schema) (.consumeById o.id nowEpoch) =
      if o.usedAt = none ∧ nowEpoch ≤ o.expiresAt then [o.id] else [] := by
  rw [Db.matching_of_rowId (i := o.id), mem_otps.mp h, Option.any_some]
  · simp [Update.guard]
  · intro r hg
    cases r with
    | otp o' =>
      simp only [Update.guard, Bool.and_eq_true, beq_iff_eq] at hg
      exact hg.1.1
    | user u => cases hg
    | apiKey k => cases hg
    | blob b => cases hg

theorem run_consumeById {o : OtpRow} (h : o ∈ otps w.view) (nowEpoch : ℤ) :
    World.run (OtpOrmRepository.consumeById o.id nowEpoch) w =
      (.ok (decide (o.usedAt = none ∧ nowEpoch ≤ o.expiresAt)),
        { w with view := w.view.update (.consumeById o.id nowEpoch) }) := by
  change (Except.ok ((w.view.matching (.consumeById o.id nowEpoch)).length == 1), _) = _
  rw [matching_consumeById h]
  by_cases hc : o.usedAt = none ∧ nowEpoch ≤ o.expiresAt
  · rw [if_pos hc, decide_eq_true hc]
    rfl
  · rw [if_neg hc, decide_eq_false hc]
    rfl

end Confirmation

/-! ## Small contents -/

/-- A content with these rows. -/
def contentOf (rows : List Row) : Content := rows.foldl (Db.put (σ := schema)) Db.empty

/-- Ann, active and confirmed, who has logged in before. -/
def ann : UserRow where
  id := 0
  email := "ann@example.com"
  password := some (Bcrypt.plain.hashpw (encodeUtf8 "secret") 0)
  firstName := "Ann"
  lastName := "Lee"
  isActive := true
  isSuperuser := false
  emailConfirmed := true
  status := StatusEnum.active
  dateJoined := some 0
  lastLoginTime := some 0

end ApiTemplate.Identity
