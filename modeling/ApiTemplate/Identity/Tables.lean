import ApiTemplate.Identity.Base
import ApiTemplate.TxStore.Schema

/-!
# Tables of the identity module

The rows of the user, OTP, API-key and blob tables, the statements the repositories issue against
them, and the schema these make. The identifiers of all tables come from one supply: they are
version 7 UUIDs, drawn by the application.
-/

namespace ApiTemplate.Identity

open TxStore

/-! ## Rows -/

/-- `UserOrmModel`. -/
structure UserRow where
  id : Id
  email : String
  password : Option String
  phone : Option String := none
  firstName : String
  lastName : String
  address : Option String := none
  description : Option String := none
  information : Option String := none
  avatarId : Option Id := none
  isActive : Bool
  isSuperuser : Bool
  emailConfirmed : Bool
  status : ℤ
  dateJoined : Option Micros
  lastLoginTime : Option Micros
  deriving DecidableEq, Repr

/-- `OtpOrmModel`. -/
structure OtpRow where
  id : Id
  otp : String
  contentId : Id
  contentType : ContentTypeEnum
  kind : OtpKindEnum
  usedAt : Option ℤ
  expiresAt : ℤ
  targetValue : String
  verified : Bool
  createdAt : Micros
  deriving DecidableEq, Repr

/-- `ApiKeyOrmModel`. -/
structure ApiKeyRow where
  id : Id
  key : List UInt8
  status : ApiKeyStatusEnum
  ownerId : Id
  lastUsedAt : Option ℤ
  deriving DecidableEq, Repr

/-- The path of a `BlobObjectOrmModel`. -/
structure BlobRow where
  id : Id
  path : String
  deriving DecidableEq, Repr

/-- A row of any of the tables. -/
inductive Row
  | user (u : UserRow)
  | otp (o : OtpRow)
  | apiKey (k : ApiKeyRow)
  | blob (b : BlobRow)
  deriving DecidableEq, Repr

namespace Row

def id : Row → Id
  | user u => u.id
  | otp o => o.id
  | apiKey k => k.id
  | blob b => b.id

def user? : Row → Option UserRow
  | user u => some u
  | _ => none

def otp? : Row → Option OtpRow
  | otp o => some o
  | _ => none

def apiKey? : Row → Option ApiKeyRow
  | apiKey k => some k
  | _ => none

def blob? : Row → Option BlobRow
  | blob b => some b
  | _ => none

end Row

@[simp] theorem Row.user?_eq_some {r : Row} {u : UserRow} : r.user? = some u ↔ r = .user u := by
  cases r <;> simp [Row.user?]

@[simp] theorem Row.otp?_eq_some {r : Row} {o : OtpRow} : r.otp? = some o ↔ r = .otp o := by
  cases r <;> simp [Row.otp?]

@[simp] theorem Row.apiKey?_eq_some {r : Row} {k : ApiKeyRow} :
    r.apiKey? = some k ↔ r = .apiKey k := by
  cases r <;> simp [Row.apiKey?]

/-! ## Statements -/

/-- The `SELECT`s, by what they select from. -/
inductive Select
  | users (cond : UserRow → Bool)
  /-- Users, outer joined with the blob of their avatar. -/
  | usersWithAvatar (cond : UserRow → Bool)
  | otps (cond : OtpRow → Bool)
  /-- API keys, joined with their owner. -/
  | apiKeys (cond : ApiKeyRow → Bool)

namespace Select

@[reducible] def Answer : Select → Type
  | users _ => List UserRow
  | usersWithAvatar _ => List (UserRow × Option BlobRow)
  | otps _ => List OtpRow
  | apiKeys _ => List (ApiKeyRow × Option UserRow)

def answer : (q : Select) → List Row → q.Answer
  | users cond, rows => (rows.filterMap Row.user?).filter cond
  | usersWithAvatar cond, rows =>
    ((rows.filterMap Row.user?).filter cond).map fun u =>
      (u, u.avatarId.bind fun id => (rows.filterMap Row.blob?).find? fun b => b.id == id)
  | otps cond, rows => (rows.filterMap Row.otp?).filter cond
  | apiKeys cond, rows =>
    ((rows.filterMap Row.apiKey?).filter cond).map fun k =>
      (k, (rows.filterMap Row.user?).find? fun u => u.id == k.ownerId)

end Select

/-- The `UPDATE … WHERE` statements, by the repository method that issues them. -/
inductive Update
  | consumeById (id : Id) (nowEpoch : ℤ)
  | invalidatePending (contentId : Id) (contentType : ContentTypeEnum) (kind : OtpKindEnum)
      (nowEpoch : ℤ)
  | toggleStatus (id : Id)
  | activate (userId : Id)
  deriving DecidableEq

namespace Update

/-- The `WHERE`. -/
def guard : Update → Row → Bool
  | consumeById id nowEpoch, .otp o =>
    o.id == id && o.usedAt == none && decide (o.expiresAt ≥ nowEpoch)
  | invalidatePending contentId contentType kind _, .otp o =>
    o.contentId == contentId && o.contentType == contentType && o.kind == kind && o.usedAt == none
  | toggleStatus id, .user u => u.id == id
  | activate userId, .user u => u.id == userId
  | _, _ => false

/-- The `SET`. -/
def set : Update → Row → Row
  | consumeById _ nowEpoch, .otp o => .otp { o with usedAt := some nowEpoch, verified := true }
  | invalidatePending _ _ _ nowEpoch, .otp o => .otp { o with usedAt := some nowEpoch }
  | toggleStatus _, .user u =>
    .user { u with status := (u.status - StatusEnum.active).natAbs, isActive := !u.isActive }
  | activate _, .user u =>
    .user { u with isActive := true, status := StatusEnum.active, emailConfirmed := true }
  | _, r => r

theorem id_set (u : Update) (r : Row) : (u.set r).id = r.id := by
  cases u <;> cases r <;> rfl

end Update

/-- A loaded user row and what its aggregate made of it. The flush writes the columns in which the
two differ. -/
structure UserPatch where
  loaded : UserRow
  current : UserRow

namespace UserPatch

/-- A column after the flush. -/
def column {α : Type} [DecidableEq α] (loaded current stored : α) : α :=
  if current = loaded then stored else current

def apply (p : UserPatch) (u : UserRow) : UserRow where
  id := u.id
  email := column p.loaded.email p.current.email u.email
  password := column p.loaded.password p.current.password u.password
  phone := column p.loaded.phone p.current.phone u.phone
  firstName := column p.loaded.firstName p.current.firstName u.firstName
  lastName := column p.loaded.lastName p.current.lastName u.lastName
  address := column p.loaded.address p.current.address u.address
  description := column p.loaded.description p.current.description u.description
  information := column p.loaded.information p.current.information u.information
  avatarId := column p.loaded.avatarId p.current.avatarId u.avatarId
  isActive := column p.loaded.isActive p.current.isActive u.isActive
  isSuperuser := column p.loaded.isSuperuser p.current.isSuperuser u.isSuperuser
  emailConfirmed := column p.loaded.emailConfirmed p.current.emailConfirmed u.emailConfirmed
  status := column p.loaded.status p.current.status u.status
  dateJoined := column p.loaded.dateJoined p.current.dateJoined u.dateJoined
  lastLoginTime := column p.loaded.lastLoginTime p.current.lastLoginTime u.lastLoginTime

def applyRow (p : UserPatch) : Row → Row
  | .user u => .user (p.apply u)
  | r => r

theorem id_applyRow (p : UserPatch) (r : Row) : (p.applyRow r).id = r.id := by
  cases r <;> rfl

@[simp] theorem column_self {α : Type} [DecidableEq α] (loaded current : α) :
    column loaded current loaded = current := by
  unfold column
  split
  · rename_i h
    exact h.symm
  · rfl

/-- Written over the row it was loaded from, a patch leaves the current row. -/
theorem apply_loaded (p : UserPatch) (h : p.current.id = p.loaded.id) :
    p.apply p.loaded = p.current := by
  unfold apply
  simp only [column_self, ← h]

end UserPatch

/-! ## Events -/

/-- The domain events, with the fields their subclass adds. -/
inductive DomainEvent
  | userRegistered (aggregateId : Id) (recipient otpCode fullName : String)
  | userEmailConfirmed (aggregateId : Id) (targetValue : String)
  | forgotPasswordStep1 (aggregateId : Id) (recipient otpCode : String)
  | forgotPasswordStep2 (aggregateId : Id) (recipient newPassword fullName : String)
  deriving DecidableEq, Repr

/-! ## The schema -/

/-- Two users of one email address: `email` is unique. -/
def sameEmail : Row → Row → Bool
  | .user u, .user v => u.email == v.email
  | _, _ => false

/-- The database of the identity module. -/
abbrev schema : Schema where
  Row := Row
  rowId := Row.id
  Query := Select
  Answer := Select.Answer
  answer := Select.answer
  Update := Update
  guard := Update.guard
  set := Update.set
  rowId_set := Update.id_set
  Patch := UserPatch
  target p := p.loaded.id
  patch := UserPatch.applyRow
  rowId_patch := UserPatch.id_applyRow
  clash := sameEmail
  Note := DomainEvent
  Error := Exn
  uniqueViolation := .integrityError
  failure := .dbApiError

/-- Code that talks to the database session. -/
abbrev Tx (α : Type) : Type := Prog schema α

end ApiTemplate.Identity
