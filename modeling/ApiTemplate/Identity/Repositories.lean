import ApiTemplate.Identity.UserAggregate

/-!
# Repositories

The methods of `OtpOrmRepository`, `UserOrmRepository` and `ApiKeyOrmRepository` that the handlers
use, as programs over the session, and the session's own operations.
-/

namespace ApiTemplate.Identity

open TxStore

/-! ## The session -/

/-- `session.execute` of a `SELECT`. -/
def select (q : Select) : Tx q.Answer := Program.lift (S := Stmt schema) (.query q)

/-- `session.execute` of an `UPDATE`; answers `rowcount`. -/
def execute (u : Update) : Tx ℕ := Program.lift (S := Stmt schema) (.update u)

/-- `uow.flush()`. -/
def flush : Tx Unit := Program.lift (S := Stmt schema) .flush

/-- `uow.commit()`. -/
def commit : Tx Unit := Program.lift (S := Stmt schema) .commit

/-- `uow.rollback()`. -/
def rollback : Tx Unit := Program.lift (S := Stmt schema) .rollback

/-- `bus.publish`. -/
def publish (event : DomainEvent) : Tx Unit := Program.lift (S := Stmt schema) (.emit event)

/-- `bus.publish_many`. -/
def publishMany : List DomainEvent → Tx Unit
  | [] => pure ()
  | event :: events => do
    publish event
    publishMany events

/-- `one_or_none` and `scalar_one_or_none`. -/
def oneOrNone {α : Type} : List α → Except Exn (Option α)
  | [] => .ok none
  | [a] => .ok (some a)
  | _ => .error .multipleResultsFound

/-! ## One-time codes -/

structure OtpCreateDTO where
  otp : String
  contentId : Id
  contentType : ContentTypeEnum
  kind : OtpKindEnum
  expiresAt : ℤ
  targetValue : String
  verified : Bool := false

structure OTPDetailedDTO where
  id : Id
  otp : String
  contentId : Id
  expiresAt : ℤ
  targetValue : String
  verified : Bool
  usedAt : Option ℤ
  deriving DecidableEq, Repr

/-- `_to_detailed`. -/
def toDetailed (o : OtpRow) : OTPDetailedDTO where
  id := o.id
  otp := o.otp
  contentId := o.contentId
  expiresAt := o.expiresAt
  targetValue := o.targetValue
  verified := o.verified
  usedAt := o.usedAt

/-- `ORDER BY created_at DESC LIMIT 1`; the database is free to choose among equally new rows. -/
def newest (tie : ℕ) (rows : List OtpRow) : Option OtpRow :=
  let candidates := rows.filter fun o => rows.all fun o' => decide (o'.createdAt ≤ o.createdAt)
  candidates[tie % candidates.length]?

namespace OtpOrmRepository

/-- The row `create` makes. It is stamped when it is flushed. -/
def row (env : Env) (data : OtpCreateDTO) (id : Id) : OtpRow where
  id := id
  otp := data.otp
  contentId := data.contentId
  contentType := data.contentType
  kind := data.kind
  usedAt := none
  expiresAt := data.expiresAt
  targetValue := data.targetValue
  verified := data.verified
  createdAt := env.stamp

def create (env : Env) (data : OtpCreateDTO) : Tx Unit := do
  let _ ← Program.lift (S := Stmt schema) (.add (fun id => .otp (row env data id)) fun _ => rfl)
  pure ()

/-- The `WHERE` of `find_active_for_content`. -/
def matchesCode (otp : String) (contentId : Id) (kind : OtpKindEnum)
    (contentType : ContentTypeEnum) (o : OtpRow) : Bool :=
  o.otp == otp && o.contentId == contentId && o.kind == kind && o.contentType == contentType

def findActiveForContent (env : Env) (otp : String) (contentId : Id) (kind : OtpKindEnum)
    (contentType : ContentTypeEnum) : Tx (Option OTPDetailedDTO) := do
  let rows ← select (.otps (matchesCode otp contentId kind contentType))
  pure ((newest env.tie rows).map toDetailed)

/-- Claim an unused code. True only for the caller that won. -/
def consumeById (id : Id) (nowEpoch : ℤ) : Tx Bool := do
  let rowcount ← execute (.consumeById id nowEpoch)
  pure (rowcount == 1)

/-- The `WHERE` of `has_recent_issue`. -/
def issuedSince (env : Env) (contentId : Id) (contentType : ContentTypeEnum) (kind : OtpKindEnum)
    (cooldownMinutes : ℤ) (o : OtpRow) : Bool :=
  o.contentId == contentId && o.contentType == contentType && o.kind == kind &&
    decide (o.createdAt ≥ env.now - cooldownMinutes * 60000000)

def hasRecentIssue (env : Env) (contentId : Id) (contentType : ContentTypeEnum)
    (kind : OtpKindEnum) (cooldownMinutes : ℤ) : Tx Bool := do
  let rows ← select (.otps (issuedSince env contentId contentType kind cooldownMinutes))
  pure (!rows.isEmpty)

/-- Burn every still-usable code for this (owner, kind). -/
def invalidatePending (contentId : Id) (contentType : ContentTypeEnum) (kind : OtpKindEnum)
    (nowEpoch : ℤ) : Tx Unit := do
  let _ ← execute (.invalidatePending contentId contentType kind nowEpoch)
  pure ()

end OtpOrmRepository

/-! ## Users -/

structure UserAuthDTO where
  id : Id
  email : String
  password : String
  isActive : Bool
  emailConfirmed : Bool
  lastLoginTime : Option Micros
  deriving DecidableEq, Repr

structure UserOnContextDTO where
  id : Id
  email : String
  firstName : String
  lastName : String
  isActive : Bool
  deriving DecidableEq, Repr

structure ForgotPasswordStep2ResponseDTO where
  id : Id
  fullName : String
  email : String
  avatarUrl : Option String
  deriving DecidableEq, Repr

structure UserCredentialsDTO where
  id : Id
  email : String
  fullName : String
  deriving DecidableEq, Repr

/-- `make_media_full_url`, under the base URL of the application. -/
def makeMediaFullUrl (baseUrl path : String) : String :=
  baseUrl ++ "/media/" ++ String.ofList (path.toList.dropWhile fun c => c == '/')

namespace UserOrmRepository

/-- Add the row of a new aggregate; the aggregate knows its identifier from then on. -/
def create (a : UserAggregate) : Tx UserAggregate := do
  let id ← Program.lift (S := Stmt schema)
    (.add (fun id => .user { a.source with id := id }) fun _ => rfl)
  pure { a with source := { a.source with id := id } }

/-- The writes an aggregate made through to the row it was loaded from. -/
def save (loaded : UserRow) (a : UserAggregate) : Tx Unit :=
  Program.lift (S := Stmt schema) (.assign ⟨loaded, a.source⟩)

def getAggregateForUpdate (id : Id) : Tx (Option UserAggregate) := do
  let rows ← select (.users fun u => u.id == id)
  let found ← Program.ofExcept (oneOrNone rows)
  pure (found.map UserAggregate.ofRow)

def getAggregateForUpdateByEmail (email : String) : Tx (Option UserAggregate) := do
  let rows ← select (.users fun u => u.email == email)
  let found ← Program.ofExcept (oneOrNone rows)
  pure (found.map UserAggregate.ofRow)

def getForPasswordReset (email : String) : Tx (Option UserAggregate) :=
  getAggregateForUpdateByEmail email

/-- The columns `get_for_context` selects. -/
def toContext (u : UserRow) : UserOnContextDTO where
  id := u.id
  email := u.email
  firstName := u.firstName
  lastName := u.lastName
  isActive := u.isActive

def getForContext (id : Id) : Tx (Option UserOnContextDTO) := do
  let rows ← select (.users fun u => u.id == id)
  let found ← Program.ofExcept (oneOrNone rows)
  pure (found.map toContext)

def existsByEmail (email : String) (isActive : Option Bool := none) : Tx Bool := do
  let rows ← select (.users fun u => u.email == email && isActive.all fun flag => u.isActive == flag)
  pure (!rows.isEmpty)

/-- The columns `get_credentials_by_email` selects. -/
def toAuth (u : UserRow) : UserAuthDTO where
  id := u.id
  email := u.email
  password := u.password.getD ""
  isActive := u.isActive
  emailConfirmed := u.emailConfirmed
  lastLoginTime := u.lastLoginTime

def getCredentialsByEmail (email : String) : Tx (Option UserAuthDTO) := do
  let rows ← select (.users fun u => u.email == email)
  let found ← Program.ofExcept (oneOrNone rows)
  pure (found.map toAuth)

/-- The row of `get_by_email_for_password_recovery`. -/
def toRecovery (baseUrl : String) (row : UserRow × Option BlobRow) :
    ForgotPasswordStep2ResponseDTO where
  id := row.1.id
  fullName := fullName row.1.firstName row.1.lastName
  email := row.1.email
  avatarUrl := (row.2.filter fun b => b.path != "").map fun b => makeMediaFullUrl baseUrl b.path

def getByEmailForPasswordRecovery (baseUrl email : String) :
    Tx (Option ForgotPasswordStep2ResponseDTO) := do
  let rows ← select (.usersWithAvatar fun u => u.email == email)
  let found ← Program.ofExcept (oneOrNone rows)
  pure (found.map (toRecovery baseUrl))

/-- `exists`, by primary key. -/
def existsById (id : Id) : Tx Bool := do
  let rows ← select (.users fun u => u.id == id)
  pure (!rows.isEmpty)

/-- Flip active and inactive in one statement. -/
def toggleStatus (id : Id) : Tx Bool := do
  let rowcount ← execute (.toggleStatus id)
  pure (rowcount == 1)

def toCredentials (u : UserRow) : UserCredentialsDTO where
  id := u.id
  email := u.email
  fullName := fullName u.firstName u.lastName

/-- The `RETURNING` of the update is read in the same transaction. -/
def activate (userId : Id) : Tx (Option UserCredentialsDTO) := do
  let _ ← execute (.activate userId)
  let rows ← select (.users fun u => u.id == userId)
  let found ← Program.ofExcept (oneOrNone rows)
  pure (found.map toCredentials)

end UserOrmRepository

/-! ## API keys -/

/-- An API key with its owner, as `get_with_owner` loads it. -/
structure ApiKeyBase where
  id : Id
  status : ApiKeyStatusEnum
  lastUsedAt : Option ℤ
  owner : Option UserOnContextDTO
  deriving DecidableEq, Repr

namespace ApiKeyOrmRepository

def toBase (row : ApiKeyRow × Option UserRow) : ApiKeyBase where
  id := row.1.id
  status := row.1.status
  lastUsedAt := row.1.lastUsedAt
  owner := row.2.map UserOrmRepository.toContext

/-- `session.scalar`: one row of the join. The keys are not unique, and any row may come first. -/
def getWithOwner (env : Env) (apiKey : List UInt8) : Tx (Option ApiKeyBase) := do
  let rows ← select (.apiKeys fun k => k.key == apiKey)
  pure (rows[env.tie % rows.length]?.map toBase)

end ApiKeyOrmRepository

end ApiTemplate.Identity
