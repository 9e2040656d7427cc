import ApiTemplate.Identity.Password
import ApiTemplate.Identity.Tables

/-!
# The user aggregate

`UserAggregate` writes through to the row it was built over and collects the events it raises. A new
aggregate gets its identifier when its row is added to the session.
-/

namespace ApiTemplate.Identity

structure UserCreateParams where
  email : String
  firstName : String
  lastName : String
  phone : Option String := none
  address : Option String := none
  description : Option String := none
  information : Option String := none
  avatarId : Option Id := none

structure UserUpdateParams where
  firstName : String
  lastName : String
  phone : Option String := none
  address : Option String := none
  description : Option String := none
  information : Option String := none
  avatarId : Option Id := none

structure UserAggregate where
  source : UserRow
  events : List DomainEvent := []

/-- `f"{first_name} {last_name}".strip()`. -/
def fullName (firstName lastName : String) : String := strip (firstName ++ " " ++ lastName)

namespace UserAggregate

/-- An aggregate over a loaded row. -/
def ofRow (u : UserRow) : UserAggregate := { source := u }

@[simp] theorem ofRow_source (u : UserRow) : (ofRow u).source = u := rfl

/-- Self-service signup: inactive, unconfirmed. -/
def register (param : UserCreateParams) (now : Micros) : UserAggregate where
  source :=
    { id := 0
      email := param.email
      password := none
      firstName := param.firstName
      lastName := param.lastName
      phone := param.phone
      address := param.address
      description := param.description
      information := param.information
      avatarId := param.avatarId
      emailConfirmed := false
      isActive := false
      isSuperuser := false
      status := StatusEnum.inactive
      dateJoined := some now
      lastLoginTime := none }

/-- An already-trusted user: active, confirmed. -/
def create (param : UserCreateParams) (now : Micros) (isSuperuser : Bool) : UserAggregate where
  source :=
    { id := 0
      email := param.email
      password := none
      firstName := param.firstName
      lastName := param.lastName
      phone := param.phone
      address := param.address
      description := param.description
      information := param.information
      avatarId := param.avatarId
      emailConfirmed := true
      isActive := true
      isSuperuser := isSuperuser
      status := StatusEnum.active
      dateJoined := some now
      lastLoginTime := some now }

def update (a : UserAggregate) (param : UserUpdateParams) : UserAggregate :=
  { a with source := { a.source with
      firstName := param.firstName
      lastName := param.lastName
      phone := param.phone
      address := param.address
      description := param.description
      information := param.information
      avatarId := param.avatarId } }

/-- A new address is unproven; the same address changes nothing. -/
def changeEmail (a : UserAggregate) (email : String) : UserAggregate :=
  if email = a.source.email then a
  else { a with source := { a.source with email := email, emailConfirmed := false } }

def setPassword (b : Bcrypt) (a : UserAggregate) (rawPassword : String) (salt : ℕ) :
    Except Exn UserAggregate :=
  (PasswordService.hashPassword b rawPassword salt).map fun hash =>
    { a with source := { a.source with password := some hash } }

theorem setPassword_eq_ok {b : Bcrypt} {a a' : UserAggregate} {rawPassword : String} {salt : ℕ}
    (h : a.setPassword b rawPassword salt = .ok a') :
    ∃ hash, PasswordService.hashPassword b rawPassword salt = .ok hash ∧
      a' = { a with source := { a.source with password := some hash } } := by
  unfold setPassword at h
  cases hp : PasswordService.hashPassword b rawPassword salt with
  | error e =>
    rw [hp] at h
    cases h
  | ok hash =>
    rw [hp] at h
    cases h
    exact ⟨hash, rfl, rfl⟩

theorem setPassword_events {b : Bcrypt} {a a' : UserAggregate} {rawPassword : String} {salt : ℕ}
    (h : a.setPassword b rawPassword salt = .ok a') : a'.events = a.events := by
  obtain ⟨hash, -, rfl⟩ := setPassword_eq_ok h
  rfl

def confirmEmail (a : UserAggregate) : UserAggregate :=
  { a with source := { a.source with emailConfirmed := true, isActive := true } }

def touchLogin (a : UserAggregate) (now : Micros) : UserAggregate :=
  { a with source := { a.source with lastLoginTime := some now } }

def addDomainEvent (a : UserAggregate) (event : DomainEvent) : UserAggregate :=
  { a with events := a.events ++ [event] }

def markRegistered (a : UserAggregate) (otpCode : String) : Except Exn UserAggregate :=
  if a.source.email = "" then .error .runtimeError
  else .ok (a.addDomainEvent (.userRegistered a.source.id a.source.email otpCode
    (fullName a.source.firstName a.source.lastName)))

end UserAggregate

end ApiTemplate.Identity
