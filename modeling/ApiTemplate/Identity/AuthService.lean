import ApiTemplate.Identity.Jwt
import ApiTemplate.Identity.Runs

/-!
# The auth service

Password login and the rotation of refresh tokens, and what each of them answers on a database of
its own.
-/

namespace ApiTemplate.Identity

open TxStore

structure JwtTokenDTO where
  accessToken : String
  refreshToken : String
  deriving DecidableEq, Repr

/-- `_invalid_credentials`. -/
def invalidCredentials : AppExceptionDetail where
  status := .invalidLoginCredentials
  message := some AppExceptionMessage.invalidLoginCredentials.value

namespace AuthService

variable (b : Bcrypt) (jwt : PyJwt) (config : JwtConfig)

def login (env : Env) (email password : String) : Tx (ResultDetailed JwtTokenDTO) := do
  match ← UserOrmRepository.getCredentialsByEmail email with
  | none =>
    -- the source hashes here as well, and drops the result
    let _ := PasswordService.verifyPassword b password ""
    pure (.error [invalidCredentials])
  | some found =>
    if !PasswordService.verifyPassword b password found.password then
      pure (.error [invalidCredentials])
    else if !found.isActive || !found.emailConfirmed then pure (.error [invalidCredentials])
    else
      let token ← Program.ofExcept (JwtProvider.forUser jwt config env 0 found.tokenUser)
      pure (.ok { accessToken := token.accessToken, refreshToken := token.refreshToken })

/-- The clock is read once to decode the token. -/
def refresh (env : Env) (refreshToken : String) : Tx (ResultDetailed JwtTokenDTO) := do
  match ← Program.ofExcept (JwtProvider.decodePayload jwt config refreshToken (env.clock 0)) with
  | none => pure (.error [{
      status := .invalidRefreshToken
      message := some AppExceptionMessage.invalidTokenProvided.value }])
  | some payload =>
    if payload.tokenType ≠ some .refreshToken then pure (.error [{
      status := .invalidTokenType
      message := some AppExceptionMessage.invalidTokenType.value }])
    else
      match payload.userId with
      | none => pure (.error [invalidCredentials])
      | some userId =>
        match ← UserOrmRepository.getForContext userId with
        | none => pure (.error [invalidCredentials])
        | some user =>
          if !user.isActive then pure (.error [invalidCredentials])
          else
            let token ← Program.ofExcept (JwtProvider.forUser jwt config env 1 user.tokenUser)
            pure (.ok { accessToken := token.accessToken, refreshToken := token.refreshToken })

end AuthService

/-! ## Alone on a database -/

section

variable {b : Bcrypt} {jwt : PyJwt} {config : JwtConfig} {db : Content} {env : Env} {u : UserRow}

/-- The answer to the user that the credentials query found. -/
def loginAnswer (b : Bcrypt) (jwt : PyJwt) (config : JwtConfig) (env : Env) (password : String)
    (u : UserRow) : Except Exn (ResultDetailed JwtTokenDTO) :=
  if PasswordService.verifyPassword b password (u.password.getD "") && u.isActive &&
      u.emailConfirmed then
    (JwtProvider.forUser jwt config env 0 ⟨u.id, u.lastLoginTime⟩).map fun token =>
      .ok ⟨token.accessToken, token.refreshToken⟩
  else .ok (.error [invalidCredentials])

theorem result_login (email password : String) :
    db.result (AuthService.login b jwt config env email password) =
      match oneOrNone (usersByEmail db email) with
      | .error e => .error e
      | .ok none => .ok (.error [invalidCredentials])
      | .ok (some u) => loginAnswer b jwt config env password u := by
  have hget := run_getCredentialsByEmail (World.ofDb db) email
  rw [show (World.ofDb db).view = db from rfl] at hget
  unfold Db.result AuthService.login
  cases hone : oneOrNone (usersByEmail db email) with
  | error e =>
    rw [hone] at hget
    rw [World.run, Program.run_bind_error hget]
  | ok found =>
    rw [hone] at hget
    rw [World.run, Program.run_bind_ok hget]
    cases found with
    | none => rfl
    | some u =>
      dsimp only [Except.map, Option.map_some, UserOrmRepository.toAuth, UserAuthDTO.tokenUser]
      unfold loginAnswer
      cases PasswordService.verifyPassword b password (u.password.getD "") with
      | false => rfl
      | true =>
        cases u.isActive with
        | false => rfl
        | true =>
          cases u.emailConfirmed with
          | false => rfl
          | true => cases JwtProvider.forUser jwt config env 0 ⟨u.id, u.lastLoginTime⟩ <;> rfl

/-- The only user of an address logs in with the right password, unless it never logged in. -/
theorem result_login_of_right {email password : String} (hu : usersByEmail db email = [u])
    (hp : PasswordService.verifyPassword b password (u.password.getD "") = true)
    (ha : u.isActive = true) (hc : u.emailConfirmed = true) :
    db.result (AuthService.login b jwt config env email password) =
      (JwtProvider.forUser jwt config env 0 ⟨u.id, u.lastLoginTime⟩).map fun token =>
        .ok ⟨token.accessToken, token.refreshToken⟩ := by
  rw [result_login, hu]
  change loginAnswer b jwt config env password u = _
  unfold loginAnswer
  rw [hp, ha, hc]
  rfl

/-- **No token is ever refreshed.** The context user carries no `last_login_time`, and the payload
of the new pair is refused. -/
theorem result_refresh_ne_ok (token : String) (pair : JwtTokenDTO) :
    db.result (AuthService.refresh jwt config env token) ≠ .ok (.ok pair) := by
  unfold Db.result AuthService.refresh
  cases hd : JwtProvider.decodePayload jwt config token (env.clock 0) with
  | error e => exact fun h => by cases h
  | ok found =>
    cases found with
    | none => exact fun h => by cases h
    | some payload =>
      change (World.run (if payload.tokenType ≠ some .refreshToken then _ else _) _).1 ≠ _
      split
      · exact fun h => by cases h
      · split
        · exact fun h => by cases h
        · rename_i userId _
          rw [World.run, Program.run_bind_ok (run_getForContext _ userId)]
          cases user? (World.ofDb db).view userId with
          | none => exact fun h => by cases h
          | some u =>
            dsimp only [Option.map_some]
            split
            · exact fun h => by cases h
            · rw [JwtProvider.forUser_of_none (by rfl)]
              exact fun h => by cases h

end

end ApiTemplate.Identity
