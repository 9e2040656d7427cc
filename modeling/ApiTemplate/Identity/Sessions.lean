import ApiTemplate.Identity.AuthService

/-!
# Sessions

A session is a login followed by a chain of refreshes, each made with the refresh token of the pair
before it, inside the lifetime that the configuration declares in days. The structure holds what is
given: an active, confirmed user, the right password, and calls that come in time.
-/

namespace ApiTemplate.Identity

open TxStore

/-- One call of `refresh`: the database it finds, and its readings of the clock. -/
structure RefreshCall where
  db : Content
  env : Env

/-- `refresh_token_lifetime`, in days. -/
def JwtConfig.refreshWindow (config : JwtConfig) : Micros :=
  config.refreshTokenLifetime * 86400 * 1000000

/-- Every call comes before the number of days since the last refresh token was issued has passed,
and finds the user active. -/
def InWindow (config : JwtConfig) (user : UserRow) : Micros → List RefreshCall → Prop
  | _, [] => True
  | issued, call :: calls =>
    issued ≤ call.env.clock 0 ∧ call.env.clock 0 < issued + config.refreshWindow ∧
      (∃ u ∈ user? call.db user.id, u.isActive = true) ∧
      InWindow config user (call.env.clock 2) calls

instance (config : JwtConfig) (user : UserRow) :
    (issued : Micros) → (calls : List RefreshCall) → Decidable (InWindow config user issued calls)
  | _, [] => inferInstanceAs (Decidable True)
  | _, call :: calls =>
    have := instDecidableInWindow config user (call.env.clock 2) calls
    inferInstanceAs (Decidable (_ ∧ _ ∧ (∃ u ∈ user? call.db user.id, _) ∧ _))

/-- A login and the refreshes that follow it. -/
structure Session (b : Bcrypt) where
  config : JwtConfig
  accessPos : 0 < config.accessTokenLifetime
  refreshPos : 0 < config.refreshTokenLifetime
  db : Content
  user : UserRow
  stored : usersByEmail db user.email = [user]
  active : user.isActive = true
  confirmed : user.emailConfirmed = true
  password : String
  right : PasswordService.verifyPassword b password (user.password.getD "") = true
  env : Env
  chain : List RefreshCall
  inWindow : InWindow config user (env.clock 1) chain

/-- Each call answers with a new pair, which the next one uses. -/
def RefreshesOk (jwt : PyJwt) (config : JwtConfig) : JwtTokenDTO → List RefreshCall → Prop
  | _, [] => True
  | pair, call :: calls =>
    ∃ pair', call.db.result (AuthService.refresh jwt config call.env pair.refreshToken) =
      .ok (.ok pair') ∧ RefreshesOk jwt config pair' calls

/-- The login and all refreshes answer with a pair; none of them raises. -/
def Session.Works {b : Bcrypt} (s : Session b) (jwt : PyJwt) : Prop :=
  ∃ pair, s.db.result (AuthService.login b jwt s.config s.env s.user.email s.password) =
    .ok (.ok pair) ∧ RefreshesOk jwt s.config pair s.chain

section

variable {b : Bcrypt} {jwt : PyJwt}

/-- The login of a session answers with a pair if the user has logged in before. -/
theorem Session.login_ok_iff (s : Session b) :
    (∃ pair, s.db.result (AuthService.login b jwt s.config s.env s.user.email s.password) =
      .ok (.ok pair)) ↔ s.user.lastLoginTime ≠ none := by
  rw [result_login_of_right s.stored s.right s.active s.confirmed]
  constructor
  · rintro ⟨pair, h⟩ hnone
    rw [JwtProvider.forUser_of_none hnone] at h
    cases h
  · intro hsome
    obtain ⟨t, ht⟩ := Option.ne_none_iff_exists'.mp hsome
    obtain ⟨token, htoken⟩ := JwtProvider.forUser_of_some jwt s.config s.env 0
      ⟨s.user.id, s.user.lastLoginTime⟩ ht
    rw [htoken]
    exact ⟨_, rfl⟩

/-- A chain of refreshes answers with pairs only if it is empty. -/
theorem refreshesOk_iff {config : JwtConfig} {pair : JwtTokenDTO} {chain : List RefreshCall} :
    RefreshesOk jwt config pair chain ↔ chain = [] := by
  cases chain with
  | nil => exact ⟨fun _ => rfl, fun _ => trivial⟩
  | cons call calls =>
    constructor
    · rintro ⟨pair', h, -⟩
      exact absurd h (result_refresh_ne_ok _ _)
    · exact fun h => by cases h

/-- **When a session works.** A session works if and only if its user has logged in before and it
makes no refresh. -/
theorem session_works_iff (s : Session b) :
    s.Works jwt ↔ s.user.lastLoginTime ≠ none ∧ s.chain = [] := by
  unfold Session.Works
  simp only [refreshesOk_iff, exists_and_right, s.login_ok_iff]

end

/-! ## Two sessions that fail -/

/-- Ann logs in for the first time. -/
def firstSession : Session .plain where
  config := { secretKey := "key" }
  accessPos := by decide
  refreshPos := by decide
  db := contentOf [.user { ann with lastLoginTime := none }]
  user := { ann with lastLoginTime := none }
  stored := by decide
  active := rfl
  confirmed := rfl
  password := "secret"
  right := by decide
  env := .at 0
  chain := []
  inWindow := trivial

/-- Ann logs in again and refreshes a second later. -/
def refreshedSession : Session .plain where
  config := { secretKey := "key" }
  accessPos := by decide
  refreshPos := by decide
  db := contentOf [.user ann]
  user := ann
  stored := by decide
  active := rfl
  confirmed := rfl
  password := "secret"
  right := by decide
  env := .at 0
  chain := [⟨contentOf [.user ann], .at 1000000⟩]
  inWindow := by decide

/-- Neither of them works. -/
theorem not_works_firstSession_refreshedSession :
    ¬firstSession.Works .plain ∧ ¬refreshedSession.Works .plain := by
  constructor
  · rintro ⟨pair, hlogin, -⟩
    obtain hnone := firstSession.login_ok_iff.mp ⟨pair, hlogin⟩
    exact hnone rfl
  · rintro ⟨pair, -, hrefreshes⟩
    cases refreshesOk_iff.mp hrefreshes

end ApiTemplate.Identity
