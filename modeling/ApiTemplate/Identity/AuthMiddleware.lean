import ApiTemplate.Identity.AuthService

/-!
# Authentication of a request

The middleware resolves the user of a request from a bearer token or from an API key, and
`getCurrentUserFromRequest` decides whether the route gets it.
-/

namespace ApiTemplate.Identity

open TxStore

/-! ## Base64 -/

/-- The value of a character of the alphabet. -/
def base64Value (c : Char) : Option ℕ :=
  if 'A' ≤ c ∧ c ≤ 'Z' then some (c.toNat - 65)
  else if 'a' ≤ c ∧ c ≤ 'z' then some (c.toNat - 71)
  else if '0' ≤ c ∧ c ≤ '9' then some (c.toNat + 4)
  else if c = '+' then some 62
  else if c = '/' then some 63
  else none

/-- `binascii.a2b_base64`, not strict: `quad` digits of the current group have been read, `left` is
what is left of the last one, and `pads` counts the padding. Other characters are skipped, and what
follows a complete padding is not read. -/
def a2bBase64 (quad left pads : ℕ) : List Char → Option (List UInt8)
  | [] => if quad = 0 then some [] else none
  | c :: cs =>
    if c = '=' then
      if quad < 2 then a2bBase64 quad left pads cs
      else if 4 ≤ quad + (pads + 1) then some []
      else a2bBase64 quad left (pads + 1) cs
    else
      match base64Value c with
      | none => a2bBase64 quad left pads cs
      | some v =>
        match quad with
        | 0 => a2bBase64 1 v 0 cs
        | 1 => (a2bBase64 2 (v % 16) 0 cs).map (.ofNat (left * 4 + v / 16) :: ·)
        | 2 => (a2bBase64 3 (v % 4) 0 cs).map (.ofNat (left * 16 + v / 4) :: ·)
        | _ => (a2bBase64 0 0 0 cs).map (.ofNat (left * 64 + v) :: ·)

/-- `base64.b64decode` of a string; `none` is a `ValueError`. -/
def b64decode (s : String) : Option (List UInt8) :=
  if s.toList.all fun c => c.toNat < 128 then a2bBase64 0 0 0 s.toList else none

example : b64decode "a2V5" = some [107, 101, 121] := by decide

example : b64decode "a2U= ignored" = some [107, 101] := by decide

example : b64decode "a2V" = none := by decide

/-! ## The API key -/

/-- `HmacSha256SignatureService`, over the hash of the standard library. -/
structure SignatureService where
  secret : List UInt8
  hmacSha256 : (key data : List UInt8) → List UInt8

def SignatureService.sign (service : SignatureService) (data : List UInt8) : List UInt8 :=
  service.hmacSha256 service.secret data

/-- A signature without secrecy, for runs on concrete inputs. -/
def SignatureService.plain : SignatureService := ⟨[], fun _ data => data⟩

/-- `ApiKeyService.get_with_owner`: the table holds signed keys. -/
def ApiKeyService.getWithOwner (signature : SignatureService) (env : Env) (apiKey : List UInt8) :
    Tx (Option ApiKeyBase) :=
  ApiKeyOrmRepository.getWithOwner env (signature.sign apiKey)

/-! ## The middleware -/

/-- The headers the middleware reads. -/
structure Request where
  authorization : Option String := none
  apiKey : Option String := none

/-- What the middleware leaves in the state of the scope. -/
structure RequestState where
  user : Option UserOnContextDTO := none
  apiKeyObj : Option ApiKeyBase := none
  deriving DecidableEq

/-- A header that is present and not empty. -/
def truthy (header : Option String) : Option String := header.filter (· != "")

theorem truthy_of_ne {header : String} (h : header ≠ "") : truthy (some header) = some header :=
  if_pos (by simpa using h)

/-- The second of exactly two parts of `jwt.strip().split(" ")`. -/
def bearerToken (jwt : String) : Option String :=
  match (strip jwt).toList.splitOn ' ' with
  | [_, token] => some (String.ofList token)
  | _ => none

section

variable (jwt : PyJwt) (config : JwtConfig) (signature : SignatureService) (env : Env)

def getCurrentUserFromToken (token : String) : Tx UserOnContextDTO :=
  if token = "" then Program.raise (.appException 401 .accessTokenRequired .accessTokenRequired)
  else do
    match ← Program.ofExcept (JwtProvider.decodePayload jwt config token (env.clock 0)) with
    | none => Program.raise (.appException 401 .invalidTokenProvided .invalidAccessToken)
    | some payload =>
      match payload.userId with
      | none => Program.raise (.appException 401 .invalidTokenProvided .invalidAccessToken)
      | some userId =>
        match ← UserOrmRepository.getForContext userId with
        | none => Program.raise (.appException 401 .invalidLoginCredentials .invalidLoginCredentials)
        | some user =>
          if !user.isActive then
            Program.raise (.appException 401 .invalidLoginCredentials .invalidLoginCredentials)
          else pure user

def AuthMiddleware.call (request : Request) : Tx RequestState :=
  match truthy request.authorization, truthy request.apiKey with
  | some _, some _ =>
    Program.raise (.httpException 400 "Provide either API key or bearer token, not both")
  | some authorization, none =>
    match bearerToken authorization with
    | none => pure {}
    | some token => do
      let user ← getCurrentUserFromToken jwt config env token
      pure { user := some user }
  | none, some apiKey =>
    match b64decode apiKey with
    | none => Program.raise (.httpException 401 "Provided invalid api_key")
    | some apiKey => do
      let apiKeyObj ← ApiKeyService.getWithOwner signature env apiKey
      pure { user := apiKeyObj.bind ApiKeyBase.owner, apiKeyObj := apiKeyObj }
  | none, none => pure {}

/-- The user the route gets. -/
def getCurrentUserFromRequest (required allowApiKeyAccess : Bool) (state : RequestState) :
    Except Exn (Option UserOnContextDTO) :=
  if state.apiKeyObj.isSome then
    if !allowApiKeyAccess then
      .error (.httpException 401 AppExceptionMessage.accessTokenRequired.value)
    else .ok state.user
  else if required && state.user.isNone then
    .error (.httpException 401 AppExceptionMessage.accessTokenRequired.value)
  else .ok state.user

/-- The middleware and then the dependency of the route. -/
def authenticate (required allowApiKeyAccess : Bool) (request : Request) :
    Tx (Option UserOnContextDTO) := do
  let state ← AuthMiddleware.call jwt config signature env request
  Program.ofExcept (getCurrentUserFromRequest required allowApiKeyAccess state)

end

/-! ## Alone on a database -/

section

variable {jwt : PyJwt} {config : JwtConfig} {signature : SignatureService} {env : Env}
  {db : Content}

/-- **Bearer tokens.** A token gets its user through exactly if it decodes and the user is stored
and active. -/
theorem result_getCurrentUserFromToken {token : String} {user : UserOnContextDTO} :
    db.result (getCurrentUserFromToken jwt config env token) = .ok user ↔
      token ≠ "" ∧ ∃ p id u,
        JwtProvider.decodePayload jwt config token (env.clock 0) = .ok (some p) ∧
        p.userId = some id ∧ user? db id = some u ∧ u.isActive = true ∧
        user = UserOrmRepository.toContext u := by
  unfold Db.result getCurrentUserFromToken
  by_cases htoken : token = ""
  · rw [if_pos htoken]
    exact ⟨nofun, fun h => absurd htoken h.1⟩
  rw [if_neg htoken]
  cases hd : JwtProvider.decodePayload jwt config token (env.clock 0) with
  | error e => exact ⟨nofun, fun ⟨_, _, _, _, h, _⟩ => nomatch h⟩
  | ok found =>
    cases found with
    | none => exact ⟨nofun, fun ⟨_, _, _, _, h, _⟩ => nomatch h⟩
    | some p =>
      change (World.run (match p.userId with | none => _ | some userId => _) _).1 = _ ↔ _
      cases hid : p.userId with
      | none =>
        refine ⟨nofun, ?_⟩
        rintro ⟨-, p', id, u, hp, hid', -⟩
        cases hp
        rw [hid] at hid'
        cases hid'
      | some userId =>
        have hrun := run_getForContext (World.ofDb db) userId
        rw [show (World.ofDb db).view = db from rfl] at hrun
        dsimp only
        rw [World.run, Program.run_bind_ok hrun]
        constructor
        · intro h
          cases hu : user? db userId with
          | none =>
            rw [hu] at h
            cases h
          | some u =>
            rw [hu] at h
            cases ha : u.isActive with
            | false =>
              simp only [Option.map_some, UserOrmRepository.toContext, ha] at h
              cases h
            | true =>
              simp only [Option.map_some, UserOrmRepository.toContext, ha] at h
              cases h
              refine ⟨htoken, p, userId, u, rfl, hid, hu, ha, ?_⟩
              unfold UserOrmRepository.toContext
              rw [ha]
        · rintro ⟨-, p', id, u, hp, hid', hu, ha, rfl⟩
          cases hp
          rw [hid] at hid'
          cases hid'
          rw [hu]
          simp only [Option.map_some, UserOrmRepository.toContext, ha]
          rfl

variable {request : Request}

theorem result_call_bearer {header token : String}
    (hheader : truthy request.authorization = some header) (hkey : truthy request.apiKey = none)
    (htoken : bearerToken header = some token) :
    db.result (AuthMiddleware.call jwt config signature env request) =
      (db.result (getCurrentUserFromToken jwt config env token)).bind fun user =>
        .ok { user := some user } := by
  rw [← Db.result_bind_done]
  unfold AuthMiddleware.call
  rw [hheader, hkey]
  dsimp only
  rw [htoken]
  rfl

end

end ApiTemplate.Identity
