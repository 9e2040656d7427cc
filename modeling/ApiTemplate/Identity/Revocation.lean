import ApiTemplate.Identity.AuthMiddleware

/-!
# Revocation of credentials

Disabling an account or an API key should shut out every later request with the credential. The
bearer path asks for the flag of the account; the API-key path asks for nothing.
-/

namespace ApiTemplate.Identity

open TxStore

variable (jwt : PyJwt) (config : JwtConfig) (signature : SignatureService) (env : Env)
  (db : Content) (required allowApiKeyAccess : Bool) (request : Request)

def apiKeys (db : Content) : List ApiKeyRow := db.rows.filterMap Row.apiKey?

/-- The row that `get_with_owner` finds for a key. -/
def apiKeyRow (key : List UInt8) : Option ApiKeyRow :=
  let rows := (apiKeys db).filter fun k => k.key == signature.sign key
  rows[env.tie % rows.length]?

/-- The API key of a request that is resolved by API key. -/
def presentedKey : Option ApiKeyRow :=
  match truthy request.authorization with
  | some _ => none
  | none => ((truthy request.apiKey).bind b64decode).bind (apiKeyRow signature env db)

/-- The route gets only active users, and none by an API key that is not active. -/
def RespectsRevocation : Prop :=
  ∀ user, db.result (authenticate jwt config signature env required allowApiKeyAccess request) =
      .ok (some user) →
    (∃ u ∈ users db, user = UserOrmRepository.toContext u ∧ u.isActive = true) ∧
      ∀ k ∈ presentedKey signature env db request, k.status = .active

/-- A route for API keys is presented one whose row is active, with an active owner. -/
def KeyInForce : Prop :=
  allowApiKeyAccess = true → ∀ k ∈ presentedKey signature env db request,
    ∀ u ∈ user? db k.ownerId, k.status = .active ∧ u.isActive = true

section

variable {jwt config signature env db required allowApiKeyAccess request}

/-- The join with the owner. -/
theorem users_find?_id (db : Content) (id : Id) :
    ((users db).find? fun u => u.id == id) = user? db id := by
  rw [← List.head?_filter, users_filter_id]
  cases user? db id <;> rfl

theorem run_getWithOwner (w : World schema) (key : List UInt8) :
    World.run (ApiKeyService.getWithOwner signature env key) w =
      (.ok ((apiKeyRow signature env w.view key).map fun k =>
        ApiKeyOrmRepository.toBase (k, user? w.view k.ownerId)), w) := by
  have hjoin : (fun k : ApiKeyRow => (k, (users w.view).find? fun u => u.id == k.ownerId)) =
      fun k => (k, user? w.view k.ownerId) := funext fun k => by rw [users_find?_id]
  unfold apiKeyRow
  generalize hrows : (apiKeys w.view).filter (fun k => k.key == signature.sign key) = rows
  have hrun : World.run (ApiKeyService.getWithOwner signature env key) w =
      (.ok (((rows.map fun k => (k, (users w.view).find? fun u => u.id == k.ownerId))[env.tie %
        (rows.map fun k => (k, (users w.view).find? fun u => u.id == k.ownerId)).length]?).map
          ApiKeyOrmRepository.toBase), w) := by
    rw [← hrows]
    rfl
  rw [hrun, hjoin, List.length_map, List.getElem?_map, Option.map_map]
  rfl

theorem result_authenticate :
    db.result (authenticate jwt config signature env required allowApiKeyAccess request) =
      (db.result (AuthMiddleware.call jwt config signature env request)).bind
        (getCurrentUserFromRequest required allowApiKeyAccess) :=
  Db.result_bind_done db _ _

/-- Without an API key the route gets the user of the state, if it gets one. -/
theorem eq_of_getCurrentUserFromRequest {state : RequestState} {user : Option UserOnContextDTO}
    (h : getCurrentUserFromRequest required allowApiKeyAccess state = .ok user) :
    user = state.user := by
  unfold getCurrentUserFromRequest at h
  split at h
  · split at h <;> cases h
    rfl
  · split at h <;> cases h
    rfl

/-- What the route gets from a request with an API key. -/
theorem result_authenticate_apiKey {apiKey : String} {key : List UInt8}
    (hauth : truthy request.authorization = none) (happ : truthy request.apiKey = some apiKey)
    (hkey : b64decode apiKey = some key) :
    db.result (authenticate jwt config signature env required allowApiKeyAccess request) =
      match apiKeyRow signature env db key with
      | none => getCurrentUserFromRequest required allowApiKeyAccess {}
      | some k =>
        if allowApiKeyAccess then .ok ((user? db k.ownerId).map UserOrmRepository.toContext)
        else .error (.httpException 401 AppExceptionMessage.accessTokenRequired.value) := by
  have hget : db.result (ApiKeyService.getWithOwner signature env key) =
      .ok ((apiKeyRow signature env db key).map fun k =>
        ApiKeyOrmRepository.toBase (k, user? db k.ownerId)) :=
    congrArg Prod.fst (run_getWithOwner (World.ofDb db) key)
  have hcall : db.result (AuthMiddleware.call jwt config signature env request) =
      (db.result (ApiKeyService.getWithOwner signature env key)).bind fun o =>
        .ok { user := o.bind ApiKeyBase.owner, apiKeyObj := o } := by
    rw [← Db.result_bind_done]
    unfold AuthMiddleware.call
    rw [hauth, happ]
    dsimp only
    rw [hkey]
    rfl
  rw [result_authenticate, hcall, hget]
  cases apiKeyRow signature env db key with
  | none => rfl
  | some k => cases allowApiKeyAccess <;> rfl

/-- The user of a bearer token is active. -/
theorem active_of_bearer {header token : String} {state : RequestState} {user : UserOnContextDTO}
    (hauth : truthy request.authorization = some header) (happ : truthy request.apiKey = none)
    (htoken : bearerToken header = some token)
    (hcall : db.result (AuthMiddleware.call jwt config signature env request) = .ok state)
    (huser : state.user = some user) :
    ∃ u ∈ users db, user = UserOrmRepository.toContext u ∧ u.isActive = true := by
  rw [result_call_bearer hauth happ htoken] at hcall
  cases hget : db.result (getCurrentUserFromToken jwt config env token) with
  | error e =>
    rw [hget] at hcall
    cases hcall
  | ok found =>
    rw [hget] at hcall
    cases hcall
    cases huser
    obtain ⟨-, -, id, u, -, -, hu, ha, rfl⟩ := result_getCurrentUserFromToken.mp hget
    have hrow := user?_eq_some.mp hu
    have hid : u.id = id := id_of_row hrow
    rw [← hid] at hrow
    exact ⟨u, mem_users.mpr hrow, rfl, ha⟩

/-- A user that did not come by an API key is active. -/
theorem active_of_authenticate {user : UserOnContextDTO}
    (hkey : truthy request.authorization = none → (truthy request.apiKey).bind b64decode = none)
    (h : db.result (authenticate jwt config signature env required allowApiKeyAccess request) =
      .ok (some user)) :
    ∃ u ∈ users db, user = UserOrmRepository.toContext u ∧ u.isActive = true := by
  rw [result_authenticate] at h
  cases hcall : db.result (AuthMiddleware.call jwt config signature env request) with
  | error e =>
    rw [hcall] at h
    cases h
  | ok state =>
    rw [hcall] at h
    have huser : state.user = some user := (eq_of_getCurrentUserFromRequest h).symm
    cases hauth : truthy request.authorization with
    | none =>
      -- neither header is usable, so there is no user
      have hnone := hkey hauth
      unfold AuthMiddleware.call at hcall
      rw [hauth] at hcall
      cases happ : truthy request.apiKey with
      | none =>
        rw [happ] at hcall
        cases hcall
        cases huser
      | some apiKey =>
        rw [happ] at hcall hnone
        rw [Option.bind_some] at hnone
        dsimp only at hcall
        rw [hnone] at hcall
        cases hcall
    | some header =>
      cases happ : truthy request.apiKey with
      | some apiKey =>
        unfold AuthMiddleware.call at hcall
        rw [hauth, happ] at hcall
        cases hcall
      | none =>
        cases htoken : bearerToken header with
        | none =>
          unfold AuthMiddleware.call at hcall
          rw [hauth, happ] at hcall
          dsimp only at hcall
          rw [htoken] at hcall
          cases hcall
          cases huser
        | some token => exact active_of_bearer hauth happ htoken hcall huser

theorem presentedKey_of_b64decode {key : List UInt8} (hauth : truthy request.authorization = none)
    (hdecode : (truthy request.apiKey).bind b64decode = some key) :
    presentedKey signature env db request = apiKeyRow signature env db key := by
  unfold presentedKey
  rw [hauth, hdecode]
  rfl

theorem presentedKey_eq_none (h : truthy request.authorization = none →
    (truthy request.apiKey).bind b64decode = none) :
    presentedKey signature env db request = none := by
  unfold presentedKey
  cases hauth : truthy request.authorization with
  | some header => rfl
  | none =>
    rw [h hauth]
    rfl

/-- **When revocation is respected.** -/
theorem respectsRevocation_iff :
    RespectsRevocation jwt config signature env db required allowApiKeyAccess request ↔
      KeyInForce signature env db allowApiKeyAccess request := by
  by_cases hbyKey : truthy request.authorization = none ∧
      ∃ key, (truthy request.apiKey).bind b64decode = some key
  · obtain ⟨hauth, key, hdecode⟩ := hbyKey
    obtain ⟨apiKey, happ, hkey⟩ := Option.bind_eq_some_iff.mp hdecode
    unfold RespectsRevocation KeyInForce
    rw [presentedKey_of_b64decode hauth hdecode, result_authenticate_apiKey hauth happ hkey]
    cases hrow : apiKeyRow signature env db key with
    | none =>
      refine ⟨fun _ _ k hk => (nomatch hk), fun _ user h => ?_⟩
      cases eq_of_getCurrentUserFromRequest h
    | some k =>
      cases allowApiKeyAccess with
      | false => exact ⟨fun _ h => (nomatch h), fun _ user h => (nomatch h)⟩
      | true =>
        simp only [if_true]
        constructor
        · rintro h - k' hk' u hu
          cases hk'
          rw [Option.mem_def] at hu
          obtain ⟨⟨u', -, huser, ha⟩, hstatus⟩ := h (UserOrmRepository.toContext u) (by rw [hu]; rfl)
          refine ⟨hstatus k rfl, ?_⟩
          exact (congrArg UserOnContextDTO.isActive huser).trans ha
        · intro h user huser
          cases hu : user? db k.ownerId with
          | none =>
            rw [hu] at huser
            cases huser
          | some u =>
            rw [hu] at huser
            cases huser
            obtain ⟨hstatus, ha⟩ := h trivial k rfl u hu
            have hur := user?_eq_some.mp hu
            have hid : u.id = k.ownerId := id_of_row hur
            rw [← hid] at hur
            refine ⟨⟨u, mem_users.mpr hur, rfl, ha⟩, fun k' hk' => ?_⟩
            cases hk'
            exact hstatus
  · have hnone : truthy request.authorization = none →
        (truthy request.apiKey).bind b64decode = none := by
      intro hauth
      by_contra hne
      exact hbyKey ⟨hauth, Option.ne_none_iff_exists'.mp hne⟩
    unfold RespectsRevocation KeyInForce
    rw [presentedKey_eq_none hnone]
    refine ⟨fun _ _ k hk => (nomatch hk), fun _ user h => ⟨active_of_authenticate hnone h, ?_⟩⟩
    exact fun k hk => nomatch hk

end

/-! ## A blocked key -/

/-- Ann's API key, blocked. -/
def annsBlockedKey : ApiKeyRow where
  id := 1
  key := [107, 101, 121]
  status := .blocked
  ownerId := 0
  lastUsedAt := none

/-- A route that allows API keys gets Ann by her blocked key. -/
theorem not_respectsRevocation_annsBlockedKey :
    ¬RespectsRevocation .plain { secretKey := "key" } .plain (.at 0)
      (contentOf [.user ann, .apiKey annsBlockedKey]) true true { apiKey := some "a2V5" } := by
  intro h
  have hstatus := (h (UserOrmRepository.toContext ann) (by decide)).2 annsBlockedKey (by decide)
  cases hstatus

end ApiTemplate.Identity
