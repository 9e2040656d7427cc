import ApiTemplate.Identity.AuthMiddleware

/-!
# The two kinds of token

Access and refresh tokens are signed with one key and decoded by one function. The refresh endpoint
looks at `token_type`, the middleware does not: it takes every unexpired token of an active user.
-/

namespace ApiTemplate.Identity

open TxStore

variable (jwt : PyJwt) (config : JwtConfig) (signature : SignatureService) (env : Env)
  (db : Content) (token : String)

/-- The middleware finds a user for a request that carries the token as bearer. -/
def Authenticates : Prop :=
  ∃ request header state, request.authorization = some header ∧ bearerToken header = some token ∧
    db.result (AuthMiddleware.call jwt config signature env request) = .ok state ∧
    state.user.isSome = true

/-- The refresh endpoint mints a pair from the token. -/
def Mints : Prop := ∃ pair, db.result (AuthService.refresh jwt config env token) = .ok (.ok pair)

/-- The token decodes, unexpired, to a payload of a kind. -/
def DecodesTo (kind : JwtType) : Prop :=
  ∃ p, JwtProvider.decodePayload jwt config token (env.clock 0) = .ok (some p) ∧
    p.tokenType = some kind

/-- Each entry point takes its own kind of token only, and no token is taken by both. -/
structure KindsSeparate : Prop where
  authenticates : Authenticates jwt config signature env db token →
    DecodesTo jwt config env token .accessToken
  mints : Mints jwt config env db token → DecodesTo jwt config env token .refreshToken
  disjoint : Authenticates jwt config signature env db token →
    ∀ env' db', ¬Mints jwt config env' db' token

/-- An unexpired token of another kind than access, of a stored user who is active. -/
def ForeignToken : Prop :=
  ∃ p id u, token = JwtProvider.generateToken jwt config p ∧ p.Fresh (env.clock 0) ∧ p.Complete ∧
    p.tokenType ≠ some .accessToken ∧ p.userId = some id ∧ user? db id = some u ∧
    u.isActive = true

/-! ## The header -/

theorem strip_of_ne {s : String} {c d : Char} {cs ds : List Char} (hfirst : s.toList = c :: cs)
    (hlast : s.toList = ds ++ [d]) (hc : isSpace c = false) (hd : isSpace d = false) :
    strip s = s := by
  unfold strip
  rw [hfirst, List.dropWhile_cons_of_neg (by simp [hc]), ← hfirst, hlast, List.reverse_append,
    List.reverse_singleton, List.singleton_append, List.dropWhile_cons_of_neg (by simp [hd]),
    List.reverse_cons, List.reverse_reverse, ← hlast, String.ofList_toList]

/-- The usual header gives back its token. -/
theorem bearerToken_bearer {token : String} (hne : token.toList ≠ [])
    (hspace : ∀ c ∈ token.toList, isSpace c = false) :
    bearerToken ("Bearer " ++ token) = some token := by
  have htoList : ("Bearer " ++ token).toList = "Bearer".toList ++ ' ' :: token.toList := by
    rw [String.toList_append]
    rfl
  have hlast : ("Bearer " ++ token).toList =
      ("Bearer ".toList ++ token.toList.dropLast) ++ [token.toList.getLast hne] := by
    rw [List.append_assoc, List.dropLast_append_getLast, String.toList_append]
  have hstrip : strip ("Bearer " ++ token) = "Bearer " ++ token :=
    strip_of_ne (c := 'B') htoList hlast (by decide) (hspace _ (List.getLast_mem hne))
  have hmem : ' ' ∉ token.toList := fun h => by cases hspace _ h
  unfold bearerToken
  rw [hstrip, htoList, List.splitOn_append_cons_self_of_not_mem (by decide),
    List.splitOn_eq_singleton hmem]
  exact congrArg some String.ofList_toList

variable {jwt config signature env db token}

/-- **Which tokens the middleware takes.** It takes every unexpired token of an active user. -/
theorem authenticates_iff :
    Authenticates jwt config signature env db token ↔
      ∃ p id u, JwtProvider.decodePayload jwt config token (env.clock 0) = .ok (some p) ∧
        p.userId = some id ∧ user? db id = some u ∧ u.isActive = true := by
  constructor
  · rintro ⟨request, header, state, hheader, htoken, hresult, huser⟩
    have hne : header ≠ "" := by
      rintro rfl
      cases htoken
    have hauth : truthy request.authorization = some header := by rw [hheader, truthy_of_ne hne]
    cases hkey : truthy request.apiKey with
    | some key =>
      unfold AuthMiddleware.call at hresult
      rw [hauth, hkey] at hresult
      cases hresult
    | none =>
      rw [result_call_bearer hauth hkey htoken] at hresult
      cases huser' : db.result (getCurrentUserFromToken jwt config env token) with
      | error e =>
        rw [huser'] at hresult
        cases hresult
      | ok user =>
        obtain ⟨-, p, id, u, hp, hid, hu, ha, -⟩ := result_getCurrentUserFromToken.mp huser'
        exact ⟨p, id, u, hp, hid, hu, ha⟩
  · rintro ⟨p, id, u, hp, hid, hu, ha⟩
    obtain ⟨rfl, -, -⟩ := JwtProvider.decodePayload_eq_some.mp hp
    have hne : (JwtProvider.generateToken jwt config p).toList ≠ [] := jwt.encode_ne _ _ p
    have htoken := bearerToken_bearer hne (jwt.encode_isSpace _ _ p)
    have hempty : JwtProvider.generateToken jwt config p ≠ "" := by
      intro h
      rw [h] at hne
      exact hne rfl
    have hheader : "Bearer " ++ JwtProvider.generateToken jwt config p ≠ "" := by
      intro h
      rw [h] at htoken
      cases htoken
    refine ⟨{ authorization := some ("Bearer " ++ JwtProvider.generateToken jwt config p) }, _,
      { user := some (UserOrmRepository.toContext u) }, rfl, htoken, ?_, rfl⟩
    rw [result_call_bearer (truthy_of_ne hheader) rfl htoken,
      result_getCurrentUserFromToken.mpr ⟨hempty, p, id, u, hp, hid, hu, ha, rfl⟩]
    rfl

/-- **When the kinds are kept apart.** -/
theorem kindsSeparate_iff :
    KindsSeparate jwt config signature env db token ↔
      ¬ForeignToken jwt config env db token := by
  constructor
  · rintro h ⟨p, id, u, htoken, hfresh, hcomplete, hkind, hid, hu, ha⟩
    have hp := JwtProvider.decodePayload_eq_some.mpr ⟨htoken, hfresh, hcomplete⟩
    obtain ⟨p', hp', hkind'⟩ := h.authenticates (authenticates_iff.mpr ⟨p, id, u, hp, hid, hu, ha⟩)
    rw [hp] at hp'
    cases hp'
    exact hkind hkind'
  · intro h
    refine ⟨fun hauth => ?_, ?_, ?_⟩
    · obtain ⟨p, id, u, hp, hid, hu, ha⟩ := authenticates_iff.mp hauth
      refine ⟨p, hp, ?_⟩
      by_contra hkind
      obtain ⟨htoken, hfresh, hcomplete⟩ := JwtProvider.decodePayload_eq_some.mp hp
      exact h ⟨p, id, u, htoken, hfresh, hcomplete, hkind, hid, hu, ha⟩
    · rintro ⟨pair, hpair⟩
      exact absurd hpair (result_refresh_ne_ok _ _)
    · rintro - env' db' ⟨pair, hpair⟩
      exact absurd hpair (result_refresh_ne_ok _ _)

/-! ## A refresh token as bearer -/

/-- A configuration without secrets. -/
def plainConfig : JwtConfig := { secretKey := "key" }

/-- The payload of the refresh token that Ann gets at time 0. -/
def annsRefreshPayload : JwtPayload where
  tokenType := some .refreshToken
  exp := some 30
  iat := some 0
  jti := some ""
  userId := some 0
  lastLoginTime := some 0

/-- The middleware takes Ann's refresh token. -/
theorem not_kindsSeparate_annsRefreshPayload :
    ¬KindsSeparate .plain plainConfig .plain (.at 0) (contentOf [.user ann])
      (JwtProvider.generateToken .plain plainConfig annsRefreshPayload) := by
  intro h
  have hdecode : JwtProvider.decodePayload .plain plainConfig
      (JwtProvider.generateToken .plain plainConfig annsRefreshPayload) 0 =
      .ok (some annsRefreshPayload) :=
    JwtProvider.decodePayload_eq_some.mpr ⟨rfl, by decide, rfl⟩
  obtain ⟨p, hp, hkind⟩ := h.authenticates
    (authenticates_iff.mpr ⟨annsRefreshPayload, 0, ann, hdecode, rfl, by decide, rfl⟩)
  cases hdecode.symm.trans hp
  cases hkind

end ApiTemplate.Identity
