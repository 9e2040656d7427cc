import ApiTemplate.Fallible.Results
import ApiTemplate.Identity.AuthService
import ApiTemplate.Identity.HttpApi
import ApiTemplate.Identity.TokenKinds

/-!
# The life of a token

`last_login_time` goes into every token, and no handler sets it. So the accounts that get tokens are
those that had one from the start. What they get lasts until it expires or the account is disabled,
whatever is requested meanwhile.
-/

namespace ApiTemplate.Identity

open TxStore

/-! ## Who gets a token -/

section

variable {τ : Type} [DecidableEq τ] {requests : τ → HttpRequest} {d : Deployment}
  {signature : SignatureService} {db : Content} {s : Sys schema τ Unit}
  {ok : Sys schema τ Unit → Action τ → Prop} {env : Env} {email password : String}
  {pair : JwtTokenDTO}

/-- Whose token a login answers with. -/
theorem exists_of_login
    (h : db.result (AuthService.login d.bcrypt d.jwt d.config env email password) =
      .ok (.ok pair)) :
    ∃ u t token, usersByEmail db email = [u] ∧ u.lastLoginTime = some t ∧
      JwtProvider.forUser d.jwt d.config env 0 ⟨u.id, some t⟩ = .ok token ∧
      pair = ⟨token.accessToken, token.refreshToken⟩ := by
  rw [result_login] at h
  cases hone : oneOrNone (usersByEmail db email) with
  | error e =>
    rw [hone] at h
    cases h
  | ok found =>
    rw [hone] at h
    cases found with
    | none => cases h
    | some u =>
      change loginAnswer d.bcrypt d.jwt d.config env password u = _ at h
      unfold loginAnswer at h
      split at h
      · cases hlogin : u.lastLoginTime with
        | none =>
          rw [JwtProvider.forUser_of_none hlogin] at h
          cases h
        | some t =>
          rw [hlogin] at h
          obtain ⟨token, htoken, hpair⟩ := Fallible.map_eq_ok.mp h
          cases hpair
          exact ⟨u, t, token, mem_of_oneOrNone hone, hlogin, htoken, rfl⟩
      · cases h

theorem eq_of_id {u v : UserRow} (hu : u ∈ users db) (hv : v ∈ users db) (hid : u.id = v.id) :
    u = v := by
  have hrow := mem_users.mp hu
  rw [hid, mem_users.mp hv] at hrow
  cases hrow
  rfl

theorem mem_of_usersByEmail {u : UserRow} (h : usersByEmail db email = [u]) :
    u ∈ users db ∧ u.email = email := by
  have hmem : u ∈ (users db).filter fun u => u.email == email := by
    rw [show (users db).filter (fun u => u.email == email) = [u] from h]
    exact List.mem_singleton_self u
  obtain ⟨hu, hemail⟩ := List.mem_filter.mp hmem
  exact ⟨hu, beq_iff_eq.mp hemail⟩

/-- **Who gets a token.** In every state that concurrent requests lead to, a login answers with a
pair only for an account that had a login time before them, and no refresh does. -/
theorem tokens_for_earlier_logins
    (hs : Reach Sys.step ok (Sys.start db fun t => (requests t).program d signature) s) :
    (∀ env email password pair,
      s.store.base.result (AuthService.login d.bcrypt d.jwt d.config env email password) =
        .ok (.ok pair) → ∃ u ∈ users db, u.email = email ∧ u.lastLoginTime ≠ none) ∧
      ∀ env token pair,
        s.store.base.result (AuthService.refresh d.jwt d.config env token) ≠ .ok (.ok pair) := by
  have hf : Follows (callRights fun t => (requests t).call d) db s.store.base :=
    follows_requests (.refl : Reach Sys.step ok _ _) hs
  refine ⟨fun env email password pair h => ?_, fun env token pair => result_refresh_ne_ok token pair⟩
  obtain ⟨v, t, -, hv, hlogin, -⟩ := exists_of_login h
  obtain ⟨hmem, rfl⟩ := mem_of_usersByEmail hv
  by_cases hold : ∃ u ∈ users db, u.id = v.id
  · obtain ⟨u, hu, hid⟩ := hold
    obtain ⟨w, hw, hkept⟩ := exists_kept hf hu
    obtain rfl : w = v := eq_of_id hw hmem (hkept.id.trans hid)
    refine ⟨u, hu, hkept.email.symm, ?_⟩
    rw [← hkept.lastLoginTime, hlogin]
    exact Option.some_ne_none t
  · have hnew := (exists_registered hf hmem fun u hu hid => hold ⟨u, hu, hid⟩).2
    rw [hlogin] at hnew
    cases hnew

end

/-- Bob signs up on an empty table. -/
def bobSignsUp : Unit → HttpRequest := fun _ =>
  { env := .at 0
    headers := {}
    route := .register
      { email := "bob@example.com", password := "secret123", firstName := "Bob", lastName := "Ray" } }

def bobSignsUpRun : Option (Sys schema Unit Unit) :=
  runActions Sys.step (fun _ _ => True)
    (Sys.start Db.empty fun t => (bobSignsUp t).program .plain .plain) (List.replicate 11 (.exec ()))

theorem isSome_bobSignsUpRun : bobSignsUpRun.isSome := by decide +kernel

/-- He is stored, and gets no token. -/
theorem tokens_for_earlier_logins_bobSignsUp :
    ((users (bobSignsUpRun.get isSome_bobSignsUpRun).store.base).map (·.email)) =
        ["bob@example.com"] ∧
      ∀ env password pair, (bobSignsUpRun.get isSome_bobSignsUpRun).store.base.result
        (AuthService.login Deployment.plain.bcrypt Deployment.plain.jwt Deployment.plain.config env
          "bob@example.com" password) ≠ .ok (.ok pair) := by
  have hstored : ((users (bobSignsUpRun.get isSome_bobSignsUpRun).store.base).map (·.email)) =
      ["bob@example.com"] := by decide +kernel
  have hrun : Reach Sys.step (fun _ _ => True)
      (Sys.start Db.empty fun t => (bobSignsUp t).program .plain .plain)
      (bobSignsUpRun.get isSome_bobSignsUpRun) := Reach.of_runActions (Option.some_get _).symm
  refine ⟨hstored, fun env password pair h => ?_⟩
  generalize bobSignsUpRun.get isSome_bobSignsUpRun = s at hrun h
  obtain ⟨u, hu, -⟩ := (tokens_for_earlier_logins hrun).1 env _ _ _ h
  exact absurd hu List.not_mem_nil

/-! ## How long a token lasts -/

/-- Payloads that expire are told apart by their tokens: before both expire, a token decodes to
either. -/
theorem PyJwt.encode_inj (jwt : PyJwt) {key algorithm : String} {p p' : JwtPayload} {e e' : ℤ}
    (hp : p.exp = some e) (hp' : p'.exp = some e')
    (h : jwt.encode key algorithm p = jwt.encode key algorithm p') : p = p' := by
  obtain ⟨now, hnow, hnow'⟩ : ∃ now : ℤ, now < e * 1000000 ∧ now < e' * 1000000 :=
    ⟨min e e' * 1000000 - 1, by omega, by omega⟩
  have hdecode := (jwt.decode_eq_some key algorithm _ now p).mpr ⟨rfl, e, hp, hnow⟩
  have hdecode' := (jwt.decode_eq_some key algorithm _ now p').mpr ⟨h, e', hp', hnow'⟩
  exact Option.some.inj (hdecode.symm.trans hdecode')

/-- What the access token of a login says. -/
def accessPayload (config : JwtConfig) (env : Env) (userId : Id) (t : Micros) : JwtPayload where
  tokenType := some .accessToken
  exp := some (epoch (env.clock 0) + config.accessTokenLifetime)
  iat := some (epoch (env.clock 0))
  jti := some env.jti
  userId := some userId
  lastLoginTime := some t

theorem accessToken_eq {jwt : PyJwt} {config : JwtConfig} {env : Env} {userId : Id} {t : Micros}
    {token : JwtToken} (h : JwtProvider.forUser jwt config env 0 ⟨userId, some t⟩ = .ok token) :
    token.accessToken = JwtProvider.generateToken jwt config (accessPayload config env userId t) := by
  cases h
  rfl

section

variable {jwt : PyJwt} {config : JwtConfig} {signature : SignatureService} {env env' : Env}
  {db : Content}

/-- A request with a bearer token alone gets the user of the token. -/
theorem result_authenticate_bearer (p : JwtPayload) (allowApiKeyAccess : Bool)
    (user : UserOnContextDTO) :
    db.result (authenticate jwt config signature env true allowApiKeyAccess
        { authorization := some ("Bearer " ++ JwtProvider.generateToken jwt config p) }) =
      .ok (some user) ↔
    db.result (getCurrentUserFromToken jwt config env (JwtProvider.generateToken jwt config p)) =
      .ok user := by
  have hbearer : bearerToken ("Bearer " ++ JwtProvider.generateToken jwt config p) =
      some (JwtProvider.generateToken jwt config p) :=
    bearerToken_bearer (jwt.encode_ne _ _ _) (jwt.encode_isSpace _ _ _)
  have hheader : "Bearer " ++ JwtProvider.generateToken jwt config p ≠ "" := by
    intro h
    rw [h] at hbearer
    cases hbearer
  rw [result_authenticate, result_call_bearer (truthy_of_ne hheader) rfl hbearer]
  cases db.result (getCurrentUserFromToken jwt config env _) with
  | error e => exact ⟨nofun, nofun⟩
  | ok found =>
    show Except.ok (some found) = Except.ok (some user) ↔ _
    constructor
    · intro h
      cases h
      rfl
    · intro h
      cases h
      rfl

variable {τ : Type} [DecidableEq τ] {requests : τ → HttpRequest} {d : Deployment}
  {s : Sys schema τ Unit} {ok : Sys schema τ Unit → Action τ → Prop} {email password : String}
  {pair : JwtTokenDTO}

variable (signature) in
/-- **How long a token lasts.** After a login, and in every state that concurrent requests lead to
from there, a request whose clock is not behind the second of the login is authenticated by the
access token exactly if its user is active and the token has not expired: neither a change nor a
reset of the password ends it. -/
theorem access_token_lasts
    (hlogin : db.result (AuthService.login d.bcrypt d.jwt d.config env email password) =
      .ok (.ok pair))
    (hs : Reach Sys.step ok (Sys.start db fun t => (requests t).program d signature) s) :
    ∃ u ∈ users s.store.base, u.email = email ∧ ∀ env' allowApiKeyAccess user,
      epoch (env.clock 0) * 1000000 ≤ env'.clock 0 →
      (s.store.base.result (authenticate d.jwt d.config signature env' true allowApiKeyAccess
        { authorization := some ("Bearer " ++ pair.accessToken) }) = .ok (some user) ↔
      user = UserOrmRepository.toContext u ∧ u.isActive = true ∧
        env'.clock 0 < (epoch (env.clock 0) + d.config.accessTokenLifetime) * 1000000) := by
  have hf : Follows (callRights fun t => (requests t).call d) db s.store.base :=
    follows_requests (.refl : Reach Sys.step ok _ _) hs
  obtain ⟨u₀, t, token, hu₀, -, htoken, rfl⟩ := exists_of_login hlogin
  obtain ⟨hmem, rfl⟩ := mem_of_usersByEmail hu₀
  obtain ⟨u, hu, hkept⟩ := exists_kept hf hmem
  have huser : user? s.store.base u₀.id = some u := by
    rw [← hkept.id]
    exact user?_eq_some.mpr (mem_users.mp hu)
  refine ⟨u, hu, hkept.email, fun env' allowApiKeyAccess user _ => ?_⟩
  rw [accessToken_eq htoken, result_authenticate_bearer, result_getCurrentUserFromToken]
  constructor
  · rintro ⟨-, p, id, v, hp, hid, hv, hactive, rfl⟩
    obtain ⟨hencode, ⟨e, he, hfresh⟩, -⟩ := JwtProvider.decodePayload_eq_some.mp hp
    obtain rfl := d.jwt.encode_inj rfl he hencode
    obtain rfl := Option.some.inj hid
    rw [huser] at hv
    obtain rfl := Option.some.inj hv
    obtain rfl := Option.some.inj he
    exact ⟨rfl, hactive, hfresh⟩
  · rintro ⟨rfl, hactive, hfresh⟩
    refine ⟨fun hempty => ?_, accessPayload d.config env u₀.id t, u₀.id, u, ?_, rfl, huser, hactive,
      rfl⟩
    · have hne := d.jwt.encode_ne d.config.secretKey d.config.algorithm
        (accessPayload d.config env u₀.id t)
      exact hne (String.toList_eq_nil_iff.mpr hempty)
    · exact JwtProvider.decodePayload_eq_some.mpr ⟨rfl, ⟨_, rfl, hfresh⟩, rfl⟩

end

/-- Ann is logged in. -/
theorem exists_annsPair : ∃ pair, (contentOf [.user ann]).result
    (AuthService.login Deployment.plain.bcrypt Deployment.plain.jwt Deployment.plain.config (.at 0)
      "ann@example.com" "secret") = .ok (.ok pair) := by
  obtain ⟨token, htoken⟩ := JwtProvider.forUser_of_some Deployment.plain.jwt
    Deployment.plain.config (.at 0) 0 ⟨ann.id, ann.lastLoginTime⟩ rfl
  have hann : usersByEmail (contentOf [.user ann]) "ann@example.com" = [ann] := by decide
  have hpassword : PasswordService.verifyPassword Deployment.plain.bcrypt "secret"
      (ann.password.getD "") = true := by decide
  refine ⟨⟨token.accessToken, token.refreshToken⟩, ?_⟩
  rw [result_login_of_right hann hpassword rfl rfl, htoken]
  rfl

/-- Her token is good for most of an hour, whatever becomes of her profile. -/
theorem access_token_lasts_annAndStranger :
    ∃ pair, ∃ u ∈ users (annAndStrangerRun.get isSome_annAndStrangerRun).store.base,
      u.email = "ann@example.com" ∧
        (annAndStrangerRun.get isSome_annAndStrangerRun).store.base.result
          (authenticate Deployment.plain.jwt Deployment.plain.config .plain (.at 3599000000) true
            false { authorization := some ("Bearer " ++ JwtTokenDTO.accessToken pair) }) =
              .ok (some (UserOrmRepository.toContext u)) := by
  have hactive : ∀ u ∈ users (annAndStrangerRun.get isSome_annAndStrangerRun).store.base,
      u.isActive = true := by decide +kernel
  have hrun : Reach Sys.step (fun _ _ => True)
      (Sys.start (contentOf [.user ann]) fun t => (annAndStranger t).program .plain .plain)
      (annAndStrangerRun.get isSome_annAndStrangerRun) :=
    Reach.of_runActions (Option.some_get _).symm
  obtain ⟨pair, hlogin⟩ := exists_annsPair
  generalize annAndStrangerRun.get isSome_annAndStrangerRun = s at hactive hrun ⊢
  obtain ⟨u, hu, hemail, hlasts⟩ := access_token_lasts .plain hlogin hrun
  have hlater : epoch 0 * 1000000 ≤ (3599000000 : ℤ) := by decide
  have hfresh : (3599000000 : ℤ) < (epoch 0 + 3600) * 1000000 := by decide
  exact ⟨pair, u, hu, hemail,
    (hlasts (.at 3599000000) false _ hlater).mpr ⟨rfl, hactive u hu, hfresh⟩⟩

end ApiTemplate.Identity
