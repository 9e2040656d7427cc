import ApiTemplate.Identity.Isolation
import ApiTemplate.Identity.Revocation

/-!
# The routes of the identity API

A request passes `SessionDIMiddleware` and `AuthMiddleware`, then the dependencies of its route, and
the route sends a command. Who is named by the token of a request is settled by the request alone;
so what any number of concurrent requests do to an account can be told from who sent them.
-/

namespace ApiTemplate.Identity

open TxStore

/-! ## Requests -/

/-- The routes that send a command, with what is read of the path and the body. -/
inductive Route
  | register (data : RegisterCommand)
  | confirmEmail (data : ConfirmEmailCommand)
  | resendConfirmation (data : ResendEmailConfirmationCommand)
  | login (data : LoginCommand)
  | refresh (data : RefreshTokenCommand)
  | step1 (data : ForgotPasswordStep1Command)
  | step2 (data : ForgotPasswordStep2Command)
  | step3 (data : ForgotPasswordStep3Command)
  | updateMe (data : UserUpdateMeCommand)
  | changePassword (data : ChangePasswordCommand)
  | toggleStatus (id : Id)

/-- A request, and what is read from outside while it is served. -/
structure HttpRequest where
  env : Env
  headers : Request
  route : Route

/-- The user that the bearer token of a request names. -/
def HttpRequest.caller (d : Deployment) (q : HttpRequest) : Option Id :=
  match truthy q.headers.authorization, truthy q.headers.apiKey with
  | some authorization, none =>
    (bearerToken authorization).bind fun token =>
      match JwtProvider.decodePayload d.jwt d.config token (q.env.clock 0) with
      | .ok (some payload) => payload.userId
      | _ => none
  | _, _ => none

section

variable (d : Deployment) (signature : SignatureService)

/-- `SessionDIMiddleware`: the session is closed after the request, whatever comes of it. -/
def SessionDIMiddleware.call {α : Type} (app : Tx α) : Tx α :=
  app.onExit fun r => .step .rollback fun x => .done (x >>= fun _ => r)

/-- `mediator.send`, the answer apart. -/
def send (env : Env) (command : Command) : Tx Unit := HandlerCall.program d ⟨env, command⟩

/-- A route that depends on `user`. What it sends can take the user from the execution context. -/
def sendAs (env : Env) (state : RequestState) (command : Id → Command) : Tx Unit := do
  match ← Program.ofExcept (getCurrentUserFromRequest true false state) with
  | some user => send d env (command user.id)
  | none => pure ()

/-- The functions of the three controllers. -/
def Route.call (env : Env) (state : RequestState) : Route → Tx Unit
  | .register data => send d env (.register data)
  | .confirmEmail data => send d env (.confirmEmail data)
  | .resendConfirmation data => send d env (.resendEmailConfirmation data)
  | .login data => send d env (.login data)
  | .refresh data => send d env (.refreshToken data)
  | .step1 data => send d env (.forgotPasswordStep1 data)
  | .step2 data => send d env (.forgotPasswordStep2 data)
  | .step3 data => send d env (.forgotPasswordStep3 data)
  | .updateMe data => sendAs d env state fun userId => .userUpdateMe userId data
  | .changePassword data => sendAs d env state fun userId => .changePassword userId data
  | .toggleStatus id => sendAs d env state fun _ => .userToggleStatus ⟨id⟩

/-- A request on its way through the middlewares. -/
def HttpRequest.program (q : HttpRequest) : Tx Unit :=
  SessionDIMiddleware.call do
    let state ← AuthMiddleware.call d.jwt d.config signature q.env q.headers
    q.route.call d q.env state

end

/-! ## What a request may send -/

/-- The command that a request may send. -/
def HttpRequest.command (d : Deployment) (q : HttpRequest) : Option Command :=
  match q.route with
  | .register data => some (.register data)
  | .confirmEmail data => some (.confirmEmail data)
  | .resendConfirmation data => some (.resendEmailConfirmation data)
  | .login data => some (.login data)
  | .refresh data => some (.refreshToken data)
  | .step1 data => some (.forgotPasswordStep1 data)
  | .step2 data => some (.forgotPasswordStep2 data)
  | .step3 data => some (.forgotPasswordStep3 data)
  | .updateMe data => (q.caller d).map fun userId => .userUpdateMe userId data
  | .changePassword data => (q.caller d).map fun userId => .changePassword userId data
  | .toggleStatus id => (q.caller d).map fun _ => .userToggleStatus ⟨id⟩

/-- A request that sends nothing has the rights of a command that writes nothing. -/
def HttpRequest.call (d : Deployment) (q : HttpRequest) : HandlerCall :=
  ⟨q.env, (q.command d).getD (.refreshToken ⟨""⟩)⟩

theorem HttpRequest.call_command {d : Deployment} {q : HttpRequest} {c : Command}
    (h : q.command d = some c) : (q.call d).command = c := by
  show (q.command d).getD _ = c
  rw [h]
  rfl

section

variable {d : Deployment} {signature : SignatureService} {q : HttpRequest} {a : Rights schema}
  {F : Facts (Option String)}

/-- A token that is accepted names the user. -/
theorem entitled_getCurrentUserFromToken (jwt : PyJwt) (config : JwtConfig) (env : Env)
    (token : String) :
    Entitled addressPart a (getCurrentUserFromToken jwt config env token) F fun user _ =>
      ∃ payload, JwtProvider.decodePayload jwt config token (env.clock 0) = .ok (some payload) ∧
        payload.userId = some user.id := by
  unfold getCurrentUserFromToken
  split_ifs
  · trivial
  refine .ofExcept fun found hdecode => ?_
  cases found with
  | none => trivial
  | some payload =>
    dsimp only
    split
    · trivial
    · rename_i userId huser
      refine (entitled_selectOne _ UserOrmRepository.toContext).bind fun found G _ hfound => ?_
      cases found with
      | none => trivial
      | some user =>
        dsimp only
        split
        · trivial
        · obtain ⟨u, rfl, hid, -⟩ := hfound user rfl
          refine ⟨payload, hdecode, huser.trans (congrArg some ?_)⟩
          exact (beq_iff_eq.mp hid).symm

/-- The user a route gets is the one that the token names. -/
theorem entitled_authMiddleware :
    Entitled addressPart a (AuthMiddleware.call d.jwt d.config signature q.env q.headers) F
      fun state _ => ∀ user, getCurrentUserFromRequest true false state = .ok (some user) →
        q.caller d = some user.id := by
  unfold AuthMiddleware.call HttpRequest.caller
  cases truthy q.headers.authorization with
  | some authorization =>
    cases truthy q.headers.apiKey with
    | some apiKey => trivial
    | none =>
      dsimp only
      cases bearerToken authorization with
      | none => exact fun user huser => by cases huser
      | some token =>
        refine (entitled_getCurrentUserFromToken _ _ _ _).bind fun found G _ hfound => ?_
        intro user huser
        cases huser
        obtain ⟨payload, hdecode, hid⟩ := hfound
        show (match JwtProvider.decodePayload d.jwt d.config token (q.env.clock 0) with
          | .ok (some payload) => payload.userId
          | _ => none) = _
        rw [hdecode]
        exact hid
  | none =>
    cases truthy q.headers.apiKey with
    | none => exact fun user huser => by cases huser
    | some apiKey =>
      dsimp only
      cases b64decode apiKey with
      | none => trivial
      | some key =>
        have hreads : ReadsOnly (ApiKeyService.getWithOwner signature q.env key) :=
          (readsOnly_select _).bind fun _ => trivial
        refine (entitled_reads hreads).bind fun found G _ _ => ?_
        intro user huser
        cases found with
        | none => cases huser
        | some key => cases huser

theorem entitled_send {c : Command} (hc : (q.call d).command = c) :
    Entitled addressPart (q.call d).command.rights (send d q.env c) F fun _ _ => True := by
  rw [hc]
  exact (entitled_program d ⟨q.env, c⟩).of_subset (Set.empty_subset F)

theorem entitled_sendAs {state : RequestState} {command : Id → Command}
    (hstate : ∀ user, getCurrentUserFromRequest true false state = .ok (some user) →
      q.caller d = some user.id)
    (hcommand : ∀ userId, q.caller d = some userId → (q.call d).command = command userId) :
    Entitled addressPart (q.call d).command.rights (sendAs d q.env state command) F
      fun _ _ => True := by
  refine .ofExcept fun found hfound => ?_
  cases found with
  | none => trivial
  | some user => exact entitled_send (hcommand _ (hstate user hfound))

/-- **A request keeps to what it may send.** -/
theorem entitled_request (d : Deployment) (signature : SignatureService) (q : HttpRequest) :
    Entitled addressPart (q.call d).command.rights (q.program d signature) ∅ fun _ _ => True := by
  have hclose : ∀ r : Except Exn Unit, ∀ G : Facts (Option String),
      Entitled addressPart (q.call d).command.rights
        (.step .rollback fun x => .done (x >>= fun _ => r) : Tx Unit) G fun _ _ => True :=
    fun r G => .of_only ⟨trivial, fun _ => trivial⟩
  refine Entitled.onExit (Q := fun _ _ => True) ?_ (fun _ G _ _ => hclose _ G)
    fun _ G _ => hclose _ G
  refine entitled_authMiddleware.bind fun state G _ hstate => ?_
  have hpublic : ∀ c, q.command d = some c → Entitled addressPart (q.call d).command.rights
      (send d q.env c) G fun _ _ => True := fun c hc => entitled_send (HttpRequest.call_command hc)
  have hprotected : ∀ command : Id → Command, q.command d = (q.caller d).map command →
      Entitled addressPart (q.call d).command.rights (sendAs d q.env state command) G
        fun _ _ => True := by
    intro command hc
    refine entitled_sendAs hstate fun userId hcaller => HttpRequest.call_command ?_
    rw [hc, hcaller]
    rfl
  cases hroute : q.route with
  | updateMe | changePassword | toggleStatus =>
    exact hprotected _ (by rw [HttpRequest.command, hroute])
  | _ data => exact hpublic _ (by rw [HttpRequest.command, hroute])

end

/-! ## Accounts -/

/-- What some requests leave of an account. -/
structure KeptByRequests (d : Deployment) (requests : Set HttpRequest) (u v : UserRow) : Prop where
  id : v.id = u.id
  email : v.email = u.email
  isSuperuser : v.isSuperuser = u.isSuperuser
  dateJoined : v.dateJoined = u.dateJoined
  lastLoginTime : v.lastLoginTime = u.lastLoginTime
  emailConfirmed : u.emailConfirmed = true → v.emailConfirmed = true
  /-- The profile is edited with a token of its owner. -/
  profile : v.profile ≠ u.profile → ∃ q ∈ requests, q.caller d = some u.id ∧
    ∃ data, q.route = .updateMe data
  /-- The password is changed with a token of its owner, or reset under his address. -/
  password : v.password ≠ u.password → ∃ q ∈ requests,
    (q.caller d = some u.id ∧ ∃ data, q.route = .changePassword data) ∨
      ∃ data, q.route = .step3 data ∧ data.email = u.email
  /-- The standing is changed with a token of anybody, or by a confirmation of the address. -/
  standing : v.standing ≠ u.standing → ∃ q ∈ requests,
    ((q.caller d).isSome ∧ q.route = .toggleStatus u.id) ∨
      ∃ data, q.route = .confirmEmail data ∧ data.email = u.email

section

variable {d : Deployment} {q : HttpRequest} {u v : UserRow}

/-- A command that a request sends is one it may send. -/
theorem HttpRequest.command_of_call {c : Command} (h : (q.call d).command = c)
    (hc : c ≠ .refreshToken ⟨""⟩) : q.command d = some c := by
  change (q.command d).getD _ = c at h
  cases hq : q.command d with
  | none =>
    rw [hq] at h
    exact absurd h.symm hc
  | some c' =>
    rw [hq] at h
    exact congrArg some h

/-- The route and the caller behind a command. -/
theorem HttpRequest.command_cases {c : Command} (h : q.command d = some c) :
    match c with
    | .userUpdateMe userId data => q.caller d = some userId ∧ q.route = .updateMe data
    | .changePassword userId data => q.caller d = some userId ∧ q.route = .changePassword data
    | .userToggleStatus message => (q.caller d).isSome ∧ q.route = .toggleStatus message.id
    | .confirmEmail data => q.route = .confirmEmail data
    | .forgotPasswordStep3 data => q.route = .step3 data
    | .register data => q.route = .register data
    | _ => True := by
  unfold HttpRequest.command at h
  cases hroute : q.route <;> rw [hroute] at h
  case updateMe | changePassword | toggleStatus =>
    obtain ⟨userId, hcaller, rfl⟩ := Option.map_eq_some_iff.mp h
    simp [hcaller]
  all_goals
    obtain rfl := Option.some.inj h
    trivial

variable {τ : Type} {requests : τ → HttpRequest}

theorem keptByRequests (h : Kept (commandsOf fun t => (requests t).call d) u v) :
    KeptByRequests d (Set.range requests) u v where
  id := h.id
  email := h.email
  isSuperuser := h.isSuperuser
  dateJoined := h.dateJoined
  lastLoginTime := h.lastLoginTime
  emailConfirmed := h.emailConfirmed
  profile hne := by
    obtain ⟨c, ⟨t, hc⟩, hedits⟩ := h.profile hne
    cases c with
    | userUpdateMe userId data =>
      obtain rfl : userId = u.id := hedits
      obtain ⟨hcaller, hroute⟩ :=
        HttpRequest.command_cases (HttpRequest.command_of_call hc (by simp))
      exact ⟨_, ⟨t, rfl⟩, hcaller, data, hroute⟩
    | _ => exact hedits.elim
  password hne := by
    obtain ⟨c, ⟨t, hc⟩, hsets⟩ := h.password hne
    cases c with
    | changePassword userId data =>
      obtain rfl : userId = u.id := hsets
      obtain ⟨hcaller, hroute⟩ :=
        HttpRequest.command_cases (HttpRequest.command_of_call hc (by simp))
      exact ⟨_, ⟨t, rfl⟩, .inl ⟨hcaller, data, hroute⟩⟩
    | forgotPasswordStep3 data =>
      have hroute := HttpRequest.command_cases (HttpRequest.command_of_call hc (by simp))
      exact ⟨_, ⟨t, rfl⟩, .inr ⟨data, hroute, hsets⟩⟩
    | _ => exact hsets.elim
  standing hne := by
    obtain ⟨c, ⟨t, hc⟩, hchanges⟩ := h.standing hne
    cases c with
    | userToggleStatus message =>
      obtain ⟨hcaller, hroute⟩ :=
        HttpRequest.command_cases (HttpRequest.command_of_call hc (by simp))
      rw [show message.id = u.id from hchanges] at hroute
      exact ⟨_, ⟨t, rfl⟩, .inl ⟨hcaller, hroute⟩⟩
    | confirmEmail data =>
      have hroute := HttpRequest.command_cases (HttpRequest.command_of_call hc (by simp))
      exact ⟨_, ⟨t, rfl⟩, .inr ⟨data, hroute, hchanges⟩⟩
    | _ => exact hchanges.elim

variable [DecidableEq τ] {signature : SignatureService} {db : Content} {s s' : Sys schema τ Unit}
  {ok ok' : Sys schema τ Unit → Action τ → Prop}

theorem follows_requests
    (hs : Reach Sys.step ok (Sys.start db fun t => (requests t).program d signature) s)
    (hs' : Reach Sys.step ok' s s') :
    Follows (callRights fun t => (requests t).call d) s.store.base s'.store.base :=
  Sys.follows_of_reach preserves_address (fun t => entitled_request d signature (requests t)) hs hs'

variable (requests d signature) in
/-- **Who does what to an account.** Between two moments of any run of concurrent requests, however
their statements interleave and whatever fails: an account keeps its address and its privileges; its
profile has changed only if a request with a token of its owner edited it, its password only if such
a request changed it or one reset it under its address, and its standing only if a request with some
user's token toggled it or one confirmed its address. What is new was registered. -/
theorem requests_authorized
    (hs : Reach Sys.step ok (Sys.start db fun t => (requests t).program d signature) s)
    (hs' : Reach Sys.step ok' s s') :
    (∀ u ∈ users s.store.base, ∃ v ∈ users s'.store.base,
      KeptByRequests d (Set.range requests) u v) ∧
      ∀ v ∈ users s'.store.base, (∀ u ∈ users s.store.base, u.id ≠ v.id) →
        ∃ t data, (requests t).route = .register data ∧ v.email = data.email ∧
          v.isSuperuser = false := by
  have hf := follows_requests hs hs'
  refine ⟨fun u hu => ?_, fun v hv hnew => ?_⟩
  · obtain ⟨v, hv, hkept⟩ := exists_kept hf hu
    exact ⟨v, hv, keptByRequests hkept⟩
  · obtain ⟨⟨t, data, hcommand, hv⟩, -⟩ := exists_registered hf hv hnew
    have hroute := HttpRequest.command_cases (HttpRequest.command_of_call hcommand (by simp))
    exact ⟨t, data, hroute, hv⟩

end

/-- An access token of Ann's. -/
def annsAccessPayload : JwtPayload where
  tokenType := some .accessToken
  exp := some 30
  iat := some 0
  jti := some ""
  userId := some 0
  lastLoginTime := some 0

def annsHeader : String :=
  "Bearer " ++ JwtProvider.generateToken .plain { secretKey := "key" } annsAccessPayload

/-- Ann edits her profile with her token, and somebody tries to without one. -/
def annAndStranger : Bool → HttpRequest
  | true =>
    { env := .at 0
      headers := { authorization := some annsHeader }
      route := .updateMe { firstName := "Anne", lastName := "Lee" } }
  | false =>
    { env := .at 0, headers := {}, route := .updateMe { firstName := "Eve", lastName := "Lee" } }

def annAndStrangerStart : Sys schema Bool Unit :=
  .start (contentOf [.user ann]) fun t => (annAndStranger t).program .plain .plain

def annAndStrangerRun : Option (Sys schema Bool Unit) :=
  runActions Sys.step (fun _ _ => True) annAndStrangerStart
    ([true, false, true, true, true, true].map .exec)

theorem isSome_annAndStrangerRun : annAndStrangerRun.isSome := by decide +kernel

/-- One of the two requests has Ann's token. -/
theorem requests_authorized_annAndStranger :
    (∃ v ∈ users (annAndStrangerRun.get isSome_annAndStrangerRun).store.base,
      v.firstName = "Anne" ∧ v.email = ann.email) ∧
    ∃ t data, (annAndStranger t).caller .plain = some 0 ∧
      (annAndStranger t).route = .updateMe data := by
  have hann : ann ∈ users annAndStrangerStart.store.base := by decide +kernel
  have hnames : ∀ v ∈ users (annAndStrangerRun.get isSome_annAndStrangerRun).store.base,
      v.id = 0 → v.firstName = "Anne" := by decide +kernel
  have hrun : Reach Sys.step (fun _ _ => True) annAndStrangerStart
      (annAndStrangerRun.get isSome_annAndStrangerRun) :=
    Reach.of_runActions (Option.some_get _).symm
  have hstart : Reach Sys.step (fun _ _ => True) annAndStrangerStart annAndStrangerStart := .refl
  generalize annAndStrangerRun.get isSome_annAndStrangerRun = s at hnames hrun ⊢
  obtain ⟨v, hv, hkept⟩ := (requests_authorized .plain annAndStranger .plain hstart hrun).1 ann hann
  have hname := hnames v hv hkept.id
  refine ⟨⟨v, hv, hname, hkept.email⟩, ?_⟩
  have hprofile : v.profile ≠ ann.profile := by
    intro h
    have hfirst : v.firstName = ann.firstName := by
      injection h with hcolumns
      injection hcolumns with hfirst
      exact Option.some.inj hfirst
    rw [hname] at hfirst
    exact absurd hfirst (by decide)
  obtain ⟨q, ⟨t, rfl⟩, hcaller, data, hroute⟩ := hkept.profile hprofile
  exact ⟨t, data, hcaller, hroute⟩

end ApiTemplate.Identity
