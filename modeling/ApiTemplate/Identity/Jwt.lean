import ApiTemplate.Identity.Repositories

/-!
# Tokens

`JwtProvider` over `PyJWT`, which is a parameter: `PyJwt` holds its two functions together with what
the code relies on, namely that a token is accepted exactly if it was signed and has not expired.
`PyJwt.plain` is one such pair of functions. A token whose `iat` is still to come, which the library
refuses too, is left out of account: no clock of a service gives one out before that second.
-/

namespace ApiTemplate.Identity

inductive JwtType
  | accessToken
  | refreshToken
  deriving DecidableEq, Repr

/-- `JwtPayload`, and the keyword arguments and JSON objects it is built from. Every caller passes
every key. -/
structure JwtPayload where
  tokenType : Option JwtType := none
  exp : Option ℤ := none
  iat : Option ℤ := none
  jti : Option String := none
  userId : Option Id := none
  lastLoginTime : Option Micros := none
  deriving DecidableEq, Repr

namespace JwtPayload

/-- `JwtPayload(**kwargs)`: no annotation is `Optional`, so an explicit `None` is refused. -/
def ofKwargs (kwargs : JwtPayload) : Except Exn JwtPayload :=
  if kwargs.tokenType.isSome && kwargs.exp.isSome && kwargs.iat.isSome && kwargs.jti.isSome &&
      kwargs.userId.isSome && kwargs.lastLoginTime.isSome then .ok kwargs
  else .error .validationError

/-- The token of this payload has not expired at `now`. -/
def Fresh (p : JwtPayload) (now : Micros) : Prop := ∃ e ∈ p.exp, now < e * 1000000

instance (p : JwtPayload) (now : Micros) : Decidable (p.Fresh now) :=
  inferInstanceAs (Decidable (∃ e ∈ p.exp, _))

/-- No field is missing. -/
def Complete (p : JwtPayload) : Prop := ofKwargs p = .ok p

instance (p : JwtPayload) : Decidable p.Complete :=
  inferInstanceAs (Decidable (ofKwargs p = .ok p))

theorem eq_of_ofKwargs {kwargs p : JwtPayload} (h : ofKwargs kwargs = .ok p) : p = kwargs := by
  unfold ofKwargs at h
  split at h
  · cases h
    rfl
  · cases h

end JwtPayload

structure JwtToken where
  accessToken : String
  refreshToken : String
  deriving DecidableEq, Repr

structure JwtConfig where
  secretKey : String
  algorithm : String := "HS256"
  accessTokenLifetime : ℤ := 3600
  refreshTokenLifetime : ℤ := 30

/-- The `PyJWT` library: `encode` signs, and `decode` accepts what was signed with the key and has
not expired. -/
structure PyJwt where
  encode : (key algorithm : String) → JwtPayload → String
  /-- `none` is an `InvalidTokenError`. -/
  decode : (key algorithm token : String) → (now : Micros) → Option JwtPayload
  decode_eq_some : ∀ key algorithm token now p,
    decode key algorithm token now = some p ↔ token = encode key algorithm p ∧ p.Fresh now
  /-- A compact serialization has no white space and is not empty. -/
  encode_ne : ∀ key algorithm p, (encode key algorithm p).toList ≠ []
  encode_isSpace : ∀ key algorithm p, ∀ c ∈ (encode key algorithm p).toList, isSpace c = false

/-! ## The provider -/

/-- What `payload_from_user` reads of a user object. -/
structure TokenUser where
  id : Id
  /-- `getattr(user, "last_login_time", None)`. -/
  lastLoginTime : Option Micros

def UserAuthDTO.tokenUser (u : UserAuthDTO) : TokenUser := ⟨u.id, u.lastLoginTime⟩

/-- The context user has no attribute `last_login_time`. -/
def UserOnContextDTO.tokenUser (u : UserOnContextDTO) : TokenUser := ⟨u.id, none⟩

namespace JwtProvider

variable (jwt : PyJwt) (config : JwtConfig)

def payloadFromUser (env : Env) (user : TokenUser) : JwtPayload where
  userId := some user.id
  lastLoginTime := user.lastLoginTime
  jti := some env.jti

/-- `time` is the reading of `time.time()`. -/
def getPayload (time : Micros) (expire : ℤ) (tokenType : JwtType) (kwargs : JwtPayload) :
    Except Exn JwtPayload :=
  let iat := epoch time
  let exp := iat + expire
  JwtPayload.ofKwargs { kwargs with iat := some iat, exp := some exp, tokenType := some tokenType }

def generateToken (payload : JwtPayload) : String :=
  jwt.encode config.secretKey config.algorithm payload

/-- Both payloads read the time; `n` readings were made before. -/
def forUser (env : Env) (n : ℕ) (user : TokenUser) : Except Exn JwtToken := do
  let userPayload := payloadFromUser env user
  let accessPayload ←
    getPayload (env.clock n) config.accessTokenLifetime .accessToken userPayload
  let refreshPayload ←
    getPayload (env.clock (n + 1)) config.refreshTokenLifetime .refreshToken userPayload
  pure
    { accessToken := generateToken jwt config accessPayload
      refreshToken := generateToken jwt config refreshPayload }

def decodePayload (token : String) (now : Micros) : Except Exn (Option JwtPayload) :=
  match jwt.decode config.secretKey config.algorithm token now with
  | none => .ok none
  | some decoded => (JwtPayload.ofKwargs decoded).map some

variable {jwt config}

/-- A user without `last_login_time` gets no token: the payload is refused. -/
theorem forUser_of_none {env : Env} {n : ℕ} {user : TokenUser} (h : user.lastLoginTime = none) :
    forUser jwt config env n user = .error .validationError := by
  unfold forUser getPayload payloadFromUser JwtPayload.ofKwargs
  simp only [h]
  rfl

variable (jwt config) in
theorem forUser_of_some (env : Env) (n : ℕ) (user : TokenUser) {t : Micros}
    (h : user.lastLoginTime = some t) :
    ∃ token, forUser jwt config env n user = .ok token := by
  unfold forUser getPayload payloadFromUser JwtPayload.ofKwargs
  simp only [h]
  exact ⟨_, rfl⟩

/-- **Decoding.** A token decodes exactly if it was signed, has not expired and lacks no field. -/
theorem decodePayload_eq_some {token : String} {now : Micros} {p : JwtPayload} :
    decodePayload jwt config token now = .ok (some p) ↔
      token = generateToken jwt config p ∧ p.Fresh now ∧ p.Complete := by
  unfold decodePayload
  constructor
  · intro h
    cases hd : jwt.decode config.secretKey config.algorithm token now with
    | none =>
      rw [hd] at h
      cases h
    | some decoded =>
      rw [hd] at h
      dsimp only at h
      cases hk : JwtPayload.ofKwargs decoded with
      | error e =>
        rw [hk] at h
        cases h
      | ok p' =>
        rw [hk] at h
        cases h
        obtain rfl := JwtPayload.eq_of_ofKwargs hk
        obtain ⟨htoken, hfresh⟩ := (jwt.decode_eq_some _ _ _ _ _).mp hd
        exact ⟨htoken, hfresh, hk⟩
  · rintro ⟨htoken, hfresh, hk⟩
    rw [(jwt.decode_eq_some _ _ _ _ p).mpr ⟨htoken, hfresh⟩]
    dsimp only
    rw [hk]
    rfl

end JwtProvider

/-! ## A transparent token -/

namespace PyJwt

/-- The numbers a token shows, each as a run of `a`s with a dot behind. -/
def showNumbers (ns : List ℕ) : List Char := ns.flatMap fun n => List.replicate n 'a' ++ ['.']

/-- Read the numbers back, `n` having been counted already. -/
def readNumbers (n : ℕ) : List Char → List ℕ
  | [] => []
  | c :: cs => if c = '.' then n :: readNumbers 0 cs else readNumbers (n + 1) cs

theorem readNumbers_replicate (n k : ℕ) (cs : List Char) :
    readNumbers k (List.replicate n 'a' ++ '.' :: cs) = (k + n) :: readNumbers 0 cs := by
  induction n generalizing k with
  | zero => rfl
  | succ n ih =>
    rw [List.replicate_succ, List.cons_append, readNumbers, if_neg (by decide), ih]
    congr 1
    omega

theorem readNumbers_showNumbers (ns : List ℕ) : readNumbers 0 (showNumbers ns) = ns := by
  induction ns with
  | nil => rfl
  | cons n ns ih =>
    change readNumbers 0 ((List.replicate n 'a' ++ ['.']) ++ showNumbers ns) = _
    rw [List.append_assoc]
    change readNumbers 0 (List.replicate n 'a' ++ '.' :: showNumbers ns) = _
    rw [readNumbers_replicate, ih, Nat.zero_add]

/-- An integer as a number. -/
def ofInt : ℤ → ℕ
  | .ofNat n => 2 * n
  | .negSucc n => 2 * n + 1

def toInt (n : ℕ) : ℤ := if n % 2 = 0 then .ofNat (n / 2) else .negSucc (n / 2)

theorem toInt_ofInt (i : ℤ) : toInt (ofInt i) = i := by
  unfold toInt
  cases i with
  | ofNat n =>
    rw [ofInt, if_pos (by omega)]
    congr 1
    omega
  | negSucc n =>
    rw [ofInt, if_neg (by omega)]
    congr 1
    omega

def ofOption {α : Type} (f : α → ℕ) : Option α → ℕ
  | none => 0
  | some a => f a + 1

def toOption {α : Type} (f : ℕ → α) : ℕ → Option α
  | 0 => none
  | n + 1 => some (f n)

theorem toOption_ofOption {α : Type} {f : α → ℕ} {g : ℕ → α} (h : ∀ a, g (f a) = a)
    (x : Option α) : toOption g (ofOption f x) = x := by
  cases x with
  | none => rfl
  | some a => exact congrArg some (h a)

def ofType : JwtType → ℕ
  | .accessToken => 0
  | .refreshToken => 1

def toType (n : ℕ) : JwtType := if n = 0 then .accessToken else .refreshToken

theorem toType_ofType (t : JwtType) : toType (ofType t) = t := by cases t <;> rfl

/-- The numbers of a payload; the characters of `jti` come last. -/
def numbers (p : JwtPayload) : List ℕ :=
  [ofOption ofType p.tokenType, ofOption ofInt p.exp, ofOption ofInt p.iat, ofOption id p.userId,
    ofOption ofInt p.lastLoginTime] ++
  match p.jti with
  | none => []
  | some jti => 0 :: jti.toList.map Char.toNat

def ofNumbers : List ℕ → Option JwtPayload
  | tokenType :: exp :: iat :: userId :: lastLoginTime :: rest => some
    { tokenType := toOption toType tokenType
      exp := toOption toInt exp
      iat := toOption toInt iat
      userId := toOption id userId
      lastLoginTime := toOption toInt lastLoginTime
      jti := match rest with
        | [] => none
        | _ :: cs => some (String.ofList (cs.map Char.ofNat)) }
  | _ => none

theorem ofNumbers_numbers (p : JwtPayload) : ofNumbers (numbers p) = some p := by
  obtain ⟨tokenType, exp, iat, jti, userId, lastLoginTime⟩ := p
  have hid : toOption id (ofOption id userId) = userId := toOption_ofOption (fun _ => rfl) userId
  cases jti with
  | none =>
    change some (JwtPayload.mk (toOption toType (ofOption ofType tokenType))
      (toOption toInt (ofOption ofInt exp)) (toOption toInt (ofOption ofInt iat)) none
      (toOption id (ofOption id userId)) (toOption toInt (ofOption ofInt lastLoginTime))) = _
    simp only [toOption_ofOption toType_ofType, toOption_ofOption toInt_ofInt, hid]
  | some jti =>
    have hchars : (jti.toList.map Char.toNat).map Char.ofNat = jti.toList := by
      rw [List.map_map]
      refine (List.map_congr_left fun c _ => ?_).trans (List.map_id' _)
      exact Char.ofNat_toNat c
    change some (JwtPayload.mk (toOption toType (ofOption ofType tokenType))
      (toOption toInt (ofOption ofInt exp)) (toOption toInt (ofOption ofInt iat))
      (some (String.ofList ((jti.toList.map Char.toNat).map Char.ofNat)))
      (toOption id (ofOption id userId)) (toOption toInt (ofOption ofInt lastLoginTime))) = _
    simp only [toOption_ofOption toType_ofType, toOption_ofOption toInt_ofInt, hid, hchars,
      String.ofList_toList]

def plainEncode (p : JwtPayload) : String := String.ofList (showNumbers (numbers p))

def plainDecode (token : String) (now : Micros) : Option JwtPayload :=
  (ofNumbers (readNumbers 0 token.toList)).filter fun p =>
    decide (token = plainEncode p ∧ p.Fresh now)

theorem plainDecode_eq_some {token : String} {now : Micros} {p : JwtPayload} :
    plainDecode token now = some p ↔ token = plainEncode p ∧ p.Fresh now := by
  unfold plainDecode
  rw [Option.filter_eq_some_iff, decide_eq_true_eq]
  constructor
  · exact fun h => h.2
  · rintro ⟨rfl, hfresh⟩
    refine ⟨?_, rfl, hfresh⟩
    unfold plainEncode
    rw [String.toList_ofList, readNumbers_showNumbers, ofNumbers_numbers]

/-- A token without secrecy, for runs on concrete inputs. -/
def plain : PyJwt where
  encode _ _ := plainEncode
  decode _ _ := plainDecode
  decode_eq_some _ _ _ _ _ := plainDecode_eq_some
  encode_ne _ _ p h := by
    unfold plainEncode showNumbers numbers at h
    rw [String.toList_ofList, List.flatMap_append, List.flatMap_cons] at h
    simp at h
  encode_isSpace _ _ p c hc := by
    unfold plainEncode showNumbers at hc
    rw [String.toList_ofList, List.mem_flatMap] at hc
    obtain ⟨n, -, hc⟩ := hc
    rcases List.mem_append.mp hc with hc | hc
    · rw [List.eq_of_mem_replicate hc]
      decide
    · rw [List.mem_singleton.mp hc]
      decide

end PyJwt

end ApiTemplate.Identity
